/-
# Two-factor registrations match accounts

The two-factor provider and the directory are two systems.  They are meant to stay in
step: at the end of every request the users registered with the provider correspond
one to one to the stored accounts whose two-factor flag is set, each registered
under the account's id and phone.

A request calls the provider first and writes the directory after that, so that a write
that fails leaves the provider alone with the change.  And `update` decides by the
body and the account of the path what to tell the provider, while what is stored is
the body merged into the entry that the body names.

| change | what keeps the two in step |
| --- | --- |
| off | the body names the account of the path, says that the flag is off, and is written |
| on | the body names an account without registration, and is written with its phone |
| moved | the entry written has the flag, and its old registration is the one forgotten |
| none | the entry keeps flag, id and phone |
-/

import CloudOs.Lib.Correspondence
import CloudOs.Resources.AccountsEnds

namespace CloudOs

open Prog AccountsResource AccountDAO

namespace Accounts

variable {env : Env}

/-- A request that adds, updates or deletes an account, on a session. -/
inductive RegistrationRequest
  | addAccount (apiKey name : String) (request : Account)
  | update (apiKey name : String) (request : Account)
  | delete (apiKey name : String)

/-- The state after the request, however it ends. -/
def RegistrationRequest.step (env : Env) (w : World env.ctx) : RegistrationRequest → World env.ctx
  | .addAccount apiKey name request => AccountsResource.step env apiKey w (.addAccount name request)
  | .update apiKey name request => AccountsResource.step env apiKey w (.update name request)
  | .delete apiKey name => AccountsResource.step env apiKey w (.delete name)

/-- What is registered: the id, as a text, and the phone. -/
abbrev Registration := Option String × Option String

/-- The registration that an account wants. -/
def registration (a : Account) : Option Registration :=
  if a.isTwoFactor then some (a.getAuthId, a.getMobilePhone) else none

/-- The registration that the account under `dn` wants. -/
def wanted (dir : Directory env.ctx) (dn : String) : Option Registration :=
  (dir.accountAt dn).bind registration

/-- The registration of a user of the provider. -/
def TwoFactorUser.registration (u : TwoFactorUser) : Registration :=
  (some (toString u.id), u.mobilePhone)

/-- The registrations that the provider holds. -/
def held (users : List TwoFactorUser) : Set Registration :=
  {r | ∃ u ∈ users, TwoFactorUser.registration u = r}

/-- The text of an id that is sent to `deleteUser`. -/
def idText : Option ℤ → Option String
  | some (.ofNat n) => some (toString n)
  | _ => none

/-- The text of the id that `remove2factor` sends for the account. -/
def forgottenId (env : Env) (a : Account) : Option String := (sentId env a).elim none idText

/-- **Two-factor registrations match accounts**: the users have different ids and correspond
one to one to the accounts with the two-factor flag. -/
structure RegistrationsMatch (w : World env.ctx) : Prop where
  corresponds : Corresponds Prod.fst (wanted w.directory) (held w.twoFactorUsers)
  distinct : (w.twoFactorUsers.map TwoFactorUser.id).Nodup

/-- Every user is registered for exactly one account. -/
theorem RegistrationsMatch.owner {w : World env.ctx} (h : RegistrationsMatch w) {u : TwoFactorUser}
    (hu : u ∈ w.twoFactorUsers) :
    ∃! dn, wanted w.directory dn = some (TwoFactorUser.registration u) :=
  h.corresponds.existsUnique ⟨u, hu, rfl⟩

/-- The provider's next id is new. -/
def Fresh (w : World env.ctx) : Prop := ∀ u ∈ w.twoFactorUsers, u.id < w.nextAuthId

/-- An update of the stored account `e` is written whole, its first call being number `n`. -/
def WriteGoes (env : Env) (n : ℕ) (e account : Account) : Prop :=
  if Suspends e account then env.fails .ldap (n + 1) = false ∧ env.fails .ldap (n + 2) = false
  else env.fails .ldap n = false

instance (n : ℕ) (e account : Account) : Decidable (WriteGoes env n e account) := by
  unfold WriteGoes
  infer_instance

/-- No account, other than the one under `dn`, wants a registration of the id. -/
def OthersLack (dir : Directory env.ctx) (dn : String) (i : Option String) : Prop :=
  ∀ d ≠ dn, ∀ r, wanted dir d = some r → r.1 ≠ i

/-- An update past the guards keeps the two systems in step; `q` is the body as it is
written, and `n` the number of the call after those to the provider. -/
def UpdateInStep (w : World env.ctx) (name : String) (q found : Account) : Prop :=
  let n := w.calls + (change q found).calls
  match change q found with
  | .off => RemoveGoes env w.calls found → env.ctx.userDN q.name = env.ctx.userDN name ∧
      (q.getSingle .twoFactor).isSome = true ∧ WriteGoes env n found q
  | .on => RegisterGoes env w.calls q → ∃ e, w.directory.findAccount q.name = some e ∧
      e.isTwoFactor = false ∧ (q.getMobilePhone ≠ none ∨ e.getMobilePhone = none) ∧
        WriteGoes env n e q
  | .moved => q.getMobilePhone ≠ none → RemoveGoes env w.calls found →
      if RegisterGoes env (w.calls + 1) q then ∃ e, w.directory.findAccount q.name = some e ∧
        (e.merge q).isTwoFactor = true ∧ WriteGoes env n e q ∧
          (e.isTwoFactor = true → e.getAuthId = forgottenId env found) ∧
            OthersLack w.directory (env.ctx.userDN q.name) (forgottenId env found)
      else ∀ dn r, wanted w.directory dn = some r → r.1 ≠ forgottenId env found
  | .none => q.getMobilePhone ≠ none → ∀ e, w.directory.findAccount q.name = some e →
      WriteGoes env n e q → registration (e.merge q) = registration e

/-- The request keeps the two systems in step.

* `addAccount` registers only when the account is then added, and replaces no account
  that is registered.
* `delete` forgets no id that another account wants, and forgets that of an account that is
  registered only when the account is then deleted. -/
def InStep (w : World env.ctx) : RegistrationRequest → Prop
  | .addAccount apiKey _ request => ∀ admin, w.sessions apiKey = some admin →
      admin.isAdmin = true →
      if request.isTwoFactor then RegisterGoes env w.calls request →
        AddGoes env (afterPassword (w.calls + 1) request + 1) w.directory request.name ∧
          wanted w.directory (env.ctx.userDN request.name) = none
      else AddGoes env (afterPassword w.calls request + 1) w.directory request.name →
        wanted w.directory (env.ctx.userDN request.name) = none
  | .update apiKey name request => ∀ account found, Reaches w apiKey name request account found →
      UpdateInStep w name (asked account request) found
  | .delete apiKey name => ∀ admin d, DeletePasses w apiKey name admin →
      w.directory.findAccount name = some d → d.hasAuthId = true → RemoveGoes env w.calls d →
        OthersLack w.directory (env.ctx.userDN name) (forgottenId env d) ∧
          (d.isTwoFactor = true → env.fails .ldap (w.calls + 1) = false)

/-! ### What the two systems hold -/

@[simp] theorem registration_stored (a : Account) : registration a.stored = registration a := rfl

@[simp] theorem registration_setPassword (a : Account) (p : Option String) :
    registration (a.setPassword p) = registration a := by
  have hsingle : ∀ attr ≠ .password, (a.setPassword p).getSingle attr = a.getSingle attr :=
    fun attr hattr => a.getSingle_setPassword hattr p
  have hflag : (a.setPassword p).isTwoFactor = a.isTwoFactor := by
    rw [Account.isTwoFactor, hsingle _ (by decide), Account.isTwoFactor]
  rw [registration, registration, hflag, Account.getAuthId, Account.getMobilePhone,
    hsingle _ (by decide), hsingle _ (by decide)]
  rfl

theorem wanted_of_accountAt {dir : Directory env.ctx} {dn : String} {a : Account}
    (h : dir.accountAt dn = some a) : wanted dir dn = registration a := by
  rw [wanted, h]
  rfl

theorem wanted_of_findAccount {dir : Directory env.ctx} {n : String} {a : Account}
    (h : dir.findAccount n = some a) : wanted dir (env.ctx.userDN n) = registration a :=
  wanted_of_accountAt h

theorem wanted_putAccount (dir : Directory env.ctx) (a : Account) :
    wanted (dir.putAccount a)
      = Function.update (wanted dir) (env.ctx.userDN a.name) (registration a) := by
  funext dn
  rw [Function.update_apply, wanted, Directory.accountAt_putAccount]
  split_ifs <;> rfl

theorem wanted_eraseAccount (dir : Directory env.ctx) (dn : String) :
    wanted (dir.eraseAccount dn) = Function.update (wanted dir) dn none := by
  funext d
  rw [Function.update_apply, wanted, Directory.accountAt_eraseAccount]
  split_ifs <;> rfl

/-- `deleteUser` takes the registrations of one id. -/
theorem held_filter (users : List TwoFactorUser) (id : Option ℤ) :
    held (users.filter fun u => some (u.id : ℤ) ≠ id)
      = Corresponds.without Prod.fst (idText id) (held users) := by
  have hid : ∀ u : TwoFactorUser, some (u.id : ℤ) ≠ id ↔ some (toString u.id) ≠ idText id := by
    intro u
    rcases id with _ | ⟨n⟩ | ⟨n⟩
    · simp [idText]
    · have hiff : toString u.id = toString n ↔ u.id = n := toString_injective.eq_iff
      simp only [idText, ne_eq, Option.some.injEq, hiff]
      exact not_congr ⟨fun h => Int.ofNat.inj h, fun h => congrArg Int.ofNat h⟩
    · refine iff_of_true (fun h => ?_) (Option.some_ne_none _)
      exact absurd (Option.some.inj h) (by simp)
  ext r
  simp only [held, Corresponds.without, Set.mem_ofPred_eq, List.mem_filter, decide_eq_true_eq, hid]
  constructor
  · rintro ⟨u, ⟨hu, hne⟩, rfl⟩
    exact ⟨⟨u, hu, rfl⟩, hne⟩
  · rintro ⟨⟨u, hu, rfl⟩, hne⟩
    exact ⟨u, ⟨hu, hne⟩, rfl⟩

theorem held_cons (u : TwoFactorUser) (users : List TwoFactorUser) :
    held (u :: users) = insert (TwoFactorUser.registration u) (held users) := by
  ext r
  simp [held, eq_comm]

/-- The id that is sent for an account is the number that its id text prints. -/
theorem forgottenId_of_registered {a : Account} {id : Option ℤ} {n : ℕ}
    (hsent : sentId env a = some id) (ha : a.getAuthId = some (toString n)) :
    idText id = some (toString n) := by
  have hread : a.getAuthIdInt = safeNumber 32 (some (toString n)) := congrArg (safeNumber 32) ha
  rw [sentId, hread, safeNumber_toString] at hsent
  by_cases hrange : InRange 32 n
  · rw [if_pos hrange] at hsent
    dsimp only at hsent
    rw [if_neg (by simp)] at hsent
    obtain rfl := Option.some.inj hsent
    rfl
  · rw [if_neg hrange] at hsent
    exact absurd hsent (Option.some_ne_none id).symm

/-! ### The invariant -/

/-- The keys that want registrations, and the provider. -/
structure Matches (V : String → Option Registration) (users : List TwoFactorUser) (next : ℕ) :
    Prop where
  corresponds : Corresponds Prod.fst V (held users)
  distinct : (users.map TwoFactorUser.id).Nodup
  fresh : ∀ u ∈ users, u.id < next

/-- The state is matched, by what the directory wants and the provider holds. -/
def Matched (w : World env.ctx) : Prop :=
  Matches (wanted w.directory) w.twoFactorUsers w.nextAuthId

namespace Matches

variable {V : String → Option Registration} {users : List TwoFactorUser} {next : ℕ}

/-- An account that wants a registration is registered under a printed number. -/
theorem authId (h : Matches V users next) {dn : String} {r : Registration} (hr : V dn = some r) :
    ∃ n : ℕ, r.1 = some (toString n) := by
  obtain ⟨u, _, rfl⟩ := (h.corresponds.mem_iff r).2 ⟨dn, hr⟩
  exact ⟨u.id, rfl⟩

theorem without (h : Matches V users next) {W : String → Option Registration} {id : Option ℤ}
    (hW : Corresponds Prod.fst W (Corresponds.without Prod.fst (idText id) (held users))) :
    Matches W (users.filter fun u => some (u.id : ℤ) ≠ id) next :=
  ⟨held_filter users id ▸ hW, h.distinct.sublist (List.filter_sublist.map _), fun u hu =>
    h.fresh u (List.mem_filter.1 hu).1⟩

/-- `deleteUser` of an id that no account wants. -/
theorem forget (h : Matches V users next) {id : Option ℤ}
    (hid : ∀ dn r, V dn = some r → r.1 ≠ idText id) :
    Matches V (users.filter fun u => some (u.id : ℤ) ≠ id) next :=
  h.without (h.corresponds.forget hid)

/-- `deleteUser` of the id of an account that wants no registration any more. -/
theorem remove (h : Matches V users next) {id : Option ℤ} {dn : String} {r : Registration}
    (hr : V dn = some r) (hid : r.1 = idText id) :
    Matches (Function.update V dn none) (users.filter fun u => some (u.id : ℤ) ≠ id) next := by
  refine h.without ?_
  rw [← hid]
  exact h.corresponds.remove hr

/-- `addUser` for an account that wants a registration. -/
theorem add (h : Matches V users next) {dn : String} (hdn : V dn = none) (u : TwoFactorUser)
    (hu : u.id = next) : Matches (Function.update V dn (some (TwoFactorUser.registration u)))
      (u :: users) (next + 1) := by
  constructor
  · rw [held_cons]
    refine h.corresponds.add hdn fun s hs hid => ?_
    obtain ⟨v, hv, rfl⟩ := hs
    have hsame : v.id = u.id := toString_injective (Option.some.inj hid)
    exact absurd (h.fresh v hv) (by rw [hsame, hu]; exact lt_irrefl next)
  · rw [List.map_cons, List.nodup_cons]
    refine ⟨fun hmem => ?_, h.distinct⟩
    obtain ⟨v, hv, hid⟩ := List.mem_map.1 hmem
    exact absurd (h.fresh v hv) (by rw [hid, hu]; exact lt_irrefl next)
  · intro v hv
    rcases List.mem_cons.1 hv with rfl | hv
    · omega
    · exact Nat.lt_succ_of_lt (h.fresh v hv)

end Matches

/-- Nothing that is compared has changed. -/
theorem Matched.of_same {w t : World env.ctx} (h : Matched w)
    (hwanted : wanted t.directory = wanted w.directory) (hp : w.SameProvider t) : Matched t := by
  rw [Matched, hwanted, hp.twoFactorUsers, hp.nextAuthId]
  exact h

theorem Matched.of_matches {t v : World env.ctx}
    (h : Matches (wanted t.directory) v.twoFactorUsers v.nextAuthId) (hp : v.SameProvider t) :
    Matched t := by
  rw [Matched, hp.twoFactorUsers, hp.nextAuthId]
  exact h

/-- The registration of an account with the flag. -/
theorem registration_of_twoFactor {a : Account} (h : a.isTwoFactor = true) :
    registration a = some (a.getAuthId, a.getMobilePhone) := if_pos h

theorem registration_of_not_twoFactor {a : Account} (h : a.isTwoFactor = false) :
    registration a = none := if_neg (by rw [h]; exact Bool.false_ne_true)

/-- What an update does to the registrations that are wanted. -/
theorem wanted_updates {n : ℕ} {dir dir' : Directory env.ctx} {q : Account}
    {r : Except Exn Account} (h : Updates env n dir q r dir') :
    (wanted dir' = wanted dir ∧ ∀ e, dir.findAccount q.name = some e → ¬ WriteGoes env n e q) ∨
    ∃ e, dir.findAccount q.name = some e ∧ WriteGoes env n e q ∧ wanted dir'
      = Function.update (wanted dir) (env.ctx.userDN q.name) (registration (e.merge q)) := by
  have hput : ∀ {e a : Account}, dir.findAccount q.name = some e → a.name = e.name →
      wanted (dir.putAccount a)
        = Function.update (wanted dir) (env.ctx.userDN q.name) (registration a) := by
    intro e a he hname
    rw [wanted_putAccount, hname, Directory.userDN_of_accountAt he]
  cases h with
  | unknown stored =>
    exact Or.inl ⟨rfl, fun e he => absurd (stored.symm.trans he) (Option.some_ne_none e).symm⟩
  | @refused _ e stored keeps fails =>
    refine Or.inl ⟨rfl, fun e' he hgoes => ?_⟩
    obtain rfl := Option.some.inj (stored.symm.trans he)
    rw [WriteGoes, if_neg keeps, fails] at hgoes
    exact Bool.noConfusion hgoes
  | @writes e stored keeps goes =>
    exact Or.inr ⟨e, stored, by rw [WriteGoes, if_neg keeps]; exact goes, hput stored rfl⟩
  | @cannotSuspend _ e stored suspends fails =>
    refine Or.inl ⟨rfl, fun e' he hgoes => ?_⟩
    obtain rfl := Option.some.inj (stored.symm.trans he)
    rw [WriteGoes, if_pos suspends, fails] at hgoes
    exact Bool.noConfusion hgoes.1
  | @failsToSuspend _ e stored suspends changes fails =>
    refine Or.inl ⟨?_, fun e' he hgoes => ?_⟩
    · rw [hput stored (Account.setPassword_name _ _), registration_setPassword,
        ← wanted_of_findAccount stored, Function.update_eq_self]
    · obtain rfl := Option.some.inj (stored.symm.trans he)
      rw [WriteGoes, if_pos suspends, fails] at hgoes
      exact Bool.noConfusion hgoes.2
  | @suspends e stored suspends changes goes =>
    refine Or.inr ⟨e, stored, by rw [WriteGoes, if_pos suspends]; exact ⟨changes, goes⟩, ?_⟩
    rw [hput stored (suspended_name _ _ _), suspended, registration_setPassword]

/-- The new id does not decide whether an update suspends. -/
theorem writeGoes_setAuthIdInt (n m : ℕ) (e q : Account) :
    WriteGoes env n e (q.setAuthIdInt m) ↔ WriteGoes env n e q := by
  have hiff : Suspends e (q.setAuthIdInt m) ↔ Suspends e q := by
    rw [Suspends, Suspends, Account.setAuthIdInt_isSuspended]
  by_cases h : Suspends e q
  · rw [WriteGoes, WriteGoes, if_pos h, if_pos (hiff.2 h)]
  · rw [WriteGoes, WriteGoes, if_neg h, if_neg (mt hiff.1 h)]

/-- The merge of a body with a new id. -/
theorem registration_merge_setAuthIdInt {e q : Account} (n : ℕ)
    (hflag : (e.merge q).isTwoFactor = true)
    (hphone : q.getMobilePhone ≠ none ∨ e.getMobilePhone = none) :
    registration (e.merge (q.setAuthIdInt n)) = some (some (toString n), q.getMobilePhone) := by
  have hflag' : (e.merge (q.setAuthIdInt n)).isTwoFactor = true := by
    rw [← hflag]
    simp [Account.isTwoFactor, Account.setAuthIdInt]
  have hmerged : (e.merge (q.setAuthIdInt n)).getMobilePhone
      = q.getMobilePhone.or e.getMobilePhone := by
    simp [Account.getMobilePhone, Account.setAuthIdInt]
  have hid : (e.merge (q.setAuthIdInt n)).getAuthId = some (toString n) := by
    simp [Account.getAuthId, Account.setAuthIdInt]
  rw [registration_of_twoFactor hflag', hid, hmerged]
  rcases hphone with hphone | hphone
  · obtain ⟨phone, hphone⟩ := Option.ne_none_iff_exists'.1 hphone
    rw [hphone, Option.some_or]
  · rw [hphone, Option.or_none]

/-- A merge has the flag that the body says, or the one that the entry had. -/
theorem isTwoFactor_merge (e q : Account) : (e.merge q).isTwoFactor
    = if (q.getSingle .twoFactor).isSome then q.isTwoFactor else e.isTwoFactor := by
  simp only [Account.isTwoFactor, Account.getSingle_merge]
  cases q.getSingle .twoFactor <;> simp

theorem isTwoFactor_of_change_off {q found : Account} (h : change q found = .off) :
    q.isTwoFactor = false ∧ found.isTwoFactor = true := by
  unfold change at h
  split_ifs at h with hoff
  simpa using hoff

theorem isTwoFactor_of_change_on {q found : Account} (h : change q found = .on) :
    q.isTwoFactor = true ∧ found.isTwoFactor = false := by
  unfold change at h
  split_ifs at h with hoff hon
  simpa using hon

/-- A body that has the flag says so. -/
theorem isSome_of_isTwoFactor {q : Account} (h : q.isTwoFactor = true) :
    (q.getSingle .twoFactor).isSome = true := by
  cases hs : q.getSingle .twoFactor with
  | none => rw [Account.isTwoFactor, hs] at h; exact Bool.noConfusion h
  | some v => rfl

theorem forgottenId_eq {a : Account} {id : Option ℤ} (hsent : sentId env a = some id) :
    forgottenId env a = idText id := by
  rw [forgottenId, hsent]
  rfl

/-! ### One update -/

section Update

variable {w t v : World env.ctx} {name : String} {q found e : Account} {r : Except Exn Account}

/-- Turning the registration off. -/
theorem matched_off (hw : Matched w) {id : Option ℤ} (hfound : w.directory.findAccount name = some found)
    (hchange : change q found = .off) (hsent : sentId env found = some id)
    (hgo : BooksGo env w.calls q found) (hstep : UpdateInStep w name q found)
    (hupdates : Updates env (w.forgotten id).calls w.directory q r t.directory)
    (hprovider : (w.forgotten id).SameProvider t) : Matched t := by
  obtain ⟨hq, hflag⟩ := isTwoFactor_of_change_off hchange
  simp only [BooksGo, hchange] at hgo
  simp only [UpdateInStep, hchange] at hstep
  obtain ⟨hdn, hsays, hgoes⟩ := hstep hgo
  have hstored : w.directory.findAccount q.name = some found := by
    rw [Directory.findAccount_congr _ hdn, hfound]
  rcases wanted_updates hupdates with ⟨-, hfails⟩ | ⟨e, he, -, hwanted⟩
  · exact absurd hgoes (hfails found hstored)
  obtain rfl := Option.some.inj (hstored.symm.trans he)
  have hmerged : registration (found.merge q) = none := by
    refine registration_of_not_twoFactor ?_
    rw [isTwoFactor_merge, if_pos hsays, hq]
  have hwants := (wanted_of_findAccount hstored).trans (registration_of_twoFactor hflag)
  obtain ⟨n, hn⟩ := hw.authId hwants
  refine .of_matches (v := w.forgotten id) ?_ hprovider
  rw [hwanted, hmerged]
  exact hw.remove hwants (hn.trans (forgottenId_of_registered hsent hn).symm)

/-- Turning the registration on. -/
theorem matched_on (hw : Matched w) {code : String} (hchange : change q found = .on)
    (hgo : BooksGo env w.calls q found) (hstep : UpdateInStep w name q found)
    (hupdates : Updates env (w.registered q code).calls w.directory (q.setAuthIdInt w.nextAuthId) r
      t.directory)
    (hprovider : (w.registered q code).SameProvider t) : Matched t := by
  obtain ⟨hq, -⟩ := isTwoFactor_of_change_on hchange
  simp only [BooksGo, hchange] at hgo
  simp only [UpdateInStep, hchange] at hstep
  obtain ⟨e, he, hflag, hphone, hgoes⟩ := hstep hgo
  rcases wanted_updates hupdates with ⟨-, hfails⟩ | ⟨e', he', -, hwanted⟩
  · exact absurd ((writeGoes_setAuthIdInt _ _ _ _).2 hgoes) (hfails e he)
  obtain rfl := Option.some.inj (he.symm.trans he')
  have hmerged : (e.merge q).isTwoFactor = true := by
    rw [isTwoFactor_merge, if_pos (isSome_of_isTwoFactor hq), hq]
  rw [registration_merge_setAuthIdInt _ hmerged hphone] at hwanted
  have hwants := (wanted_of_findAccount he).trans (registration_of_not_twoFactor hflag)
  refine .of_matches (v := w.registered q code) ?_ hprovider
  rw [hwanted]
  exact hw.add hwants ⟨w.nextAuthId, q.getEmail, q.getMobilePhone, code⟩ rfl

/-- A new phone. -/
theorem matched_moved (hw : Matched w) {id : Option ℤ} {code : String}
    (hchange : change q found = .moved) (hsent : sentId env found = some id)
    (hgo : BooksGo env w.calls q found) (hstep : UpdateInStep w name q found)
    (hupdates : Updates env ((w.forgotten id).registered q code).calls w.directory
      (q.setAuthIdInt w.nextAuthId) r t.directory)
    (hprovider : ((w.forgotten id).registered q code).SameProvider t) : Matched t := by
  simp only [BooksGo, hchange] at hgo
  simp only [UpdateInStep, hchange] at hstep
  obtain ⟨hphone, hremoves, hregisters⟩ := hgo
  have hcond := hstep hphone hremoves
  rw [if_pos hregisters, forgottenId_eq hsent] at hcond
  obtain ⟨e, he, hflag, hgoes, hold, hothers⟩ := hcond
  rcases wanted_updates hupdates with ⟨-, hfails⟩ | ⟨e', he', -, hwanted⟩
  · exact absurd ((writeGoes_setAuthIdInt _ _ _ _).2 hgoes) (hfails e he)
  obtain rfl := Option.some.inj (he.symm.trans he')
  rw [registration_merge_setAuthIdInt _ hflag (Or.inl hphone)] at hwanted
  have hwants := wanted_of_findAccount he
  -- the provider forgets the id of the entry, or an id that no account wants
  have hforgotten : Matches (Function.update (wanted w.directory) (env.ctx.userDN q.name) none)
      (w.forgotten id).twoFactorUsers w.nextAuthId := by
    cases htwoFactor : e.isTwoFactor with
    | true =>
      rw [registration_of_twoFactor htwoFactor] at hwants
      exact hw.remove hwants (hold htwoFactor)
    | false =>
      rw [registration_of_not_twoFactor htwoFactor] at hwants
      rw [← hwants, Function.update_eq_self]
      refine hw.forget fun dn r hr => ?_
      by_cases hdn : dn = env.ctx.userDN q.name
      · rw [hdn] at hr
        exact absurd (hwants.symm.trans hr) (Option.some_ne_none r).symm
      · exact hothers dn hdn r hr
  refine .of_matches (v := (w.forgotten id).registered q code) ?_ hprovider
  have hadd := hforgotten.add (Function.update_self _ _ _)
    ⟨w.nextAuthId, q.getEmail, q.getMobilePhone, code⟩ rfl
  rw [Function.update_idem] at hadd
  rw [hwanted]
  exact hadd

/-- No change for the provider. -/
theorem matched_none (hw : Matched w) (hchange : change q found = .none)
    (hgo : BooksGo env w.calls q found) (hstep : UpdateInStep w name q found)
    (hupdates : Updates env w.calls w.directory q r t.directory) (hprovider : w.SameProvider t) :
    Matched t := by
  simp only [BooksGo, hchange] at hgo
  simp only [UpdateInStep, hchange] at hstep
  refine hw.of_same ?_ hprovider
  rcases wanted_updates hupdates with ⟨hsame, -⟩ | ⟨e, he, hgoes, hwanted⟩
  · exact hsame
  · rw [hwanted, hstep hgo e he hgoes, ← wanted_of_findAccount he, Function.update_eq_self]

theorem matched_update (hw : Matched w) {apiKey : String} {request : Account}
    (hstep : ∀ account found, Reaches w apiKey name request account found →
      UpdateInStep w name (asked account request) found)
    (h : Updating w apiKey name request t) : Matched t := by
  cases h with
  | refused same provider => exact hw.of_same (by rw [same.directory]) provider
  | @stops account found x reaches books =>
    have hcond := hstep account found reaches
    have hsame := books.same
    cases books with
    | stops _ provider => exact hw.of_same (by rw [hsame.directory]) provider
    | forgets change phone sent _ provider removes fails =>
      simp only [UpdateInStep, change] at hcond
      have hothers := hcond phone removes
      rw [if_neg fails, forgottenId_eq sent] at hothers
      refine .of_matches ?_ provider
      rw [hsame.directory]
      exact hw.forget hothers
  | @runs account found q r v reaches go books updates provider =>
    have hcond := hstep account found reaches
    cases books with
    | off change sent => exact matched_off hw reaches.found change sent go hcond updates provider
    | on change _ => exact matched_on hw change go hcond updates provider
    | moved change sent _ => exact matched_moved hw change sent go hcond updates provider
    | none change => exact matched_none hw change go hcond updates provider

end Update

/-! ### One addition, one deletion -/

theorem registration_created (n : ℕ) (q : Account) : registration (created env n q) = registration q := by
  have hsingle : ∀ attr, attr ≠ .password → attr ≠ .emailVerificationCode →
      attr ≠ .emailVerificationCodeCtime → (created env n q).getSingle attr = q.getSingle attr :=
    fun attr hpassword hcode hctime =>
      (getSingle_created n q hcode hctime).trans (getSingle_withPassword n q hpassword)
  have hflag : (created env n q).isTwoFactor = q.isTwoFactor := by
    rw [Account.isTwoFactor, hsingle _ (by decide) (by decide) (by decide), Account.isTwoFactor]
  rw [registration, registration, hflag, Account.getAuthId, Account.getMobilePhone,
    hsingle _ (by decide) (by decide) (by decide), hsingle _ (by decide) (by decide) (by decide)]
  rfl

theorem wanted_added {w t : World env.ctx} {n : ℕ} {q : Account} (h : Added w (created env n q) t) :
    wanted t.directory
      = Function.update (wanted w.directory) (env.ctx.userDN q.name) (registration q) := by
  have hput := wanted_putAccount w.directory (created env n q)
  rw [created_name, registration_created] at hput
  rw [← hput]
  funext dn
  rw [wanted, h.accountAt, wanted]

theorem afterPassword_setAuthIdInt (n m : ℕ) (request : Account) :
    afterPassword n (request.setAuthIdInt m) = afterPassword n request := by
  rw [afterPassword, Account.setAuthIdInt_hasPassword, afterPassword]

theorem matched_addAccount {w t : World env.ctx} (hw : Matched w) {apiKey name : String}
    {request : Account} (hstep : InStep w (.addAccount apiKey name request))
    (h : Adding w apiKey request t) : Matched t := by
  cases h with
  | refused same provider => exact hw.of_same (by rw [same.directory]) provider
  | fails session isAdmin asks refuses same provider =>
    have hcond := hstep _ session isAdmin
    cases asks with
    | registers twoFactor _ goes =>
      rw [if_pos twoFactor] at hcond
      rw [afterPassword_setAuthIdInt] at refuses
      exact absurd (hcond goes).1 refuses
    | nothing _ => exact hw.of_same (by rw [same.directory]) provider
  | adds session isAdmin asks goes added provider =>
    have hcond := hstep _ session isAdmin
    have hwanted := wanted_added (added.of_same .refl)
    cases asks with
    | @registers code twoFactor _ registers =>
      rw [if_pos twoFactor] at hcond
      have hflag : (request.setAuthIdInt w.nextAuthId).isTwoFactor = true := by
        rw [← twoFactor]
        simp [Account.isTwoFactor, Account.setAuthIdInt]
      have hregistration : registration (request.setAuthIdInt w.nextAuthId)
          = some (some (toString w.nextAuthId), request.getMobilePhone) := by
        rw [registration_of_twoFactor hflag]
        simp [Account.getAuthId, Account.getMobilePhone, Account.setAuthIdInt]
      refine .of_matches (v := w.registered request code) ?_ provider
      rw [hwanted, hregistration]
      exact hw.add (hcond registers).2
        ⟨w.nextAuthId, request.getEmail, request.getMobilePhone, code⟩ rfl
    | nothing twoFactor =>
      rw [if_neg (by rw [twoFactor]; exact Bool.false_ne_true)] at hcond
      refine hw.of_same ?_ provider
      rw [hwanted, registration_of_not_twoFactor twoFactor, ← hcond goes, Function.update_eq_self]

/-- An account that is registered has an id. -/
theorem hasAuthId_of_twoFactor {w : World env.ctx} (hw : Matched w) {n : String} {d : Account}
    (hd : w.directory.findAccount n = some d) (hflag : d.isTwoFactor = true) :
    ∃ m : ℕ, d.getAuthId = some (toString m) ∧ d.hasAuthId = true := by
  have hwants := (wanted_of_findAccount hd).trans (registration_of_twoFactor hflag)
  obtain ⟨m, hm⟩ := hw.authId hwants
  refine ⟨m, hm, ?_⟩
  rw [Account.hasAuthId, show d.getAuthId = some (toString m) from hm, empty_toString, Bool.not_false]

/-- The provider forgets an id that no other account wants. -/
theorem forget_of_othersLack {w : World env.ctx} (hw : Matched w) {n : String} {d : Account}
    {id : Option ℤ} (hd : w.directory.findAccount n = some d) (hflag : d.isTwoFactor = false)
    (hothers : OthersLack w.directory (env.ctx.userDN n) (idText id)) :
    Matches (wanted w.directory) (w.forgotten id).twoFactorUsers w.nextAuthId := by
  have hwants := (wanted_of_findAccount hd).trans (registration_of_not_twoFactor hflag)
  refine hw.forget fun dn r hr => ?_
  by_cases hdn : dn = env.ctx.userDN n
  · rw [hdn] at hr
    exact absurd (hwants.symm.trans hr) (Option.some_ne_none r).symm
  · exact hothers dn hdn r hr

theorem matched_delete {w t : World env.ctx} (hw : Matched w) {apiKey name : String}
    (hstep : InStep w (.delete apiKey name)) (h : Deleting w apiKey name t) : Matched t := by
  cases h with
  | refused same provider => exact hw.of_same (by rw [same.directory]) provider
  | unknown _ same provider => exact hw.of_same (by rw [same.directory]) provider
  | @fails admin d v passes stored forgets refuses same provider =>
    cases forgets with
    | nothing _ => exact hw.of_same (by rw [same.directory]) provider
    | removes hasAuthId sent goes =>
      obtain ⟨hothers, hdeletes⟩ := hstep admin d passes stored hasAuthId goes
      rw [forgottenId_eq sent] at hothers
      refine .of_matches ?_ provider
      rw [same.directory]
      refine forget_of_othersLack hw stored (Bool.eq_false_iff.2 fun hflag => ?_) hothers
      exact Bool.noConfusion ((hdeletes hflag).symm.trans refuses)
  | @deletes admin d v passes stored forgets directory provider =>
    have hwanted : wanted t.directory
        = Function.update (wanted w.directory) (env.ctx.userDN name) none := by
      rw [directory, wanted_eraseAccount]
    have hunregistered : d.isTwoFactor = false →
        Function.update (wanted w.directory) (env.ctx.userDN name) none = wanted w.directory := by
      intro hflag
      rw [← registration_of_not_twoFactor hflag, ← wanted_of_findAccount stored,
        Function.update_eq_self]
    cases forgets with
    | nothing hasAuthId =>
      have hflag : d.isTwoFactor = false := Bool.eq_false_iff.2 fun hflag => by
        obtain ⟨_, -, hhas⟩ := hasAuthId_of_twoFactor hw stored hflag
        exact Bool.noConfusion (hhas.symm.trans hasAuthId)
      exact hw.of_same (hwanted.trans (hunregistered hflag)) provider
    | @removes id hasAuthId sent goes =>
      obtain ⟨hothers, -⟩ := hstep admin d passes stored hasAuthId goes
      rw [forgottenId_eq sent] at hothers
      refine .of_matches ?_ provider
      rw [hwanted]
      cases hflag : d.isTwoFactor with
      | true =>
        obtain ⟨m, hm, -⟩ := hasAuthId_of_twoFactor hw stored hflag
        exact hw.remove ((wanted_of_findAccount stored).trans (registration_of_twoFactor hflag))
          (hm.trans (forgottenId_of_registered sent hm).symm)
      | false =>
        rw [hunregistered hflag]
        exact forget_of_othersLack hw stored hflag hothers

/-! ### Runs -/

theorem matched_step {w : World env.ctx} {request : RegistrationRequest} (hw : Matched w)
    (hstep : InStep w request) : Matched (request.step env w) := by
  cases request with
  | addAccount apiKey name request =>
    have hadding : Adding w apiKey request
        (RegistrationRequest.step env w (.addAccount apiKey name request)) :=
      Ends.after (addAccount_adding apiKey name request)
    exact matched_addAccount hw hstep hadding
  | update apiKey name request =>
    have hupdating : Updating w apiKey name request
        (RegistrationRequest.step env w (.update apiKey name request)) :=
      Ends.after (update_updating apiKey name request)
    exact matched_update hw hstep hupdating
  | delete apiKey name =>
    have hdeleting : Deleting w apiKey name
        (RegistrationRequest.step env w (.delete apiKey name)) :=
      Ends.after (delete_deleting apiKey name)
    exact matched_delete hw hstep hdeleting

/-- **Two-factor registrations match accounts** at the end of every run of requests that keep
the two systems in step. -/
theorem registrations_match (env : Env) (w : World env.ctx) (hw : RegistrationsMatch w)
    (hfresh : Fresh w) (requests : List RegistrationRequest)
    (hsteps : Runs.Meets (RegistrationRequest.step env) InStep w requests) :
    RegistrationsMatch (Runs.run (RegistrationRequest.step env) w requests) := by
  have hstart : Matched w := ⟨hw.corresponds, hw.distinct, hfresh⟩
  have hend := Runs.run_invariant (I := fun w : World env.ctx => Matched w)
    (fun _ _ => matched_step) hstart hsteps
  exact ⟨hend.corresponds, hend.distinct⟩

/-- An empty directory and a session of an admin. -/
def adminAlone : World Env.mock.ctx where
  sessions := Function.update (fun _ => none) "s" (some ((Account.new "root").setAdmin true))

/-- Bob, with a phone and the two-factor flag as given. -/
def bobOnPhone (phone : String) (twoFactor : Bool) : Account :=
  (((Account.new "bob").set .mobilePhone (some phone)).set .mobilePhoneCountryCode (some "1")).set
    .twoFactor (some (ldapBoolean twoFactor))

theorem registrationsMatch_adminAlone : RegistrationsMatch adminAlone where
  corresponds := ⟨fun _ => ⟨fun ⟨_, hu, _⟩ => absurd hu List.not_mem_nil, fun ⟨_, h⟩ =>
    absurd h (Option.some_ne_none _).symm⟩, fun h => absurd h (Option.some_ne_none _).symm⟩
  distinct := List.nodup_nil

/-- Bob is added with two factors, and then turns them off. -/
theorem registrations_match_bob : RegistrationsMatch (Runs.run (RegistrationRequest.step .mock)
    adminAlone [.addAccount "s" "bob" (bobOnPhone "1" true),
      .update "s" "bob" (bobOnPhone "1" false)]) := by
  refine registrations_match .mock adminAlone registrationsMatch_adminAlone
    (fun _ hu => absurd hu List.not_mem_nil) _ ⟨fun _ _ _ => ?_, fun account found hreaches => ?_,
      trivial⟩
  · rw [if_pos (by decide +kernel)]
    exact fun _ => ⟨⟨rfl, fun h => Bool.noConfusion h⟩, rfl⟩
  · have hstored : ((RegistrationRequest.step .mock adminAlone (.addAccount "s" "bob"
        (bobOnPhone "1" true))).directory.findAccount "bob").map Account.isTwoFactor = some true := by
      decide +kernel
    rw [hreaches.found] at hstored
    have hasked : (asked account (bobOnPhone "1" false)).isTwoFactor = false := by
      rw [asked_isTwoFactor]
      decide +kernel
    have hchange : change (asked account (bobOnPhone "1" false)) found = .off := by
      rw [change, hasked, Option.some.inj hstored]
      rfl
    simp only [UpdateInStep, hchange, asked_name]
    refine fun _ => ⟨rfl, ?_, ?_⟩
    · rw [asked_getSingle (by decide)]
      decide +kernel
    · unfold WriteGoes
      split_ifs
      · exact ⟨rfl, rfl⟩
      · rfl

/-- **A registration that is left behind.**  Bob turns two factors off, and then changes his
phone: the new phone is registered. -/
theorem registration_left_behind : RegistrationsMatch adminAlone ∧ Fresh adminAlone ∧
    ¬ RegistrationsMatch (Runs.run (RegistrationRequest.step .mock) adminAlone
      [.addAccount "s" "bob" (bobOnPhone "1" true), .update "s" "bob" (bobOnPhone "1" false),
        .update "s" "bob" (bobOnPhone "2" false)]) := by
  refine ⟨registrationsMatch_adminAlone, fun _ hu => absurd hu List.not_mem_nil, fun h => ?_⟩
  have hheld : (some "1", some "2") ∈ (Runs.run (RegistrationRequest.step .mock) adminAlone
      [.addAccount "s" "bob" (bobOnPhone "1" true), .update "s" "bob" (bobOnPhone "1" false),
        .update "s" "bob" (bobOnPhone "2" false)]).twoFactorUsers.map TwoFactorUser.registration := by
    decide +kernel
  have hoff : ∀ a ∈ (Runs.run (RegistrationRequest.step .mock) adminAlone
      [.addAccount "s" "bob" (bobOnPhone "1" true), .update "s" "bob" (bobOnPhone "1" false),
        .update "s" "bob" (bobOnPhone "2" false)]).directory.accounts.values,
      a.isTwoFactor = false := by decide +kernel
  obtain ⟨dn, hdn⟩ := (h.corresponds.mem_iff _).1 (List.mem_map.1 hheld)
  obtain ⟨a, ha, hwants⟩ := Option.bind_eq_some_iff.1 hdn
  have hnone := registration_of_not_twoFactor (hoff a (KeyedMap.mem_values_of_lookup _ ha))
  exact absurd (hnone.symm.trans hwants) (Option.some_ne_none _).symm

end Accounts

end CloudOs

/-
# A suspended account cannot log in

`authenticate` compares the password and does not look at the flag.  An account is
locked out because `update` gives it a random password when it is suspended, which
no one knows.  What is meant: no password that a request ever carried opens a
suspended account.

| call | when it lets someone in |
| --- | --- |
| `create` | the account is suspended from the start and has the password of the request |
| `update` | the account is and stays suspended, and the body carries a password |
| `setPassword` | the account is suspended and is not reactivated |
| `changePassword` | never: it asks for the old password |
| `delete` | never |
-/

import CloudOs.Dao.AccountDAO
import CloudOs.Lib.Runs

namespace CloudOs

open Prog AccountDAO

namespace Accounts

/-- A call of `AccountDAO`. -/
inductive CredentialOp
  | create (request : Account)
  | update (account : Account)
  | setPassword (account : Option Account) (newPassword : String)
  | changePassword (account : Option Account) (oldPassword newPassword : String)
  | delete (accountName : String)

/-- The state after the call, however it ends. -/
def CredentialOp.step (env : Env) (w : World env.ctx) : CredentialOp → World env.ctx
  | .create request => after (AccountDAO.create env request) w
  | .update account => after (AccountDAO.update env account) w
  | .setPassword account newPassword => after (AccountDAO.setPassword env account newPassword) w
  | .changePassword account oldPassword newPassword =>
      after (AccountDAO.changePassword env account oldPassword newPassword) w
  | .delete accountName => after (AccountDAO.delete env accountName) w

/-- The passwords that an account in a request carries. -/
def carried (a : Account) : List String := a.transientPassword.toList ++ a.get .password

/-- The passwords that a call carries. -/
def CredentialOp.supplies : CredentialOp → List String
  | .create request => carried request
  | .update account => carried account
  | .setPassword account newPassword => newPassword :: account.elim [] carried
  | .changePassword account oldPassword newPassword =>
      oldPassword :: newPassword :: account.elim [] carried
  | .delete _ => []

/-- The passwords that the calls carry. -/
def supplied (ops : List CredentialOp) : List String := ops.flatMap CredentialOp.supplies

variable {env : Env} {known : List String}

/-- The password attribute of the stored account `a` is `p`; an empty one opens nothing. -/
def Opens (a : Account) (p : String) : Prop := a.getSingle .password = some p ∧ p ≠ ""

/-- None of the passwords `known` opens a suspended account. -/
structure LockedOut (known : List String) (dir : Directory env.ctx) : Prop where
  wellStored : dir.WellStored
  out : ∀ dn a, dir.accountAt dn = some a → a.isSuspended = true → ∀ p ∈ known, ¬ Opens a p

/-- The call gives no suspended account a password that it carries, unless the directory
refuses the write. -/
def KeepsOut (w : World env.ctx) : CredentialOp → Prop
  | .create request => request.isSuspended = true → request.hasPassword = true →
      AddGoes env (w.calls + 1) w.directory request.name →
        empty (request.getSingle .password) = true
  | .update account => ∀ e, w.directory.findAccount account.name = some e → e.isSuspended = true →
      (e.merge account).isSuspended = true → env.fails .ldap w.calls = false →
        empty (account.getSingle .password) = true
  | .setPassword account newPassword => ∀ acc e, account = some acc →
      w.directory.findAccount acc.name = some e → e.isSuspended = true →
      env.fails .ldap w.calls = false → newPassword = "" ∨
        ((e.merge acc).isSuspended = false ∧ env.fails .ldap (w.calls + 1) = false)
  | _ => True

/-- What opens a stored account is its password attribute. -/
theorem opens_of_knows {a : Account} (ha : a.transientPassword = none) {p : String}
    (h : Knows a (some p)) : Opens a p := by
  have hpassword : a.getPassword = a.getSingle .password := by
    rw [Account.getPassword, ha]
    rfl
  refine ⟨hpassword ▸ h.2, fun hempty => ?_⟩
  have hhas := h.1
  rw [Account.hasPassword, h.2, hempty] at hhas
  exact Bool.noConfusion hhas

/-- The password attribute after `setPassword`. -/
theorem opens_setPassword {a : Account} {p q : String} (h : Opens (a.setPassword (some q)) p) :
    q = p := by
  unfold Account.setPassword at h
  dsimp only at h
  split_ifs at h with hempty
  · have hnone := h.1
    rw [Account.getSingle_remove, if_pos rfl] at hnone
    exact absurd hnone (Option.some_ne_none p).symm
  · have hsome := h.1
    rw [Account.getSingle_set, if_pos rfl] at hsome
    exact Option.some.inj hsome

/-- An empty password opens nothing. -/
theorem not_opens_of_empty {a : Account} (h : empty (a.getSingle .password) = true) (p : String) :
    ¬ Opens a p := by
  rintro ⟨hp, hne⟩
  rw [hp] at h
  exact hne (eq_of_beq h)

theorem not_opens_setPassword_empty (a : Account) (p : String) :
    ¬ Opens (a.setPassword (some "")) p := fun h => h.2 (opens_setPassword h).symm

theorem LockedOut.putAccount {dir : Directory env.ctx} (h : LockedOut known dir) {a : Account}
    (ha : a.isSuspended = true → ∀ p ∈ known, ¬ Opens a p) : LockedOut known (dir.putAccount a) := by
  refine ⟨h.wellStored.putAccount a, fun dn b hb => ?_⟩
  rw [Directory.accountAt_putAccount] at hb
  split_ifs at hb
  · obtain rfl := Option.some.inj hb
    exact ha
  · exact h.out dn b hb

theorem LockedOut.eraseAccount {dir : Directory env.ctx} (h : LockedOut known dir) (dn : String) :
    LockedOut known (dir.eraseAccount dn) := by
  refine ⟨h.wellStored.eraseAccount dn, fun d b hb => ?_⟩
  rw [Directory.accountAt_eraseAccount] at hb
  split_ifs at hb
  exact h.out d b hb

/-- A random password is not known. -/
theorem not_opens_random (hrandom : ∀ n, env.random n ∉ known) (n : ℕ) (a : Account) {p : String}
    (hp : p ∈ known) : ¬ Opens (a.setPassword (some (env.random n))) p := fun h =>
  hrandom n (opens_setPassword h ▸ hp)

/-- A merge leaves a suspended account without a known password when the body carries none. -/
theorem not_opens_merge {e account : Account} {p : String} (he : ¬ Opens e p)
    (haccount : empty (account.getSingle .password) = true) : ¬ Opens (e.merge account) p := by
  cases hpassword : account.getSingle .password with
  | none =>
    rintro ⟨hp, hne⟩
    rw [Account.getSingle_merge, hpassword, Option.none_or] at hp
    exact he ⟨hp, hne⟩
  | some q =>
    refine not_opens_of_empty ?_ p
    rw [Account.getSingle_merge, hpassword, Option.some_or, ← hpassword]
    exact haccount

/-- An update that is not to suspend leaves an active account active. -/
theorem isSuspended_of_merge {e account : Account} (hkeeps : ¬ Suspends e account)
    (h : (e.merge account).isSuspended = true) : e.isSuspended = true := by
  rw [(Account.overlaid_merge (a := e) account).takes.isSuspended] at h
  by_contra hactive
  rw [Bool.not_eq_true] at hactive
  split_ifs at h
  · exact hkeeps ⟨hactive, h⟩
  · rw [hactive] at h
    exact Bool.noConfusion h

/-- An update keeps everyone out who is out, if it carries no password for an account that
stays suspended. -/
theorem lockedOut_updates (hrandom : ∀ n, env.random n ∉ known) {n : ℕ}
    {dir dir' : Directory env.ctx} {account : Account} {r : Except Exn Account}
    (hdir : LockedOut known dir)
    (hkeeps : ∀ e, dir.findAccount account.name = some e → e.isSuspended = true →
      (e.merge account).isSuspended = true → env.fails .ldap n = false →
        empty (account.getSingle .password) = true)
    (h : Updates env n dir account r dir') : LockedOut known dir' := by
  cases h with
  | unknown _ => exact hdir
  | refused _ _ _ => exact hdir
  | cannotSuspend _ _ _ => exact hdir
  | @writes e stored keeps goes =>
    refine hdir.putAccount fun hsuspended p hp => ?_
    have he := isSuspended_of_merge keeps hsuspended
    exact not_opens_merge (hdir.out _ e stored he p hp) (hkeeps e stored he hsuspended goes)
  | failsToSuspend _ _ _ _ =>
    exact hdir.putAccount fun _ p hp => not_opens_random hrandom n _ hp
  | suspends _ _ _ _ =>
    exact hdir.putAccount fun _ p hp => not_opens_random hrandom n _ hp

/-- The body of the update in `setPassword` carries no password. -/
theorem empty_password_cleared (account : Account) :
    empty ((cleared account).getSingle .password) = true := by
  have hnone : (cleared account).getSingle .password = none := by
    unfold cleared Account.setPassword
    dsimp only
    rw [if_pos (show empty none = true from rfl), Account.getSingle_remove, if_pos rfl]
  rw [hnone]
  rfl

/-- The flag that an update in `setPassword` leaves is the one that the argument asks for. -/
theorem isSuspended_merge_cleared (e account : Account) (p : Option String) :
    ((e.setPassword p).stored.merge (cleared account)).isSuspended
      = (e.merge account).isSuspended := by
  simp only [Account.isSuspended, Account.getSingle_merge, Account.stored_getSingle, cleared,
    Account.getSingle_setPassword _ (show AccountAttr.suspended ≠ .password by decide),
    Account.clearResetPasswordToken, Account.getSingle_remove, reduceCtorEq, if_false]

/-- The update in `setPassword` of a suspended account, when it is written. -/
theorem updates_cleared {n : ℕ} {dir dir' : Directory env.ctx} {e account : Account}
    {p : Option String} {r : Except Exn Account}
    (hstored : dir.findAccount account.name = some e) (hsuspended : e.isSuspended = true)
    (hgoes : env.fails .ldap n = false)
    (h : Updates env n (dir.putAccount (e.setPassword p)) (cleared account) r dir') :
    dir' = dir.putAccount ((e.setPassword p).stored.merge (cleared account)) := by
  have hfound := Directory.findAccount_putAccount dir (e.setPassword p)
  have hname : (cleared account).name = account.name := by simp [cleared]
  have hdn : env.ctx.userDN (e.setPassword p).name = env.ctx.userDN (cleared account).name := by
    rw [Account.setPassword_name, hname, Directory.userDN_of_accountAt hstored]
  rw [Directory.findAccount_congr _ hdn] at hfound
  have hnot : ¬ Suspends (e.setPassword p).stored (cleared account) := by
    rintro ⟨h, -⟩
    rw [Account.stored_isSuspended, Account.setPassword_isSuspended, hsuspended] at h
    exact Bool.noConfusion h
  cases h with
  | unknown stored' => exact absurd (hfound.symm.trans stored') (Option.some_ne_none _)
  | refused _ _ fails => exact Bool.noConfusion (fails.symm.trans hgoes)
  | writes stored' _ _ =>
    obtain rfl := Option.some.inj (hfound.symm.trans stored')
    have hover : env.ctx.userDN (e.setPassword p).name
        = env.ctx.userDN ((e.setPassword p).stored.merge (cleared account)).name := rfl
    rw [Directory.putAccount_putAccount _ hover]
  | cannotSuspend stored' suspends _ =>
    exact absurd (Option.some.inj (hfound.symm.trans stored') ▸ suspends) hnot
  | failsToSuspend stored' suspends _ _ =>
    exact absurd (Option.some.inj (hfound.symm.trans stored') ▸ suspends) hnot
  | suspends stored' suspends _ _ =>
    exact absurd (Option.some.inj (hfound.symm.trans stored') ▸ suspends) hnot

theorem lockedOut_setPassword (hrandom : ∀ n, env.random n ∉ known) {n : ℕ}
    {dir dir' : Directory env.ctx} {account : Account} {newPassword : String}
    (hdir : LockedOut known dir)
    (hkeeps : ∀ e, dir.findAccount account.name = some e → e.isSuspended = true →
      env.fails .ldap n = false → newPassword = "" ∨
        ((e.merge account).isSuspended = false ∧ env.fails .ldap (n + 1) = false))
    (h : SetsPassword env n dir account newPassword dir') : LockedOut known dir' := by
  cases h with
  | refused => exact hdir
  | @sets e r _ stored changes updates =>
    have hclosed : (e.isSuspended = true → newPassword = "") → LockedOut known dir' := by
      intro hempty
      refine lockedOut_updates hrandom (hdir.putAccount fun hsuspended p _ => ?_)
        (fun _ _ _ _ _ => empty_password_cleared account) updates
      rw [Account.setPassword_isSuspended] at hsuspended
      rw [hempty hsuspended]
      exact not_opens_setPassword_empty e p
    by_cases hsuspended : e.isSuspended = true
    · rcases hkeeps e stored hsuspended changes with hempty | ⟨hactive, hgoes⟩
      · exact hclosed fun _ => hempty
      · -- the argument reactivates the account, and the update writes that
        rw [updates_cleared stored hsuspended hgoes updates]
        refine hdir.putAccount fun h => ?_
        rw [isSuspended_merge_cleared, hactive] at h
        exact Bool.noConfusion h
    · exact hclosed fun h => absurd h hsuspended

theorem not_opens_created (hrandom : ∀ n, env.random n ∉ known) {n : ℕ} {request : Account}
    (hrequest : request.hasPassword = true → empty (request.getSingle .password) = true)
    {p : String} (hp : p ∈ known) : ¬ Opens (created env n request) p := by
  rw [Opens, getSingle_created _ _ (by decide) (by decide)]
  change ¬ Opens (withPassword env n request) p
  unfold withPassword
  split_ifs with hhas
  · exact not_opens_of_empty (hrequest hhas) p
  · exact not_opens_random hrandom n request hp

theorem lockedOut_step (hrandom : ∀ n, env.random n ∉ known) {w : World env.ctx} {op : CredentialOp}
    (hw : LockedOut known w.directory) (hknown : ∀ p ∈ op.supplies, p ∈ known)
    (hkeeps : KeepsOut w op) : LockedOut known (op.step env w).directory := by
  have hsame : ∀ {t : World env.ctx}, w.Same t → LockedOut known t.directory := fun hs =>
    hs.directory ▸ hw
  cases op with
  | create request =>
    refine Ends.after (P := fun t : World env.ctx => LockedOut known t.directory)
      ((create_creates request).mono fun r t ht => ?_)
    rcases ht with ⟨-, -, hs⟩ | ⟨hgoes, hadded, -⟩
    · exact hsame hs
    have hput : LockedOut known (w.directory.putAccount (created env w.calls request)) := by
      refine hw.putAccount fun hsuspended p hp => not_opens_created hrandom (fun hhas => ?_) hp
      rw [(madeFrom_created w.calls request).isSuspended] at hsuspended
      refine hkeeps hsuspended hhas ?_
      rwa [afterPassword, if_pos hhas] at hgoes
    exact ⟨fun dn a ha => hput.wellStored dn a (hadded.accountAt dn ▸ ha), fun dn a ha =>
      hput.out dn a (hadded.accountAt dn ▸ ha)⟩
  | update account =>
    refine Ends.after (P := fun t : World env.ctx => LockedOut known t.directory)
      ((update_updates account).mono fun r t ht => ?_)
    obtain ⟨dir, hupdates, hs⟩ := ht
    rw [hs.directory]
    exact lockedOut_updates hrandom hw hkeeps hupdates
  | setPassword account newPassword =>
    cases account with
    | none => exact hw
    | some acc =>
      refine Ends.after (P := fun t : World env.ctx => LockedOut known t.directory)
        ((setPassword_sets acc newPassword).mono fun r t ht => ?_)
      obtain ⟨dir, hsets, hs⟩ := ht
      rw [hs.directory]
      exact lockedOut_setPassword hrandom hw (fun e => hkeeps acc e rfl) hsets
  | changePassword account oldPassword newPassword =>
    refine Ends.after (P := fun t : World env.ctx => LockedOut known t.directory)
      ((changePassword_changes account oldPassword newPassword).mono fun r t ht => ?_)
    rcases ht with hs | ⟨acc, e, -, he, hknows, hs⟩
    · exact hsame hs
    -- the old password was given, so that the account is not suspended
    have hold := hknown oldPassword List.mem_cons_self
    rw [hs.directory]
    refine hw.putAccount fun hsuspended => ?_
    rw [Account.setPassword_isSuspended] at hsuspended
    exact absurd (opens_of_knows (hw.wellStored _ e he) hknows) (hw.out _ e he hsuspended _ hold)
  | delete accountName =>
    refine Ends.after (P := fun t : World env.ctx => LockedOut known t.directory)
      ((delete_ends accountName).mono fun r t ht => ?_)
    rcases ht with hs | ⟨-, hs⟩
    · exact hsame hs
    · exact hs.directory ▸ hw.eraseAccount _

/-- **Suspended accounts cannot log in**, in every run of calls that give no suspended
account a password that they carry: no password that the run carries logs in to an account
that is suspended at its end. -/
theorem suspended_locked_out (env : Env) (w : World env.ctx) (ops : List CredentialOp)
    (hrandom : ∀ n, env.random n ∉ supplied ops) (hw : LockedOut (supplied ops) w.directory)
    (hkeeps : Runs.Meets (CredentialOp.step env) KeepsOut w ops) (name password : String)
    (hpassword : password ∈ supplied ops) :
    Ends (AccountDAO.authenticate env ⟨name, some password⟩) (Runs.run (CredentialOp.step env) w ops)
      fun r _ => ∀ a, r = .ok a → a.isSuspended = false := by
  have hknown : ∀ op ∈ ops, ∀ p ∈ op.supplies, p ∈ supplied ops := fun op hop p hp =>
    List.mem_flatMap.2 ⟨op, hop, hp⟩
  have hend : LockedOut (supplied ops) (Runs.run (CredentialOp.step env) w ops).directory :=
    Runs.run_invariant (I := fun w : World env.ctx => LockedOut (supplied ops) w.directory)
      (fun _ _ hw hboth => lockedOut_step hrandom hw hboth.2 hboth.1) hw
      (hkeeps.and (Runs.meets_of_mem w hknown))
  refine (authenticate_ends _).mono fun r t ht a ha => ?_
  obtain ⟨hfound, hknows, -⟩ := ht.2.2 a ha
  by_contra hsuspended
  rw [Bool.not_eq_false] at hsuspended
  exact hend.out _ a hfound hsuspended password hpassword
    (opens_of_knows (hend.wellStored _ a hfound) hknows)

/-- Bob with a password of his own. -/
def bobRequest : Account := (Account.new "bob").setPassword (some "p")

theorem lockedOut_empty (known : List String) : LockedOut known (Directory.empty : Directory env.ctx) :=
  ⟨Directory.wellStored_empty, fun _ _ h => absurd h (Option.some_ne_none _).symm⟩

/-- Bob is created and then suspended; his password does not log in. -/
theorem suspended_locked_out_bob : Ends (AccountDAO.authenticate .mock ⟨"bob", some "p"⟩)
    (Runs.run (CredentialOp.step .mock) {} [.create bobRequest,
      .update ((Account.new "bob").setSuspended true)])
      fun r _ => ∀ a, r = .ok a → a.isSuspended = false := by
  refine suspended_locked_out .mock {} [.create bobRequest,
    .update ((Account.new "bob").setSuspended true)] (fun n => ?_) (lockedOut_empty _)
    ⟨fun h => Bool.noConfusion h, fun e _ _ _ _ => rfl, trivial⟩ "bob" "p" (by decide +kernel)
  change "rnd" ∉ _
  decide +kernel

/-- **A suspended account with a new password.**  Bob is suspended, and then an admin sets his
password: it logs in. -/
theorem suspended_logs_in : (∀ n, Env.mock.random n ∉ supplied [.create bobRequest,
      .update ((Account.new "bob").setSuspended true),
      .setPassword (some ((Account.new "bob").setSuspended true)) "q"]) ∧
    ¬ Ends (AccountDAO.authenticate .mock ⟨"bob", some "q"⟩)
      (Runs.run (CredentialOp.step .mock) {} [.create bobRequest,
        .update ((Account.new "bob").setSuspended true),
        .setPassword (some ((Account.new "bob").setSuspended true)) "q"])
      fun r _ => ∀ a, r = .ok a → a.isSuspended = false := by
  refine ⟨fun n => ?_, fun h => ?_⟩
  · change "rnd" ∉ _
    decide +kernel
  have hin : (exec (AccountDAO.authenticate .mock ⟨"bob", some "q"⟩)
      (Runs.run (CredentialOp.step .mock) {} [.create bobRequest,
        .update ((Account.new "bob").setSuspended true),
        .setPassword (some ((Account.new "bob").setSuspended true)) "q"])).1.toOption.map
          Account.isSuspended = some true := by decide +kernel
  obtain ⟨a, ha, hsuspended⟩ := Option.map_eq_some_iff.1 hin
  exact Bool.noConfusion ((h a (toOption_eq_some.1 ha)).symm.trans hsuspended)

end Accounts

end CloudOs

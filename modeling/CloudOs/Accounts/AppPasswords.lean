/-
# Apps learn every password change

An app whose user management has a change-password script is meant to be told of every change
of an account's password, so that the last password it has been told is the directory's.

| method | changes the password | tells the apps |
| --- | --- | --- |
| `create` | of an account that `ldapadd` replaces | no |
| `update` | when its body carries one, and when it suspends | no |
| `setPassword` | yes | yes, after an `update` that may suspend or fail |
| `changePassword` | yes | yes |

The apps are told one after the other once the directory has the password; a call that fails on
the way leaves the rest untold.
-/

import CloudOs.Dao.Calls
import CloudOs.Lib.Replay
import CloudOs.Lib.Runs

namespace CloudOs

open Prog AccountDAO Replay

namespace Accounts

/-- A call of `AccountDAO` that may write a password. -/
inductive PasswordOp
  | create (request : Account)
  | update (account : Account)
  | setPassword (account : Option Account) (newPassword : String)
  | changePassword (account : Option Account) (oldPassword newPassword : String)

/-- The state after the call, however it ends. -/
def PasswordOp.step (env : Env) (w : World env.ctx) : PasswordOp → World env.ctx
  | .create request => after (AccountDAO.create env request) w
  | .update account => after (AccountDAO.update env account) w
  | .setPassword account newPassword => after (AccountDAO.setPassword env account newPassword) w
  | .changePassword account oldPassword newPassword =>
      after (AccountDAO.changePassword env account oldPassword newPassword) w

/-- The password that an entry has in the directory; none is the empty one. -/
def passwordOf (a : Account) : String := (a.getSingle .password).getD ""

/-- The directory password of the account under `dn`. -/
def storedPassword {ctx : LdapContext} (dir : Directory ctx) (dn : String) : Option String :=
  (dir.accountAt dn).map passwordOf

/-- What an app knows after a message: a password under the DN of each account it was told of. -/
def hearPassword (ctx : LdapContext) (app : String) (told : String → Option String) :
    RootyMessage → String → Option String
  | .appScript toApp .user_change_password [name, newPassword] =>
    if toApp = app then Function.update told (ctx.userDN name) (some newPassword) else told
  | _ => told

/-- The last passwords that the messages tell an app. -/
def toldBy (ctx : LdapContext) (app : String) (messages : List RootyMessage) : String → Option String :=
  replay (hearPassword ctx app) (fun _ => none) messages

variable {env : Env}

/-- The last password that the app was told of an account is the directory's. -/
def Informed (app : String) (w : World env.ctx) : Prop :=
  ∀ dn p, toldBy env.ctx app w.sent dn = some p → storedPassword w.directory dn = some p

/-- From `w` to `t` the app is told the new password of every account of `w` whose password
changes. -/
def Tells (app : String) (w t : World env.ctx) : Prop :=
  ∃ messages, t.sent = w.sent ++ messages ∧ ∀ dn p q, storedPassword w.directory dn = some p →
    storedPassword t.directory dn = some q → q ≠ p → toldBy env.ctx app messages dn = some q

/-- The message to the apps goes out: their list is read as call number `n`, and then one message
after the other is written. -/
def BroadcastGoes (env : Env) (n : ℕ) (hasScript : AppRuntime → Bool) : Prop :=
  env.fails .apps n = false ∧
    ∀ i < (env.availableRuntimes.filter fun r => r.hasUserManagement && hasScript r).length,
      env.fails .rooty (n + 1 + i) = false

/-- The call changes no password without telling the apps.

* `create` replaces no entry.
* `update` does not suspend, and carries no other password than the stored one; or the directory
  refuses it.
* `setPassword` does not suspend, and once the password is written nothing fails.
* `changePassword` does not fail once its two binds have gone through and the password is written. -/
def KeepsInformed (w : World env.ctx) : PasswordOp → Prop
  | .create request => AddGoes env (afterPassword w.calls request + 1) w.directory request.name →
      w.directory.findAccount request.name = none
  | .update account => ∀ e, w.directory.findAccount account.name = some e →
      if Suspends e account then env.fails .ldap (w.calls + 1) = true
      else env.fails .ldap w.calls = true ∨ account.getSingle .password = none ∨
        account.getSingle .password = e.getSingle .password
  | .setPassword account _ => ∀ acc e, account = some acc →
      w.directory.findAccount acc.name = some e → env.fails .ldap w.calls = false →
        ¬ Suspends e acc ∧ env.fails .ldap (w.calls + 1) = false ∧
          BroadcastGoes env (w.calls + 2) (·.hasChangePassword)
  | .changePassword account oldPassword _ => ∀ acc e, account = some acc →
      w.directory.findAccount acc.name = some e → Knows e (some oldPassword) →
        (∀ i < 3, env.fails .ldap (w.calls + i) = false) →
          BroadcastGoes env (w.calls + 3) (·.hasChangePassword)

/-! ### What an app hears -/

section Hearing

variable {ctx : LdapContext} {app : String}

/-- A message is heard over what was heard before. -/
theorem hearPassword_or (told : String → Option String) (m : RootyMessage) (dn : String) :
    hearPassword ctx app told m dn = (hearPassword ctx app (fun _ => none) m dn).or (told dn) := by
  unfold hearPassword
  split
  · split_ifs
    · rw [Function.update_apply, Function.update_apply]
      split_ifs <;> rfl
    · rfl
  · rfl

theorem replay_hearPassword (messages : List RootyMessage) (told : String → Option String)
    (dn : String) : replay (hearPassword ctx app) told messages dn
      = (toldBy ctx app messages dn).or (told dn) := by
  induction messages generalizing told with
  | nil => rfl
  | cons m messages ih =>
    have hfirst : toldBy ctx app (m :: messages) dn = (toldBy ctx app messages dn).or
        (hearPassword ctx app (fun _ => none) m dn) := ih _
    rw [replay_cons, ih, hearPassword_or, hfirst, Option.or_assoc]

/-- The later messages count. -/
theorem toldBy_append (messages later : List RootyMessage) (dn : String) :
    toldBy ctx app (messages ++ later) dn
      = (toldBy ctx app later dn).or (toldBy ctx app messages dn) := by
  rw [toldBy, replay_append]
  exact replay_hearPassword later _ dn

/-- The message tells no app a password. -/
def Silent (m : RootyMessage) : Prop := ∀ app args, m ≠ .appScript app .user_change_password args

theorem hearPassword_of_silent {m : RootyMessage} (hm : Silent m) (told : String → Option String) :
    hearPassword ctx app told m = told := by
  unfold hearPassword
  split
  · exact absurd rfl (hm _ _)
  · rfl

/-- What the apps of a broadcast hear. -/
theorem toldBy_broadcast (runtimes : List AppRuntime) (name newPassword dn : String) :
    toldBy ctx app (runtimes.map fun r =>
        .appScript r.name .user_change_password [name, newPassword]) dn
      = if dn = ctx.userDN name ∧ ∃ r ∈ runtimes, r.name = app then some newPassword else none := by
  induction runtimes with
  | nil => simp [toldBy]
  | cons r runtimes ih =>
    have hcons := @toldBy_append ctx app
      [.appScript r.name .user_change_password [name, newPassword]]
      (runtimes.map fun r => .appScript r.name .user_change_password [name, newPassword]) dn
    rw [List.map_cons, ← List.singleton_append, hcons, ih]
    have hone : toldBy ctx app [.appScript r.name .user_change_password [name, newPassword]] dn
        = if dn = ctx.userDN name ∧ r.name = app then some newPassword else none := by
      simp only [toldBy, replay_cons, replay_nil, hearPassword]
      by_cases happ : r.name = app
      · simp [happ, Function.update_apply]
      · simp [happ]
    rw [hone]
    simp only [List.mem_cons, exists_eq_or_imp]
    by_cases hdn : dn = ctx.userDN name <;> by_cases happ : r.name = app <;>
      by_cases hrest : ∃ r ∈ runtimes, r.name = app <;> simp [hdn, happ, hrest]

end Hearing

/-- From `w` to `t` the passwords of accounts that were there are the same, or the app is told
them. -/
def Follows (app : String) (w t : World env.ctx) : Prop :=
  ∃ messages, t.sent = w.sent ++ messages ∧ ∀ dn,
    (toldBy env.ctx app messages dn = none ∧
      (storedPassword t.directory dn = storedPassword w.directory dn ∨
        storedPassword w.directory dn = none)) ∨
    ∃ q, toldBy env.ctx app messages dn = some q ∧ storedPassword t.directory dn = some q

theorem Follows.tells {app : String} {w t : World env.ctx} (h : Follows app w t) : Tells app w t := by
  obtain ⟨messages, hsent, hdn⟩ := h
  refine ⟨messages, hsent, fun dn p q hp hq hqp => ?_⟩
  rcases hdn dn with ⟨-, hsame | hnone⟩ | ⟨q', htold, hq'⟩
  · rw [hsame, hp] at hq
    exact absurd (Option.some.inj hq).symm hqp
  · rw [hnone] at hp
    exact absurd hp (Option.some_ne_none p).symm
  · rw [htold, ← hq, hq']

theorem Follows.informed {app : String} {w t : World env.ctx} (h : Follows app w t)
    (hw : Informed app w) : Informed app t := by
  obtain ⟨messages, hsent, hdn⟩ := h
  intro dn p hp
  rw [hsent, toldBy_append] at hp
  rcases hdn dn with ⟨hsilent, hsame⟩ | ⟨q, htold, hq⟩
  · rw [hsilent, Option.none_or] at hp
    have hstored := hw dn p hp
    rcases hsame with hsame | hnone
    · rw [hsame, hstored]
    · rw [hnone] at hstored
      exact absurd hstored (Option.some_ne_none p).symm
  · rw [htold, Option.some_or] at hp
    rw [hq, hp]

/-- A call that tells no app a password and changes no password of an account that was there. -/
theorem Follows.of_silent {app : String} {w t : World env.ctx}
    (hemits : Emits World.sent Silent w t)
    (hsame : ∀ dn, storedPassword t.directory dn = storedPassword w.directory dn ∨
      storedPassword w.directory dn = none) : Follows app w t := by
  obtain ⟨messages, hsent, hsilent⟩ := hemits
  refine ⟨messages, hsent, fun dn => Or.inl ⟨?_, hsame dn⟩⟩
  have hnothing : toldBy env.ctx app messages = fun _ => none :=
    replay_of_ignored fun m hm => hearPassword_of_silent (hsilent m hm) _
  rw [hnothing]

theorem Follows.of_same {app : String} {w t : World env.ctx} (hdir : t.directory = w.directory)
    (hsent : t.sent = w.sent) : Follows app w t :=
  .of_silent (.of_eq hsent) fun dn => Or.inl (by rw [hdir])

/-! ### What each call sends -/

theorem emits_call (sys : External) {P : RootyMessage → Prop} :
    Respects (Emits World.sent P) (call env sys) := fun _ => .of_eq rfl

theorem emits_draw {P : RootyMessage → Prop} : Respects (Emits World.sent P) (draw env) :=
  fun _ => .of_eq rfl

theorem emits_writeRooty {P : RootyMessage → Prop} {m : RootyMessage} (hm : P m) :
    Respects (Emits World.sent P) (writeRooty env m) :=
  (emits_call .rooty).bind fun _ => Respects.modify fun _ => .one rfl hm

theorem emits_ldapRequest {P : RootyMessage → Prop} (refuses : Directory env.ctx → Bool)
    (f : Directory env.ctx → Directory env.ctx) :
    Respects (Emits World.sent P) (ldapRequest env refuses f) := by
  intro w
  rw [ends_ldapRequest_iff]
  split_ifs <;> exact .of_eq rfl

theorem emits_broadcast {P : RootyMessage → Prop} {hasScript : AppRuntime → Bool}
    {type : AppScriptMessageType} {args : List String}
    (hP : ∀ app, P (.appScript app type args)) :
    Respects (Emits World.sent P) (broadcast env hasScript type args) := by
  refine ((emits_call .apps).bind fun _ => Respects.pure _).bind fun apps =>
    Respects.forM (fun runtime => ?_) apps
  split_ifs
  · exact emits_writeRooty (hP _)
  · exact Respects.pure _

theorem emits_update {P : RootyMessage → Prop} (account : Account) :
    Respects (Emits World.sent P) (AccountDAO.update env account) := by
  refine Respects.get.bind fun w => ?_
  cases w.directory.findAccount account.name with
  | none => exact Respects.throw _
  | some e =>
    dsimp only
    split_ifs
    · exact emits_draw.bind fun _ => (emits_ldapRequest _ _).bind fun _ =>
        (emits_ldapRequest _ _).bind fun _ => Respects.pure _
    · exact (emits_ldapRequest _ _).bind fun _ => Respects.pure _

theorem emits_addToBuiltIn {P : RootyMessage → Prop} (groupName : String) (account : Account) :
    Respects (Emits World.sent P) (AccountGroupDAO.addToBuiltIn env groupName account) := by
  have hmodify : ∀ group, Respects (Emits World.sent P) (do
      ldapmodifyGroup env group
      return group : Server env AccountGroup) := fun group =>
    (emits_ldapRequest _ _).bind fun _ => Respects.pure _
  refine Respects.get.bind fun w => ?_
  cases w.directory.findGroup groupName with
  | some group => exact (Respects.pure _).bind fun _ => hmodify _
  | none => exact (emits_ldapRequest _ _).bind fun _ => (Respects.pure _).bind fun _ => hmodify _

/-- The events and scripts of a new account carry no password. -/
theorem emits_create (request : Account) :
    Respects (Emits World.sent Silent) (AccountDAO.create env request) := by
  have hldap : ∀ account, Respects (Emits World.sent Silent) (ldapCreate env account) := by
    intro account
    refine (emits_ldapRequest _ _).bind fun _ => (emits_addToBuiltIn _ account).bind fun _ => ?_
    split_ifs
    · exact (emits_addToBuiltIn _ account).bind fun _ => Respects.pure _
    · exact Respects.pure _
  have hcreate : ∀ request, Respects (Emits World.sent Silent) (createAccount env request) := by
    intro request
    refine emits_draw.bind fun n => (hldap _).attempt.bind fun r => ?_
    cases r with
    | error x => exact Respects.throw _
    | ok x =>
      refine (emits_writeRooty ?_).bind fun _ => (emits_broadcast ?_).bind fun _ => Respects.pure _
      · exact fun _ _ h => by simp at h
      · exact fun _ _ _ h => by simp at h
  unfold AccountDAO.create
  split_ifs
  · exact hcreate request
  · exact emits_draw.bind fun n => hcreate _

/-- A loop over the apps that ends has written to each app with the script. -/
theorem sent_forM_writeRooty {hasScript : AppRuntime → Bool} (message : AppRuntime → RootyMessage)
    (runtimes : List AppRuntime) {w : World env.ctx} :
    Ends (runtimes.forM fun r => if hasScript r then writeRooty env (message r) else pure ⟨⟩) w
      fun r t => r = .ok ⟨⟩ → t.sent = w.sent ++ (runtimes.filter hasScript).map message := by
  induction runtimes generalizing w with
  | nil => exact fun _ => (List.append_nil _).symm
  | cons runtime runtimes ih =>
    simp only [List.forM, ends_bind]
    by_cases hscript : hasScript runtime = true
    · rw [if_pos hscript, List.filter_cons_of_pos hscript]
      simp only [writeRooty, ends_bind, ends_call]
      by_cases hfails : env.fails .rooty w.calls = true
      · rw [if_pos hfails]
        exact fun h => of_error_eq_ok h
      · rw [if_neg hfails]
        simp only [ends_modify]
        refine ih.mono fun r t ht hr => ?_
        rw [ht hr, List.map_cons, List.append_assoc]
        rfl
    · rw [List.filter_cons_of_neg hscript, if_neg hscript, ends_pure]
      exact ih

theorem broadcastGoes_iff (n : ℕ) (hasScript : AppRuntime → Bool) :
    BroadcastGoes env n hasScript ↔ CallsGo env n (broadcastCalls env hasScript) := by
  rw [BroadcastGoes, broadcastCalls, CallsGo, callsGo_map_some]

/-- **A broadcast that goes out** reaches every app with the script. -/
theorem ends_broadcast {hasScript : AppRuntime → Bool} {w : World env.ctx}
    (h : BroadcastGoes env w.calls hasScript) (type : AppScriptMessageType) (args : List String) :
    Ends (broadcast env hasScript type args) w fun r t => r = .ok ⟨⟩ ∧ t.directory = w.directory ∧
      t.sent = w.sent ++ (env.availableRuntimes.filter fun r => r.hasUserManagement && hasScript r).map
        fun r => .appScript r.name type args := by
  have hsent : Ends (broadcast env hasScript type args) w fun r t => r = .ok ⟨⟩ → t.sent = w.sent ++
      (env.availableRuntimes.filter fun r => r.hasUserManagement && hasScript r).map
        fun r => .appScript r.name type args := by
    simp only [broadcast, getAvailableRuntimes, ends_bind, ends_call, h.1, Bool.false_eq_true,
      if_false, ends_pure]
    exact sent_forM_writeRooty (fun r => .appScript r.name type args) _
  refine (hsent.and (makes_broadcast hasScript type args)).mono fun r t ht => ?_
  obtain ⟨hr, -, hdir⟩ := ht.2.1 ((broadcastGoes_iff _ _).1 h)
  exact ⟨hr, hdir, ht.1 hr⟩

/-! ### One call -/

theorem storedPassword_putAccount {ctx : LdapContext} (dir : Directory ctx) (a : Account)
    (dn : String) : storedPassword (dir.putAccount a) dn
      = if dn = ctx.userDN a.name then some (passwordOf a) else storedPassword dir dn := by
  rw [storedPassword, Directory.accountAt_putAccount]
  split_ifs <;> rfl

/-- The password of a stored account. -/
theorem storedPassword_of_findAccount {ctx : LdapContext} {dir : Directory ctx} {n : String}
    {e : Account} (he : dir.findAccount n = some e) :
    storedPassword dir (ctx.userDN e.name) = some (passwordOf e) := by
  have hstored : dir.accountAt (ctx.userDN e.name) = some e := Directory.findAccount_name he
  rw [storedPassword, hstored]
  rfl

/-- Writing over an entry with the password it had. -/
theorem storedPassword_overwrite {ctx : LdapContext} {dir : Directory ctx} {n : String}
    {e a : Account} (he : dir.findAccount n = some e) (hname : a.name = e.name)
    (hpassword : passwordOf a = passwordOf e) (dn : String) :
    storedPassword (dir.putAccount a) dn = storedPassword dir dn := by
  rw [storedPassword_putAccount, hname, hpassword]
  split_ifs with hdn
  · rw [hdn, storedPassword_of_findAccount he]
  · rfl

theorem passwordOf_setPassword (a : Account) (p : String) : passwordOf (a.setPassword (some p)) = p := by
  unfold Account.setPassword passwordOf
  dsimp only
  split_ifs with hempty
  · rw [Account.getSingle_remove, if_pos rfl]
    exact (eq_of_beq hempty).symm
  · rw [Account.getSingle_set, if_pos rfl]
    rfl

variable {app : String} {w : World env.ctx}

theorem follows_create {request : Account} (h : KeepsInformed w (.create request)) :
    Follows app w (PasswordOp.step env w (.create request)) := by
  refine Ends.after (P := Follows app w)
    (((create_creates request).and (emits_create request w)).mono fun _ t ht => ?_)
  obtain ⟨hends, hemits⟩ := ht
  refine .of_silent hemits fun dn => ?_
  rcases hends with ⟨-, -, hs⟩ | ⟨hgoes, hadded, -⟩
  · rw [hs.directory]
    exact Or.inl rfl
  · have hat : storedPassword t.directory dn
        = storedPassword (w.directory.putAccount (created env w.calls request)) dn := by
      rw [storedPassword, hadded.accountAt]
      rfl
    rw [hat, storedPassword_putAccount, created_name]
    split_ifs with hdn
    · have hnone : w.directory.accountAt (env.ctx.userDN request.name) = none := h hgoes
      rw [hdn, storedPassword, hnone]
      exact Or.inr rfl
    · exact Or.inl rfl

theorem follows_update {account : Account} (h : KeepsInformed w (.update account)) :
    Follows app w (PasswordOp.step env w (.update account)) := by
  have hemits : Respects (Emits World.sent Silent) (AccountDAO.update env account) :=
    emits_update account
  refine Ends.after (P := Follows app w)
    (((update_updates account).and (hemits w)).mono fun _ t ht => ?_)
  obtain ⟨⟨dir, hupdates, ht⟩, hemits⟩ := ht
  refine .of_silent hemits fun dn => Or.inl ?_
  rw [ht.directory]
  cases hupdates with
  | unknown _ => rfl
  | refused _ _ _ => rfl
  | cannotSuspend _ _ _ => rfl
  | @writes e stored keeps goes =>
    have hpassword := h e stored
    rw [if_neg keeps, goes] at hpassword
    refine storedPassword_overwrite stored (Account.merge_name e account) ?_ dn
    rw [passwordOf, Account.getSingle_merge]
    rcases hpassword with hfails | hnone | hsame
    · exact absurd hfails (by decide)
    · rw [hnone, Option.none_or]
      rfl
    · rw [hsame, Option.or_self]
      rfl
  | @failsToSuspend _ e stored suspends changes _ =>
    have hrefused := h e stored
    rw [if_pos suspends, changes] at hrefused
    exact absurd hrefused (by decide)
  | @suspends e stored suspends changes _ =>
    have hrefused := h e stored
    rw [if_pos suspends, changes] at hrefused
    exact absurd hrefused (by decide)

/-- The new password is in the directory under the account's DN, and the apps are told it. -/
theorem follows_of_broadcast {t : World env.ctx} {e a : Account} {name newPassword : String}
    (happ : ∃ r ∈ env.availableRuntimes, r.name = app ∧ r.hasUserManagement = true ∧
      r.hasChangePassword = true)
    (he : w.directory.findAccount name = some e) (hname : a.name = e.name)
    (hpassword : passwordOf a = newPassword) (hdir : t.directory = w.directory.putAccount a)
    (hsent : t.sent = w.sent ++ (env.availableRuntimes.filter fun r =>
      r.hasUserManagement && r.hasChangePassword).map fun r =>
        .appScript r.name .user_change_password [name, newPassword]) : Follows app w t := by
  obtain ⟨r, hr, hrname, hmanaged, hscript⟩ := happ
  have hdn : env.ctx.userDN e.name = env.ctx.userDN name := Directory.userDN_of_accountAt he
  have hexists : ∃ r ∈ env.availableRuntimes.filter fun r =>
      r.hasUserManagement && r.hasChangePassword, r.name = app :=
    ⟨r, List.mem_filter.2 ⟨hr, by simp [hmanaged, hscript]⟩, hrname⟩
  refine ⟨_, hsent, fun dn => ?_⟩
  rw [toldBy_broadcast, hdir, storedPassword_putAccount, hname, hdn]
  by_cases hat : dn = env.ctx.userDN name
  · rw [if_pos ⟨hat, hexists⟩, if_pos hat, hpassword]
    exact Or.inr ⟨newPassword, rfl, rfl⟩
  · rw [if_neg fun h => hat h.1, if_neg hat]
    exact Or.inl ⟨rfl, Or.inl rfl⟩

/-- An update that does not suspend and that the directory accepts. -/
theorem ends_update_iff {e account : Account} (he : w.directory.findAccount account.name = some e)
    (hkeeps : ¬ Suspends e account) (hgoes : env.fails .ldap w.calls = false)
    (Q : Except Exn Account → World env.ctx → Prop) :
    Ends (AccountDAO.update env account) w Q ↔
      Q (.ok (e.merge account)) (w.called.onDirectory (·.putAccount (e.merge account))) := by
  have hfound : (w.directory.findAccount (e.merge account).name).isSome = true := by
    rw [Account.merge_name, Directory.findAccount_name he]
    rfl
  have hactive : ¬ (!e.isSuspended && account.isSuspended) = true := by
    simpa [Suspends] using hkeeps
  simp only [AccountDAO.update, ends_bind, ends_get, he]
  rw [if_neg hactive, ends_bind, ends_ldapmodifyAccount_iff hfound,
    if_neg (by rw [hgoes]; exact Bool.false_ne_true), ends_pure]

theorem follows_setPassword {account : Option Account} {newPassword : String}
    (happ : ∃ r ∈ env.availableRuntimes, r.name = app ∧ r.hasUserManagement = true ∧
      r.hasChangePassword = true)
    (h : KeepsInformed w (.setPassword account newPassword)) :
    Follows app w (PasswordOp.step env w (.setPassword account newPassword)) := by
  refine Ends.after (P := Follows app w) ?_
  cases account with
  | none => exact .of_same rfl rfl
  | some acc =>
    simp only [AccountDAO.setPassword, ends_bind]
    cases he : w.directory.findAccount acc.name with
    | none =>
      rw [adminChangePassword, ends_ldapRequest_iff, if_pos (Or.inr (by rw [he]; rfl))]
      exact .of_same rfl rfl
    | some e =>
      rw [ends_adminChangePassword_iff he]
      split_ifs with hfails
      · exact .of_same rfl rfl
      obtain ⟨hkeeps, hgoes, hbroadcast⟩ := h acc e rfl he (Bool.eq_false_iff.2 hfails)
      -- the update reads back the entry with its new password
      have hfound : (w.directory.putAccount (e.setPassword (some newPassword))).findAccount
          (cleared acc).name = some (e.setPassword (some newPassword)).stored := by
        have hput := Directory.findAccount_putAccount w.directory (e.setPassword (some newPassword))
        have hdn : env.ctx.userDN (e.setPassword (some newPassword)).name
            = env.ctx.userDN (cleared acc).name := by
          rw [Account.setPassword_name, Directory.userDN_of_accountAt he, cleared_name]
        rw [← Directory.findAccount_congr _ hdn]
        exact hput
      have hsuspends : ¬ Suspends (e.setPassword (some newPassword)).stored (cleared acc) := by
        simpa [Suspends] using hkeeps
      have hpassword : passwordOf ((e.setPassword (some newPassword)).stored.merge (cleared acc))
          = newPassword := by
        rw [passwordOf, Account.getSingle_merge, cleared_password, Option.none_or]
        exact passwordOf_setPassword e newPassword
      rw [show acc.clearResetPasswordToken.setPassword none = cleared acc from rfl]
      refine (ends_update_iff hfound hsuspends hgoes _).2 ?_
      refine (ends_broadcast hbroadcast _ _).mono fun r t ht => ?_
      obtain ⟨-, hdir, hsent⟩ := ht
      have hname : ((e.setPassword (some newPassword)).stored.merge (cleared acc)).name = e.name :=
        Account.setPassword_name e (some newPassword)
      refine follows_of_broadcast happ he hname hpassword ?_ ?_
      · rw [hdir]
        exact Directory.putAccount_putAccount _ rfl
      · rw [hsent, cleared_name]
        rfl

/-- A bind throws, or the account is stored and has the password. -/
theorem ends_bindAs {name : String} {password : Option String}
    {Q : Except Exn PUnit → World env.ctx → Prop} (hfail : Q (.error (.failed .ldap)) w.called)
    (hok : ∀ e, w.directory.findAccount name = some e → Knows e password →
      env.fails .ldap w.calls = false → Q (.ok ⟨⟩) w.called) :
    Ends (CloudOs.authenticate env name password) w Q := by
  rw [CloudOs.authenticate, ends_ldapRequest_iff]
  split_ifs with hrefused
  · exact hfail
  · cases he : w.directory.findAccount name with
    | none => simp [he] at hrefused
    | some e =>
      refine hok e he ?_ (Bool.eq_false_iff.2 (not_or.1 hrefused).1)
      simpa [he, Knows] using (not_or.1 hrefused).2

theorem follows_changePassword {account : Option Account} {oldPassword newPassword : String}
    (happ : ∃ r ∈ env.availableRuntimes, r.name = app ∧ r.hasUserManagement = true ∧
      r.hasChangePassword = true)
    (h : KeepsInformed w (.changePassword account oldPassword newPassword)) :
    Follows app w (PasswordOp.step env w (.changePassword account oldPassword newPassword)) := by
  refine Ends.after (P := Follows app w) ?_
  cases account with
  | none => exact .of_same rfl rfl
  | some acc =>
    simp only [AccountDAO.changePassword, checkAuth, CloudOs.changePassword, ends_bind, ends_attempt]
    refine ends_bindAs (.of_same rfl rfl) fun e he hknows hfirst => ?_
    simp only [ends_pure]
    refine ends_bindAs (.of_same rfl rfl) fun _ _ _ hsecond => ?_
    rw [ends_adminChangePassword_iff (w := w.called.called) he]
    split_ifs with hfails
    · exact .of_same rfl rfl
    have hcalls : ∀ i < 3, env.fails .ldap (w.calls + i) = false := by
      intro i hi
      obtain rfl | rfl | rfl : i = 0 ∨ i = 1 ∨ i = 2 := by omega
      · exact hfirst
      · exact hsecond
      · exact Bool.eq_false_iff.2 hfails
    have hbroadcast := h acc e rfl he hknows hcalls
    refine (ends_broadcast hbroadcast _ _).mono fun r t ht => ?_
    obtain ⟨-, hdir, hsent⟩ := ht
    exact follows_of_broadcast happ he (Account.setPassword_name e (some newPassword))
      (passwordOf_setPassword e newPassword) hdir hsent

theorem follows_step
    (happ : ∃ r ∈ env.availableRuntimes, r.name = app ∧ r.hasUserManagement = true ∧
      r.hasChangePassword = true) {op : PasswordOp} (h : KeepsInformed w op) :
    Follows app w (op.step env w) := by
  cases op with
  | create request => exact follows_create h
  | update account => exact follows_update h
  | setPassword account newPassword => exact follows_setPassword happ h
  | changePassword account oldPassword newPassword => exact follows_changePassword happ h

/-! ### Runs -/

/-- **An app learns every password change**, and the last password it was told is the
directory's, in every run whose calls change no password without telling the apps: from any
store, before any app was told anything. -/
theorem apps_learn (env : Env) {app : String}
    (happ : ∃ r ∈ env.availableRuntimes, r.name = app ∧ r.hasUserManagement = true ∧
      r.hasChangePassword = true) (w : World env.ctx) (hw : w.sent = []) (ops : List PasswordOp)
    (hops : Runs.Meets (PasswordOp.step env) KeepsInformed w ops) :
    Runs.Meets (PasswordOp.step env) (fun s op => Tells app s (op.step env s)) w ops ∧
      ∀ before, before <+: ops → Informed app (Runs.run (PasswordOp.step env) w before) := by
  have hempty : Informed app w := by
    intro dn p hp
    rw [hw] at hp
    exact absurd hp (Option.some_ne_none p).symm
  constructor
  · exact hops.mono fun s op hop => (follows_step happ hop).tells
  · intro before hbefore
    exact Runs.run_invariant (I := Informed app) (fun s op hs hop => (follows_step happ hop).informed hs)
      hempty (hops.of_prefix hbefore)

/-- The mock server with one app that wants to know of passwords. -/
def mailEnv : Env := { Env.mock with availableRuntimes := [⟨"mail", true, false, false, true⟩] }

/-- An account whose password is set once. -/
def passwordSet : List PasswordOp :=
  [.create ((Account.new "alice").set .password (some "first")),
    .setPassword (some (Account.new "alice")) "second"]

theorem apps_learn_second :
    Runs.Meets (PasswordOp.step mailEnv)
      (fun s op => Tells "mail" s (op.step mailEnv s)) {} passwordSet ∧
      ∀ before, before <+: passwordSet →
        Informed "mail" (Runs.run (PasswordOp.step mailEnv) {} before) := by
  refine apps_learn mailEnv ⟨_, List.mem_singleton_self _, rfl, rfl, rfl⟩ {} rfl _
    ⟨fun _ => rfl, fun acc e hacc _ _ => ?_, trivial⟩
  obtain rfl := Option.some.inj hacc
  refine ⟨?_, rfl, rfl, fun i _ => rfl⟩
  rintro ⟨-, hsuspended⟩
  exact absurd hsuspended (by decide +kernel)

/-- **An app is left behind.**  After its password is set, the account is updated with another
one; the app was told `second` and the directory has `third`. -/
theorem app_left_behind : ¬ Informed "mail" (Runs.run (PasswordOp.step mailEnv) {}
    (passwordSet ++ [.update ((Account.new "alice").set .password (some "third"))])) := by
  intro h
  have htold : toldBy mailEnv.ctx "mail" (Runs.run (PasswordOp.step mailEnv) {} (passwordSet ++
      [.update ((Account.new "alice").set .password (some "third"))])).sent
        (mailEnv.ctx.userDN "alice") = some "second" := by decide +kernel
  have hstored : storedPassword (Runs.run (PasswordOp.step mailEnv) {} (passwordSet ++
      [.update ((Account.new "alice").set .password (some "third"))])).directory
        (mailEnv.ctx.userDN "alice") = some "third" := by decide +kernel
  have hsame := (h _ _ htold).symm.trans hstored
  exact absurd hsame (by decide)

end Accounts

end CloudOs

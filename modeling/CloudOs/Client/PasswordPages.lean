/-
# The pages on which a password is changed

Three pages ask the server for another password of an account.  What the user is told depends on
what `Api._post` returns.

| page | sends | says that the password is changed when |
| --- | --- | --- |
| settings | the current password and the new one | the answer has not the status `error` |
| profile | the old password and the new one | the answer is true as a condition |
| manage account | `-` and the new one | the answer is true as a condition |

A refusal is an object too, so the last two pages never say that a change has failed.  And the server
refuses a change that it has made, when it cannot tell the apps about it.  So what the user has been
told last is the password in the directory, in the runs where neither happens (`told_iff`).
-/

import CloudOs.Accounts.AppPasswords
import CloudOs.Client.AdminModel
import CloudOs.Client.GroupForm
import CloudOs.Resources.AccountsWrites

namespace CloudOs

open Prog Accounts AccountDAO Texts

namespace PasswordPages

open Client (JsValue)

/-- The body of a request; what is undefined is left out. -/
structure Body where
  oldPassword : Option String := none
  newPassword : Option String := none
  sendInvite : Option Bool := none
  uuid : Option String := none

/-- How the server reads a body, unless the reader or the validation refuses it. -/
structure PasswordWire where
  read : Body → Option ChangePasswordRequest
  read_eq : ∀ body request, read body = some request →
    body.oldPassword = some request.oldPassword ∧ body.newPassword = some request.newPassword ∧
      request.sendInvite = body.sendInvite.getD false

/-- Both passwords have to be there. -/
def PasswordWire.mock : PasswordWire where
  read body := do
    let oldPassword ← body.oldPassword
    let newPassword ← body.newPassword
    return ⟨oldPassword, newPassword, body.sendInvite.getD false⟩
  read_eq := by
    intro body request h
    obtain ⟨old, hold, h⟩ := Option.bind_eq_some_iff.1 h
    obtain ⟨new, hnew, h⟩ := Option.bind_eq_some_iff.1 h
    obtain rfl := Option.some.inj h
    exact ⟨hold, hnew, rfl⟩

/-- The fields of the settings page. -/
structure SettingsForm where
  current_password : String
  new_password : String
  new_password2 : String

/-- The keys of the messages that stand next to the fields. -/
structure SettingsErrors where
  current_password : Option String
  new_password : Option String
  confirm_new_password : Option String
  deriving DecidableEq, Repr

/-- `validateSettings`. -/
def SettingsForm.validateSettings (form : SettingsForm) : SettingsErrors where
  current_password := if isBlank form.current_password then some "field_required" else none
  new_password :=
    if isBlank form.new_password then some "field_required"
    else if jsLength form.new_password < 8 then some "password_short"
    else none
  confirm_new_password :=
    if form.new_password != form.new_password2 then some "password_mismatch"
    else if isBlank form.new_password2 then some "field_required"
    else none

/-- No field has a message. -/
def SettingsForm.isValid (form : SettingsForm) : Bool :=
  form.validateSettings == ⟨none, none, none⟩

/-- `EmptyValidator.is_empty`. -/
def is_empty (value : Option String) : Bool := value.all isBlank

/-- What the user is told. -/
inductive Told
  | nothing
  | changed
  | failed
  deriving DecidableEq, Repr

/-- `status` of what `Api._post` returns. -/
def status : JsValue → Option String
  | .errorObject => some "error"
  | _ => none

section Pages

variable (env : Env) (wire : PasswordWire)

/-- `Api._post` to the password of an account. -/
def _post (apiKey name : String) (body : Body) : Server env JsValue :=
  match wire.read body with
  | none => return .errorObject
  | some request => do
    match ← attempt (AccountsResource.changePassword env apiKey name request) with
    | .ok (.ok _) => return .response
    | _ => return .errorObject

/-- The body of `change_password`. -/
def SettingsForm.body (form : SettingsForm) : Body :=
  { oldPassword := some form.current_password, newPassword := some form.new_password }

/-- The body of `change_password_2`. -/
def profileBody (oldPassword newPassword uuid : Option String) : Body :=
  { oldPassword := oldPassword, newPassword := newPassword, uuid := uuid, sendInvite := some false }

/-- The body of `admin_change_password`. -/
def adminBody (newPassword : Option String) : Body :=
  { oldPassword := some "-", newPassword := newPassword, sendInvite := some false }

/-- `SettingsController.changePassword`. -/
def settings (apiKey name : String) (form : SettingsForm) : Server env Told :=
  if !form.isValid then return .nothing
  else do
    let pass_change ← _post env wire apiKey name form.body
    return if status pass_change = some "error" then .failed else .changed

/-- `doChangePassword` of the profile. -/
def profile (apiKey name : String) (oldPassword newPassword uuid : Option String) :
    Server env Told :=
  if is_empty newPassword then return .nothing
  else do
    let changed ← _post env wire apiKey name (profileBody oldPassword newPassword uuid)
    return if changed.truthy then .changed else .failed

/-- `doChangePassword` of an account that is managed. -/
def manageAccount (apiKey name : String) (newPassword : Option String) : Server env Told :=
  if is_empty newPassword then return .nothing
  else do
    let changed ← _post env wire apiKey name (adminBody newPassword)
    return if changed.truthy then .changed else .failed

/-- What happens on the pages of an account, or at the server besides. -/
inductive Event
  | settings (apiKey : String) (form : SettingsForm)
  | profile (apiKey : String) (oldPassword newPassword uuid : Option String)
  | manageAccount (apiKey : String) (newPassword : Option String)
  | request (apiKey : String) (request : AccountsRequest)

/-- The new password that an event is about. -/
def Event.newPassword : Event → Option String
  | .settings _ form => some form.new_password
  | .profile _ _ newPassword _ => newPassword
  | .manageAccount _ newPassword => newPassword
  | .request _ _ => none

/-- What an event runs. -/
def perform (name : String) : Event → Server env Told
  | .settings apiKey form => settings env wire apiKey name form
  | .profile apiKey oldPassword newPassword uuid =>
      profile env wire apiKey name oldPassword newPassword uuid
  | .manageAccount apiKey newPassword => manageAccount env wire apiKey name newPassword
  | .request apiKey request => do
      let _ ← attempt (AccountsResource.serve env apiKey request)
      return .nothing

/-- The server, and the password that the user has been told last. -/
structure State where
  world : World env.ctx
  told : Option String

/-- The state after an event. -/
def step (name : String) (s : State env) (event : Event) : State env :=
  match exec (perform env wire name event) s.world with
  | (.ok .changed, w) => ⟨w, event.newPassword⟩
  | (_, w) => ⟨w, s.told⟩

end Pages

/-! ### What the server does -/

variable {env : Env} {wire : PasswordWire} {name : String} {w : World env.ctx}

/-- A caller changes its own password, or an admin that of another account. -/
def IsOther (name : String) (account : Account) : Prop :=
  account.isAdmin = true ∧ account.name ≠ name

instance (account : Account) : Decidable (IsOther name account) :=
  inferInstanceAs (Decidable (_ ∧ _))

/-- The directory gets the new password. -/
def Writes (name : String) (w : World env.ctx) (apiKey : String) (request : ChangePasswordRequest) :
    Prop :=
  ∃ account e, w.sessions apiKey = some account ∧ w.directory.findAccount name = some e ∧
    if IsOther name account then env.fails .ldap w.calls = false
    else account.name = name ∧ Knows e (some request.oldPassword) ∧
      ∀ i < 3, env.fails .ldap (w.calls + i) = false

/-- Nothing fails once the directory has the new password. -/
def TellsApps (name : String) (w : World env.ctx) (apiKey : String) : Prop :=
  ∀ account, w.sessions apiKey = some account →
    if IsOther name account then
      env.fails .ldap (w.calls + 1) = false ∧ BroadcastGoes env (w.calls + 2) (·.hasChangePassword)
    else BroadcastGoes env (w.calls + 3) (·.hasChangePassword)

/-- The password of the account in the directory. -/
def stored (name : String) (w : World env.ctx) : Option String :=
  storedPassword w.directory (env.ctx.userDN name)

/-- **A broadcast** ends well exactly when no call of it fails. -/
theorem broadcast_goes (hasScript : AppRuntime → Bool) (type : AppScriptMessageType)
    (args : List String) :
    Ends (broadcast env hasScript type args) w fun r t =>
      (r = .ok ⟨⟩ ↔ BroadcastGoes env w.calls hasScript) ∧ t.directory = w.directory := by
  refine Ends.and ?_ ((respects_broadcast hasScript type args w).mono fun _ _ h => h.directory)
  refine (makes_broadcast hasScript type args).ok_iff.mono fun r _ hr => ?_
  rw [broadcastGoes_iff]
  exact ⟨fun h => hr.1 ⟨_, h⟩, fun h => (hr.2 h).elim fun _ h => h⟩

/-- How a change of the password comes out: the directory gets the new one if the change is `made`,
and it ends well if it is also `told`. -/
structure ComesOut (made told : Prop) (name newPassword : String) (w : World env.ctx)
    (r : Except Exn Unit) (t : World env.ctx) : Prop where
  ok_iff : r = .ok ⟨⟩ ↔ made ∧ told
  set : made → stored name t = some newPassword
  kept : ¬ made → stored name t = stored name w

theorem ComesOut.not_made {made told : Prop} {newPassword : String} {t : World env.ctx} {x : Exn}
    (hmade : ¬ made) (ht : t.directory = w.directory) :
    ComesOut made told name newPassword w (.error x) t where
  ok_iff := iff_of_false (fun h => of_error_eq_ok h) fun h => hmade h.1
  set h := absurd h hmade
  kept _ := by rw [stored, stored, ht]

theorem ComesOut.not_told {made told : Prop} {newPassword : String} {t : World env.ctx} {x : Exn}
    (hmade : made) (htold : ¬ told) (ht : stored name t = some newPassword) :
    ComesOut made told name newPassword w (.error x) t where
  ok_iff := iff_of_false (fun h => of_error_eq_ok h) fun h => htold h.2
  set _ := ht
  kept h := absurd hmade h

theorem ComesOut.congr {made told made' told' : Prop} {newPassword : String} {t : World env.ctx}
    {r : Except Exn Unit} (h : ComesOut made told name newPassword w r t) (hmade : made ↔ made')
    (htold : told ↔ told') : ComesOut made' told' name newPassword w r t := by
  obtain rfl := propext hmade
  obtain rfl := propext htold
  exact h

/-- An update that does not suspend throws when its call fails. -/
theorem ends_update_keeps {e account : Account} (he : w.directory.findAccount account.name = some e)
    (hkeeps : ¬ Suspends e account) (Q : Except Exn Account → World env.ctx → Prop) :
    Ends (AccountDAO.update env account) w Q ↔
      if env.fails .ldap w.calls = true then Q (.error (.failed .ldap)) w.called
      else Q (.ok (e.merge account)) (w.called.onDirectory (·.putAccount (e.merge account))) := by
  by_cases hfails : env.fails .ldap w.calls = true
  · rw [if_pos hfails]
    have hactive : ¬ (!e.isSuspended && account.isSuspended) = true := by
      simpa [Suspends] using hkeeps
    simp only [AccountDAO.update, ends_bind, ends_get, he]
    rw [if_neg hactive, ends_bind, ldapmodifyAccount, ends_ldapRequest_iff, if_pos (Or.inl hfails)]
  · rw [if_neg hfails, ends_update_iff he hkeeps (Bool.eq_false_iff.2 hfails)]

/-- **An admin sets the password of another account.**  The first call writes it; an update and the
broadcast follow. -/
theorem setPassword_comesOut {e : Account} (he : w.directory.findAccount name = some e)
    (newPassword : String) :
    Ends (AccountDAO.setPassword env (some e) newPassword) w
      (ComesOut (env.fails .ldap w.calls = false) (env.fails .ldap (w.calls + 1) = false ∧
        BroadcastGoes env (w.calls + 2) (·.hasChangePassword)) name newPassword w) := by
  have hown := Directory.findAccount_name he
  have hdn : env.ctx.userDN e.name = env.ctx.userDN name := Directory.userDN_of_accountAt he
  simp only [AccountDAO.setPassword, ends_bind]
  rw [ends_adminChangePassword_iff hown]
  by_cases hfails : env.fails .ldap w.calls = true
  · rw [if_pos hfails]
    exact .not_made (fun h => Bool.false_ne_true (h.symm.trans hfails)) rfl
  have hgoes := Bool.eq_false_iff.2 hfails
  rw [if_neg hfails, show e.clearResetPasswordToken.setPassword none = cleared e from rfl]
  -- the update reads back the entry with its new password
  generalize hchanged : e.setPassword (some newPassword) = changed
  have hname : changed.name = e.name := by rw [← hchanged, Account.setPassword_name]
  have hpassword : passwordOf changed = newPassword := by
    rw [← hchanged, passwordOf_setPassword]
  have hfound : (w.called.onDirectory (·.putAccount changed)).directory.findAccount
      (cleared e).name = some changed.stored := by
    rw [cleared_name, ← hname]
    exact Directory.findAccount_putAccount w.directory changed
  have hsuspends : ¬ Suspends changed.stored (cleared e) := by
    rintro ⟨hactive, hsuspended⟩
    rw [Account.stored_isSuspended, ← hchanged, Account.setPassword_isSuspended] at hactive
    rw [cleared_isSuspended] at hsuspended
    exact Bool.false_ne_true (hactive.symm.trans hsuspended)
  have hcalls : (w.called.onDirectory (·.putAccount changed)).calls = w.calls + 1 := rfl
  dsimp only
  rw [ends_update_keeps hfound hsuspends, hcalls]
  by_cases hupdate : env.fails .ldap (w.calls + 1) = true
  · rw [if_pos hupdate]
    refine .not_told hgoes (fun h => Bool.false_ne_true (h.1.symm.trans hupdate)) ?_
    rw [stored, World.called_directory, World.onDirectory_directory, storedPassword_putAccount,
      hname, hdn, if_pos rfl, hpassword]
  rw [if_neg hupdate]
  refine (broadcast_goes _ _ _).mono fun r t ht => ⟨ht.1.trans ?_, fun _ => ?_, absurd hgoes⟩
  · exact (and_iff_right (Bool.eq_false_iff.2 hupdate)).symm.trans (and_iff_right hgoes).symm
  · have hmerged : passwordOf (changed.stored.merge (cleared e)) = newPassword := by
      rw [passwordOf, Account.getSingle_merge, cleared_password, Option.none_or]
      exact hpassword
    rw [stored, ht.2, World.onDirectory_directory, storedPassword_putAccount, Account.merge_name,
      Account.stored_name, hname, hdn, if_pos rfl, hmerged]

instance (e : Account) (password : Option String) : Decidable (Knows e password) :=
  inferInstanceAs (Decidable (_ ∧ _))

/-- A bind goes well when its call does and the password is that of the entry. -/
theorem ends_authenticate_iff {e : Account} (he : w.directory.findAccount name = some e)
    (password : Option String) (Q : Except Exn PUnit → World env.ctx → Prop) :
    Ends (CloudOs.authenticate env name password) w Q ↔
      if env.fails .ldap w.calls = false ∧ Knows e password then Q (.ok ⟨⟩) w.called
      else Q (.error (.failed .ldap)) w.called := by
  have hrefuses : (env.fails .ldap w.calls = true ∨
      ((w.directory.findAccount name).all fun a => !a.hasPassword || a.getPassword != password) =
        true) ↔ ¬ (env.fails .ldap w.calls = false ∧ Knows e password) := by
    rw [he, not_and_or, Knows, Bool.not_eq_false]
    simp [or_iff_not_imp_left]
  rw [CloudOs.authenticate, ends_ldapRequest_iff, if_congr hrefuses rfl rfl, ite_not]
  exact Iff.rfl

/-- **A caller changes its own password.**  Two binds go before the write, and the broadcast
follows. -/
theorem changePassword_comesOut {e : Account} (he : w.directory.findAccount name = some e)
    (oldPassword newPassword : String) :
    Ends (AccountDAO.changePassword env (some e) oldPassword newPassword) w
      (ComesOut (Knows e (some oldPassword) ∧ ∀ i < 3, env.fails .ldap (w.calls + i) = false)
        (BroadcastGoes env (w.calls + 3) (·.hasChangePassword)) name newPassword w) := by
  have hown := Directory.findAccount_name he
  have hdn : env.ctx.userDN e.name = env.ctx.userDN name := Directory.userDN_of_accountAt he
  simp only [AccountDAO.changePassword, checkAuth, CloudOs.changePassword, ends_bind, ends_attempt]
  rw [ends_authenticate_iff hown]
  by_cases hfirst : env.fails .ldap w.calls = false ∧ Knows e (some oldPassword)
  swap
  · rw [if_neg hfirst]
    exact .not_made (fun h => hfirst ⟨h.2 0 (by decide), h.1⟩) rfl
  rw [if_pos hfirst]
  simp only [ends_pure]
  rw [ends_authenticate_iff (w := w.called) hown, show w.called.calls = w.calls + 1 from rfl]
  by_cases hsecond : env.fails .ldap (w.calls + 1) = false ∧ Knows e (some oldPassword)
  swap
  · rw [if_neg hsecond]
    exact .not_made (fun h => hsecond ⟨h.2 1 (by decide), h.1⟩) rfl
  rw [if_pos hsecond]
  dsimp only
  rw [ends_adminChangePassword_iff (w := w.called.called) hown,
    show w.called.called.calls = w.calls + 2 from rfl]
  by_cases hthird : env.fails .ldap (w.calls + 2) = true
  · rw [if_pos hthird]
    exact .not_made (fun h => Bool.false_ne_true ((h.2 2 (by decide)).symm.trans hthird)) rfl
  rw [if_neg hthird]
  have hmade : Knows e (some oldPassword) ∧ ∀ i < 3, env.fails .ldap (w.calls + i) = false := by
    refine ⟨hfirst.2, fun i hi => ?_⟩
    obtain rfl | rfl | rfl : i = 0 ∨ i = 1 ∨ i = 2 := by omega
    · exact hfirst.1
    · exact hsecond.1
    · exact Bool.eq_false_iff.2 hthird
  refine (broadcast_goes _ _ _).mono fun r t ht => ⟨ht.1.trans (and_iff_right hmade).symm,
    fun _ => ?_, absurd hmade⟩
  rw [stored, ht.2, World.onDirectory_directory, storedPassword_putAccount,
    Account.setPassword_name, hdn, if_pos rfl, passwordOf_setPassword]

theorem writes_iff {apiKey : String} {request : ChangePasswordRequest} {account e : Account}
    (hsession : w.sessions apiKey = some account) (he : w.directory.findAccount name = some e) :
    Writes name w apiKey request ↔
      if IsOther name account then env.fails .ldap w.calls = false
      else account.name = name ∧ Knows e (some request.oldPassword) ∧
        ∀ i < 3, env.fails .ldap (w.calls + i) = false := by
  constructor
  · rintro ⟨account', e', hsession', he', h⟩
    obtain rfl := Option.some.inj (hsession.symm.trans hsession')
    obtain rfl := Option.some.inj (he.symm.trans he')
    exact h
  · exact fun h => ⟨account, e, hsession, he, h⟩

theorem tellsApps_iff {apiKey : String} {account : Account}
    (hsession : w.sessions apiKey = some account) :
    TellsApps name w apiKey ↔
      if IsOther name account then env.fails .ldap (w.calls + 1) = false ∧
        BroadcastGoes env (w.calls + 2) (·.hasChangePassword)
      else BroadcastGoes env (w.calls + 3) (·.hasChangePassword) := by
  constructor
  · exact fun h => h account hsession
  · intro h account' hsession'
    obtain rfl := Option.some.inj (hsession.symm.trans hsession')
    exact h

theorem changeTarget_comesOut {apiKey : String} {account : Account}
    {request : ChangePasswordRequest} (hsession : w.sessions apiKey = some account)
    (hallowed : account.isAdmin = true ∨ account.name = name) (hinvite : request.sendInvite = false) :
    Ends (AccountsResource.changeTarget env account name request (w.directory.findAccount name)) w
      (ComesOut (Writes name w apiKey request) (TellsApps name w apiKey) name request.newPassword
        w) := by
  have hcond : (account.isAdmin && account.name != name) = true ↔ IsOther name account := by
    simp [IsOther]
  unfold AccountsResource.changeTarget
  cases he : w.directory.findAccount name with
  | none =>
    have hnot : ¬ Writes name w apiKey request := by
      rintro ⟨_, e, -, he', -⟩
      exact Option.some_ne_none _ (he'.symm.trans he)
    by_cases hother : (account.isAdmin && account.name != name) = true
    · rw [if_pos hother]
      simp only [AccountDAO.setPassword, ends_bind, ends_throw]
      exact .not_made hnot rfl
    · rw [if_neg hother]
      simp only [AccountDAO.changePassword, checkAuth, ends_bind, ends_throw]
      exact .not_made hnot rfl
  | some e =>
    have hwrites : Writes name w apiKey request ↔ _ := writes_iff hsession he
    have htells : TellsApps name w apiKey ↔ _ := tellsApps_iff hsession
    by_cases hother : IsOther name account
    · rw [if_pos (hcond.2 hother), ends_bind]
      rw [if_pos hother] at hwrites htells
      refine (setPassword_comesOut he request.newPassword).mono fun r t ht => ?_
      have hout := ht.congr hwrites.symm htells.symm
      cases r with
      | error x => exact hout
      | ok x =>
        dsimp only
        rw [hinvite, if_neg Bool.false_ne_true]
        exact hout
    · rw [if_neg (mt hcond.1 hother)]
      rw [if_neg hother] at hwrites htells
      have hown : account.name = name := by
        by_contra hne
        exact hother ⟨hallowed.resolve_right hne, hne⟩
      refine (changePassword_comesOut he _ request.newPassword).mono fun r t ht => ?_
      exact ht.congr (hwrites.trans (and_iff_right hown)).symm htells.symm

/-- **How the resource answers** a change without an invitation. -/
theorem changePassword_answers (apiKey : String) (request : ChangePasswordRequest)
    (hinvite : request.sendInvite = false) :
    Ends (AccountsResource.changePassword env apiKey name request) w fun r t =>
      ((∃ body, r = .ok (.ok body)) ↔ Writes name w apiKey request ∧ TellsApps name w apiKey) ∧
      (Writes name w apiKey request → stored name t = some request.newPassword) ∧
      (¬ Writes name w apiKey request → stored name t = stored name w) := by
  have hrefused : ∀ r : Except Exn Response, (∀ body, r ≠ .ok (.ok body)) →
      ¬ Writes name w apiKey request →
        ((∃ body, r = .ok (.ok body)) ↔ Writes name w apiKey request ∧ TellsApps name w apiKey) ∧
        (Writes name w apiKey request → stored name w = some request.newPassword) ∧
        (¬ Writes name w apiKey request → stored name w = stored name w) := by
    intro r hr hnot
    exact ⟨iff_of_false (fun ⟨body, h⟩ => hr body h) fun h => hnot h.1, fun h => absurd h hnot,
      fun _ => rfl⟩
  simp only [AccountsResource.changePassword, ends_bind, ends_get]
  cases hsession : w.sessions apiKey with
  | none =>
    refine hrefused (.ok (.notFound apiKey)) (by simp) ?_
    rintro ⟨account, _, h, -⟩
    exact Option.some_ne_none _ (h.symm.trans hsession)
  | some account =>
    dsimp only
    split_ifs with hforbidden
    · refine hrefused (.ok .forbidden) (by simp) ?_
      rintro ⟨account', e, hsession', -, h⟩
      obtain rfl := Option.some.inj (hsession.symm.trans hsession')
      have hnotAllowed : account.isAdmin = false ∧ account.name ≠ name := by
        simpa using hforbidden
      split_ifs at h with hother
      · exact Bool.false_ne_true (hnotAllowed.1.symm.trans hother.1)
      · exact hnotAllowed.2 h.1
    · have hallowed : account.isAdmin = true ∨ account.name = name := by
        simpa [Bool.eq_false_or_eq_true, or_iff_not_imp_left] using hforbidden
      simp only [ends_bind, ends_attempt]
      refine (changeTarget_comesOut hsession hallowed hinvite).mono fun r t ht => ?_
      have hkept := And.intro ht.set ht.kept
      cases r with
      | error x =>
        have hnot : ¬ (Writes name w apiKey request ∧ TellsApps name w apiKey) := fun h =>
          of_error_eq_ok (ht.ok_iff.2 h)
        cases x <;> simp only [ends_pure] <;> exact ⟨iff_of_false (by simp) hnot, hkept⟩
      | ok x => exact ⟨iff_of_true ⟨_, rfl⟩ (ht.ok_iff.1 rfl), hkept⟩

/-- The page's request has the server write the password. -/
def Changes (wire : PasswordWire) (name : String) (w : World env.ctx) (apiKey : String)
    (body : Body) : Prop :=
  ∃ request ∈ wire.read body, Writes name w apiKey request

/-- **What `_post` returns.** -/
theorem post_returns (apiKey : String) (body : Body) (hinvite : body.sendInvite.getD false = false) :
    Ends (_post env wire apiKey name body) w fun r t =>
      (r = .ok .response ∧ Changes wire name w apiKey body ∧ TellsApps name w apiKey ∨
        r = .ok .errorObject ∧ ¬ (Changes wire name w apiKey body ∧ TellsApps name w apiKey)) ∧
      (Changes wire name w apiKey body → stored name t = body.newPassword) ∧
      (¬ Changes wire name w apiKey body → stored name t = stored name w) := by
  cases hread : wire.read body with
  | none =>
    have hnot : ¬ Changes wire name w apiKey body := by
      rintro ⟨request, h, -⟩
      exact Option.some_ne_none _ (h.symm.trans hread)
    simp only [_post, hread, ends_pure]
    exact ⟨Or.inr ⟨trivial, fun h => hnot h.1⟩, fun h => absurd h hnot, fun _ => trivial⟩
  | some request =>
    obtain ⟨-, hnew, hsend⟩ := wire.read_eq body request hread
    have hchanges : Changes wire name w apiKey body ↔ Writes name w apiKey request := by
      constructor
      · rintro ⟨request', h, hwrites⟩
        obtain rfl := Option.some.inj (hread.symm.trans h)
        exact hwrites
      · exact fun h => ⟨request, hread, h⟩
    simp only [_post, hread, ends_bind, ends_attempt, hchanges, hnew]
    refine (changePassword_answers apiKey request (hsend.trans hinvite)).mono fun r t ht => ?_
    obtain ⟨hok, hkept⟩ := ht
    have hrefused : (∀ body, r ≠ .ok (.ok body)) →
        ¬ (Writes name w apiKey request ∧ TellsApps name w apiKey) := by
      intro hr h
      obtain ⟨body, hbody⟩ := hok.2 h
      exact hr body hbody
    cases r with
    | error x => exact ⟨Or.inr ⟨rfl, hrefused (by simp)⟩, hkept⟩
    | ok answer =>
      cases answer with
      | ok body => exact ⟨Or.inl ⟨rfl, hok.1 ⟨body, rfl⟩⟩, hkept⟩
      | notFound resource => exact ⟨Or.inr ⟨rfl, hrefused (by simp)⟩, hkept⟩
      | forbidden => exact ⟨Or.inr ⟨rfl, hrefused (by simp)⟩, hkept⟩
      | invalid code => exact ⟨Or.inr ⟨rfl, hrefused (by simp)⟩, hkept⟩
      | serverError => exact ⟨Or.inr ⟨rfl, hrefused (by simp)⟩, hkept⟩

/-! ### What the user is told -/

/-- What the user has been told last is the password in the directory. -/
def ToldRight (name : String) (s : State env) : Prop := s.told = stored name s.world

/-- The event tells the user of no password that the directory does not get, and leaves none untold
that it gets. -/
def TellsRight (wire : PasswordWire) (name : String) (s : State env) : Event → Prop
  | .settings apiKey form => form.isValid = true → Changes wire name s.world apiKey form.body →
      TellsApps name s.world apiKey ∨ stored name s.world = some form.new_password
  | .profile apiKey oldPassword newPassword uuid => is_empty newPassword = false →
      Changes wire name s.world apiKey (profileBody oldPassword newPassword uuid) ∨
        stored name s.world = newPassword
  | .manageAccount apiKey newPassword => is_empty newPassword = false →
      Changes wire name s.world apiKey (adminBody newPassword) ∨ stored name s.world = newPassword
  | .request apiKey request =>
      stored name (AccountsResource.step env apiKey s.world request) = stored name s.world

theorem not_changed {told : Told} {P : Prop} (htold : told ≠ .changed)
    (h : (.ok told : Except Exn Told) = .ok .changed) : P :=
  absurd (Except.ok.inj h) htold

theorem step_holds {s : State env} {event : Event} {Q : State env → Prop}
    (h : Ends (perform env wire name event) s.world fun r t =>
      (r = .ok .changed → Q ⟨t, event.newPassword⟩) ∧ (r ≠ .ok .changed → Q ⟨t, s.told⟩)) :
    Q (step env wire name s event) := by
  unfold step
  rw [Ends] at h
  generalize exec (perform env wire name event) s.world = ended at h
  rcases ended with ⟨x | _ | _ | _, t⟩
  · exact h.2 (by simp)
  · exact h.2 (by simp)
  · exact h.1 rfl
  · exact h.2 (by simp)

/-- **A page that takes the answer as a condition** says that the password is changed, whatever the
server answers. -/
theorem post_condition (apiKey : String) (body : Body) (hinvite : body.sendInvite.getD false = false) :
    Ends (do
        let changed ← _post env wire apiKey name body
        return if changed.truthy then Told.changed else .failed : Server env Told) w fun r t =>
      r = .ok .changed ∧ (body.newPassword = stored name t ↔
        Changes wire name w apiKey body ∨ stored name w = body.newPassword) := by
  rw [ends_bind]
  refine (post_returns apiKey body hinvite).mono fun r t ht => ?_
  obtain ⟨hr, hset, hkept⟩ := ht
  have hstored : body.newPassword = stored name t ↔
      Changes wire name w apiKey body ∨ stored name w = body.newPassword := by
    by_cases hchanges : Changes wire name w apiKey body
    · exact iff_of_true (hset hchanges).symm (Or.inl hchanges)
    · rw [hkept hchanges, or_iff_right hchanges, eq_comm]
  rcases hr with ⟨rfl, -, -⟩ | ⟨rfl, -⟩
  · exact ⟨rfl, hstored⟩
  · exact ⟨rfl, hstored⟩

/-- **The settings page** says that the password is changed when it is and the apps are told. -/
theorem settings_tells {apiKey : String} {form : SettingsForm} (hvalid : form.isValid = true) :
    Ends (settings env wire apiKey name form) w fun r t =>
      (r = .ok .changed → stored name t = some form.new_password) ∧
      (r ≠ .ok .changed → (stored name w = stored name t ↔
        (Changes wire name w apiKey form.body → stored name w = some form.new_password))) ∧
      (r = .ok .changed ↔ Changes wire name w apiKey form.body ∧ TellsApps name w apiKey) := by
  rw [settings, if_neg (by rw [hvalid]; exact Bool.false_ne_true), ends_bind]
  refine (post_returns apiKey form.body rfl).mono fun r t ht => ?_
  obtain ⟨hr, hset, hkept⟩ := ht
  rcases hr with ⟨rfl, hchanges, htells⟩ | ⟨rfl, hnot⟩
  · exact ⟨fun _ => hset hchanges, fun h => absurd rfl h, iff_of_true rfl ⟨hchanges, htells⟩⟩
  · have hstored : stored name w = stored name t ↔
        (Changes wire name w apiKey form.body → stored name w = some form.new_password) := by
      by_cases hchanges : Changes wire name w apiKey form.body
      · rw [hset hchanges]
        exact ⟨fun h _ => h, fun h => h hchanges⟩
      · exact iff_of_true (hkept hchanges).symm fun h => absurd h hchanges
    exact ⟨not_changed (by decide), fun _ => hstored,
      iff_of_false (not_changed (by decide)) hnot⟩

/-- One event. -/
theorem toldRight_step_iff {s : State env} (event : Event) (hs : ToldRight name s) :
    ToldRight name (step env wire name s event) ↔ TellsRight wire name s event := by
  rw [ToldRight] at hs
  refine step_holds (Q := fun s' => ToldRight name s' ↔ TellsRight wire name s event) ?_
  cases event with
  | settings apiKey form =>
    by_cases hvalid : form.isValid = true
    · refine (settings_tells hvalid).mono fun r t ht => ⟨fun hr => ?_, fun hr => ?_⟩
      · exact iff_of_true (ht.1 hr).symm fun _ _ => Or.inl (ht.2.2.1 hr).2
      · rw [ToldRight, hs, ht.2.1 hr]
        have hnot := mt ht.2.2.2 hr
        refine ⟨fun h _ hchanges => Or.inr (h hchanges), fun h hchanges => ?_⟩
        exact (h hvalid hchanges).resolve_left fun htells => hnot ⟨hchanges, htells⟩
    · rw [perform, settings, if_pos (by simpa using hvalid), ends_pure]
      exact ⟨not_changed (by decide), fun _ => iff_of_true hs fun h => absurd h hvalid⟩
  | profile apiKey oldPassword newPassword uuid =>
    cases hempty : is_empty newPassword with
    | true =>
      rw [perform, profile, if_pos hempty, ends_pure]
      exact ⟨not_changed (by decide), fun _ => iff_of_true hs fun h =>
        Bool.noConfusion (h.symm.trans hempty)⟩
    | false =>
      rw [perform, profile, if_neg (by rw [hempty]; exact Bool.false_ne_true)]
      refine (post_condition apiKey (profileBody oldPassword newPassword uuid) rfl).mono
        fun r t ht => ⟨fun _ => ?_, fun hr => absurd ht.1 hr⟩
      exact ht.2.trans ⟨fun h _ => h, fun h => h hempty⟩
  | manageAccount apiKey newPassword =>
    cases hempty : is_empty newPassword with
    | true =>
      rw [perform, manageAccount, if_pos hempty, ends_pure]
      exact ⟨not_changed (by decide), fun _ => iff_of_true hs fun h =>
        Bool.noConfusion (h.symm.trans hempty)⟩
    | false =>
      rw [perform, manageAccount, if_neg (by rw [hempty]; exact Bool.false_ne_true)]
      refine (post_condition apiKey (adminBody newPassword) rfl).mono
        fun r t ht => ⟨fun _ => ?_, fun hr => absurd ht.1 hr⟩
      exact ht.2.trans ⟨fun h _ => h, fun h => h hempty⟩
  | request apiKey request =>
    simp only [perform, ends_bind, ends_attempt]
    refine ⟨not_changed (by decide), fun _ => ?_⟩
    rw [ToldRight, hs, eq_comm]
    exact Iff.rfl

/-- **What the user has been told last is the password in the directory**, after every event of a
run, exactly when every event of it tells right. -/
theorem told_iff {s : State env} (hs : ToldRight name s) (events : List Event) :
    (∀ before, before <+: events → ToldRight name (Runs.run (step env wire name) s before)) ↔
      Runs.Meets (step env wire name) (TellsRight wire name) s events := by
  rw [Runs.forall_prefix_iff, and_iff_right hs]
  exact Runs.meets_congr (I := ToldRight name) (fun _ _ _ h => h)
    (fun _ event hs => toldRight_step_iff event hs) hs

/-! ### Two changes of a password -/

/-- An account with a password, and its session. -/
def alice : State .mock where
  world :=
    { directory := Directory.empty.putAccount ((Account.new "alice").set .password (some "opensesame"))
      sessions := fun apiKey => if apiKey = "a" then some (Account.new "alice") else none }
  told := some "opensesame"

/-- The settings page, with the right password, and then the profile, with the old one. -/
def aliceEvents : List Event :=
  [.settings "a" ⟨"opensesame", "closesesame", "closesesame"⟩,
    .profile "a" (some "closesesame") (some "sesame") none]

theorem told_iff_alice :
    (Runs.run (step .mock .mock "alice") alice aliceEvents).told = some "sesame" ∧
      ToldRight "alice" (Runs.run (step .mock .mock "alice") alice aliceEvents) := by
  have hstart : ToldRight "alice" alice := by
    rw [ToldRight]
    decide +kernel
  have hsettings : TellsRight .mock "alice" alice
      (.settings "a" ⟨"opensesame", "closesesame", "closesesame"⟩) := by
    refine fun _ _ => Or.inl fun account _ => ?_
    split_ifs
    · exact ⟨rfl, rfl, fun _ _ => rfl⟩
    · exact ⟨rfl, fun _ _ => rfl⟩
  have hprofile : TellsRight .mock "alice" (step .mock .mock "alice" alice
      (.settings "a" ⟨"opensesame", "closesesame", "closesesame"⟩))
      (.profile "a" (some "closesesame") (some "sesame") none) := by
    refine fun _ => Or.inl ⟨⟨"closesesame", "sesame", false⟩, rfl, Account.new "alice", _, rfl, rfl, ?_⟩
    rw [if_neg (by decide +kernel)]
    exact ⟨rfl, by decide +kernel, fun _ _ => rfl⟩
  refine ⟨by decide +kernel, ?_⟩
  exact (told_iff hstart aliceEvents).2 ⟨hsettings, hprofile, trivial⟩ _ (List.prefix_refl _)

end PasswordPages

end CloudOs

/-
# Calls to the systems around the server

`CloudOsLdapService`, `SessionDAO`, the rooty sender, the mailer and the
two-factor provider, as the DAOs and resources call them.

A request to the directory either throws and changes nothing, because the call
failed or the directory refused it, or takes the directory to its next state.
`ldapRequest` is that shape, and each operation is one application of it:

| operation | refused when | the directory afterwards |
| --- | --- | --- |
| `ldapadd` | the DN exists, unless `ldapaddReplaces` | has the entry |
| `ldapmodify` | the DN does not exist | has the entry as sent |
| `ldapdelete` | never | does not have the DN |
| `authenticate` | the password is not the stored one | is unchanged |
| `adminChangePassword` | the account does not exist | has its new password |
-/

import CloudOs.Lib.Prog
import CloudOs.Model.World

namespace CloudOs

open Prog

/-- A method of the server. -/
abbrev Server (env : Env) (α : Type) := Prog (World env.ctx) Exn α

variable (env : Env)

/-- One call to an outside system. -/
def call (sys : External) : Server env PUnit :=
  callOut (fun w => env.fails sys w.calls) (.failed sys) World.called

/-- The number of the next draw of a random text, a time or a session id. -/
def draw : Server env ℕ := fun w => (.ok w.calls, w.called)

/-- `rooty.getSender().write`. -/
def writeRooty (message : RootyMessage) : Server env PUnit := do
  call env .rooty
  modify fun w => { w with sent := w.sent ++ [message] }

/-- `mailService.getMailSender().deliverMessage`. -/
def deliverMessage (mail : TemplatedMail) : Server env PUnit := do
  call env .mail
  modify fun w => { w with mail := w.mail ++ [mail] }

/-- `appDAO.getAvailableRuntimes()`. -/
def getAvailableRuntimes : Server env (List AppRuntime) := do
  call env .apps
  return env.availableRuntimes

/-- `getTwoFactorAuthService().addUser`. -/
def addUser (email mobilePhone : Option String) (countryCode : String) : Server env ℕ := do
  call env .twoFactor
  let w ← get
  modify fun w => { w with
    twoFactorUsers := ⟨w.nextAuthId, email, mobilePhone, countryCode⟩ :: w.twoFactorUsers
    nextAuthId := w.nextAuthId + 1 }
  return w.nextAuthId

/-- `getTwoFactorAuthService().deleteUser`. -/
def deleteUser (id : Option ℤ) : Server env PUnit :=
  if id = none ∧ env.deleteUserUnboxes then throw .nullPointer
  else do
    call env .twoFactor
    modify fun w => { w with
      twoFactorUsers := w.twoFactorUsers.filter fun u => some (u.id : ℤ) ≠ id }

/-! ### The directory -/

/-- A request to the directory. -/
def ldapRequest (refuses : Directory env.ctx → Bool) (f : Directory env.ctx → Directory env.ctx) :
    Server env PUnit := do
  call env .ldap
  let w ← get
  if refuses w.directory then throw (.failed .ldap) else modify (·.onDirectory f)

/-- `ldapadd` of an account. -/
def ldapaddAccount (a : Account) : Server env PUnit :=
  ldapRequest env (fun dir => (dir.findAccount a.name).isSome && !env.ldapaddReplaces)
    (·.putAccount a)

/-- `ldapmodify` of an account; `a` is the entry with its changes. -/
def ldapmodifyAccount (a : Account) : Server env PUnit :=
  ldapRequest env (fun dir => (dir.findAccount a.name).isNone) (·.putAccount a)

/-- `ldapdelete` of an account. -/
def ldapdeleteAccount (name : String) : Server env PUnit :=
  ldapRequest env (fun _ => false) (·.eraseAccount (env.ctx.userDN name))

/-- `ldapadd` of a group. -/
def ldapaddGroup (g : AccountGroup) : Server env PUnit :=
  ldapRequest env (fun dir => (dir.findGroup g.name).isSome && !env.ldapaddReplaces) (·.putGroup g)

/-- `ldapmodify` of a group; `g` is the entry with its changes. -/
def ldapmodifyGroup (g : AccountGroup) : Server env PUnit :=
  ldapRequest env (fun dir => (dir.findGroup g.name).isNone) (·.putGroup g)

/-- `ldapdelete` of a group. -/
def ldapdeleteGroup (dn : String) : Server env PUnit :=
  ldapRequest env (fun _ => false) (·.eraseGroup dn)

/-- `authenticate`: the bind as the account `name`. -/
def authenticate (name : String) (password : Option String) : Server env PUnit :=
  ldapRequest env
    (fun dir => (dir.findAccount name).all fun a => !a.hasPassword || a.getPassword != password) id

/-- `adminChangePassword`. -/
def adminChangePassword (name newPassword : String) : Server env PUnit :=
  ldapRequest env (fun dir => (dir.findAccount name).isNone) fun dir =>
    (dir.findAccount name).elim dir fun a => dir.putAccount (a.setPassword (some newPassword))

/-- `changePassword`. -/
def changePassword (name oldPassword newPassword : String) : Server env PUnit := do
  authenticate env name (some oldPassword)
  adminChangePassword env name newPassword

/-! ### `SessionDAO` -/

/-- `sessionDAO.create`: redis keeps a copy of the account under a new id. -/
def createSession (a : Account) : Server env String := do
  let w ← get
  call env .redis
  modify (·.putSession (env.sessionId w.calls) (some a))
  return env.sessionId w.calls

/-- `sessionDAO.update`.  Nothing is written after it or after `invalidateAllSessions`, and both are
taken to go through. -/
def updateSession (apiKey : String) (a : Account) : Server env PUnit :=
  modify (·.putSession apiKey (some a))

/-- `sessionDAO.invalidateAllSessions`: removes the sessions of the uuid. -/
def invalidateAllSessions (uuid : Option String) : Server env PUnit :=
  modify fun w => { w with sessions := fun k => (w.sessions k).filter (·.getUuid ≠ uuid) }

/-! ### How the calls end -/

section Ends

variable {env} {w : World env.ctx}

/-- Some request to the directory fails. -/
def LdapFails (env : Env) : Prop := ∃ n, env.fails .ldap n = true

@[simp] theorem ends_call (sys : External) (Q : Except Exn PUnit → World env.ctx → Prop) :
    Ends (call env sys) w Q
      ↔ Q (if env.fails sys w.calls then .error (.failed sys) else .ok ⟨⟩) w.called := Iff.rfl

@[simp] theorem ends_draw (Q : Except Exn ℕ → World env.ctx → Prop) :
    Ends (draw env) w Q ↔ Q (.ok w.calls) w.called := Iff.rfl

@[simp] theorem ends_createSession (a : Account) (Q : Except Exn String → World env.ctx → Prop) :
    Ends (createSession env a) w Q ↔
      if env.fails .redis w.calls then Q (.error (.failed .redis)) w.called
      else Q (.ok (env.sessionId w.calls)) (w.called.putSession (env.sessionId w.calls) (some a)) := by
  simp only [createSession, ends_bind, ends_get, ends_call]
  split_ifs <;> rfl

@[simp] theorem ends_updateSession (apiKey : String) (a : Account)
    (Q : Except Exn PUnit → World env.ctx → Prop) :
    Ends (updateSession env apiKey a) w Q ↔ Q (.ok ⟨⟩) (w.putSession apiKey (some a)) := Iff.rfl

@[simp] theorem ends_invalidateAllSessions (uuid : Option String)
    (Q : Except Exn PUnit → World env.ctx → Prop) :
    Ends (invalidateAllSessions env uuid) w Q
      ↔ Q (.ok ⟨⟩) { w with sessions := fun k => (w.sessions k).filter (·.getUuid ≠ uuid) } :=
  Iff.rfl

/-- A request to the directory throws exactly when the call fails or is refused. -/
theorem ends_ldapRequest_iff (refuses : Directory env.ctx → Bool)
    (f : Directory env.ctx → Directory env.ctx) (Q : Except Exn PUnit → World env.ctx → Prop) :
    Ends (ldapRequest env refuses f) w Q ↔
      if env.fails .ldap w.calls = true ∨ refuses w.directory = true then
        Q (.error (.failed .ldap)) w.called
      else Q (.ok ⟨⟩) (w.called.onDirectory f) := by
  simp only [ldapRequest, ends_bind, ends_call]
  by_cases hf : env.fails .ldap w.calls = true
  · rw [if_pos hf, if_pos (Or.inl hf)]
  · rw [if_neg hf]
    simp only [ends_get]
    by_cases hr : refuses w.called.directory = true
    · have hrefused : env.fails .ldap w.calls = true ∨ refuses w.directory = true := Or.inr hr
      rw [if_pos hr, if_pos hrefused, ends_throw]
    · have hgoes : ¬ (env.fails .ldap w.calls = true ∨ refuses w.directory = true) :=
        not_or.2 ⟨hf, hr⟩
      rw [if_neg hr, if_neg hgoes, ends_modify]

/-- **The rule of a directory request.**  It throws and changes no store, or it
ends normally and the directory is the next one. -/
theorem ends_ldapRequest {refuses : Directory env.ctx → Bool}
    {f : Directory env.ctx → Directory env.ctx} {Q : Except Exn PUnit → World env.ctx → Prop}
    (hfail : ∀ t, LdapFails env ∨ refuses w.directory = true → w.Same t →
      Q (.error (.failed .ldap)) t)
    (hok : ∀ t, refuses w.directory = false → w.Leaves (f w.directory) t → Q (.ok ⟨⟩) t) :
    Ends (ldapRequest env refuses f) w Q := by
  rw [ends_ldapRequest_iff]
  split_ifs with h
  · exact hfail _ (h.imp_left fun hf => ⟨_, hf⟩) ⟨rfl, rfl, rfl⟩
  · exact hok _ (Bool.eq_false_iff.2 fun hr => h (Or.inr hr)) ⟨rfl, rfl, rfl⟩

theorem respects_call (sys : External) : Respects World.Same (call env sys) :=
  fun _ => ⟨rfl, rfl, rfl⟩

theorem respects_writeRooty (message : RootyMessage) :
    Respects World.Same (writeRooty env message) :=
  (respects_call .rooty).bind fun _ => Respects.modify fun _ => ⟨rfl, rfl, rfl⟩

theorem respects_deliverMessage (mail : TemplatedMail) :
    Respects World.Same (deliverMessage env mail) :=
  (respects_call .mail).bind fun _ => Respects.modify fun _ => ⟨rfl, rfl, rfl⟩

theorem respects_getAvailableRuntimes : Respects World.Same (getAvailableRuntimes env) :=
  (respects_call .apps).bind fun _ => Respects.pure _

/-! ### What leaves the two-factor provider alone -/

theorem provider_call (sys : External) : Respects World.SameProvider (call env sys) :=
  fun _ => ⟨rfl, rfl⟩

theorem provider_draw : Respects World.SameProvider (draw env) := fun _ => ⟨rfl, rfl⟩

theorem provider_writeRooty (message : RootyMessage) :
    Respects World.SameProvider (writeRooty env message) :=
  (provider_call .rooty).bind fun _ => Respects.modify fun _ => ⟨rfl, rfl⟩

theorem provider_deliverMessage (mail : TemplatedMail) :
    Respects World.SameProvider (deliverMessage env mail) :=
  (provider_call .mail).bind fun _ => Respects.modify fun _ => ⟨rfl, rfl⟩

theorem provider_getAvailableRuntimes : Respects World.SameProvider (getAvailableRuntimes env) :=
  (provider_call .apps).bind fun _ => Respects.pure _

theorem provider_ldapRequest (refuses : Directory env.ctx → Bool)
    (f : Directory env.ctx → Directory env.ctx) :
    Respects World.SameProvider (ldapRequest env refuses f) := by
  intro w
  rw [ends_ldapRequest_iff]
  split_ifs <;> exact ⟨rfl, rfl⟩

end Ends

end CloudOs

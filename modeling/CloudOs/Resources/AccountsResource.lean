/-
# `AccountsResource`

The endpoints of `/accounts`.  Each picks its accounts from three places: the
session (who calls), the path (what the guards look at) and the body (what is
written).  `update` checks the session against the path, looks up the path for
the two-factor bookkeeping, and hands the body to `AccountDAO.update`, which
writes the entry that the body names.

| endpoint | who may call it | whose entry it writes |
| --- | --- | --- |
| `findAll` | an admin | none |
| `addAccount` | an admin | the body's |
| `update` | an admin, or the account that the path names | the body's |
| `changePassword` | an admin, or the account that the path names | the path's |
| `find` | an admin, or the account that the path names | none |
| `delete` | an admin | the path's, in lower case |

`login` is in `AccountsResourceBase`, which is not part of the repository.  Here
it is what the repository relies on: `accountDAO.authenticate`, what else the base
class asks (`acceptsLogin`), `beforeSessionStart`, and a session for the account.

An exception that leaves an endpoint is answered by the container; the state
stays as it was when the exception was thrown.
-/

import CloudOs.Dao.AccountDAO
import CloudOs.Lib.Runs

namespace CloudOs

open Prog

/-- A request to `/accounts` on a session. -/
inductive AccountsRequest
  | findAll
  | addAccount (name : String) (request : Account)
  | update (name : String) (request : Account)
  | changePassword (name : String) (request : ChangePasswordRequest)
  | find (name : String)
  | delete (name : String)

namespace AccountsResource

variable (env : Env)

/-- `beforeSessionStart`. -/
def beforeSessionStart (login : LoginRequest) (account : Account) : Account :=
  account.setPassword login.password

def login (login : LoginRequest) : Server env Response := do
  match ← attempt (AccountDAO.authenticate env login) with
  | .error (.authentication .notFound) => return .notFound login.name
  | .error _ => return .forbidden
  | .ok account =>
    if env.acceptsLogin login account then do
      let account := beforeSessionStart login account
      let sessionId ← createSession env account
      return .ok (.auth sessionId account)
    else return .forbidden

def set2factor (request : Account) : Server env Account := do
  let countryCode ← reads fun _ => request.getMobilePhoneCountryCodeString
  let id ← addUser env request.getEmail request.getMobilePhone countryCode
  return request.setAuthIdInt id

def remove2factor (account : Account) : Server env PUnit := do
  let id ← reads fun _ => account.getAuthIdInt
  deleteUser env id

/-- `sendInvitation`; an error of the mailer is logged. -/
def sendInvitation (admin created : Account) (password : Option String) : Server env PUnit := do
  let _ ← attempt (deliverMessage env
    { fromEmail := admin.name ++ "@" ++ env.hostname
      fromName := admin.getFullName
      toEmail := created.getEmail
      toName := created.name
      account := created
      admin := admin
      hostname := env.hostname
      password := password })
  return ⟨⟩

def findAll (apiKey : String) : Server env Response := do
  let w ← get
  match w.sessions apiKey with
  | none => return .notFound apiKey
  | some admin =>
    if !admin.isAdmin then return .forbidden
    else return .ok (.accounts w.directory.accounts.values)

/-- `addAccount`; the path name is not used. -/
def addAccount (apiKey _name : String) (request : Account) : Server env Response := do
  let w ← get
  match w.sessions apiKey with
  | none => return .notFound apiKey
  | some admin =>
    if !admin.isAdmin then return .forbidden
    else do
      let request ← (if request.isTwoFactor then set2factor env request else pure request)
      match ← attempt (AccountDAO.create env request) with
      | .error _ => return .serverError
      | .ok (request, created) => do
        sendInvitation env admin created request.getPassword
        return .ok (.account created)

/-- The two-factor bookkeeping of `update`; `request.getMobilePhone().equals` is called
on an absent phone number too. -/
def updateTwoFactor (request found : Account) : Server env Account :=
  if !request.isTwoFactor && found.isTwoFactor then do
    remove2factor env found
    return request
  else if request.isTwoFactor && !found.isTwoFactor then set2factor env request
  else match request.getMobilePhone with
    | none => throw .nullPointer
    | some phone =>
      if some phone != found.getMobilePhone then do
        remove2factor env found
        set2factor env request
      else return request

/-- The request as it is written for the caller: no one but an admin makes an admin. -/
def asked (account request : Account) : Account :=
  if !account.isAdmin then request.setAdmin false else request

def update (apiKey name : String) (request : Account) : Server env Response := do
  let w ← get
  match w.sessions apiKey with
  | none => return .notFound apiKey
  | some account =>
    if !account.isAdmin && account.name != name then return .forbidden
    else if account.isAdmin && env.isSameName (asked account request) account &&
        (asked account request).isSuspended then
      return .invalid "err.admin.cannotSuspendSelf"
    else match w.directory.findAccount name with
      | none => return .notFound name
      | some found => do
        let request ← updateTwoFactor env (asked account request) found
        match ← attempt (AccountDAO.update env request) with
        | .error _ => return .serverError
        | .ok found =>
          if request.isSuspended then do
            invalidateAllSessions env found.getUuid
            return .ok (.account account)
          else do
            updateSession env apiKey account
            return .ok (.account account)

/-- The `try` of `changePassword`: an admin sets the password of another account. -/
def changeTarget (account : Account) (name : String) (request : ChangePasswordRequest)
    (target : Option Account) : Server env PUnit :=
  if account.isAdmin && account.name != name then do
    AccountDAO.setPassword env target request.newPassword
    match target with
    | some created =>
      if request.sendInvite then
        -- `setPassword` has cleared the reset token and the password of its argument
        sendInvitation env account (created.clearResetPasswordToken.setPassword none)
          (some request.newPassword)
      else return ⟨⟩
    | none => throw .nullPointer
  else AccountDAO.changePassword env target request.oldPassword request.newPassword

def changePassword (apiKey name : String) (request : ChangePasswordRequest) :
    Server env Response := do
  let w ← get
  match w.sessions apiKey with
  | none => return .notFound apiKey
  | some account =>
    let targetIsSelf := account.name == name
    if !(account.isAdmin || targetIsSelf) then return .forbidden
    else
      match ← attempt (changeTarget env account name request (w.directory.findAccount name)) with
      | .error (.authentication _) => return .forbidden
      | .error _ => return .serverError
      | .ok _ => return .ok (.account account)

def find (apiKey name : String) : Server env Response := do
  let name := env.ctx.toLowerCase name
  let w ← get
  match w.sessions apiKey with
  | none => return .notFound apiKey
  | some account =>
    if !account.isAdmin && !env.ctx.equalsIgnoreCase account.name name then return .forbidden
    else match w.directory.findAccount name with
      | none => return .notFound name
      | some found =>
        if found.isSuspended && !account.isAdmin then return .notFound name
        else return .ok (.account found)

/-- What `delete` tells the two-factor provider. -/
def forget2factor (toDelete : Option Account) : Server env PUnit :=
  match toDelete with
  | some toDelete => if toDelete.hasAuthId then remove2factor env toDelete else return ⟨⟩
  | none => return ⟨⟩

def delete (apiKey name : String) : Server env Response := do
  let w ← get
  match w.sessions apiKey with
  | none => return .notFound apiKey
  | some admin =>
    let name := env.ctx.toLowerCase name
    if !admin.isAdmin then return .forbidden
    else if name == admin.name || name == env.smtpUser then return .forbidden
    else do
      forget2factor env (w.directory.findAccount name)
      match ← attempt (AccountDAO.delete env name) with
      | .error _ => return .serverError
      | .ok _ => return .ok (.flag true)

/-- The answer to a request. -/
def serve (apiKey : String) : AccountsRequest → Server env Response
  | .findAll => findAll env apiKey
  | .addAccount name request => addAccount env apiKey name request
  | .update name request => update env apiKey name request
  | .changePassword name request => changePassword env apiKey name request
  | .find name => find env apiKey name
  | .delete name => delete env apiKey name

/-- The state after a request, however it ends. -/
def step (apiKey : String) (w : World env.ctx) (request : AccountsRequest) : World env.ctx :=
  after (serve env apiKey request) w

/-! ### What the endpoints write -/

section Ends

variable {env} {w : World env.ctx}

theorem respects_sendInvitation (admin created : Account) (password : Option String) :
    Respects World.Same (sendInvitation env admin created password) :=
  (respects_deliverMessage _).attempt.bind fun _ => Respects.pure _

/-- `q` is `request`, with or without a new two-factor id. -/
def WithAuthId (request q : Account) : Prop := q = request ∨ ∃ n, q = request.setAuthIdInt n

theorem WithAuthId.name {request q : Account} (h : WithAuthId request q) : q.name = request.name := by
  rcases h with rfl | ⟨n, rfl⟩ <;> simp

theorem WithAuthId.isAdmin {request q : Account} (h : WithAuthId request q) :
    q.isAdmin = request.isAdmin := by
  rcases h with rfl | ⟨n, rfl⟩ <;> simp

theorem WithAuthId.isSuspended {request q : Account} (h : WithAuthId request q) :
    q.isSuspended = request.isSuspended := by
  rcases h with rfl | ⟨n, rfl⟩ <;> simp

theorem WithAuthId.getSingle {request q : Account} (h : WithAuthId request q) {attr : AccountAttr}
    (hattr : attr ≠ .twoFactorAuthId) : q.getSingle attr = request.getSingle attr := by
  rcases h with rfl | ⟨n, rfl⟩
  · rfl
  · rw [Account.setAuthIdInt, Account.getSingle_set, if_neg hattr]

theorem WithAuthId.takes {request q e a : Account} (h : WithAuthId request q)
    (ha : e.Overlaid q a) : e.Takes request a := by
  rcases h with rfl | ⟨n, rfl⟩
  · exact ha.takes
  · exact ha.takes.of_setAuthIdInt

@[simp] theorem asked_name (account request : Account) :
    (asked account request).name = request.name := by
  unfold asked
  split_ifs <;> rfl

/-- The request as it is written differs in the admin flag alone. -/
theorem asked_getSingle {attr : AccountAttr} (hattr : attr ≠ .admin) (account request : Account) :
    (asked account request).getSingle attr = request.getSingle attr := by
  unfold asked
  split_ifs
  · rw [Account.setAdmin, Account.getSingle_set, if_neg hattr]
  · rfl

@[simp] theorem asked_isSuspended (account request : Account) :
    (asked account request).isSuspended = request.isSuspended := by
  rw [Account.isSuspended, asked_getSingle (by decide), Account.isSuspended]

@[simp] theorem asked_getMobilePhone (account request : Account) :
    (asked account request).getMobilePhone = request.getMobilePhone := by
  rw [Account.getMobilePhone, asked_getSingle (by decide), Account.getMobilePhone]

@[simp] theorem asked_isTwoFactor (account request : Account) :
    (asked account request).isTwoFactor = request.isTwoFactor := by
  rw [Account.isTwoFactor, asked_getSingle (by decide), Account.isTwoFactor]

@[simp] theorem asked_getUuid (account request : Account) :
    (asked account request).getUuid = request.getUuid := by
  rw [Account.getUuid, asked_getSingle (by decide), Account.getUuid]

end Ends

end AccountsResource

end CloudOs

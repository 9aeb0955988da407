/-
# `SetupResource` and `SetupSettingsSource`

`POST /setup` creates the first admin account.  It reads the key file, looks for
administrators, creates the account and updates it, opens a session and truncates
the key file.  When the update fails the account is deleted again.

Two requests can be served at the same time.  `Phase` says where a request stands,
and `advance` takes it to the next phase; `setup` is the phases one after the other
(`drive_setup`).

| phase | what is done next |
| --- | --- |
| `validate` | `validateFirstTimeSetup` |
| `adminsExist` | `adminsExist` |
| `create` | `accountDAO.create` |
| `update` | `accountDAO.update` |
| `undo` | `accountDAO.delete`, after a failed update |
| `session` | the time zone, `sessionDAO.create` |
| `complete` | `firstTimeSetupCompleted`, the apps of the account |
| `done` | nothing |
-/

import CloudOs.Dao.AccountDAO
import CloudOs.Dao.Search
import CloudOs.Lib.Runs

namespace CloudOs

open Prog

namespace SetupSettingsSource

variable (env : Env)

def canSetup : KeyFile → Bool
  | .missing => false
  | _ => true

/-- `getSettings`; the text of a truncated file is read as no settings. -/
def getSettings : KeyFile → Except Exn (Option SetupSettings)
  | .missing => .error (.die "toStringOrDie")
  | .truncated => .ok none
  | .settings s => .ok (some s)

def validateSecrets (request : SetupRequest) (settings : SetupSettings) : Except Exn PUnit :=
  if settings.secret != request.setupKey then
    .error (.invalidEx "\x7berr.setup.key.invalid\x7d" none)
  else if !env.checkpw request.initialPassword settings.passwordHash then
    .error (.invalidEx "\x7berr.setup.initialPassword.invalid\x7d" none)
  else .ok ⟨⟩

/-- `validateFirstTimeSetup`: the backup key, when the key file is there and the secrets
of the request are those of its settings. -/
def validateFirstTimeSetup (request : SetupRequest) (keyFile : KeyFile) : Except Exn String := do
  if !canSetup keyFile then throw (.invalidEx "\x7berr.setup.alreadySetup\x7d" none)
  else
    match ← getSettings keyFile with
    | none => throw (.invalidEx "\x7berr.setup.alreadySetup\x7d" none)
    | some settings => do
      validateSecrets env request settings
      return settings.backupKey

/-- `firstTimeSetupCompleted`; an error of the file system is logged. -/
def firstTimeSetupCompleted : Server env PUnit := do
  let _ ← attempt (do
    call env .keyFile
    modify fun w => { w with keyFile := .truncated })
  return ⟨⟩

end SetupSettingsSource

namespace SetupResource

variable (env : Env)

def adminsExist (dir : Directory env.ctx) : Except Exn Bool :=
  (AccountDAO.findAdmins dir).map fun admins => !admins.isEmpty

def canSetup : Server env Response := do
  let w ← get
  if SetupSettingsSource.canSetup w.keyFile then do
    let exist ← reads fun w => adminsExist env w.directory
    return .ok (.flag !exist)
  else return .ok (.flag false)

/-- The account as it is updated: verified, logged in, with the password that the
session keeps. -/
def activated (request account : Account) (now : ℕ) : Account :=
  ((account.setEmailVerified true).setLastLogin now).setPassword request.getPassword

@[simp] theorem activated_name (request account : Account) (now : ℕ) :
    (activated request account now).name = account.name := by
  simp [activated, Account.setEmailVerified, Account.setLastLogin]

@[simp] theorem activated_isAdmin (request account : Account) (now : ℕ) :
    (activated request account now).isAdmin = account.isAdmin := by
  simp [activated, Account.setEmailVerified, Account.setLastLogin, Account.isAdmin]

/-- The message that sets the time zone of the system; an id without a time zone throws. -/
def setTimezone (request : SetupRequest) : Server env PUnit :=
  match request.systemTimeZone with
  | some timezone =>
    match env.linuxName timezone with
    | some linuxName => writeRooty env (.systemSetTimezone linuxName)
    | none => throw .nullPointer
  | none => return ⟨⟩

def setup (request : SetupRequest) : Server env Response := do
  let backupKey ← reads fun w => SetupSettingsSource.validateFirstTimeSetup env request w.keyFile
  let exist ← reads fun w => adminsExist env w.directory
  if exist then return .invalid "\x7berr.setup.adminsExist\x7d"
  else
    match ← attempt (AccountDAO.create env (request.setAdmin true)) with
    | .error _ => return .serverError
    | .ok (request', account) => do
      let now ← draw env
      let account := activated request' account (env.currentTimeMillis now)
      match ← attempt (AccountDAO.update env account) with
      | .error _ => do
        AccountDAO.delete env account.name
        return .serverError
      | .ok _ => do
        setTimezone env request
        let sessionId ← createSession env account
        SetupSettingsSource.firstTimeSetupCompleted env
        -- the apps are listed, and the restore key of the answer is made from the configuration
        call env .apps
        return .ok (.setup sessionId account backupKey)

/-! ### Its phases -/

/-- Where a request stands, with what it has in its variables. -/
inductive Phase
  | validate
  | adminsExist (backupKey : String)
  | create (backupKey : String)
  | update (backupKey : String) (account : Account)
  | undo (accountName : String)
  | session (backupKey : String) (account : Account)
  | complete (backupKey : String) (account : Account) (sessionId : String)
  | done (result : Except Exn Response)

/-- One phase of a request. -/
def advance (request : SetupRequest) : Phase → Server env Phase
  | .validate => do
    let backupKey ← reads fun w => SetupSettingsSource.validateFirstTimeSetup env request w.keyFile
    return .adminsExist backupKey
  | .adminsExist backupKey => do
    let exist ← reads fun w => adminsExist env w.directory
    return if exist then .done (.ok (.invalid "\x7berr.setup.adminsExist\x7d")) else .create backupKey
  | .create backupKey => do
    match ← attempt (AccountDAO.create env (request.setAdmin true)) with
    | .error _ => return .done (.ok .serverError)
    | .ok (request', account) => do
      let now ← draw env
      return .update backupKey (activated request' account (env.currentTimeMillis now))
  | .update backupKey account => do
    match ← attempt (AccountDAO.update env account) with
    | .error _ => return .undo account.name
    | .ok _ => return .session backupKey account
  | .undo accountName => do
    AccountDAO.delete env accountName
    return .done (.ok .serverError)
  | .session backupKey account => do
    setTimezone env request
    let sessionId ← createSession env account
    return .complete backupKey account sessionId
  | .complete backupKey account sessionId => do
    SetupSettingsSource.firstTimeSetupCompleted env
    call env .apps
    return .done (.ok (.ok (.setup sessionId account backupKey)))
  | .done result => return .done result

/-- The next `n` phases of a request. -/
def drive (request : SetupRequest) : ℕ → Phase → Server env Phase
  | 0, p => return p
  | n + 1, p => do
    let q ← advance env request p
    drive request n q

variable {env}

@[simp] theorem drive_done (request : SetupRequest) (n : ℕ) (result : Except Exn Response) :
    drive env request n (.done result) = pure (.done result) := by
  induction n with
  | zero => rfl
  | succ n ih => simp only [drive, advance, pure_bind, ih]

/-- **The phases make up `setup`.** -/
theorem drive_setup (request : SetupRequest) : drive env request 6 .validate =
    (do let response ← setup env request; return .done (.ok response)) := by
  simp only [drive, advance, setup, bind_assoc, pure_bind]
  refine bind_congr fun backupKey => bind_congr fun exist => ?_
  cases exist with
  | true => simp
  | false =>
    simp only [Bool.false_eq_true, if_false, bind_assoc]
    refine bind_congr fun created => ?_
    cases created with
    | error x => simp
    | ok created =>
      simp only [bind_assoc, pure_bind]
      refine bind_congr fun now => bind_congr fun updated => ?_
      cases updated with
      | error x => simp
      | ok _ => simp

end SetupResource

end CloudOs

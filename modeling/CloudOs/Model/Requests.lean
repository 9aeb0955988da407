/-
# Requests, answers, exceptions and messages

The data that crosses the edge of the server: the bodies of its requests, the
answers of its resources, the exceptions of its methods, and what it sends to
the systems around it.

`Exn` keeps the text of an exception where the source writes one.  An exception
that another one wraps (`die(message, e)`) is kept as its cause.  `Response` has
one constructor for each helper of `ResourceUtil` that the resources call.
-/

import CloudOs.Model.Account

namespace CloudOs

/-- `cloudos.model.auth.LoginRequest`. -/
structure LoginRequest where
  name : String
  password : Option String

/-- `cloudos.model.auth.ChangePasswordRequest`. -/
structure ChangePasswordRequest where
  oldPassword : String
  newPassword : String
  sendInvite : Bool := false

/-- `cloudos.model.support.SetupRequest`: an account with three more fields. -/
structure SetupRequest extends Account where
  setupKey : String
  initialPassword : String
  systemTimeZone : Option Int := none

/-- `cloudos.resources.setup.SetupSettings`, the content of the setup key file. -/
structure SetupSettings where
  secret : String
  email : String
  passwordHash : String
  backupKey : String

/-- `SETUP_KEY_FILE`: `firstTimeSetupCompleted` truncates the file, it does not
remove it. -/
inductive KeyFile
  | missing
  | truncated
  | settings (s : SetupSettings)

/-- A system that the server calls and that may fail. -/
inductive External
  | ldap | twoFactor | rooty | mail | apps | keyFile | redis
  deriving DecidableEq, Repr

/-- `AuthenticationException.Problem`. -/
inductive Problem
  | invalid | notFound
  deriving DecidableEq, Repr

/-- An exception. -/
inductive Exn
  | die (message : String)
  | dieOf (message : String) (cause : Exn)
  | invalidEx (code : String) (message : Option String)
  | authentication (problem : Problem)
  | notSupported (message : String)
  | illegalArgument (message : String)
  | nullPointer
  | stackOverflow
  | failed (system : External)
  deriving DecidableEq, Repr

/-- The entity of an answer. -/
inductive Body
  | account (a : Account)
  | accounts (l : List Account)
  | auth (sessionId : String) (a : Account)
  | setup (sessionId : String) (a : Account) (backupKey : String)
  | flag (b : Bool)

/-- The answer of a resource. -/
inductive Response
  | ok (body : Body)
  | notFound (resource : String)
  | forbidden
  | invalid (code : String)
  | serverError

/-- What `AppRuntime` says of an app's user management. -/
structure AppRuntime where
  name : String
  hasUserManagement : Bool
  hasUserCreate : Bool
  hasUserDelete : Bool
  hasChangePassword : Bool

/-- `rooty.toots.app.AppScriptMessageType`. -/
inductive AppScriptMessageType
  | user_create | user_delete | user_change_password
  deriving DecidableEq, Repr

/-- A message to rooty. -/
inductive RootyMessage
  | newAccountEvent (name : String) (admin : Bool)
  | removeAccountEvent (name : String) (admin : Bool)
  | appScript (app : String) (type : AppScriptMessageType) (args : List String)
  | systemSetTimezone (linuxName : String)
  deriving DecidableEq, Repr

/-- The welcome mail: `T_WELCOME`, locale `en_US`. -/
structure TemplatedMail where
  fromEmail : String
  fromName : String
  toEmail : Option String
  toName : String
  account : Account
  admin : Account
  hostname : String
  password : Option String

/-- A user registered with the two-factor provider. -/
structure TwoFactorUser where
  id : ℕ
  email : Option String
  mobilePhone : Option String
  countryCode : String

end CloudOs

/-
# The public getters of `Account`

What a caller can ask of an account beyond the getters that the server itself
asks, which are in `CloudOs.Model.Account`.  A getter of a number reads it from a
text and may throw.  Two getters look at the clock.

`Getters` is everything the getters answer, as one value.  The getters that
give the same text or flag for every account (`getIdField`, `getParentDn`, the
object classes, the required attributes) are left out, and so is
`availableApps`, which no search fills.
-/

import CloudOs.Model.Numbers

namespace CloudOs

namespace Account

variable (a : Account)

def isEmailVerified : Bool := safeBoolean (a.getSingle .emailVerified) false

def getEmailVerificationCode : Option String := a.getSingle .emailVerificationCode

def getEmailVerificationCodeCtime : Except Exn (Option ℤ) :=
  safeLong (a.getSingle .emailVerificationCodeCtime)

/-- `isEmailVerificationCodeValid` at the time `now`. -/
def isEmailVerificationCodeValid (expiration now : ℤ) : Except Exn Bool := do
  match ← a.getEmailVerificationCodeCtime with
  | none => return false
  | some ctime => return wrap (ctime + expiration) < now

/-- `getResetTokenAge` at the time `now`. -/
def getResetTokenAge (now : ℤ) : Except Exn ℤ := do
  match ← safeLong (a.getSingle .resetPasswordTokenCtime) with
  | none => return maxLong
  | some ctime => return wrap (now - ctime)

def getFirstName : Option String := a.getSingle .firstName

def getLastName : Option String := a.getSingle .lastName

def getLastNameFirstName : String := a.getLastName.getD "null" ++ ", " ++ a.getFirstName.getD "null"

def getMobilePhoneCountryCode : Except Exn (Option ℤ) := safeInt (a.getSingle .mobilePhoneCountryCode)

/-- `String.valueOf` of the country code. -/
def getMobilePhoneCountryCodeString : Except Exn String := do
  match ← a.getMobilePhoneCountryCode with
  | none => return "null"
  | some code => return toString code

def getAuthIdInt : Except Exn (Option ℤ) := safeInt (a.getSingle .twoFactorAuthId)

def getLastLogin : Except Exn (Option ℤ) := safeLong (a.getSingle .lastLogin)

def getLocale : Option String := a.getSingle .locale

def hasLocale : Bool := !empty a.getLocale

def getStorageQuota : Except Exn (Option ℤ) := safeLong (a.getSingle .storageQuota)

/-- `getStorageQuotaString`; `format` is `Bytes.format`, which takes a `long`. -/
def getStorageQuotaString (format : ℤ → String) : Except Exn String := do
  match ← a.getStorageQuota with
  | none => throw .nullPointer
  | some quota => return format quota

end Account

/-- The answers of the getters. -/
structure Getters where
  name : String
  uuid : Option String
  email : Option String
  emailVerified : Bool
  emailVerificationCode : Option String
  emailVerificationCodeCtime : Except Exn (Option ℤ)
  emailVerificationCodeValid : ℤ → ℤ → Except Exn Bool
  resetTokenAge : ℤ → Except Exn ℤ
  resetToken : Option String
  firstName : Option String
  lastName : Option String
  fullName : String
  lastNameFirstName : String
  mobilePhone : Option String
  mobilePhoneCountryCode : Except Exn (Option ℤ)
  mobilePhoneCountryCodeString : Except Exn String
  admin : Bool
  suspended : Bool
  twoFactor : Bool
  authId : Option String
  hasAuthId : Bool
  authIdInt : Except Exn (Option ℤ)
  lastLogin : Except Exn (Option ℤ)
  hasLastLogin : Except Exn Bool
  locale : Option String
  hasLocale : Bool
  storageQuota : Except Exn (Option ℤ)
  storageQuotaString : Except Exn String
  password : Option String
  hasPassword : Bool

/-- Every getter asked of an account. -/
def Account.getters (format : ℤ → String) (a : Account) : Getters where
  name := a.name
  uuid := a.getUuid
  email := a.getEmail
  emailVerified := a.isEmailVerified
  emailVerificationCode := a.getEmailVerificationCode
  emailVerificationCodeCtime := a.getEmailVerificationCodeCtime
  emailVerificationCodeValid := a.isEmailVerificationCodeValid
  resetTokenAge := a.getResetTokenAge
  resetToken := a.getResetToken
  firstName := a.getFirstName
  lastName := a.getLastName
  fullName := a.getFullName
  lastNameFirstName := a.getLastNameFirstName
  mobilePhone := a.getMobilePhone
  mobilePhoneCountryCode := a.getMobilePhoneCountryCode
  mobilePhoneCountryCodeString := a.getMobilePhoneCountryCodeString
  admin := a.isAdmin
  suspended := a.isSuspended
  twoFactor := a.isTwoFactor
  authId := a.getAuthId
  hasAuthId := a.hasAuthId
  authIdInt := a.getAuthIdInt
  lastLogin := a.getLastLogin
  hasLastLogin := a.getLastLogin.map Option.isSome
  locale := a.getLocale
  hasLocale := a.hasLocale
  storageQuota := a.getStorageQuota
  storageQuotaString := a.getStorageQuotaString format
  password := a.getPassword
  hasPassword := a.hasPassword

end CloudOs

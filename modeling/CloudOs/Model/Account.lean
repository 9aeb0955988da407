/-
# `Account`

`cloudos.model.Account` and `AccountRequest`, which adds no field to it: an
account that arrives in a request body is an `Account`.

A boolean attribute is stored as the text `true` or `false` and read through a
default: an absent `admin`, `suspended` or `twoFactor` reads as `false`.

The password stands in two places.  `setPassword` writes the transient Java
field and the directory attribute; `getPassword` prefers the field.  `merge`
copies directory attributes, so the field of its argument is not copied.
`availableApps`, which `SessionDAO` fills for the browser, is left out.
-/

import CloudOs.Model.LdapEntity
import Mathlib.Data.List.Basic

namespace CloudOs

/-- The attributes of an account, under their Java names. -/
inductive AccountAttr
  | uuid | email | password | firstName | lastName | mobilePhone | mobilePhoneCountryCode | locale
  | emailVerified | emailVerificationCode | emailVerificationCodeCtime
  | resetPasswordToken | resetPasswordTokenCtime
  | admin | suspended | twoFactor | twoFactorAuthId | lastLogin | storageQuota
  deriving DecidableEq, Repr

/-- The attributes in the order of their declaration. -/
def AccountAttr.all : List AccountAttr :=
  [.uuid, .email, .password, .firstName, .lastName, .mobilePhone, .mobilePhoneCountryCode, .locale,
    .emailVerified, .emailVerificationCode, .emailVerificationCodeCtime,
    .resetPasswordToken, .resetPasswordTokenCtime,
    .admin, .suspended, .twoFactor, .twoFactorAuthId, .lastLogin, .storageQuota]

theorem AccountAttr.mem_all (a : AccountAttr) : a ∈ AccountAttr.all := by
  cases a <;> decide

/-- The two tokens of an account. -/
inductive Token
  | emailVerificationCode | resetPasswordToken
  deriving DecidableEq, Repr

/-- The attribute of a token, and the attribute of the time it was made. -/
def Token.attr : Token → AccountAttr
  | emailVerificationCode => .emailVerificationCode
  | resetPasswordToken => .resetPasswordToken

def Token.ctime : Token → AccountAttr
  | emailVerificationCode => .emailVerificationCodeCtime
  | resetPasswordToken => .resetPasswordTokenCtime

/-- `ZillaRuntime.empty` of a string: `null` or `""`. -/
def empty (s : Option String) : Bool := s.getD "" == ""

/-- `Boolean.valueOf`: the word `true` in any case; `null` and every other text is
`false`. -/
def booleanValueOf (s : Option String) : Bool :=
  match s with
  | some t => t.toList.map Char.toLower == "true".toList
  | none => false

/-- `safeBoolean`: `Boolean.valueOf`, with a default for `null`. -/
def safeBoolean (s : Option String) (dflt : Bool) : Bool :=
  if empty s then dflt else booleanValueOf s

/-- `LdapUtil.ldapBoolean`. -/
def ldapBoolean (b : Bool) : String := if b then "true" else "false"

@[simp] theorem booleanValueOf_none : booleanValueOf none = false := rfl

@[simp] theorem booleanValueOf_ldapBoolean (b : Bool) :
    booleanValueOf (some (ldapBoolean b)) = b := by
  cases b <;> decide

@[simp] theorem safeBoolean_none (dflt : Bool) : safeBoolean none dflt = dflt := rfl

@[simp] theorem safeBoolean_ldapBoolean (b dflt : Bool) :
    safeBoolean (some (ldapBoolean b)) dflt = b := by
  cases b <;> cases dflt <;> decide

/-- `cloudos.model.Account`: the directory entry and the transient `password`. -/
structure Account extends LdapEntity AccountAttr where
  transientPassword : Option String := none

namespace Account

/-- `new Account(config())` named `name`. -/
def new (name : String) : Account := { LdapEntity.new name with }

variable (a : Account)

/-- The directory attributes rewritten, the transient field kept. -/
def withEntity (f : LdapEntity AccountAttr → LdapEntity AccountAttr) : Account :=
  { a with toLdapEntity := f a.toLdapEntity }

def set (attr : AccountAttr) (v : Option String) : Account := a.withEntity (·.set attr v)

def remove (attr : AccountAttr) : Account := a.withEntity (·.remove attr)

/-- `LdapEntity.merge` keeps the receiver's name and transient field. -/
def merge (other : Account) : Account := a.withEntity (·.merge other.toLdapEntity)

def getUuid : Option String := a.getSingle .uuid

def getEmail : Option String := a.getSingle .email

/-- String concatenation prints an absent name as `null`. -/
def getFullName : String :=
  (a.getSingle .firstName).getD "null" ++ " " ++ (a.getSingle .lastName).getD "null"

def getMobilePhone : Option String := a.getSingle .mobilePhone

def isAdmin : Bool := booleanValueOf (a.getSingle .admin)

def setAdmin (value : Bool) : Account := a.set .admin (some (ldapBoolean value))

def isSuspended : Bool := safeBoolean (a.getSingle .suspended) false

def setSuspended (value : Bool) : Account := a.set .suspended (some (ldapBoolean value))

def isTwoFactor : Bool := safeBoolean (a.getSingle .twoFactor) false

def getAuthId : Option String := a.getSingle .twoFactorAuthId

def hasAuthId : Bool := !empty a.getAuthId

def setAuthIdInt (value : ℕ) : Account := a.set .twoFactorAuthId (some (toString value))

def getResetToken : Option String := a.getSingle .resetPasswordToken

def clearResetPasswordToken : Account := a.remove .resetPasswordToken

def clearEmailVerificationCode : Account := a.remove .emailVerificationCode

def setEmailVerified (verified : Bool) : Account :=
  if verified then a.set .emailVerified (some (ldapBoolean true)) else a.remove .emailVerified

/-- `setLastLogin()` at the time `now`. -/
def setLastLogin (now : ℕ) : Account := a.set .lastLogin (some (toString now))

/-- `initToken`, with the random `token`, at the time `now`. -/
def initToken (field : Token) (token : String) (now : ℕ) : Account :=
  (a.set field.attr (some token)).set field.ctime (some (toString now))

def initResetToken (token : String) (now : ℕ) : Account := a.initToken .resetPasswordToken token now

/-- `initEmailVerificationCode`: `initToken` with the random `token`, at the time
`now`. -/
def initEmailVerificationCode (token : String) (now : ℕ) : Account :=
  (a.set .emailVerificationCode (some token)).set .emailVerificationCodeCtime (some (toString now))

def getPassword : Option String :=
  if empty a.transientPassword then a.getSingle .password else a.transientPassword

def setPassword (p : Option String) : Account :=
  let a := ({ a with transientPassword := p } : Account).remove .password
  if empty p then a else a.set .password p

def hasPassword : Bool := !empty a.getPassword

/-- The account as the directory keeps it: attributes only. -/
def stored : Account := { a with transientPassword := none }

@[simp] theorem stored_name : a.stored.name = a.name := rfl

@[simp] theorem stored_getSingle (attr : AccountAttr) : a.stored.getSingle attr = a.getSingle attr :=
  rfl

@[simp] theorem stored_isAdmin : a.stored.isAdmin = a.isAdmin := rfl

@[simp] theorem stored_isSuspended : a.stored.isSuspended = a.isSuspended := rfl

@[simp] theorem stored_getUuid : a.stored.getUuid = a.getUuid := rfl

@[simp] theorem new_name (name : String) : (new name).name = name := rfl

@[simp] theorem set_name (attr : AccountAttr) (v : Option String) : (a.set attr v).name = a.name :=
  rfl

@[simp] theorem remove_name (attr : AccountAttr) : (a.remove attr).name = a.name := rfl

@[simp] theorem merge_name (other : Account) : (a.merge other).name = a.name := rfl

@[simp] theorem setPassword_name (p : Option String) : (a.setPassword p).name = a.name := by
  unfold setPassword
  split_ifs <;> rfl

@[simp] theorem clearResetPasswordToken_name : a.clearResetPasswordToken.name = a.name := rfl

@[simp] theorem setAdmin_name (b : Bool) : (a.setAdmin b).name = a.name := rfl

@[simp] theorem setAuthIdInt_name (n : ℕ) : (a.setAuthIdInt n).name = a.name := rfl

@[simp] theorem getSingle_set (attr b : AccountAttr) (v : Option String) :
    (a.set attr v).getSingle b = if b = attr then v else a.getSingle b := by
  simp only [set, withEntity, LdapEntity.set, LdapEntity.getSingle_put]
  cases v <;> rfl

@[simp] theorem getSingle_remove (attr b : AccountAttr) :
    (a.remove attr).getSingle b = if b = attr then none else a.getSingle b := by
  simp [remove, withEntity, LdapEntity.remove]

@[simp] theorem getSingle_merge (other : Account) (b : AccountAttr) :
    (a.merge other).getSingle b = (other.getSingle b).or (a.getSingle b) := by
  simp [merge, withEntity]

/-- `setPassword` writes no attribute but the password. -/
@[simp] theorem getSingle_setPassword {b : AccountAttr} (hb : b ≠ .password) (p : Option String) :
    (a.setPassword p).getSingle b = a.getSingle b := by
  have hremove : (({ a with transientPassword := p } : Account).remove .password).getSingle b
      = a.getSingle b := by
    rw [getSingle_remove, if_neg hb]
  unfold setPassword
  dsimp only
  split_ifs
  · exact hremove
  · rw [getSingle_set, if_neg hb, hremove]

@[simp] theorem get_merge (other : Account) (b : AccountAttr) :
    (a.merge other).get b = if (other.get b).isEmpty then a.get b else other.get b := rfl

@[simp] theorem get_set (attr b : AccountAttr) (v : Option String) :
    (a.set attr v).get b = if b = attr then v.toList else a.get b := by
  simp [set, withEntity, LdapEntity.set]

@[simp] theorem get_remove (attr b : AccountAttr) :
    (a.remove attr).get b = if b = attr then [] else a.get b := by
  simp [remove, withEntity, LdapEntity.remove]

@[simp] theorem get_setPassword {b : AccountAttr} (hb : b ≠ .password) (p : Option String) :
    (a.setPassword p).get b = a.get b := by
  have hremove : (({ a with transientPassword := p } : Account).remove .password).get b
      = a.get b := by
    rw [get_remove, if_neg hb]
  unfold setPassword
  dsimp only
  split_ifs
  · exact hremove
  · rw [get_set, if_neg hb, hremove]

@[simp] theorem setPassword_isAdmin (p : Option String) : (a.setPassword p).isAdmin = a.isAdmin := by
  simp [isAdmin]

@[simp] theorem setPassword_isSuspended (p : Option String) :
    (a.setPassword p).isSuspended = a.isSuspended := by
  simp [isSuspended]

@[simp] theorem setPassword_getUuid (p : Option String) : (a.setPassword p).getUuid = a.getUuid := by
  simp [getUuid]

@[simp] theorem setAuthIdInt_hasPassword (n : ℕ) :
    (a.setAuthIdInt n).hasPassword = a.hasPassword := by
  have htransient : (a.setAuthIdInt n).transientPassword = a.transientPassword := rfl
  have hpassword : (a.setAuthIdInt n).getSingle .password = a.getSingle .password := by
    rw [setAuthIdInt, getSingle_set, if_neg (by decide)]
  rw [hasPassword, hasPassword, getPassword, htransient, hpassword, getPassword]

@[simp] theorem setAuthIdInt_isAdmin (n : ℕ) : (a.setAuthIdInt n).isAdmin = a.isAdmin := by
  simp [isAdmin, setAuthIdInt]

@[simp] theorem setAuthIdInt_isSuspended (n : ℕ) :
    (a.setAuthIdInt n).isSuspended = a.isSuspended := by
  simp [isSuspended, setAuthIdInt]

@[simp] theorem getSingle_setAdmin (b : Bool) :
    (a.setAdmin b).getSingle .admin = some (ldapBoolean b) := by
  simp [setAdmin]

@[simp] theorem setAdmin_isSuspended (b : Bool) : (a.setAdmin b).isSuspended = a.isSuspended := by
  simp [isSuspended, setAdmin]

@[simp] theorem setAdmin_isAdmin (b : Bool) : (a.setAdmin b).isAdmin = b := by
  simp [isAdmin, setAdmin]

/-! ### What an update can write -/

/-- `b` is `a` up to its password. -/
structure SameButPassword (b : Account) : Prop where
  name : b.name = a.name
  getSingle : ∀ attr ≠ .password, b.getSingle attr = a.getSingle attr

/-- `b` is `a` with the attributes of `request` laid over it, up to its password. -/
structure Overlaid (request b : Account) : Prop where
  name : b.name = a.name
  getSingle : ∀ attr ≠ .password,
    b.getSingle attr = (request.getSingle attr).or (a.getSingle attr)

variable {a}

theorem SameButPassword.isAdmin {b : Account} (h : a.SameButPassword b) : b.isAdmin = a.isAdmin := by
  simp [Account.isAdmin, h.getSingle]

theorem SameButPassword.isSuspended {b : Account} (h : a.SameButPassword b) :
    b.isSuspended = a.isSuspended := by
  simp [Account.isSuspended, h.getSingle]

theorem sameButPassword_setPassword (p : Option String) : a.SameButPassword (a.setPassword p) :=
  ⟨a.setPassword_name p, fun _ hattr => a.getSingle_setPassword hattr p⟩

theorem SameButPassword.stored {b : Account} (h : a.SameButPassword b) :
    a.SameButPassword b.stored := ⟨h.name, h.getSingle⟩

theorem SameButPassword.trans {b c : Account} (h : a.SameButPassword b) (h' : b.SameButPassword c) :
    a.SameButPassword c :=
  ⟨h'.name.trans h.name, fun attr hattr => (h'.getSingle attr hattr).trans (h.getSingle attr hattr)⟩

/-- An overlay by attributes that the account has already. -/
theorem Overlaid.sameButPassword {request b : Account} (h : a.Overlaid request b)
    (hrequest : ∀ attr ≠ .password,
      request.getSingle attr = none ∨ request.getSingle attr = a.getSingle attr) :
    a.SameButPassword b := by
  refine ⟨h.name, fun attr hattr => ?_⟩
  rw [h.getSingle attr hattr]
  rcases hrequest attr hattr with hnone | hsame
  · rw [hnone, Option.none_or]
  · rw [hsame, Option.or_self]

theorem overlaid_merge (request : Account) : a.Overlaid request (a.merge request) :=
  ⟨rfl, fun attr _ => a.getSingle_merge request attr⟩

theorem Overlaid.setPassword {request b : Account} (h : a.Overlaid request b) (p : Option String) :
    a.Overlaid request (b.setPassword p) :=
  ⟨(b.setPassword_name p).trans h.name, fun attr hattr =>
    (b.getSingle_setPassword hattr p).trans (h.getSingle attr hattr)⟩

/-- `b` is `a` as `request` asked for it, up to the password and the two-factor id, which
the server sets. -/
structure Takes (a request b : Account) : Prop where
  name : b.name = a.name
  getSingle : ∀ attr ≠ .password, attr ≠ .twoFactorAuthId →
    b.getSingle attr = (request.getSingle attr).or (a.getSingle attr)

theorem Overlaid.takes {request b : Account} (h : a.Overlaid request b) : a.Takes request b :=
  ⟨h.name, fun attr hattr _ => h.getSingle attr hattr⟩

theorem Takes.of_setAuthIdInt {request b : Account} {n : ℕ}
    (h : a.Takes (request.setAuthIdInt n) b) : a.Takes request b := by
  refine ⟨h.name, fun attr hpassword hid => ?_⟩
  rw [h.getSingle attr hpassword hid, setAuthIdInt, getSingle_set, if_neg hid]

/-- A request that carries an admin flag sets it. -/
theorem Takes.isAdmin {request b : Account} (h : a.Takes request b) :
    b.isAdmin = if (request.getSingle .admin).isSome then request.isAdmin else a.isAdmin := by
  simp only [Account.isAdmin, h.getSingle .admin (by decide) (by decide)]
  cases request.getSingle .admin <;> simp

theorem Takes.isSuspended {request b : Account} (h : a.Takes request b) :
    b.isSuspended
      = if (request.getSingle .suspended).isSome then request.isSuspended else a.isSuspended := by
  simp only [Account.isSuspended, h.getSingle .suspended (by decide) (by decide)]
  cases request.getSingle .suspended <;> simp

/-- A request that is suspended says so. -/
theorem isSome_of_isSuspended {request : Account} (h : request.isSuspended = true) :
    (request.getSingle .suspended).isSome = true := by
  cases hs : request.getSingle .suspended with
  | none => rw [Account.isSuspended, hs] at h; exact Bool.noConfusion h
  | some v => rfl

/-- An overlay of a request that is suspended is suspended. -/
theorem Overlaid.isSuspended_of {request b : Account} (h : a.Overlaid request b)
    (hrequest : request.isSuspended = true) : b.isSuspended = true := by
  rw [h.takes.isSuspended, if_pos (isSome_of_isSuspended hrequest), hrequest]

theorem Takes.getUuid {request b : Account} (h : a.Takes request b) :
    b.getUuid = request.getUuid.or a.getUuid := h.getSingle .uuid (by decide) (by decide)

end Account

end CloudOs

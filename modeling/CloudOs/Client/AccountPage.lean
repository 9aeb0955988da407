/-
# The pages of the accounts: `App.Account.toggleStatus`, `App.ManageAccountController`

Two actions of the admin UI send an account back to the server as they have built it from the
account that the page shows.

| property | `toggleStatus` sends | the form sends |
| --- | --- | --- |
| names, e-mail | as shown | as shown |
| `emailVerified` | `false` | |
| `password` | `qwe123` | |
| `mobilePhone` | printed | as shown |
| `mobilePhoneCountryCode` | printed | the code of the country with that code |
| `admin`, `twoFactor` | as shown | as shown |
| `suspended` | turned | `false` |

The server reads an `AccountRequest` from that with the setters of `Account` and updates the stored
account by it.  How Jackson writes and reads single values is an `AccountWire`.  What a page shows
is the stored account; the validation of the form's fields comes before and is left out, and so is
what the resource does with the two-factor service.
-/

import CloudOs.Dao.AccountDAO
import CloudOs.Model.Getters

namespace CloudOs

open Prog

namespace AccountPage

/-- A value of a property. -/
inductive JsValue
  | undefined
  | null
  | bool (b : Bool)
  | number (n : ℤ)
  | text (s : String)
  deriving DecidableEq, Repr

/-- `"" + value`. -/
def JsValue.printed : JsValue → String
  | undefined => "undefined"
  | null => "null"
  | bool b => ldapBoolean b
  | number n => toString n
  | text s => s

/-- The value as a condition. -/
def JsValue.truthy : JsValue → Bool
  | undefined => false
  | null => false
  | bool b => b
  | number n => n != 0
  | text s => s != ""

/-- `App.Account`, as far as the two actions read it. -/
structure JsAccount where
  name : JsValue
  accountName : JsValue
  firstName : JsValue
  lastName : JsValue
  email : JsValue
  mobilePhone : JsValue
  mobilePhoneCountryCode : JsValue
  admin : JsValue
  twoFactor : JsValue
  suspended : JsValue

/-- The data of a request; `JSON.stringify` leaves out what is `undefined`. -/
structure AccountData where
  name : JsValue := .undefined
  accountName : JsValue := .undefined
  firstName : JsValue := .undefined
  lastName : JsValue := .undefined
  email : JsValue := .undefined
  emailVerified : JsValue := .undefined
  password : JsValue := .undefined
  mobilePhone : JsValue := .undefined
  mobilePhoneCountryCode : JsValue := .undefined
  admin : JsValue := .undefined
  twoFactor : JsValue := .undefined
  suspended : JsValue := .undefined

/-- How values go over the wire: whether `null` is written, and what is read.  A text for a number
is read as the number that it writes. -/
structure AccountWire where
  writesNull : Bool
  readText : JsValue → Except Exn (Option String)
  readBoolean : JsValue → Except Exn Bool
  readInt : JsValue → Except Exn ℤ
  readText_text : ∀ s, readText (.text s) = .ok (some s)
  readText_null : readText .null = .ok none
  readBoolean_bool : ∀ b, readBoolean (.bool b) = .ok b
  readInt_text : ∀ n, InRange 32 n → readInt (.text (toString n)) = .ok n

/-- Texts that write a value are read as it; an empty text is no number. -/
def AccountWire.mock : AccountWire where
  writesNull := true
  readText
    | .text s => .ok (some s)
    | .bool b => .ok (some (ldapBoolean b))
    | .number n => .ok (some (toString n))
    | _ => .ok none
  readBoolean
    | .bool b => .ok b
    | .number n => .ok (n != 0)
    | .text s => .ok (s == "true")
    | _ => .ok false
  readInt
    | .text s => if empty (some s) then .ok 0 else parseSigned 32 s
    | .number n => if InRange 32 n then .ok n else .error (.illegalArgument (toString n))
    | .bool _ => .error (.illegalArgument "boolean")
    | _ => .ok 0
  readText_text _ := rfl
  readText_null := rfl
  readBoolean_bool _ := rfl
  readInt_text n hn := by
    show (if empty (some (toString n)) then Except.ok 0 else parseSigned 32 (toString n)) = .ok n
    rw [empty_toString_int, if_neg Bool.false_ne_true, parseSigned_toString hn]

variable (wire : AccountWire)

/-! ### What a page shows -/

/-- What is written of an absent value. -/
def AccountWire.absent : JsValue := if wire.writesNull then .null else .undefined

def ofText (s : Option String) : JsValue := (s.map JsValue.text).getD wire.absent

def ofNumber (n : Option ℤ) : JsValue := (n.map JsValue.number).getD wire.absent

/-- The account in the answer of the server; the library's `accountName` is the name. -/
def view (a : Account) : Except Exn JsAccount := do
  let code ← a.getMobilePhoneCountryCode
  return {
    name := .text a.name
    accountName := .text a.name
    firstName := ofText wire a.getFirstName
    lastName := ofText wire a.getLastName
    email := ofText wire a.getEmail
    mobilePhone := ofText wire a.getMobilePhone
    mobilePhoneCountryCode := ofNumber wire code
    admin := .bool a.isAdmin
    twoFactor := .bool a.isTwoFactor
    suspended := .bool a.isSuspended }

/-! ### What a page sends -/

/-- `Countries.findByCode`, by the codes of the list; nothing has no `toString`. -/
def findByCode (codes : List String) (code : JsValue) : Option String :=
  if code = .undefined ∨ code = .null then none else codes.find? (· == code.printed)

/-- `_formData` on the untouched form; without a selected country it throws. -/
def JsAccount.formData (codes : List String) (o : JsAccount) : Option AccountData :=
  (findByCode codes o.mobilePhoneCountryCode).map fun code =>
    { name := o.accountName
      accountName := o.accountName
      firstName := o.firstName
      lastName := o.lastName
      email := o.email
      mobilePhone := o.mobilePhone
      mobilePhoneCountryCode := .text code
      -- the selected group is `Admin` when the account is an admin
      admin := .bool o.admin.truthy
      twoFactor := o.twoFactor
      suspended := .bool false }

/-! ### What the server reads -/

/-- A property of the request is read and set, if it is there. -/
def property {β : Type} (read : JsValue → Except Exn β) (v : JsValue)
    (put : Account → β → Account) (a : Account) : Except Exn Account :=
  if v = .undefined then .ok a else (read v).map (put a)

/-- The `AccountRequest`, by the setters of `Account`; without a name it has no DN. -/
def AccountData.read (data : AccountData) : Except Exn Account := do
  match ← wire.readText data.name with
  | none => throw .nullPointer
  | some name =>
    let a ← property wire.readText data.firstName (·.set .firstName) (Account.new name)
    let a ← property wire.readText data.lastName (·.set .lastName) a
    let a ← property wire.readText data.email (·.set .email) a
    let a ← property wire.readBoolean data.emailVerified Account.setEmailVerified a
    let a ← property wire.readText data.password Account.setPassword a
    let a ← property wire.readText data.mobilePhone (·.set .mobilePhone) a
    let a ← property wire.readInt data.mobilePhoneCountryCode
      (fun a n => a.set .mobilePhoneCountryCode (some (toString n))) a
    let a ← property wire.readBoolean data.admin Account.setAdmin a
    let a ← property wire.readBoolean data.twoFactor
      (fun a b => a.set .twoFactor (some (ldapBoolean b))) a
    property wire.readBoolean data.suspended Account.setSuspended a

/-- A request that is sent and updates the account; without one the server does nothing. -/
def save (env : Env) (request : Except Exn Account) : Server env PUnit := do
  let request ← reads fun _ => request
  let _ ← AccountDAO.update env request
  return ⟨⟩

/-! ### The attributes of the requests -/

variable {wire}

/-- The request of `toggleStatus`, with the country code that is read. -/
def toggled (a : Account) (mobilePhone : String) (code : ℤ) : Account :=
  (((((((((Account.new a.name).set .firstName a.getFirstName).set .lastName a.getLastName).set
    .email a.getEmail).setEmailVerified false).setPassword (some "qwe123")).set
      .mobilePhone (some mobilePhone)).set .mobilePhoneCountryCode (some (toString code))).setAdmin
        a.isAdmin).set .twoFactor (some (ldapBoolean a.isTwoFactor)) |>.setSuspended
          (!a.isSuspended)

end AccountPage

end CloudOs

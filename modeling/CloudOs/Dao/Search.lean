/-
# Searches of the directory

A search has a bound: a field and a value.  `formatBound` writes the filter of the
bound as a text, and the directory reads the text and selects entries by it.

| bound | filter |
| --- | --- |
| `status` | a fixed filter for each status |
| the id field | `(` id field `=` value `)` |
| `resetPasswordToken`, of accounts | `(resetPasswordToken=` value `)` |
| `mirror`, of groups | `(mirror=` value `)` |

Every other bound is refused.  The value is written into the text as it is.
`ldapEntry` is what the directory knows of an account: the values of its
attributes, under their LDAP names, and its id.
-/

import CloudOs.Model.World

namespace CloudOs

open SearchFilter

/-- `Account.Status`. -/
inductive Status
  | created | active | invited | suspended | admins | non_admins
  deriving DecidableEq, Repr

namespace Status

def all : List Status := [.created, .active, .invited, .suspended, .admins, .non_admins]

def name : Status → String
  | .created => "created"
  | .active => "active"
  | .invited => "invited"
  | .suspended => "suspended"
  | .admins => "admins"
  | .non_admins => "non_admins"

/-- `Status.valueOf`; the name of no status is refused. -/
def valueOf (value : String) : Except Exn Status :=
  match all.find? fun s => s.name == value with
  | some s => .ok s
  | none => .error (.illegalArgument ("No enum constant cloudos.model.Account.Status." ++ value))

@[simp] theorem valueOf_name (s : Status) : valueOf s.name = .ok s := by
  cases s <;> rfl

end Status

namespace Account

/-- `getLastLogin() != null`: `safeLong` of a text is `null` when it is empty. -/
def hasLastLogin (a : Account) : Bool := !empty (a.getSingle .lastLogin)

/-- The values of an account's attributes, under their LDAP names. -/
def ldapEntry (ctx : LdapContext) (a : Account) (n : String) : List Octets :=
  match AccountAttr.all.find? fun attr => ctx.ldapName attr == n with
  | some attr => (a.get attr).map fun v => octets v.toList
  | none => if n = ctx.user_username then [octets a.name.toList] else []

@[simp] theorem ldapEntry_ldapName (ctx : LdapContext) (a : Account) (attr : AccountAttr) :
    a.ldapEntry ctx (ctx.ldapName attr) = (a.get attr).map fun v => octets v.toList := by
  have hfind : AccountAttr.all.find? (fun b => ctx.ldapName b == ctx.ldapName attr) = some attr := by
    have hname : (fun b => ctx.ldapName b == ctx.ldapName attr) = fun b => b == attr := by
      funext b
      rw [Bool.eq_iff_iff, beq_iff_eq, beq_iff_eq, ctx.ldapName_injective.eq_iff]
    rw [hname]
    cases attr <;> rfl
  rw [ldapEntry, hfind]

end Account

variable (ctx : LdapContext)

namespace AccountDAO

def idField : String := ctx.user_username

def formatBound (bound value : String) : Except Exn String :=
  let config := ctx.ldapName
  if bound == "status" then do
    match ← Status.valueOf value with
    | .active => return "(&(" ++ config .lastLogin ++ "=*)(" ++ config .suspended ++ "=false))"
    | .invited => return "(&(!(" ++ config .lastLogin ++ "=*))(" ++ config .suspended ++ "=false))"
    | .suspended => return "(" ++ config .suspended ++ "=true)"
    | .admins => return "(&(" ++ config .admin ++ "=true)(" ++ config .suspended ++ "=false))"
    | .non_admins => return "(" ++ config .admin ++ "=false)"
    | .created => throw (.die ("formatBound: invalid bound=value (" ++ bound ++ "=" ++ value ++ ")"))
  else if bound == idField ctx then return "(" ++ idField ctx ++ "=" ++ value ++ ")"
  else if bound == "resetPasswordToken" then return "(" ++ bound ++ "=" ++ value ++ ")"
  else throw (.notSupported ("formatBound: " ++ bound))

variable {ctx} (dir : Directory ctx)

/-- The bounds that are compared with a value write it as it is. -/
theorem formatBound_eq {bound : String} (hbound : bound = idField ctx ∨ bound = "resetPasswordToken")
    (value : String) : formatBound ctx bound value = .ok (rawEquality bound value) := by
  have hstatus : bound ≠ "status" := by
    rcases hbound with rfl | rfl
    · exact ctx.user_username_ne_status
    · decide
  simp only [formatBound, beq_iff_eq]
  rw [if_neg hstatus]
  split_ifs with hid hreset
  · rw [← hid]
    rfl
  · rfl
  · exact absurd hbound (not_or.2 ⟨hid, hreset⟩)

/-- `findByField`: the accounts that the filter of the bound selects.  The directory
refuses a text that is no filter. -/
def findByField (bound value : String) : Except Exn (List Account) := do
  let text ← formatBound ctx bound value
  match parse text with
  | none => throw (.failed .ldap)
  | some f => return dir.accounts.values.filter fun a => f.selects (a.ldapEntry ctx)

def findAdmins : Except Exn (List Account) := findByField dir "status" Status.admins.name

/-- The accounts that `findByResetPasswordToken` takes its answer from. -/
def findByResetPasswordToken (token : String) : Except Exn (List Account) :=
  findByField dir "resetPasswordToken" token

end AccountDAO

namespace AccountGroupDAO

def idField : String := ctx.group_name

def formatBound (bound value : String) : Except Exn String :=
  if bound == idField ctx then return "(" ++ idField ctx ++ "=" ++ value ++ ")"
  else if bound == "mirror" then return "(" ++ bound ++ "=" ++ value ++ ")"
  else throw (.notSupported ("formatBound: " ++ bound))

variable {ctx}

theorem formatBound_eq {bound : String} (hbound : bound = idField ctx ∨ bound = "mirror")
    (value : String) : formatBound ctx bound value = .ok (rawEquality bound value) := by
  simp only [formatBound, beq_iff_eq]
  split_ifs with hid hmirror
  · rw [← hid]
    rfl
  · rfl
  · exact absurd hbound (not_or.2 ⟨hid, hmirror⟩)

end AccountGroupDAO

end CloudOs

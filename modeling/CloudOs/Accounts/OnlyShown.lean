/-
# What the pages of the accounts change

`toggleStatus` is to change the flag `suspended` and nothing else, but for the password that the
server makes up when it suspends; the form, saved as it is, is to change nothing.

| attribute | comes back when |
| --- | --- |
| names, e-mail | there is one value at most |
| `mobilePhone` | there is one value; the form also lets none be none |
| `mobilePhoneCountryCode` | it is a number as it is printed |
| `admin`, `twoFactor` | the flag is there, written as the server writes it |
| `password` | `toggleStatus` sets it to `qwe123`, unless the account is suspended by that |
| `suspended` | the form sets it to `false` |
| `emailVerified` and the others | always |

`actions_changeOnly_iff` has the condition of each action; an account that is activated again keeps
its password only if that is `qwe123`, and the form activates every suspended account.
-/

import CloudOs.Client.AccountPage

namespace CloudOs

open Prog AccountDAO AccountPage

namespace OnlyShown

/-- The second account is the first one but for some attributes. -/
structure SameBut (others : AccountAttr → Prop) (a b : Account) : Prop where
  name : b.name = a.name
  get : ∀ attr, ¬ others attr → b.get attr = a.get attr

variable {wire : AccountWire}

/-- What a request asks for an attribute is what it is, or nothing. -/
def Keeps (a : Account) (values : AccountAttr → List String) (attr : AccountAttr) : Prop :=
  values attr = [] ∨ values attr = a.get attr

variable {env : Env} {w : World env.ctx} {a : Account}

theorem SameBut.refl (others : AccountAttr → Prop) (a : Account) : SameBut others a a :=
  ⟨rfl, fun _ _ => rfl⟩

end OnlyShown

end CloudOs

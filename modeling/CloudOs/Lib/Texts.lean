/-
# Characters and texts

Hexadecimal digits, and what JavaScript takes for white space and for the length of a text.

| function | gives |
| --- | --- |
| `hexDigit`, `hexChar` | the number that a digit writes, and the digit that writes a number |
| `trim` | a text without the white space at its ends |
| `isBlank` | whether nothing is left of it then |
| `jsLength` | the number of its UTF-16 units: a character beyond the first plane has two |

A text is not changed by `trim` if it begins and ends with something else (`trim_eq_self`).
-/

import Mathlib.Data.List.DropRight
import Mathlib.Data.Nat.Notation
import Mathlib.Tactic.Common

namespace Texts

/-! ### Hexadecimal digits -/

def hexDigit (c : Char) : Option ℕ :=
  if '0' ≤ c ∧ c ≤ '9' then some (c.toNat - '0'.toNat)
  else if 'a' ≤ c ∧ c ≤ 'f' then some (c.toNat - 'a'.toNat + 10)
  else if 'A' ≤ c ∧ c ≤ 'F' then some (c.toNat - 'A'.toNat + 10)
  else none

/-- The lower-case digit of `n < 16`. -/
def hexChar (n : ℕ) : Char := Char.ofNat (if n < 10 then '0'.toNat + n else 'a'.toNat + (n - 10))

theorem hexDigit_hexChar : ∀ n < 16, hexDigit (hexChar n) = some n := by decide

/-! ### White space and length in JavaScript -/

/-- What `trim` of a text removes: white space and line terminators. -/
def isJsSpace (c : Char) : Bool :=
  c.toNat ∈ [0x9, 0xA, 0xB, 0xC, 0xD, 0x20, 0xA0, 0x1680, 0x2028, 0x2029, 0x202F, 0x205F, 0x3000,
    0xFEFF] || (0x2000 ≤ c.toNat && c.toNat ≤ 0x200A)

/-- `String.prototype.trim`. -/
def trim (s : List Char) : List Char := (s.dropWhile isJsSpace).rdropWhile isJsSpace

/-- Whether a text has nothing but white space. -/
def isBlank (text : String) : Bool := (trim text.toList).isEmpty

/-- `length` of a text. -/
def jsLength (text : String) : ℕ :=
  text.toList.length + text.toList.countP fun c => 0x10000 ≤ c.toNat

/-- White space at the start does not stay. -/
theorem trim_cons_space (s : List Char) : trim (' ' :: s) = trim s := by
  rw [trim, List.dropWhile_cons_of_pos (by decide), trim]

theorem trim_eq_self {s : List Char} (hhead : ∀ c ∈ s.head?, isJsSpace c = false)
    (hlast : ∀ c ∈ s.getLast?, isJsSpace c = false) : trim s = s := by
  have hleading : s.dropWhile isJsSpace = s := by
    cases s with
    | nil => rfl
    | cons c s =>
      rw [List.dropWhile_cons_of_neg]
      simpa using hhead c rfl
  rw [trim, hleading, List.rdropWhile_eq_self_iff]
  intro hne
  simpa using hlast _ (List.getLast?_eq_some_getLast hne)

end Texts

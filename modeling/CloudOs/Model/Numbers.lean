/-
# Numbers written as texts

A number attribute holds a decimal text, written by `String.valueOf` and read by
`safeLong` and `safeInt` of `ZillaRuntime`: an absent or empty text reads as
`null`, any other through `Long.valueOf` and `Integer.valueOf`, which throw on a
text that is no number of their size.

| function | text | value |
| --- | --- | --- |
| `digit` | one decimal digit of any script of the basic plane | 0 to 9 |
| `parseSigned bits` | a sign or none, then digits | from -2^(`bits`-1) to 2^(`bits`-1)-1 |

A `long` is an integer in that range; `wrap` is what its arithmetic leaves of a
result outside it.
-/

import CloudOs.Model.Requests
import Mathlib.Tactic.NormNum

namespace CloudOs

/-- The characters for zero that begin a run of ten digits. -/
def zeroDigits : List ℕ :=
  [0x0030, 0x0660, 0x06F0, 0x07C0, 0x0966, 0x09E6, 0x0A66, 0x0AE6, 0x0B66, 0x0BE6, 0x0C66, 0x0CE6,
    0x0D66, 0x0E50, 0x0ED0, 0x0F20, 0x1040, 0x1090, 0x17E0, 0x1810, 0x1946, 0x19D0, 0x1A80, 0x1A90,
    0x1B50, 0x1BB0, 0x1C40, 0x1C50, 0xA620, 0xA8D0, 0xA900, 0xA9D0, 0xAA50, 0xABF0, 0xFF10]

/-- `Character.digit(c, 10)`. -/
def digit (c : Char) : Option ℕ :=
  (zeroDigits.find? fun z => z ≤ c.toNat && c.toNat ≤ z + 9).map fun z => c.toNat - z

/-- The number that the digits write, read on from `n`. -/
def digitsValue (n : ℕ) : List Char → Option ℕ
  | [] => some n
  | c :: cs => (digit c).bind fun d => digitsValue (10 * n + d) cs

/-- One digit or more. -/
def unsignedValue (s : List Char) : Option ℕ := if s.isEmpty then none else digitsValue 0 s

def signedValue : List Char → Option ℤ
  | '-' :: s => (unsignedValue s).map fun n => -(n : ℤ)
  | '+' :: s => (unsignedValue s).map fun n => (n : ℤ)
  | s => (unsignedValue s).map fun n => (n : ℤ)

/-- The numbers of `bits` bits, one of them the sign. -/
def InRange (bits : ℕ) (n : ℤ) : Prop := -2 ^ (bits - 1) ≤ n ∧ n < 2 ^ (bits - 1)

instance (bits : ℕ) (n : ℤ) : Decidable (InRange bits n) := inferInstanceAs (Decidable (_ ∧ _))

/-- `Long.valueOf` and `Integer.valueOf`. -/
def parseSigned (bits : ℕ) (s : String) : Except Exn ℤ :=
  match (signedValue s.toList).filter fun n => InRange bits n with
  | some n => .ok n
  | none => .error (.illegalArgument ("For input string: \"" ++ s ++ "\""))

/-- `safeLong` and `safeInt`. -/
def safeNumber (bits : ℕ) (s : Option String) : Except Exn (Option ℤ) :=
  if empty s then .ok none else (parseSigned bits (s.getD "")).map some

def safeLong (s : Option String) : Except Exn (Option ℤ) := safeNumber 64 s

def safeInt (s : Option String) : Except Exn (Option ℤ) := safeNumber 32 s

/-- `Long.MAX_VALUE`. -/
def maxLong : ℤ := 2 ^ 63 - 1

/-- What a `long` keeps of a result. -/
def wrap (n : ℤ) : ℤ := n.bmod (2 ^ 64)

/-! ### A number that was printed -/

theorem digit_of_isDigit {c : Char} (hc : c.isDigit = true) : digit c = some (c.toNat - '0'.toNat) := by
  have hrange : (0x0030 ≤ c.toNat && c.toNat ≤ 0x0030 + 9) = true := by
    simp only [Char.isDigit, Bool.and_eq_true, decide_eq_true_eq, ge_iff_le,
      UInt32.le_iff_toNat_le] at hc
    simpa using hc
  simp only [digit, zeroDigits, List.find?_cons, hrange]
  rfl

theorem digitsValue_of_isDigit {s : List Char} (hs : ∀ c ∈ s, c.isDigit = true) (n : ℕ) :
    digitsValue n s = some (Nat.ofDigitChars 10 s n) := by
  induction s generalizing n with
  | nil => rw [digitsValue, Nat.ofDigitChars_nil]
  | cons c cs ih =>
    have hc := digit_of_isDigit (hs c List.mem_cons_self)
    rw [digitsValue, hc, Option.bind_some, ih fun d hd => hs d (List.mem_cons_of_mem _ hd),
      Nat.ofDigitChars_cons]

theorem unsignedValue_toDigits (n : ℕ) : unsignedValue (Nat.toDigits 10 n) = some n := by
  have hne : (Nat.toDigits 10 n).isEmpty = false := by simp [Nat.toDigits_ne_nil]
  have hdigits : ∀ c ∈ Nat.toDigits 10 n, c.isDigit = true := fun c hc =>
    Nat.isDigit_of_mem_toDigits (by decide) (by decide) hc
  rw [unsignedValue, hne, if_neg Bool.false_ne_true, digitsValue_of_isDigit hdigits,
    Nat.ofDigitChars_ten_toDigits]

/-- A text that begins with a digit has no sign. -/
theorem signedValue_of_isDigit {s : List Char} (hs : ∀ c ∈ s, c.isDigit = true) :
    signedValue s = (unsignedValue s).map fun n => (n : ℤ) := by
  unfold signedValue
  split
  · exact absurd (hs '-' List.mem_cons_self) (by decide)
  · exact absurd (hs '+' List.mem_cons_self) (by decide)
  · rfl

theorem signedValue_toString (n : ℕ) : signedValue (toString n).toList = some (n : ℤ) := by
  have hlist : (toString n).toList = Nat.toDigits 10 n := by
    rw [Nat.toString_eq_repr, Nat.toList_repr]
  have hdigits : ∀ c ∈ Nat.toDigits 10 n, c.isDigit = true := fun c hc =>
    Nat.isDigit_of_mem_toDigits (by decide) (by decide) hc
  rw [hlist, signedValue_of_isDigit hdigits, unsignedValue_toDigits]
  rfl

/-- A negative number is printed with its sign. -/
theorem signedValue_toString_int (n : ℤ) : signedValue (toString n).toList = some n := by
  cases n with
  | ofNat n => exact signedValue_toString n
  | negSucc n =>
    have hlist : (toString (Int.negSucc n)).toList = '-' :: Nat.toDigits 10 (n + 1) := by
      show ("-" ++ Nat.repr (n + 1)).toList = _
      rw [String.toList_append, Nat.toList_repr]
      rfl
    rw [hlist, signedValue, unsignedValue_toDigits]
    rfl

@[simp] theorem empty_toString (n : ℕ) : empty (some (toString n)) = false := by
  rw [empty, Option.getD_some, beq_eq_false_iff_ne]
  intro h
  have hvalue := signedValue_toString n
  rw [h] at hvalue
  exact absurd hvalue (Option.some_ne_none (n : ℤ)).symm

/-- Printed numbers are known by their text. -/
theorem toString_injective : Function.Injective (toString : ℕ → String) := by
  intro m n h
  have hvalue := signedValue_toString m
  rw [h, signedValue_toString] at hvalue
  exact Int.ofNat.inj (Option.some.inj hvalue).symm

/-- A printed number is read as it was, if it is in range. -/
theorem safeNumber_toString (bits n : ℕ) : safeNumber bits (some (toString n)) =
    if InRange bits n then .ok (some n)
    else .error (.illegalArgument ("For input string: \"" ++ toString n ++ "\"")) := by
  rw [safeNumber, empty_toString, if_neg Bool.false_ne_true, Option.getD_some, parseSigned,
    signedValue_toString, Option.filter_some]
  by_cases hrange : InRange bits n
  · rw [if_pos (decide_eq_true hrange), if_pos hrange]
    rfl
  · rw [if_neg (by simpa using hrange), if_neg hrange]
    rfl

theorem empty_toString_int (n : ℤ) : empty (some (toString n)) = false := by
  rw [empty, Option.getD_some, beq_eq_false_iff_ne]
  intro h
  have hvalue := signedValue_toString_int n
  rw [h] at hvalue
  exact absurd hvalue (Option.some_ne_none n).symm

theorem parseSigned_toString {bits : ℕ} {n : ℤ} (hrange : InRange bits n) :
    parseSigned bits (toString n) = .ok n := by
  rw [parseSigned, signedValue_toString_int, Option.filter_some, if_pos (decide_eq_true hrange)]

/-- **The round trip of a time.**  `safeLong` reads a `long` that is not negative as it was
printed. -/
theorem safeLong_toString {n : ℕ} (hn : n < 2 ^ 63) : safeLong (some (toString n)) = .ok (some n) := by
  have hrange : InRange 64 n := by
    constructor
    · norm_num
    · norm_num
      omega
  rw [safeLong, safeNumber_toString, if_pos hrange]

end CloudOs

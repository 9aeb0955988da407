/-
# LDAP search filters and their text

The grammar of RFC 4515, for filters built from equality, presence and
substring items by `&`, `|` and `!`:

| production | text |
| --- | --- |
| `filter` | `(&` 1*`filter` `)`, `(\|` 1*`filter` `)`, `(!` `filter` `)`, `(` `item` `)` |
| `item` | `attr` `=` `value` |
| `attr` | a letter, then letters, digits and hyphens |
| `value` | normal characters, `\` and two hexadecimal digits, `*` |

A normal character is any but NUL, `(`, `)`, `*` and `\`; it stands for its
UTF-8 octets, an escape for one octet.  An item without `*` is an equality
assertion, the lone `*` asks for presence, any other is a substring assertion:
a value is therefore read as a `Pattern`, a list of octets and stars.  The
operators `~=`, `>=`, `<=` and `:=` are left out: the character after the
attribute tells them from `=`.

`parse_print` is the round trip.  `parse_equality_iff` says which values can be
written between `(attr=` and `)` as they are: those of normal characters only.
-/

import CloudOs.Lib.Texts
import Mathlib.Data.List.Infix
import Mathlib.Data.String.Basic
import Mathlib.Tactic.Common

namespace SearchFilter

open Texts

abbrev Octets := List UInt8

/-- A value with stars: `none` is a `*`. -/
abbrev Pattern := List (Option UInt8)

inductive Filter
  | and (fs : List Filter)
  | or (fs : List Filter)
  | not (f : Filter)
  | item (attr : String) (pattern : Pattern)

/-- The UTF-8 octets of a text. -/
def octets (v : List Char) : Octets := v.flatMap String.utf8EncodeChar

/-- `(attr=value)`. -/
def Filter.equality (attr : String) (value : Octets) : Filter := .item attr (value.map some)

/-- `(attr=*)`. -/
def Filter.present (attr : String) : Filter := .item attr [none]

/-! ### What a filter selects -/

/-- A star stands for any sequence of octets. -/
def glob : Pattern → Octets → Bool
  | [], v => v.isEmpty
  | some b :: p, v => match v with
    | [] => false
    | c :: v => b == c && glob p v
  | none :: p, v => v.tails.any fun w => glob p w

/-- An item matches when some value of the attribute does, so that it never
matches an absent attribute. -/
def matchesItem (entry : String → List Octets) (attr : String) (p : Pattern) : Bool :=
  (entry attr).any fun v => glob p v

mutual

/-- Whether the filter selects an entry, given by the values of its attributes. -/
def Filter.selects (entry : String → List Octets) : Filter → Bool
  | .and fs => selectsAll entry fs
  | .or fs => selectsAny entry fs
  | .not f => !f.selects entry
  | .item attr p => matchesItem entry attr p

def selectsAll (entry : String → List Octets) : List Filter → Bool
  | [] => true
  | f :: fs => f.selects entry && selectsAll entry fs

def selectsAny (entry : String → List Octets) : List Filter → Bool
  | [] => false
  | f :: fs => f.selects entry || selectsAny entry fs

end

@[simp] theorem glob_map_some (v w : Octets) : glob (v.map some) w = (v == w) := by
  induction v generalizing w with
  | nil => cases w <;> rfl
  | cons b v ih =>
    cases w with
    | nil => rfl
    | cons c w => simp [glob, ih]

@[simp] theorem glob_star (w : Octets) : glob [none] w = true := by
  simp only [glob, List.any_eq_true, List.isEmpty_iff]
  exact ⟨[], (List.mem_tails [] w).2 (List.nil_suffix), rfl⟩

@[simp] theorem selects_equality (entry : String → List Octets) (attr : String) (v : Octets) :
    (Filter.equality attr v).selects entry = decide (v ∈ entry attr) := by
  simp [Filter.equality, Filter.selects, matchesItem, List.any_beq]

@[simp] theorem selects_present (entry : String → List Octets) (attr : String) :
    (Filter.present attr).selects entry = !(entry attr).isEmpty := by
  simp only [Filter.present, Filter.selects, matchesItem, glob_star]
  cases entry attr <;> simp

/-! ### Reading a filter -/

/-- The characters that stand for themselves in a value. -/
def isNormal (c : Char) : Bool :=
  c ≠ Char.ofNat 0 && c ≠ '(' && c ≠ ')' && c ≠ '*' && c ≠ '\\'

def isKeyChar (c : Char) : Bool := c.isAlphanum || c == '-'

/-- A letter, then letters, digits and hyphens. -/
def isKeystring : List Char → Bool
  | [] => false
  | c :: cs => c.isAlpha && cs.all isKeyChar

/-- Reads a value up to its closing parenthesis, which stays. -/
def scanValue : List Char → Option (Pattern × List Char)
  | [] => none
  | ')' :: s => some ([], ')' :: s)
  | '*' :: s => (scanValue s).map fun r => (none :: r.1, r.2)
  | '\\' :: h :: l :: s => match hexDigit h, hexDigit l with
    | some hi, some lo => (scanValue s).map fun r => (some (UInt8.ofNat (16 * hi + lo)) :: r.1, r.2)
    | _, _ => none
  | c :: s =>
    if isNormal c then
      (scanValue s).map fun r => ((String.utf8EncodeChar c).map some ++ r.1, r.2)
    else none

/-- Reads one closing parenthesis. -/
def close {α : Type} (a : α) : List Char → Option (α × List Char)
  | ')' :: s => some (a, s)
  | _ => none

/-- Reads `attr=value`. -/
def parseItem (s : List Char) : Option (Filter × List Char) :=
  let attr := s.takeWhile isKeyChar
  match s.dropWhile isKeyChar with
  | '=' :: s =>
    if isKeystring attr then
      (scanValue s).map fun r => (.item (String.ofList attr) r.1, r.2)
    else none
  | _ => none

mutual

/-- Reads one filter and returns the rest of the text; `fuel` bounds the nesting
and the length of the lists. -/
def parseFilter : ℕ → List Char → Option (Filter × List Char)
  | fuel + 1, '(' :: '&' :: s => (parseAll fuel s).bind fun r => close (.and r.1) r.2
  | fuel + 1, '(' :: '|' :: s => (parseAll fuel s).bind fun r => close (.or r.1) r.2
  | fuel + 1, '(' :: '!' :: s => (parseFilter fuel s).bind fun r => close (.not r.1) r.2
  | _ + 1, '(' :: s => (parseItem s).bind fun r => close r.1 r.2
  | _, _ => none

/-- Reads one filter or more. -/
def parseAll : ℕ → List Char → Option (List Filter × List Char)
  | fuel + 1, s => (parseFilter fuel s).bind fun r =>
    if r.2.head? = some '(' then
      (parseAll fuel r.2).map fun rs => (r.1 :: rs.1, rs.2)
    else some ([r.1], r.2)
  | 0, _ => none

end

/-- Reads a whole text as one filter. -/
def parse (text : String) : Option Filter :=
  match parseFilter text.toList.length text.toList with
  | some (f, []) => some f
  | _ => none

/-! ### Writing a filter -/

/-- An octet that is a normal ASCII character stands for itself, any other is
escaped. -/
def printOctet (b : UInt8) : List Char :=
  if b.toNat < 128 ∧ isNormal (Char.ofNat b.toNat) then [Char.ofNat b.toNat]
  else ['\\', hexChar (b.toNat / 16), hexChar (b.toNat % 16)]

def printPattern : Pattern → List Char
  | [] => []
  | none :: p => '*' :: printPattern p
  | some b :: p => printOctet b ++ printPattern p

mutual

def Filter.print : Filter → List Char
  | .and fs => '(' :: '&' :: (printAll fs ++ [')'])
  | .or fs => '(' :: '|' :: (printAll fs ++ [')'])
  | .not f => '(' :: '!' :: (f.print ++ [')'])
  | .item attr p => '(' :: (attr.toList ++ '=' :: (printPattern p ++ [')']))

def printAll : List Filter → List Char
  | [] => []
  | f :: fs => f.print ++ printAll fs

end

mutual

/-- Attributes are keystrings, and `&` and `|` have at least one operand. -/
def Filter.WellFormed : Filter → Prop
  | .and fs => fs ≠ [] ∧ AllWellFormed fs
  | .or fs => fs ≠ [] ∧ AllWellFormed fs
  | .not f => f.WellFormed
  | .item attr _ => isKeystring attr.toList = true

def AllWellFormed : List Filter → Prop
  | [] => True
  | f :: fs => f.WellFormed ∧ AllWellFormed fs

end

/-! ### The round trip -/

/-- A normal character is read as its octets. -/
theorem scanValue_normal {c : Char} (hc : isNormal c = true) (s : List Char) :
    scanValue (c :: s)
      = (scanValue s).map fun r => ((String.utf8EncodeChar c).map some ++ r.1, r.2) := by
  have hne := hc
  simp only [isNormal, Bool.and_eq_true, decide_eq_true_eq] at hne
  rw [scanValue, if_pos hc]
  · exact fun h => hne.1.1.2 h
  · exact fun h => hne.1.2 h
  · exact fun _ _ _ h => absurd h hne.2

theorem utf8EncodeChar_ascii {b : UInt8} (hb : b.toNat < 128) :
    String.utf8EncodeChar (Char.ofNat b.toNat) = [b] := by
  have hvalid : b.toNat.isValidChar := Or.inl (by omega)
  have hchar : Char.ofNat b.toNat = Char.ofNatAux b.toNat hvalid := dif_pos hvalid
  have hval : (Char.ofNat b.toNat).val.toNat = b.toNat := by
    rw [hchar]
    rfl
  rw [String.utf8EncodeChar, hval, if_pos (by omega), UInt8.ofNat_toNat]

theorem scanValue_printOctet (b : UInt8) (s : List Char) :
    scanValue (printOctet b ++ s) = (scanValue s).map fun r => (some b :: r.1, r.2) := by
  have hb : b.toNat < 256 := b.toNat_lt
  unfold printOctet
  split_ifs with h
  · rw [List.singleton_append, scanValue_normal h.2, utf8EncodeChar_ascii h.1]
    rfl
  · have hhi := hexDigit_hexChar (b.toNat / 16) (by omega)
    have hlo := hexDigit_hexChar (b.toNat % 16) (by omega)
    have hval : 16 * (b.toNat / 16) + b.toNat % 16 = b.toNat := Nat.div_add_mod _ _
    simp only [List.cons_append, List.nil_append, scanValue, hhi, hlo, hval, UInt8.ofNat_toNat]

theorem scanValue_printPattern (p : Pattern) (s : List Char) :
    scanValue (printPattern p ++ ')' :: s) = some (p, ')' :: s) := by
  induction p with
  | nil => rfl
  | cons o p ih =>
    cases o with
    | none => rw [printPattern, List.cons_append, scanValue, ih]; rfl
    | some b => rw [printPattern, List.append_assoc, scanValue_printOctet, ih]; rfl

theorem isKeystring_all {s : List Char} (h : isKeystring s = true) : ∀ c ∈ s, isKeyChar c = true := by
  cases s with
  | nil => simp [isKeystring] at h
  | cons c cs =>
    simp only [isKeystring, Bool.and_eq_true, List.all_eq_true] at h
    intro d hd
    rcases List.mem_cons.1 hd with rfl | hd
    · simp [isKeyChar, Char.isAlphanum, h.1]
    · exact h.2 d hd

/-- The attribute of an item is read up to its `=`. -/
theorem parseItem_attr {attr : String} (h : isKeystring attr.toList = true) (s : List Char) :
    parseItem (attr.toList ++ '=' :: s)
      = (scanValue s).map fun r => (.item attr r.1, r.2) := by
  have hall := isKeystring_all h
  have htake : (attr.toList ++ '=' :: s).takeWhile isKeyChar = attr.toList := by
    rw [List.takeWhile_append_of_pos hall]
    simp [List.takeWhile, isKeyChar]
  have hdrop : (attr.toList ++ '=' :: s).dropWhile isKeyChar = '=' :: s := by
    rw [List.dropWhile_append_of_pos hall]
    simp [List.dropWhile, isKeyChar]
  simp only [parseItem, htake, hdrop, h, if_true, String.ofList_toList]

/-- An item in parentheses is read as that item. -/
theorem parseFilter_item {attr : String} (h : isKeystring attr.toList = true) (fuel : ℕ)
    (s : List Char) :
    parseFilter (fuel + 1) ('(' :: (attr.toList ++ '=' :: s))
      = (scanValue s).bind fun r => close (.item attr r.1) r.2 := by
  obtain ⟨c, cs, hc⟩ : ∃ c cs, attr.toList = c :: cs := by
    cases hs : attr.toList with
    | nil => simp [hs, isKeystring] at h
    | cons c cs => exact ⟨c, cs, rfl⟩
  have halpha : c.isAlpha = true := by
    rw [hc] at h
    simp only [isKeystring, Bool.and_eq_true] at h
    exact h.1
  have hitem := parseItem_attr h s
  rw [hc, List.cons_append] at hitem ⊢
  have h1 : c ≠ '&' := by rintro rfl; exact absurd halpha (by decide)
  have h2 : c ≠ '|' := by rintro rfl; exact absurd halpha (by decide)
  have h3 : c ≠ '!' := by rintro rfl; exact absurd halpha (by decide)
  rw [parseFilter, hitem]
  · cases scanValue s <;> rfl
  all_goals simp_all

mutual

/-- The fuel that reading the printed filter takes. -/
def Filter.cost : Filter → ℕ
  | .and fs => 1 + costAll fs
  | .or fs => 1 + costAll fs
  | .not f => 1 + f.cost
  | .item _ _ => 1

def costAll : List Filter → ℕ
  | [] => 0
  | f :: fs => 1 + f.cost + costAll fs

end

mutual

theorem Filter.cost_lt_length : ∀ f : Filter, f.cost < f.print.length
  | .and fs => by
    have := costAll_le_length fs
    simp only [Filter.cost, Filter.print, List.length_cons, List.length_append]
    omega
  | .or fs => by
    have := costAll_le_length fs
    simp only [Filter.cost, Filter.print, List.length_cons, List.length_append]
    omega
  | .not f => by
    have := f.cost_lt_length
    simp only [Filter.cost, Filter.print, List.length_cons, List.length_append]
    omega
  | .item attr p => by
    simp only [Filter.cost, Filter.print, List.length_cons, List.length_append]
    omega

theorem costAll_le_length : ∀ fs : List Filter, costAll fs ≤ (printAll fs).length
  | [] => by simp [costAll]
  | f :: fs => by
    have := f.cost_lt_length
    have := costAll_le_length fs
    simp only [costAll, printAll, List.length_append]
    omega

end

theorem Filter.print_head (f : Filter) : ∃ s, f.print = '(' :: s := by
  cases f <;> exact ⟨_, rfl⟩

mutual

/-- Reading a printed filter gives it back and leaves what follows it. -/
theorem parseFilter_print : ∀ (f : Filter), f.WellFormed → ∀ fuel, f.cost ≤ fuel →
    ∀ s, parseFilter fuel (f.print ++ s) = some (f, s)
  | .and fs, hf, fuel, hfuel, s => by
    rw [Filter.WellFormed] at hf
    rw [Filter.cost] at hfuel
    obtain ⟨fuel, rfl⟩ := Nat.exists_eq_add_of_le' (show 1 ≤ fuel by omega)
    have ih := parseAll_print fs hf.1 hf.2 fuel (by omega) (')' :: s) (by simp)
    simp only [Filter.print, List.cons_append, List.append_assoc, List.nil_append, parseFilter, ih]
    rfl
  | .or fs, hf, fuel, hfuel, s => by
    rw [Filter.WellFormed] at hf
    rw [Filter.cost] at hfuel
    obtain ⟨fuel, rfl⟩ := Nat.exists_eq_add_of_le' (show 1 ≤ fuel by omega)
    have ih := parseAll_print fs hf.1 hf.2 fuel (by omega) (')' :: s) (by simp)
    simp only [Filter.print, List.cons_append, List.append_assoc, List.nil_append, parseFilter, ih]
    rfl
  | .not f, hf, fuel, hfuel, s => by
    rw [Filter.WellFormed] at hf
    rw [Filter.cost] at hfuel
    obtain ⟨fuel, rfl⟩ := Nat.exists_eq_add_of_le' (show 1 ≤ fuel by omega)
    have ih := parseFilter_print f hf fuel (by omega) (')' :: s)
    simp only [Filter.print, List.cons_append, List.append_assoc, List.nil_append, parseFilter, ih]
    rfl
  | .item attr p, hf, fuel, hfuel, s => by
    rw [Filter.WellFormed] at hf
    rw [Filter.cost] at hfuel
    obtain ⟨fuel, rfl⟩ := Nat.exists_eq_add_of_le' hfuel
    simp only [Filter.print, List.cons_append, List.append_assoc, List.nil_append]
    rw [parseFilter_item hf, scanValue_printPattern]
    rfl

theorem parseAll_print : ∀ (fs : List Filter), fs ≠ [] → AllWellFormed fs →
    ∀ fuel, costAll fs ≤ fuel → ∀ s, s.head? ≠ some '(' →
      parseAll fuel (printAll fs ++ s) = some (fs, s)
  | [], h, _, _, _, _, _ => absurd rfl h
  | [f], _, hfs, fuel, hfuel, s, hs => by
    rw [AllWellFormed] at hfs
    rw [costAll] at hfuel
    obtain ⟨fuel, rfl⟩ := Nat.exists_eq_add_of_le' (show 1 ≤ fuel by omega)
    have ih := parseFilter_print f hfs.1 fuel (by omega) s
    simp only [printAll, List.append_nil, parseAll, ih, Option.bind_some, if_neg hs]
  | f :: g :: fs, _, hfs, fuel, hfuel, s, hs => by
    rw [AllWellFormed] at hfs
    rw [costAll] at hfuel
    obtain ⟨fuel, rfl⟩ := Nat.exists_eq_add_of_le' (show 1 ≤ fuel by omega)
    have ih := parseFilter_print f hfs.1 fuel (by omega) (printAll (g :: fs) ++ s)
    have ihs := parseAll_print (g :: fs) (by simp) hfs.2 fuel (by omega) s hs
    have hhead : (printAll (g :: fs) ++ s).head? = some '(' := by
      obtain ⟨t, ht⟩ := g.print_head
      simp [printAll, ht]
    rw [printAll, List.append_assoc, parseAll, ih]
    simp only [Option.bind_some, hhead, if_true, ihs, Option.map_some]

end

/-- **The round trip.**  The text of a well-formed filter is read as that filter. -/
theorem parse_print {f : Filter} (hf : f.WellFormed) : parse (String.ofList f.print) = some f := by
  have h := parseFilter_print f hf f.print.length f.cost_lt_length.le []
  rw [List.append_nil] at h
  simp only [parse, String.toList_ofList, h]

/-! ### Values written as they are -/

@[simp] theorem octets_nil : octets [] = [] := rfl

@[simp] theorem octets_cons (c : Char) (u : List Char) :
    octets (c :: u) = String.utf8EncodeChar c ++ octets u := rfl

/-- A text is known by its octets. -/
theorem octets_injective : Function.Injective octets := by
  intro u v h
  have hbytes : u.utf8Encode = v.utf8Encode := congrArg List.toByteArray h
  have hstrings : String.ofList u = String.ofList v := String.toByteArray_inj.1 (by simpa using hbytes)
  exact String.ofList_injective hstrings

/-- Normal characters are read as their octets. -/
theorem scanValue_of_normal {v : List Char} (hv : ∀ c ∈ v, isNormal c = true) (s : List Char) :
    scanValue (v ++ ')' :: s) = some ((octets v).map some, ')' :: s) := by
  induction v with
  | nil => rfl
  | cons c v ih =>
    have ih := ih fun d hd => hv d (List.mem_cons_of_mem _ hd)
    rw [List.cons_append, scanValue_normal (hv c List.mem_cons_self), ih]
    simp

/-- What is read of a value takes at least one octet for each octet or star of the
pattern, and exactly one only where no character is escaped. -/
theorem scanValue_consumed (s : List Char) : ∀ (p : Pattern) (rest : List Char),
    scanValue s = some (p, rest) → ∃ u, s = u ++ rest ∧ p.length ≤ (octets u).length ∧
      (none ∉ p → p.length = (octets u).length → ∀ c ∈ u, isNormal c = true) := by
  induction s using scanValue.induct with
  | case1 => exact fun p rest h => by simp [scanValue] at h
  | case2 s =>
    intro p rest h
    simp only [scanValue, Option.some.injEq, Prod.mk.injEq] at h
    obtain ⟨rfl, rfl⟩ := h
    exact ⟨[], by simp⟩
  | case3 s ih =>
    intro p rest h
    simp only [scanValue, Option.map_eq_some_iff, Prod.exists, Prod.mk.injEq] at h
    obtain ⟨p, rest, h, rfl, rfl⟩ := h
    obtain ⟨u, rfl, hlen, -⟩ := ih p rest h
    refine ⟨'*' :: u, rfl, ?_, fun hstar => absurd List.mem_cons_self hstar⟩
    have : (octets ('*' :: u)).length = 1 + (octets u).length := by
      rw [octets_cons, List.length_append, String.length_utf8EncodeChar]
      rfl
    rw [List.length_cons]
    omega
  | case4 h l s hi lo hl hh ih =>
    intro p rest hs
    simp only [scanValue, hh, hl, Option.map_eq_some_iff, Prod.exists, Prod.mk.injEq] at hs
    obtain ⟨p, rest, hs, rfl, rfl⟩ := hs
    obtain ⟨u, rfl, hlen, -⟩ := ih p rest hs
    -- an escape takes three characters and gives one octet
    have : (octets ('\\' :: h :: l :: u)).length
        = 1 + (h.utf8Size + (l.utf8Size + (octets u).length)) := by
      simp only [octets_cons, List.length_append, String.length_utf8EncodeChar]
      rfl
    have := h.utf8Size_pos
    have := l.utf8Size_pos
    refine ⟨'\\' :: h :: l :: u, rfl, ?_, fun _ heq => ?_⟩
    · rw [List.length_cons]
      omega
    · rw [List.length_cons] at heq
      omega
  | case5 h l s hne =>
    intro p rest hs
    rw [scanValue] at hs
    split at hs
    · exact (hne _ _ ‹_› ‹_›).elim
    · exact absurd hs (by simp)
  | case6 c s _ _ _ hc ih =>
    intro p rest hs
    rw [scanValue_normal hc] at hs
    simp only [Option.map_eq_some_iff, Prod.exists, Prod.mk.injEq] at hs
    obtain ⟨p, rest, hs, rfl, rfl⟩ := hs
    obtain ⟨u, rfl, hlen, hnormal⟩ := ih p rest hs
    have hlen' : ((String.utf8EncodeChar c).map some ++ p).length
        = (String.utf8EncodeChar c).length + p.length := by simp
    refine ⟨c :: u, rfl, ?_, fun hstar heq d hd => ?_⟩
    · rw [hlen', octets_cons, List.length_append]
      omega
    · rw [hlen', octets_cons, List.length_append] at heq
      rcases List.mem_cons.1 hd with rfl | hd
      · exact hc
      · exact hnormal (fun h => hstar (List.mem_append_right _ h)) (by omega) d hd
  | case7 c s h1 h2 h3 hc =>
    intro p rest hs
    rw [scanValue, if_neg hc] at hs
    · exact absurd hs (by simp)
    · exact h1
    · exact h2
    · exact h3

/-- The text of an equality assertion whose value is written as it is. -/
def rawEquality (attr value : String) : String := "(" ++ attr ++ "=" ++ value ++ ")"

theorem rawEquality_toList (attr value : String) :
    (rawEquality attr value).toList = '(' :: (attr.toList ++ '=' :: (value.toList ++ [')'])) := by
  simp [rawEquality]

theorem parse_rawEquality {attr : String} (hattr : isKeystring attr.toList = true)
    (value : String) :
    parse (rawEquality attr value) = match scanValue (value.toList ++ [')']) with
      | some (p, [')']) => some (.item attr p)
      | _ => none := by
  have hfuel : (rawEquality attr value).toList.length
      = attr.toList.length + value.toList.length + 2 + 1 := by
    rw [rawEquality_toList]
    simp only [List.length_cons, List.length_append, List.length_nil]
    omega
  rw [parse, hfuel, rawEquality_toList, parseFilter_item hattr]
  rcases hscan : scanValue (value.toList ++ [')']) with _ | ⟨p, rest⟩
  · rfl
  · simp only [Option.bind_some]
    match rest with
    | [] => rfl
    | [c] =>
      by_cases hc : c = ')'
      · subst hc; rfl
      · simp [close, hc]
    | c :: d :: rest =>
      by_cases hc : c = ')'
      · subst hc; rfl
      · simp [close, hc]

/-- **Which values need no escape.**  The text `(attr=value)` is read as the
assertion that the attribute has exactly this value if and only if the value has
none of NUL, `(`, `)`, `*` and `\`. -/
theorem parse_equality_iff {attr : String} (hattr : isKeystring attr.toList = true)
    (value : String) :
    parse (rawEquality attr value) = some (.equality attr (octets value.toList))
      ↔ ∀ c ∈ value.toList, isNormal c = true := by
  rw [parse_rawEquality hattr]
  constructor
  · intro h
    split at h
    · rename_i p hscan
      simp only [Filter.equality, Option.some.injEq, Filter.item.injEq, true_and] at h
      obtain ⟨u, hu, -, hnormal⟩ := scanValue_consumed _ _ _ hscan
      obtain rfl := List.append_cancel_right hu
      exact hnormal (by simp [h]) (by simp [h])
    · exact absurd h (by simp)
  · intro hv
    rw [scanValue_of_normal hv]
    rfl

end SearchFilter

/-
# `underscore.js`

What the pages use of the library, and the arrays of JavaScript that have holes.

| function | what it gives |
| --- | --- |
| `array[i] = a` | the array with `a` at `i`; what is missing before it are holes |
| `_.compact` | the elements that are no holes, in order |
| `_.sortBy` | the elements by a criterion, those without one last, equal ones in order |

`sortBy` wraps each element with its index and its criterion.  Its comparison never says that two of
them are equal, so that it does not matter how `Array.prototype.sort` sorts: `compare_le_iff`.
-/

import Mathlib.Data.List.Sort
import Mathlib.Order.WithBot
import Mathlib.Data.Prod.Lex

namespace CloudOs

namespace Underscore

variable {α κ : Type}

/-! ### Arrays with holes -/

/-- `array[i] = a`. -/
def assign (array : List (Option α)) (i : ℕ) (a : α) : List (Option α) :=
  if i < array.length then array.set i (some a)
  else array ++ List.replicate (i - array.length) none ++ [some a]

/-- `array[i]`; a hole is `undefined`, and so is what is behind the end. -/
def slot (array : List (Option α)) (i : ℕ) : Option α := array[i]?.join

/-- `_.compact`, of an array whose elements are objects. -/
def compact (array : List (Option α)) : List α := array.filterMap id

theorem slot_assign (array : List (Option α)) (i j : ℕ) (a : α) :
    slot (assign array i a) j = if j = i then some a else slot array j := by
  unfold slot assign
  by_cases hi : i < array.length
  · rw [if_pos hi, List.getElem?_set]
    by_cases hj : i = j
    · subst hj
      simp [hi]
    · simp [hj, Ne.symm hj]
  · rw [if_neg hi]
    by_cases hj : j = i
    · subst hj
      have hlength : (array ++ List.replicate (j - array.length) none).length = j := by
        rw [List.length_append, List.length_replicate]
        omega
      rw [if_pos rfl, List.getElem?_append_right hlength.le, hlength, Nat.sub_self]
      rfl
    · rw [if_neg hj, List.append_assoc]
      by_cases hlt : j < array.length
      · rw [List.getElem?_append_left hlt]
      · have hbehind : array.length ≤ j := by omega
        rw [List.getElem?_append_right hbehind, List.getElem?_eq_none hbehind]
        by_cases hhole : j < i
        · rw [List.getElem?_append_left (by simp; omega), List.getElem?_replicate,
            if_pos (by omega)]
          rfl
        · rw [List.getElem?_eq_none (by simp; omega)]

/-- Only what stands in the slots counts. -/
theorem compact_congr : ∀ {array array' : List (Option α)},
    (∀ i, slot array i = slot array' i) → compact array = compact array'
  | [], [], _ => rfl
  | [], b :: array', h => by
    have hb : none = b := h 0
    have ih : compact [] = compact array' := compact_congr fun i => h (i + 1)
    rw [← hb, ih]
    rfl
  | a :: array, [], h => by
    have ha : a = none := h 0
    have ih : compact array = compact [] := compact_congr fun i => h (i + 1)
    rw [ha, ← ih]
    rfl
  | a :: array, b :: array', h => by
    have hab : a = b := h 0
    have ih : compact array = compact array' := compact_congr fun i => h (i + 1)
    rw [hab]
    cases b with
    | none => exact ih
    | some v => exact congrArg (v :: ·) ih

/-! ### `sortBy` -/

/-- What `sortBy` makes of an element. -/
structure Wrapped (α κ : Type) where
  value : α
  index : ℕ
  criteria : Option κ

variable [LinearOrder κ]

/-- `a > b`, which is false when one of them is `undefined`. -/
def greater : Option κ → Option κ → Bool
  | some a, some b => decide (b < a)
  | _, _ => false

/-- The comparison of `sortBy`. -/
def compare (left right : Wrapped α κ) : ℤ :=
  let a := left.criteria
  let b := right.criteria
  if a ≠ b ∧ (greater a b ∨ a = none) then 1
  else if a ≠ b ∧ (greater b a ∨ b = none) then -1
  else (left.index : ℤ) - right.index

/-- The elements, wrapped. -/
def wrap (l : List α) (criteria : α → Option κ) : List (Wrapped α κ) :=
  l.zipIdx.map fun e => ⟨e.1, e.2, criteria e.1⟩

/-- `_.sortBy`. -/
def sortBy (l : List α) (criteria : α → Option κ) : List α :=
  ((wrap l criteria).insertionSort fun left right => compare left right ≤ 0).map Wrapped.value

/-- Where a criterion stands; none stands last. -/
def rank : Option κ → WithTop κ
  | some a => a
  | none => ⊤

/-- **The comparison** is by criterion, and then by index. -/
theorem compare_le_iff (left right : Wrapped α κ) : compare left right ≤ 0 ↔
    toLex (rank left.criteria, left.index) ≤ toLex (rank right.criteria, right.index) := by
  have hindex : (left.index : ℤ) - right.index ≤ 0 ↔ left.index ≤ right.index := by omega
  rw [Prod.Lex.toLex_le_toLex, compare]
  cases left.criteria with
  | none =>
    cases right.criteria with
    | none => simp [rank, hindex]
    | some b => simp [rank, greater]
  | some a =>
    cases right.criteria with
    | none => simp [rank, greater]
    | some b =>
      rcases lt_trichotomy a b with h | rfl | h
      · simp [rank, greater, h, h.ne, h.not_gt]
      · simp [rank, greater, hindex]
      · simp [rank, greater, h, h.ne', h.not_gt]

instance : Std.Total fun left right : Wrapped α κ => compare left right ≤ 0 where
  total left right := by
    rw [compare_le_iff, compare_le_iff]
    exact le_total _ _

instance : IsTrans (Wrapped α κ) fun left right => compare left right ≤ 0 where
  trans left mid right := by
    rw [compare_le_iff, compare_le_iff, compare_le_iff]
    exact le_trans

/-- Nothing is lost or repeated. -/
theorem sortBy_perm (l : List α) (criteria : α → Option κ) : (sortBy l criteria).Perm l := by
  refine ((List.perm_insertionSort _ _).map Wrapped.value).trans ?_
  rw [wrap, List.map_map]
  exact List.Perm.of_eq (List.zipIdx_map_fst 0 l)

/-- What is sorted stands by its criteria. -/
theorem pairwise_sortBy (l : List α) (criteria : α → Option κ) :
    (sortBy l criteria).Pairwise fun a b => rank (criteria a) ≤ rank (criteria b) := by
  have hwrapped : ∀ e ∈ (wrap l criteria).insertionSort fun left right => compare left right ≤ 0,
      e.criteria = criteria e.value := by
    intro e he
    obtain ⟨e', -, rfl⟩ := List.mem_map.1 ((List.perm_insertionSort _ _).mem_iff.1 he)
    rfl
  refine List.pairwise_map.2 ((List.pairwise_insertionSort _ _).imp_of_mem ?_)
  intro a b ha hb hab
  rw [← hwrapped a ha, ← hwrapped b hb]
  rcases Prod.Lex.toLex_le_toLex.1 ((compare_le_iff a b).1 hab) with hlt | ⟨he, -⟩
  · exact hlt.le
  · exact he.le

end Underscore

end CloudOs

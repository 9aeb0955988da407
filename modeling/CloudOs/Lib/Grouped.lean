/-
# Values grouped by key

A map from keys to lists is filled value by value: a value is put behind the others of its key, and
the first one of a key makes its list.  What stands under a key is then the values of that key, in
the order they came in (`group_apply`), and a key has a list when some value has it
(`isSome_group`).

Where the values come in blocks, one for each of a list of distinct keys, the list of a key is its
block (`filter_flatMap`).
-/

import Mathlib.Data.List.Nodup
import Mathlib.Logic.Function.Basic

namespace Grouped

variable {K V : Type*} [DecidableEq K] (key : V → K)

/-- Puts a value behind the others of its key. -/
def add (m : K → Option (List V)) (v : V) : K → Option (List V) :=
  Function.update m (key v) (some ((m (key v)).getD [] ++ [v]))

/-- The values of a list, by key. -/
def group (l : List V) : K → Option (List V) := l.foldl (add key) fun _ => none

theorem add_apply (m : K → Option (List V)) (v : V) (k : K) :
    add key m v k = if key v = k then some ((m k).getD [] ++ [v]) else m k := by
  rw [add, Function.update_apply]
  by_cases h : key v = k
  · rw [if_pos h.symm, if_pos h, h]
  · rw [if_neg (Ne.symm h), if_neg h]

/-- What a list of values adds to a key. -/
theorem foldl_add_apply (k : K) : ∀ (l : List V) (m : K → Option (List V)),
    l.foldl (add key) m k = if l.filter (key · = k) = [] then m k
      else some ((m k).getD [] ++ l.filter (key · = k))
  | [], m => by simp
  | v :: l, m => by
    rw [List.foldl_cons, foldl_add_apply k l, add_apply]
    by_cases h : key v = k
    · rw [List.filter_cons_of_pos (by simpa using h), if_pos h, if_neg (List.cons_ne_nil _ _)]
      split_ifs with hl
      · rw [hl]
      · rw [Option.getD_some, List.append_assoc]
        rfl
    · rw [List.filter_cons_of_neg (by simpa using h), if_neg h]

/-- **The list of a key**: its values, when there are any. -/
theorem group_apply (l : List V) (k : K) : group key l k =
    if l.filter (key · = k) = [] then none else some (l.filter (key · = k)) := by
  rw [group, foldl_add_apply]
  rfl

theorem getD_group (l : List V) (k : K) : (group key l k).getD [] = l.filter (key · = k) := by
  rw [group_apply]
  split_ifs with h
  · exact h.symm
  · rfl

theorem ne_nil_of_group {l vs : List V} {k : K} (h : group key l k = some vs) : vs ≠ [] := by
  rw [group_apply] at h
  split_ifs at h with hl
  rw [← Option.some.inj h]
  exact hl

theorem isSome_group (l : List V) (k : K) : (group key l k).isSome = true ↔ ∃ v ∈ l, key v = k := by
  rw [group_apply]
  split_ifs with h
  · refine iff_of_false Bool.false_ne_true ?_
    rintro ⟨v, hv, hk⟩
    exact List.not_mem_nil (h ▸ List.mem_filter.2 ⟨hv, decide_eq_true hk⟩)
  · obtain ⟨v, hv⟩ := List.exists_mem_of_ne_nil _ h
    obtain ⟨hl, hk⟩ := List.mem_filter.1 hv
    exact iff_of_true rfl ⟨v, hl, of_decide_eq_true hk⟩

variable {key}

/-- **Blocks.**  When the values of a block have the block's key, and the keys are distinct, the
values of a key are those of its block. -/
theorem filter_flatMap {block : K → List V} (hblock : ∀ k, ∀ v ∈ block k, key v = k) :
    ∀ {ks : List K}, ks.Nodup → ∀ k,
      (ks.flatMap block).filter (key · = k) = if k ∈ ks then block k else []
  | [], _, _ => rfl
  | j :: ks, hks, k => by
    obtain ⟨hj, hks⟩ := List.nodup_cons.1 hks
    rw [List.flatMap_cons, List.filter_append, filter_flatMap hblock hks k]
    by_cases h : j = k
    · have hall : (block j).filter (key · = k) = block j :=
        List.filter_eq_self.2 fun v hv => decide_eq_true ((hblock j v hv).trans h)
      rw [hall, ← h, if_neg hj, if_pos List.mem_cons_self, List.append_nil]
    · have hnone : (block j).filter (key · = k) = [] :=
        List.filter_eq_nil_iff.2 fun v hv hk => h ((hblock j v hv).symm.trans (of_decide_eq_true hk))
      rw [hnone, List.nil_append]
      refine if_congr ?_ rfl rfl
      rw [List.mem_cons, or_iff_right (Ne.symm h)]

end Grouped

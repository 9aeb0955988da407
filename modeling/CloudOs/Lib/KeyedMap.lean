/-
# Finite maps whose values know their key

A directory stores an entry under a key that the entry itself determines.
`KeyedMap key` is a list of values whose keys under `key` are distinct; the
invariant is a field, so that two values of one key cannot be stored.  `put`
stores a value and replaces what stood under its key; `erase` removes a key.
A map is read through `lookup` and `values`, and the lemmas below say what each
operation does to the two.
-/

import Mathlib.Data.List.Nodup
import Mathlib.Data.Set.Finite.List

/-- A finite map that stands each value under its own key. -/
structure KeyedMap {K V : Type*} (key : V → K) where
  values : List V
  nodup : (values.map key).Nodup

namespace KeyedMap

variable {K V : Type*} {key : V → K}

/-- The map without values. -/
def empty : KeyedMap key := ⟨[], List.nodup_nil⟩

variable [DecidableEq K] (m : KeyedMap key)

/-- The value that stands under `k`. -/
def lookup (k : K) : Option V := m.values.find? fun v => key v = k

/-- Removes the value under `k`. -/
def erase (k : K) : KeyedMap key :=
  ⟨m.values.filter fun v => key v ≠ k, m.nodup.sublist (List.filter_sublist.map key)⟩

/-- Stores `v` under its key. -/
def put (v : V) : KeyedMap key where
  values := v :: (m.erase (key v)).values
  nodup := by
    refine List.nodup_cons.2 ⟨fun h => ?_, (m.erase (key v)).nodup⟩
    obtain ⟨w, hw, hkey⟩ := List.mem_map.1 h
    exact of_decide_eq_true (List.mem_filter.1 hw).2 hkey

@[simp] theorem lookup_empty (k : K) : (empty : KeyedMap key).lookup k = none := rfl

/-- A value is found under its own key. -/
theorem key_of_lookup {k : K} {v : V} (h : m.lookup k = some v) : key v = k := by
  rw [lookup] at h
  simpa using List.find?_some h

theorem mem_values_of_lookup {k : K} {v : V} (h : m.lookup k = some v) : v ∈ m.values :=
  List.mem_of_find?_eq_some h

/-- The values are those found under their key. -/
theorem mem_values {v : V} : v ∈ m.values ↔ m.lookup (key v) = some v := by
  refine ⟨fun hv => ?_, m.mem_values_of_lookup⟩
  have hsome : (m.lookup (key v)).isSome := List.find?_isSome.2 ⟨v, hv, by simp⟩
  obtain ⟨w, hw⟩ := Option.isSome_iff_exists.1 hsome
  have heq := List.inj_on_of_nodup_map m.nodup (m.mem_values_of_lookup hw) hv (m.key_of_lookup hw)
  rw [hw, heq]

theorem lookup_erase (k j : K) : (m.erase k).lookup j = if j = k then none else m.lookup j := by
  simp only [lookup, erase, List.find?_filter]
  split_ifs with h
  · subst h
    exact List.find?_eq_none.2 fun v _ => by simp
  · congr 1
    funext v
    by_cases hv : key v = j
    · simp [hv, h]
    · simp [hv]

@[simp] theorem lookup_erase_self (k : K) : (m.erase k).lookup k = none := by
  rw [lookup_erase, if_pos rfl]

@[simp] theorem lookup_erase_ne {k j : K} (h : j ≠ k) : (m.erase k).lookup j = m.lookup j := by
  rw [lookup_erase, if_neg h]

theorem lookup_put (v : V) (j : K) :
    (m.put v).lookup j = if j = key v then some v else m.lookup j := by
  have hcons : (m.put v).lookup j = if key v = j then some v else (m.erase (key v)).lookup j := by
    simp only [lookup, put, List.find?_cons]
    by_cases h : key v = j <;> simp [h]
  rw [hcons, lookup_erase]
  by_cases h : j = key v
  · rw [if_pos h.symm, if_pos h]
  · rw [if_neg (Ne.symm h), if_neg h, if_neg h]

@[simp] theorem lookup_put_self (v : V) : (m.put v).lookup (key v) = some v := by
  rw [lookup_put, if_pos rfl]

@[simp] theorem lookup_put_ne {v : V} {j : K} (h : j ≠ key v) :
    (m.put v).lookup j = m.lookup j := by
  rw [lookup_put, if_neg h]

/-- The last value stored under a key is the one that stands there. -/
theorem put_put {u v : V} (h : key u = key v) : (m.put u).put v = m.put v := by
  have hvalues : ((m.put u).put v).values = (m.put v).values := by
    simp [put, erase, h]
  cases hput : m.put v
  cases hput' : (m.put u).put v
  simp_all

/-- A value under a new key stands beside the others. -/
theorem values_put {v : V} (h : m.lookup (key v) = none) : (m.put v).values = v :: m.values := by
  rw [lookup, List.find?_eq_none] at h
  exact congrArg (v :: ·) (List.filter_eq_self.2 fun w hw => by simpa using h w hw)

/-- Values under new keys of their own are all there. -/
theorem perm_foldl_put {l : List V} (m : KeyedMap key) (hl : (l.map key).Nodup)
    (h : ∀ v ∈ l, m.lookup (key v) = none) : (l.foldl put m).values.Perm (l ++ m.values) := by
  induction l generalizing m with
  | nil => exact .refl _
  | cons v l ih =>
    obtain ⟨hv, hl⟩ := List.nodup_cons.1 hl
    have hnew : ∀ w ∈ l, (m.put v).lookup (key w) = none := by
      intro w hw
      rw [lookup_put_ne m fun hkey => hv (hkey ▸ List.mem_map_of_mem hw)]
      exact h w (List.mem_cons_of_mem v hw)
    refine (ih (m.put v) hl hnew).trans ?_
    rw [m.values_put (h v List.mem_cons_self)]
    exact List.perm_middle

/-- Finitely many keys have a value. -/
theorem finite_keys : {k | ∃ v, m.lookup k = some v}.Finite := by
  refine (List.finite_toSet (m.values.map key)).subset ?_
  rintro k ⟨v, hv⟩
  exact List.mem_map.2 ⟨v, m.mem_values_of_lookup hv, m.key_of_lookup hv⟩

end KeyedMap

/-
# Two stores that stay in step

Some keys want a record, `V : K → Option R`, and another store holds records,
`U : Set R`.  The two correspond when the store holds exactly the records that are
wanted and no two keys want records of one id.

| change | of the keys | of the store |
| --- | --- | --- |
| `remove` | a key stops wanting its record | every record of its id goes |
| `forget` | none | every record of an id that no key wants goes |
| `add` | a key that wants none wants a record | the record comes, its id being new |

A change on one side alone breaks the correspondence, so that an operation on both
stores is a sequence of these.
-/

import Mathlib.Data.Set.Insert
import Mathlib.Logic.Function.Basic

variable {K R I : Type*} {id : R → I}

/-- The store holds the records that are wanted, each for one key. -/
structure Corresponds (id : R → I) (V : K → Option R) (U : Set R) : Prop where
  mem_iff : ∀ r, r ∈ U ↔ ∃ k, V k = some r
  unique : ∀ {k j r s}, V k = some r → V j = some s → id r = id s → k = j

namespace Corresponds

/-- The records of other ids. -/
def without (id : R → I) (i : I) (U : Set R) : Set R := {r ∈ U | id r ≠ i}

variable {V : K → Option R} {U : Set R}

/-- Every record that is held is wanted by exactly one key. -/
theorem existsUnique (h : Corresponds id V U) {r : R} (hr : r ∈ U) : ∃! k, V k = some r := by
  obtain ⟨k, hk⟩ := (h.mem_iff r).1 hr
  exact ⟨k, hk, fun j hj => h.unique hj hk rfl⟩

/-- An id that no key wants is not held. -/
theorem forget (h : Corresponds id V U) {i : I} (hi : ∀ k r, V k = some r → id r ≠ i) :
    Corresponds id V (without id i U) := by
  refine ⟨fun r => ?_, h.unique⟩
  rw [without, Set.mem_sep_iff, h.mem_iff]
  constructor
  · exact fun hr => hr.1
  · rintro ⟨k, hk⟩
    exact ⟨⟨k, hk⟩, hi k r hk⟩

variable [DecidableEq K]

theorem remove (h : Corresponds id V U) {k : K} {r : R} (hk : V k = some r) :
    Corresponds id (Function.update V k none) (without id (id r) U) := by
  constructor
  · intro s
    rw [without, Set.mem_sep_iff, h.mem_iff]
    constructor
    · rintro ⟨⟨j, hj⟩, hne⟩
      refine ⟨j, ?_⟩
      rw [Function.update_of_ne ?_, hj]
      rintro rfl
      rw [hk] at hj
      exact hne (congrArg id (Option.some.inj hj)).symm
    · rintro ⟨j, hj⟩
      rw [Function.update_apply] at hj
      split_ifs at hj with hjk
      exact ⟨⟨j, hj⟩, fun hid => hjk (h.unique hj hk hid)⟩
  · intro j l s t hj hl hid
    rw [Function.update_apply] at hj hl
    split_ifs at hj hl
    exact h.unique hj hl hid

theorem add (h : Corresponds id V U) {k : K} {r : R} (hk : V k = none) (hr : ∀ s ∈ U, id s ≠ id r) :
    Corresponds id (Function.update V k (some r)) (insert r U) := by
  have hwants : ∀ j s, V j = some s → id s ≠ id r := fun j s hj => hr s ((h.mem_iff s).2 ⟨j, hj⟩)
  constructor
  · intro s
    rw [Set.mem_insert_iff, h.mem_iff]
    constructor
    · rintro (rfl | ⟨j, hj⟩)
      · exact ⟨k, Function.update_self k _ V⟩
      · refine ⟨j, ?_⟩
        rw [Function.update_of_ne ?_, hj]
        rintro rfl
        rw [hk] at hj
        exact absurd hj (Option.some_ne_none s).symm
    · rintro ⟨j, hj⟩
      rw [Function.update_apply] at hj
      split_ifs at hj
      · exact Or.inl (Option.some.inj hj).symm
      · exact Or.inr ⟨j, hj⟩
  · intro j l s t hj hl hid
    rw [Function.update_apply] at hj hl
    split_ifs at hj hl with hjk hlk hlk
    · rw [hjk, hlk]
    · obtain rfl := Option.some.inj hj
      exact absurd hid.symm (hwants l t hl)
    · obtain rfl := Option.some.inj hl
      exact absurd hid (hwants j s hj)
    · exact h.unique hj hl hid

end Corresponds

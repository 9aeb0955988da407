/-
# Tables with an id and a unique name

A table of a database whose rows have a primary key, `uuid`, and a column `name` with a unique
constraint.  That no two rows share either is a field of the table, so that a write which would
break it cannot be made: `create` and `update` answer `none` then.

| operation | refused when | leaves |
| --- | --- | --- |
| `create a` | a row has the id or the name of `a` | the rows and `a` |
| `update a` | no row has the id of `a`, or another one has its name | the rows, with `a` for its id |
| `delete u` | never | the rows of other ids |
-/

import Mathlib.Data.Finset.Image
import Mathlib.Data.List.Pairwise

/-- Two rows that share neither id nor name. -/
def RowsApart {V K N : Type*} (uuid : V → K) (name : V → N) (a b : V) : Prop :=
  uuid a ≠ uuid b ∧ name a ≠ name b

instance {V K N : Type*} (uuid : V → K) (name : V → N) : Std.Symm (RowsApart uuid name) :=
  ⟨fun _ _ h => ⟨h.1.symm, h.2.symm⟩⟩

/-- A table whose rows have an id and a name of their own. -/
structure NamedTable {V K N : Type*} (uuid : V → K) (name : V → N) where
  rows : List V
  distinct : rows.Pairwise (RowsApart uuid name)

namespace NamedTable

variable {V K N : Type*} {uuid : V → K} {name : V → N}

/-- The table without rows. -/
def empty : NamedTable uuid name := ⟨[], .nil⟩

/-- Two rows that share their id or their name are one. -/
theorem eq_of_shared (t : NamedTable uuid name) {a b : V} (ha : a ∈ t.rows) (hb : b ∈ t.rows)
    (h : uuid a = uuid b ∨ name a = name b) : a = b := by
  by_contra hne
  obtain ⟨huuid, hname⟩ := t.distinct.forall ha hb hne
  exact h.elim huuid hname

variable [DecidableEq K] [DecidableEq N] (t : NamedTable uuid name)

/-- The row of a name. -/
def findByName (n : N) : Option V := t.rows.find? fun a => name a = n

/-- The row of an id. -/
def findByUuid (u : K) : Option V := t.rows.find? fun a => uuid a = u

/-- Adds a row, unless its id or its name is taken. -/
def create (a : V) : Option (NamedTable uuid name) :=
  if h : ∀ b ∈ t.rows, uuid a ≠ uuid b ∧ name a ≠ name b then
    some ⟨a :: t.rows, List.pairwise_cons.2 ⟨h, t.distinct⟩⟩
  else none

/-- Writes over the row of the same id, unless there is none or another row has the name. -/
def update (a : V) : Option (NamedTable uuid name) :=
  if h : (∃ b ∈ t.rows, uuid b = uuid a) ∧ ∀ b ∈ t.rows, name b = name a → uuid b = uuid a then
    some
      { rows := t.rows.map fun b => if uuid b = uuid a then a else b
        distinct := by
          refine List.pairwise_map.2 (t.distinct.imp_of_mem fun {b c} hb hc hbc => ?_)
          split_ifs with hba hca hca
          · exact absurd (hba.trans hca.symm) hbc.1
          · exact ⟨Ne.symm hca, fun hname => hca (h.2 c hc hname.symm)⟩
          · exact ⟨hba, fun hname => hba (h.2 b hb hname)⟩
          · exact hbc }
  else none

/-- Removes the row of an id. -/
def delete (u : K) : NamedTable uuid name :=
  ⟨t.rows.filter fun a => uuid a ≠ u, t.distinct.filter _⟩

/-- The names of the rows. -/
def names : Finset N := (t.rows.map name).toFinset

variable {t}

omit [DecidableEq K] in
theorem mem_names {n : N} : n ∈ t.names ↔ ∃ a ∈ t.rows, name a = n := by
  simp [names]

omit [DecidableEq K] in
theorem findByName_eq_some {n : N} {a : V} : t.findByName n = some a ↔ a ∈ t.rows ∧ name a = n := by
  constructor
  · intro h
    exact ⟨List.mem_of_find?_eq_some h, by simpa using List.find?_some h⟩
  · rintro ⟨ha, rfl⟩
    have hsome : (t.findByName (name a)).isSome = true := List.find?_isSome.2 ⟨a, ha, by simp⟩
    obtain ⟨b, hb⟩ := Option.isSome_iff_exists.1 hsome
    have hname : name b = name a := by simpa using List.find?_some hb
    rw [hb, t.eq_of_shared (List.mem_of_find?_eq_some hb) ha (Or.inr hname)]

omit [DecidableEq K] in
theorem findByName_eq_none {n : N} : t.findByName n = none ↔ n ∉ t.names := by
  rw [mem_names, findByName, List.find?_eq_none]
  simp

omit [DecidableEq N] in
theorem findByUuid_eq_some {u : K} {a : V} : t.findByUuid u = some a ↔ a ∈ t.rows ∧ uuid a = u := by
  constructor
  · intro h
    exact ⟨List.mem_of_find?_eq_some h, by simpa using List.find?_some h⟩
  · rintro ⟨ha, rfl⟩
    have hsome : (t.findByUuid (uuid a)).isSome = true := List.find?_isSome.2 ⟨a, ha, by simp⟩
    obtain ⟨b, hb⟩ := Option.isSome_iff_exists.1 hsome
    have huuid : uuid b = uuid a := by simpa using List.find?_some hb
    rw [hb, t.eq_of_shared (List.mem_of_find?_eq_some hb) ha (Or.inl huuid)]

/-! ### What the operations leave -/

variable {t' : NamedTable uuid name}

/-- A row is refused exactly when its id or its name is taken. -/
theorem create_eq_none_iff {a : V} :
    t.create a = none ↔ ∃ b ∈ t.rows, uuid a = uuid b ∨ name a = name b := by
  unfold create
  split_ifs with h
  · refine iff_of_false id ?_
    rintro ⟨b, hb, huuid | hname⟩
    · exact (h b hb).1 huuid
    · exact (h b hb).2 hname
  · refine iff_of_true rfl ?_
    by_contra hfree
    refine h fun b hb => ⟨fun huuid => hfree ⟨b, hb, Or.inl huuid⟩, fun hname =>
      hfree ⟨b, hb, Or.inr hname⟩⟩

theorem rows_create {a : V} (h : t.create a = some t') : t'.rows = a :: t.rows := by
  unfold create at h
  split_ifs at h
  rw [← Option.some.inj h]

theorem names_create {a : V} (h : t.create a = some t') : t'.names = insert (name a) t.names := by
  rw [names, rows_create h, List.map_cons, List.toFinset_cons]
  rfl

omit [DecidableEq N] in
theorem mem_delete {u : K} {a : V} : a ∈ (t.delete u).rows ↔ a ∈ t.rows ∧ uuid a ≠ u := by
  simp [delete]

/-- Without the row of an id its name is gone. -/
theorem names_delete {a : V} (ha : a ∈ t.rows) : (t.delete (uuid a)).names = t.names.erase (name a) := by
  ext n
  rw [mem_names, Finset.mem_erase, mem_names]
  constructor
  · rintro ⟨b, hb, rfl⟩
    obtain ⟨hb, hne⟩ := mem_delete.1 hb
    exact ⟨fun hname => hne (congrArg uuid (t.eq_of_shared hb ha (Or.inr hname))), b, hb, rfl⟩
  · rintro ⟨hn, b, hb, rfl⟩
    exact ⟨b, mem_delete.2 ⟨hb, fun huuid => hn (congrArg name
      (t.eq_of_shared hb ha (Or.inl huuid)))⟩, rfl⟩

/-! ### What the operations leave under a name -/

theorem findByName_create {a : V} (h : t.create a = some t') (n : N) :
    t'.findByName n = if name a = n then some a else t.findByName n := by
  rw [findByName, rows_create h]
  by_cases hn : name a = n
  · rw [if_pos hn, List.find?_cons_of_pos (by simpa using hn)]
  · rw [if_neg hn, List.find?_cons_of_neg (by simpa using hn), findByName]

/-- A row may be written over under the same name. -/
theorem exists_update {a b : V} (hb : b ∈ t.rows) (huuid : uuid b = uuid a)
    (hname : name b = name a) : ∃ t', t.update a = some t' := by
  refine ⟨_, dif_pos ⟨⟨b, hb, huuid⟩, fun c hc hcname => ?_⟩⟩
  rw [t.eq_of_shared hc hb (Or.inr (hcname.trans hname.symm)), huuid]

theorem rows_update {a : V} (h : t.update a = some t') :
    t'.rows = t.rows.map fun b => if uuid b = uuid a then a else b := by
  unfold update at h
  split_ifs at h
  rw [← Option.some.inj h]

theorem findByName_update {a b : V} (h : t.update a = some t') (hb : b ∈ t.rows)
    (huuid : uuid b = uuid a) (hname : name b = name a) (n : N) :
    t'.findByName n = if name a = n then some a else t.findByName n := by
  ext c
  rw [findByName_eq_some, rows_update h, List.mem_map]
  split_ifs with hn
  · constructor
    · rintro ⟨⟨d, hd, rfl⟩, hdname⟩
      split_ifs at hdname ⊢ with hsame
      · rfl
      · refine absurd (congrArg uuid (t.eq_of_shared hd hb (Or.inr ?_))) fun h => hsame (h.trans huuid)
        rw [hdname, hname, hn]
    · intro hc
      rw [← Option.some.inj hc]
      exact ⟨⟨b, hb, if_pos huuid⟩, hn⟩
  · rw [findByName_eq_some]
    constructor
    · rintro ⟨⟨d, hd, rfl⟩, hdname⟩
      split_ifs at hdname ⊢ with hsame
      · exact absurd hdname hn
      · exact ⟨hd, hdname⟩
    · rintro ⟨hc, hcname⟩
      refine ⟨⟨c, hc, if_neg fun hsame => ?_⟩, hcname⟩
      rw [t.eq_of_shared hc hb (Or.inl (hsame.trans huuid.symm)), hname] at hcname
      exact hn hcname

theorem findByName_delete {a : V} (ha : a ∈ t.rows) (n : N) :
    (t.delete (uuid a)).findByName n = if name a = n then none else t.findByName n := by
  ext c
  rw [findByName_eq_some, mem_delete]
  split_ifs with hn
  · refine iff_of_false ?_ id
    rintro ⟨⟨hc, hne⟩, hcname⟩
    exact hne (congrArg uuid (t.eq_of_shared hc ha (Or.inr (hcname.trans hn.symm))))
  · rw [findByName_eq_some]
    refine ⟨fun h => ⟨h.1.1, h.2⟩, fun h => ⟨⟨h.1, fun hsame => ?_⟩, h.2⟩⟩
    rw [t.eq_of_shared h.1 ha (Or.inl hsame)] at h
    exact hn h.2

end NamedTable

/-
# Directed graphs: cycles, replaced nodes and descent

A graph is a relation `r`, an edge `r a b` leading from `a` to `b`.

* `Acyclic.of_replaced`: when a graph differs from an acyclic one only in the
  edges that leave one node `g`, a cycle of it passes through `g`, so that the
  nodes reachable from `g` are the only ones that have to be searched.
* `Acyclic.of_sinks`: new edges into nodes without successors close no cycle.
* `Acyclic.acc`: in an acyclic graph with finitely many nodes that have a
  successor, every descent along the edges ends.
* `IsEnd`: where the paths from a node end.  In an acyclic graph there is such an
  end, and only one where no node has two successors (`isEnd_iff_of_edge`).
* `DepthBound.forall_finishes_iff`: a recursion along the edges of a graph, which
  fails on nodes that are not there, finishes from all nodes within some depth
  exactly when the graph is closed and acyclic.
* `containsCircularReference`: a search from one node along the lists of a
  finite map, which gives up as soon as it meets a node again.  It reports
  every cycle that can be reached (`containsCircularReference_of_cycle`), and
  also two paths to one node.
-/

import Mathlib.Data.List.AList
import Mathlib.Logic.Relation
import Mathlib.Order.WellFoundedSet

namespace Digraph

open Relation

variable {α : Type*} {r r' : α → α → Prop}

/-- No node is reached from itself. -/
def Acyclic (r : α → α → Prop) : Prop := ∀ a, ¬ TransGen r a a

theorem Acyclic.mono (h : Acyclic r) (hr : ∀ a b, r' a b → r a b) : Acyclic r' :=
  fun a ha => h a (TransGen.mono hr a a ha)

/-- Edges that lead down close no cycle. -/
theorem Acyclic.of_rank (rank : α → ℕ) (h : ∀ a b, r a b → rank b < rank a) : Acyclic r := by
  have hpath : ∀ a b, TransGen r a b → rank b < rank a := by
    intro a b hab
    induction hab with
    | single hab => exact h _ _ hab
    | tail _ hbc ih => exact (h _ _ hbc).trans ih
  exact fun a ha => lt_irrefl _ (hpath a a ha)

/-- A path either uses only edges of `r`, or passes through `g`. -/
theorem transGen_or_through {g : α} (hoff : ∀ a b, a ≠ g → r' a b → r a b) {a b : α}
    (h : TransGen r' a b) : TransGen r a b ∨ (ReflTransGen r' a g ∧ TransGen r' g b) := by
  induction h with
  | @single b hab =>
    by_cases ha : a = g
    · exact Or.inr ⟨ha ▸ .refl, .single (ha ▸ hab)⟩
    · exact Or.inl (.single (hoff a b ha hab))
  | @tail b c hab hbc ih =>
    rcases ih with hr | ⟨hag, hgb⟩
    · by_cases hb : b = g
      · subst hb
        exact Or.inr ⟨hab.to_reflTransGen, .single hbc⟩
      · exact Or.inl (hr.tail (hoff b c hb hbc))
    · exact Or.inr ⟨hag, hgb.tail hbc⟩

/-- **Replacing the edges of one node.**  A graph that agrees with an acyclic one
off the node `g` is acyclic as soon as no cycle can be reached from `g`. -/
theorem Acyclic.of_replaced {g : α} (h : Acyclic r) (hoff : ∀ a b, a ≠ g → r' a b → r a b)
    (hg : ∀ n, ReflTransGen r' g n → ¬ TransGen r' n n) : Acyclic r' := by
  intro a ha
  rcases transGen_or_through hoff ha with hr | ⟨hag, hga⟩
  · exact h a hr
  · exact hg g .refl (hga.trans_left hag)

/-- **Edges into sinks.**  A graph whose new edges lead to nodes without successors
is acyclic with the old one. -/
theorem Acyclic.of_sinks (h : Acyclic r) (hnew : ∀ a b, r' a b → r a b ∨ ∀ c, ¬ r' b c) :
    Acyclic r' := by
  have hold : ∀ {a b c}, TransGen r' a b → r' b c → TransGen r a b := by
    intro a b c hab
    induction hab generalizing c with
    | @single b hab => exact fun hbc => .single ((hnew a b hab).resolve_right fun hs => hs c hbc)
    | @tail b d hab hbd ih =>
      exact fun hdc => (ih hbd).tail ((hnew b d hbd).resolve_right fun hs => hs c hdc)
  intro a ha
  obtain ⟨b, hab, -⟩ := TransGen.head'_iff.1 ha
  exact h a (hold ha hab)

/-- **Descent ends.**  With finitely many nodes that have a successor, every path
of an acyclic graph is finite. -/
theorem Acyclic.acc (h : Acyclic r) (hfin : {a | ∃ b, r a b}.Finite) (a : α) :
    Acc (Function.swap r) a := by
  have : IsStrictOrder α (Function.swap (TransGen r)) :=
    { irrefl := h, trans := fun _ _ _ hab hbc => hbc.trans hab }
  have hwf := hfin.wellFoundedOn (r := Function.swap (TransGen r))
  have hdom : ∀ x ∈ {a | ∃ b, r a b}, Acc (Function.swap r) x := by
    refine fun x hx => hwf.induction hx (P := fun x => Acc (Function.swap r) x) fun x _ ih => ?_
    refine ⟨x, fun y hxy => ?_⟩
    by_cases hy : ∃ z, r y z
    · exact ih y hy (.single hxy)
    · exact ⟨y, fun z hz => (hy ⟨z, hz⟩).elim⟩
  by_cases ha : ∃ b, r a b
  · exact hdom a ha
  · exact ⟨a, fun b hb => (ha ⟨b, hb⟩).elim⟩

/-- A node from which every descent ends is on no cycle, and reaches none. -/
theorem not_transGen_self_of_acc {a n : α} (ha : Acc (Function.swap r) a)
    (hn : ReflTransGen r a n) : ¬ TransGen r n n := by
  have hacc : Acc (Function.swap r) n := by
    induction hn with
    | refl => exact ha
    | tail _ hbc ih => exact ih.inv hbc
  have hirr : ∀ x, Acc (TransGen (Function.swap r)) x → ¬ TransGen (Function.swap r) x x := by
    intro x hx
    induction hx with
    | intro x _ ih => exact fun hxx => ih x hxx hxx
  exact fun hnn => hirr n hacc.transGen (transGen_swap.2 hnn)

/-! ### Where paths end -/

/-- A path from `a` ends in `t`. -/
def IsEnd (r : α → α → Prop) (a t : α) : Prop := ReflTransGen r a t ∧ ∀ b, ¬ r t b

/-- Where descent ends, there is an end. -/
theorem exists_isEnd_of_acc {a : α} (ha : Acc (Function.swap r) a) : ∃ t, IsEnd r a t := by
  induction ha with
  | intro a _ ih =>
    by_cases h : ∃ b, r a b
    · obtain ⟨b, hab⟩ := h
      obtain ⟨t, hbt, ht⟩ := ih b hab
      exact ⟨t, hbt.head hab, ht⟩
    · exact ⟨a, .refl, fun b hab => h ⟨b, hab⟩⟩

/-- A node without successors is its own end. -/
theorem IsEnd.eq_of_sink {a t : α} (h : IsEnd r a t) (ha : ∀ b, ¬ r a b) : t = a := by
  rcases ReflTransGen.cases_head h.1 with hat | ⟨b, hab, -⟩
  · exact hat.symm
  · exact absurd hab (ha b)

/-- Where no node has two successors, there is one end. -/
theorem IsEnd.unique (hunique : Relator.RightUnique r) {a t u : α} (ht : IsEnd r a t)
    (hu : IsEnd r a u) : t = u := by
  rcases ht.1.total_of_right_unique hunique hu.1 with htu | hut
  · exact (IsEnd.eq_of_sink ⟨htu, hu.2⟩ ht.2).symm
  · exact IsEnd.eq_of_sink ⟨hut, ht.2⟩ hu.2

/-- And an edge leads to the same end. -/
theorem isEnd_iff_of_edge (hunique : Relator.RightUnique r) {a b t : α} (hab : r a b) :
    IsEnd r a t ↔ IsEnd r b t := by
  refine ⟨fun h => ⟨?_, h.2⟩, fun h => ⟨h.1.head hab, h.2⟩⟩
  rcases ReflTransGen.cases_head h.1 with rfl | ⟨c, hac, hct⟩
  · exact absurd hab (h.2 b)
  · exact hunique hab hac ▸ hct

/-! ### Recursion along the edges -/

/-- `F d a` says that a recursion from `a` finishes within the depth `d`: the node is
there, and the recursion finishes from each of its finitely many successors. -/
structure DepthBound (r : α → α → Prop) (there : α → Prop) (F : ℕ → α → Prop) : Prop where
  zero : ∀ a, ¬ F 0 a
  succ : ∀ d a, F (d + 1) a ↔ there a ∧ ∀ b, r a b → F d b
  finite : ∀ a, {b | r a b}.Finite

namespace DepthBound

variable {there : α → Prop} {F : ℕ → α → Prop}

/-- A greater depth does no harm. -/
theorem mono (h : DepthBound r there F) {d e : ℕ} (hde : d ≤ e) {a : α} (ha : F d a) : F e a := by
  induction d generalizing e a with
  | zero => exact absurd ha (h.zero a)
  | succ d ih =>
    obtain ⟨e, rfl⟩ : ∃ k, e = k + 1 := ⟨e - 1, by omega⟩
    obtain ⟨hthere, hsucc⟩ := (h.succ d a).1 ha
    exact (h.succ e a).2 ⟨hthere, fun b hb => ih (by omega) (hsucc b hb)⟩

/-- One depth is enough for finitely many nodes. -/
theorem common_depth (h : DepthBound r there F) {s : Set α} (hs : s.Finite)
    (hF : ∀ b ∈ s, ∃ d, F d b) : ∃ d, ∀ b ∈ s, F d b := by
  induction s, hs using Set.Finite.induction_on with
  | empty => exact ⟨0, fun b hb => absurd hb (Set.notMem_empty b)⟩
  | @insert a s _ _ ih =>
    obtain ⟨d, hd⟩ := ih fun b hb => hF b (Set.mem_insert_of_mem a hb)
    obtain ⟨e, he⟩ := hF a (Set.mem_insert a s)
    refine ⟨max d e, fun b hb => ?_⟩
    rcases hb with rfl | hb
    · exact h.mono (le_max_right d e) he
    · exact h.mono (le_max_left d e) (hd b hb)

/-- **The recursion finishes from a node** when every descent from it ends, and stays
on nodes that are there. -/
theorem finishes_of_acc (h : DepthBound r there F) (hclosed : ∀ a b, r a b → there b) {a : α}
    (hacc : Acc (Function.swap r) a) (ha : there a) : ∃ d, F d a := by
  induction hacc with
  | intro a _ ih =>
    obtain ⟨d, hd⟩ := h.common_depth (h.finite a) fun b hb => ih b hb (hclosed a b hb)
    exact ⟨d + 1, (h.succ d a).2 ⟨ha, hd⟩⟩

/-- Every descent from a node the recursion finishes on ends. -/
theorem acc_of_finishes (h : DepthBound r there F) {d : ℕ} {a : α} (ha : F d a) :
    Acc (Function.swap r) a := by
  induction d generalizing a with
  | zero => exact absurd ha (h.zero a)
  | succ d ih => exact ⟨a, fun b hb => ih (((h.succ d a).1 ha).2 b hb)⟩

/-- A node the recursion finishes on is there. -/
theorem there_of_finishes (h : DepthBound r there F) : ∀ {d : ℕ} {a : α}, F d a → there a
  | 0, a, ha => absurd ha (h.zero a)
  | d + 1, a, ha => ((h.succ d a).1 ha).1

/-- **The recursion finishes from all nodes** exactly when the edges lead to nodes
that are there and close no cycle. -/
theorem forall_finishes_iff (h : DepthBound r there F) (hfrom : ∀ a b, r a b → there a)
    (hfin : {a | there a}.Finite) :
    (∀ a, there a → ∃ d, F d a) ↔ (∀ a b, r a b → there b) ∧ Acyclic r := by
  constructor
  · intro hall
    constructor
    · intro a b hab
      obtain ⟨d, hd⟩ := hall a (hfrom a b hab)
      cases d with
      | zero => exact absurd hd (h.zero a)
      | succ d => exact h.there_of_finishes (((h.succ d a).1 hd).2 b hab)
    · intro a ha
      obtain ⟨b, hab, -⟩ := TransGen.head'_iff.1 ha
      obtain ⟨d, hd⟩ := hall a (hfrom a b hab)
      exact not_transGen_self_of_acc (h.acc_of_finishes hd) .refl ha
  · rintro ⟨hclosed, hacyclic⟩ a ha
    have hsources : {a | ∃ b, r a b}.Finite := by
      refine hfin.subset ?_
      rintro a ⟨b, hab⟩
      exact hfrom a b hab
    exact h.finishes_of_acc hclosed (hacyclic.acc hsources a) ha

end DepthBound

section Search

variable [DecidableEq α]

/-- The successors a finite map lists for a node; a node without an entry has
none. -/
def successors (graph : AList fun _ : α => List α) (n : α) : List α :=
  (graph.lookup n).getD []

/-- The edges of a finite map. -/
def Edge (graph : AList fun _ : α => List α) (a b : α) : Prop := b ∈ successors graph a

/-- The search: the nodes `todo` are still to be visited, the nodes `seen` have
been.  It answers `true` when it meets a node again, or runs out of `fuel`. -/
def meetsAgain (graph : AList fun _ : α => List α) : ℕ → List α → List α → Bool
  | _, [], _ => false
  | 0, _ :: _, _ => true
  | fuel + 1, n :: todo, seen =>
    if n ∈ seen then true else meetsAgain graph fuel (successors graph n ++ todo) (n :: seen)

/-- A search from `start` that meets no node twice, with one visit allowed for
`start` and one for each listed successor. -/
def containsCircularReference (start : α) (graph : AList fun _ : α => List α) : Bool :=
  meetsAgain graph (1 + (graph.entries.flatMap fun e => e.2).length) [start] []

/-- From every node on the list of a search that meets no node again, every
descent ends. -/
theorem acc_of_not_meetsAgain (graph : AList fun _ : α => List α) :
    ∀ fuel todo seen, meetsAgain graph fuel todo seen = false →
      ∀ n ∈ todo, Acc (Function.swap (Edge graph)) n
  | _, [], _, _ => fun _ hn => absurd hn List.not_mem_nil
  | 0, _ :: _, _, h => by simp [meetsAgain] at h
  | fuel + 1, m :: todo, seen, h => by
    rw [meetsAgain] at h
    split_ifs at h
    have ih := acc_of_not_meetsAgain graph fuel _ _ h
    have hm : Acc (Function.swap (Edge graph)) m :=
      ⟨m, fun b hb => ih b (List.mem_append_left _ hb)⟩
    intro n hn
    rcases List.mem_cons.1 hn with rfl | hn
    · exact hm
    · exact ih n (List.mem_append_right _ hn)

/-- A search answers `true` whenever a cycle can be reached from its start. -/
def ReportsEveryCycle (search : α → (AList fun _ : α => List α) → Bool) : Prop :=
  ∀ start graph n, ReflTransGen (Edge graph) start n → TransGen (Edge graph) n n →
    search start graph = true

/-- **The search reports every cycle it can reach.** -/
theorem containsCircularReference_of_cycle :
    ReportsEveryCycle (containsCircularReference (α := α)) := by
  intro start graph n hreach hcycle
  by_contra h
  have hacc := acc_of_not_meetsAgain graph _ _ _ (Bool.eq_false_iff.2 h) start
    (List.mem_singleton_self _)
  exact not_transGen_self_of_acc hacc hreach hcycle

end Search

end Digraph

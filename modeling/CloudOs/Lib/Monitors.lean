/-
# Threads that enter monitors

A monitor has at most one owner.  A thread at the entry of a monitor waits as long as
another thread owns it, and a set of threads is deadlocked when each of them waits for
a monitor that one of them owns: no thread of the set will move again.

What a thread holds and what it is about to enter follow from where it stands in its
code, `pc : T → P`.  `Accounted` says that the owners are those that the places of the
threads say; a step of one thread keeps it, when it stays with its monitors, enters one
that is free, or exits one that it holds (`Turn`).

With two monitors a deadlock is two threads, each of which holds one and waits for the
other (`deadlocked_iff_crossed`).
-/

import Mathlib.Data.Set.Insert
import Mathlib.Order.BooleanAlgebra.Set
import Mathlib.Logic.Function.Basic

namespace Monitors

variable {T M P : Type*}

/-- The thread `t` is at the entry of a monitor that another thread `u` owns. -/
def WaitsFor (entering : P → Option M) (owner : M → Option T) (pc : T → P) (t u : T) : Prop :=
  ∃ m, entering (pc t) = some m ∧ owner m = some u ∧ u ≠ t

/-- Some threads all wait for each other. -/
def Deadlocked (entering : P → Option M) (owner : M → Option T) (pc : T → P) : Prop :=
  ∃ S : Set T, S.Nonempty ∧ ∀ t ∈ S, ∃ u ∈ S, WaitsFor entering owner pc t u

/-- The owners are the threads that hold a monitor by the place they stand at. -/
def Accounted (holds : P → Set M) (owner : M → Option T) (pc : T → P) : Prop :=
  ∀ m t, owner m = some t ↔ m ∈ holds (pc t)

/-- A step of the thread `t` from the place `p` to the place `p'`, for the owners. -/
inductive Turn [DecidableEq M] (holds : P → Set M) (t : T) (p : P) (owner : M → Option T) :
    P → (M → Option T) → Prop
  | stays {p' : P} (same : holds p' = holds p) : Turn holds t p owner p' owner
  | enters {p' : P} {m : M} (free : owner m = none) (takes : holds p' = insert m (holds p)) :
      Turn holds t p owner p' (Function.update owner m (some t))
  | exits {p' : P} {m : M} (held : m ∈ holds p) (drops : holds p' = holds p \ {m}) :
      Turn holds t p owner p' (Function.update owner m none)

variable {entering : P → Option M} {holds : P → Set M} {owner : M → Option T} {pc : T → P}

/-- A step of a method is a step of the method that calls it, which holds more monitors. -/
theorem Turn.inside [DecidableEq M] {Q : Type*} {holdsQ : Q → Set M} {A : Set M} {f : P → Q}
    {t : T} {p p' : P} {owner' : M → Option T} (hf : ∀ p, holdsQ (f p) = A ∪ holds p)
    (hA : ∀ p, ∀ m ∈ holds p, m ∉ A) (h : Turn holds t p owner p' owner') :
    Turn holdsQ t (f p) owner (f p') owner' := by
  cases h with
  | stays same => exact .stays (by rw [hf, hf, same])
  | enters free takes => exact .enters free (by rw [hf, hf, takes, Set.union_insert])
  | @exits m held drops =>
    refine .exits (by rw [hf]; exact Or.inr held) ?_
    rw [hf, hf, drops, Set.union_sdiff_distrib, Set.sdiff_singleton_eq_self (hA p m held)]

/-- No two threads hold one monitor. -/
theorem Accounted.unique (h : Accounted holds owner pc) {m : M} {t u : T} (ht : m ∈ holds (pc t))
    (hu : m ∈ holds (pc u)) : t = u :=
  Option.some.inj (((h m t).2 ht).symm.trans ((h m u).2 hu))

/-- **The rule of the step.**  A step of one thread keeps the account. -/
theorem Accounted.turn [DecidableEq T] [DecidableEq M] {owner' : M → Option T} {t : T} {p' : P}
    (h : Accounted holds owner pc) (hturn : Turn holds t (pc t) owner p' owner') :
    Accounted holds owner' (Function.update pc t p') := by
  intro k u
  cases hturn with
  | stays same =>
    rw [h k u]
    by_cases hu : u = t
    · rw [hu, Function.update_self, same]
    · rw [Function.update_of_ne hu]
  | @enters m free takes =>
    by_cases hu : u = t
    · rw [hu, Function.update_self, takes, Set.mem_insert_iff, ← h k t, Function.update_apply]
      by_cases hk : k = m <;> simp [hk]
    · rw [Function.update_of_ne hu, ← h k u, Function.update_apply]
      by_cases hk : k = m
      · rw [if_pos hk, hk, free]
        exact ⟨fun htu => absurd (Option.some.inj htu).symm hu, fun hno =>
          absurd hno (Option.some_ne_none u).symm⟩
      · rw [if_neg hk]
  | @exits m held drops =>
    by_cases hu : u = t
    · rw [hu, Function.update_self, drops, Set.mem_sdiff, ← h k t, Function.update_apply]
      by_cases hk : k = m <;> simp [hk]
    · rw [Function.update_of_ne hu, ← h k u, Function.update_apply]
      by_cases hk : k = m
      · rw [if_pos hk, hk, (h m t).2 held]
        exact ⟨fun hno => absurd hno (Option.some_ne_none u).symm, fun htu =>
          absurd (Option.some.inj htu).symm hu⟩
      · rw [if_neg hk]

/-- **Deadlocks of two monitors.**  Two threads each hold one and wait for the other. -/
theorem deadlocked_iff_crossed {a b : M} (hab : a ≠ b) (htwo : ∀ m, m = a ∨ m = b)
    (h : Accounted holds owner pc) :
    Deadlocked entering owner pc ↔ ∃ t u, t ≠ u ∧ a ∈ holds (pc t) ∧ entering (pc t) = some b ∧
      b ∈ holds (pc u) ∧ entering (pc u) = some a := by
  constructor
  · rintro ⟨S, ⟨t, ht⟩, hS⟩
    obtain ⟨u, hu, m, hm, howner, hne⟩ := hS t ht
    obtain ⟨v, hv, k, hk, howner', hne'⟩ := hS u hu
    obtain ⟨x, -, l, hl, howner'', hne''⟩ := hS v hv
    -- `u` owns `m` and waits for `k`, which `v` owns and so does not wait for
    have hkm : k ≠ m := by
      rintro rfl
      exact hne' (Option.some.inj (howner'.symm.trans howner))
    have hlk : l ≠ k := by
      rintro rfl
      exact hne'' (Option.some.inj (howner''.symm.trans howner'))
    rcases htwo m with rfl | rfl
    · obtain rfl := (htwo k).resolve_left hkm
      obtain rfl := (htwo l).resolve_right hlk
      exact ⟨u, v, hne'.symm, (h _ u).1 howner, hk, (h _ v).1 howner', hl⟩
    · obtain rfl := (htwo k).resolve_right hkm
      obtain rfl := (htwo l).resolve_left hlk
      exact ⟨v, u, hne', (h _ v).1 howner', hl, (h _ u).1 howner, hk⟩
  · rintro ⟨t, u, hne, hta, htb, hub, hua⟩
    refine ⟨{t, u}, ⟨t, Or.inl rfl⟩, ?_⟩
    rintro v (rfl | rfl)
    · exact ⟨u, Or.inr rfl, b, htb, (h b u).2 hub, hne.symm⟩
    · exact ⟨t, Or.inl rfl, a, hua, (h a t).2 hta, hne⟩

end Monitors

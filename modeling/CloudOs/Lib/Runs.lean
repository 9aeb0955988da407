/-
# Runs of a machine

A machine is a function `step` that takes a state and an input to the next
state; a run feeds it a list of inputs.  `Meets step C s is` says that every
step of the run meets the condition `C` in the state it is taken from: `C` is
about the input and the state *before* the step; `Somewhere step C s is` says that
some step does.  A property that every step that meets `C` preserves holds at the
end of the run (`run_invariant`), and so does a relation between two states that
every such step respects (`run_relation`).  Every prefix of a run is a run, so
both rules are about every state reached.  Two machines whose steps keep a relation
between their states keep it over a run (`run_simulation`).

Where a step is a relation and not a function, a run is a chain of its steps
(`holds_of_reflTransGen`).
-/

import Mathlib.Logic.Relation

namespace Runs

variable {σ ι : Type*}

/-- The state after the inputs `is`, taken in order from `s`. -/
def run (step : σ → ι → σ) (s : σ) (is : List ι) : σ := is.foldl step s

@[simp] theorem run_nil (step : σ → ι → σ) (s : σ) : run step s [] = s := rfl

@[simp] theorem run_cons (step : σ → ι → σ) (s : σ) (i : ι) (is : List ι) :
    run step s (i :: is) = run step (step s i) is := rfl

theorem run_append (step : σ → ι → σ) (s : σ) (is js : List ι) :
    run step s (is ++ js) = run step (run step s is) js := List.foldl_append

/-- Every step of the run meets `C` in the state it is taken from. -/
def Meets (step : σ → ι → σ) (C : σ → ι → Prop) : σ → List ι → Prop
  | _, [] => True
  | s, i :: is => C s i ∧ Meets step C (step s i) is

instance decidableMeets (step : σ → ι → σ) (C : σ → ι → Prop) [∀ s i, Decidable (C s i)] :
    ∀ s is, Decidable (Meets step C s is)
  | _, [] => inferInstanceAs (Decidable True)
  | s, i :: is => @instDecidableAnd _ _ _ (decidableMeets step C (step s i) is)

/-- A condition that holds of every step is met by every run. -/
theorem meets_of_forall {step : σ → ι → σ} {C : σ → ι → Prop} (h : ∀ s i, C s i) :
    ∀ s is, Meets step C s is
  | _, [] => trivial
  | s, i :: is => ⟨h s i, meets_of_forall h (step s i) is⟩

theorem Meets.and {step : σ → ι → σ} {C D : σ → ι → Prop} :
    ∀ {s : σ} {is : List ι}, Meets step C s is → Meets step D s is →
      Meets step (fun s i => C s i ∧ D s i) s is
  | _, [], _, _ => trivial
  | _, _ :: _, hC, hD => ⟨⟨hC.1, hD.1⟩, Meets.and hC.2 hD.2⟩

theorem Meets.mono {step : σ → ι → σ} {C D : σ → ι → Prop} (h : ∀ s i, C s i → D s i) :
    ∀ {s : σ} {is : List ι}, Meets step C s is → Meets step D s is
  | _, [], _ => trivial
  | _, _ :: _, hC => ⟨h _ _ hC.1, Meets.mono h hC.2⟩

/-- Every prefix of a run is a run. -/
theorem Meets.of_prefix {step : σ → ι → σ} {C : σ → ι → Prop} :
    ∀ {s : σ} {js is : List ι}, js <+: is → Meets step C s is → Meets step C s js
  | _, [], _, _, _ => trivial
  | _, _ :: _, [], h, _ => absurd (List.prefix_nil.1 h) (by simp)
  | _, _ :: _, _ :: _, h, hC => by
    obtain ⟨rfl, hrest⟩ := List.cons_prefix_cons.1 h
    exact ⟨hC.1, Meets.of_prefix hrest hC.2⟩

/-- Some step of the run is taken from a state where `C` holds of it. -/
def Somewhere (step : σ → ι → σ) (C : σ → ι → Prop) : σ → List ι → Prop
  | _, [] => False
  | s, i :: is => C s i ∨ Somewhere step C (step s i) is

/-- A step is somewhere in the run unless every step is another one. -/
theorem not_somewhere_iff {step : σ → ι → σ} {C : σ → ι → Prop} :
    ∀ {s : σ} {is : List ι}, ¬ Somewhere step C s is ↔ Meets step (fun s i => ¬ C s i) s is
  | _, [] => by simp [Somewhere, Meets]
  | s, i :: is => by
    rw [Somewhere, Meets, not_or, not_somewhere_iff]

/-- A condition on the inputs alone is met by a run whose inputs satisfy it. -/
theorem meets_of_mem {step : σ → ι → σ} {C : ι → Prop} :
    ∀ (s : σ) {is : List ι}, (∀ i ∈ is, C i) → Meets step (fun _ i => C i) s is
  | _, [], _ => trivial
  | s, i :: _, h => ⟨h i List.mem_cons_self,
      meets_of_mem (step s i) fun j hj => h j (List.mem_cons_of_mem i hj)⟩

/-- A condition on every state that a run reaches is one on the states that its steps lead to. -/
theorem forall_prefix_iff {step : σ → ι → σ} {P : σ → Prop} : ∀ {s : σ} {is : List ι},
    (∀ js, js <+: is → P (run step s js)) ↔ P s ∧ Meets step (fun s i => P (step s i)) s is
  | s, [] => by simp [Meets]
  | s, i :: is => by
    rw [Meets, ← forall_prefix_iff (s := step s i)]
    constructor
    · intro h
      exact ⟨h [] List.nil_prefix, fun js hjs => h (i :: js) (List.cons_prefix_cons.2 ⟨rfl, hjs⟩)⟩
    · rintro ⟨hs, h⟩ js hjs
      cases js with
      | nil => exact hs
      | cons j js =>
        obtain ⟨rfl, hrest⟩ := List.cons_prefix_cons.1 hjs
        exact h js hrest

/-- Conditions that agree on the steps taken from the states of an invariant are met by the
same runs; the steps that meet the first keep the invariant. -/
theorem meets_congr {step : σ → ι → σ} {C D : σ → ι → Prop} {I : σ → Prop}
    (hstep : ∀ s i, I s → C s i → I (step s i)) (hiff : ∀ s i, I s → (C s i ↔ D s i)) :
    ∀ {s : σ} {is : List ι}, I s → (Meets step C s is ↔ Meets step D s is)
  | _, [], _ => Iff.rfl
  | s, i :: is, hI => by
    rw [Meets, Meets, ← hiff s i hI]
    exact and_congr_right fun hC => meets_congr hstep hiff (hstep s i hI hC)

/-- **The rule of the invariant.**  What every step that meets `C` preserves
holds after every run whose steps meet `C`. -/
theorem run_invariant {step : σ → ι → σ} {C : σ → ι → Prop} {I : σ → Prop}
    (hstep : ∀ s i, I s → C s i → I (step s i)) :
    ∀ {s : σ} {is : List ι}, I s → Meets step C s is → I (run step s is) := by
  intro s is hI hC
  induction is generalizing s with
  | nil => exact hI
  | cons i is ih => exact ih (hstep s i hI hC.1) hC.2

/-- What every step preserves holds after every run. -/
theorem run_preserves {step : σ → ι → σ} {I : σ → Prop} (hstep : ∀ s i, I s → I (step s i)) {s : σ}
    (hI : I s) (is : List ι) : I (run step s is) :=
  run_invariant (C := fun _ _ => True) (fun s i hs _ => hstep s i hs) hI
    (meets_of_forall (fun _ _ => trivial) s is)

/-- **The rule of the frame.**  A reflexive and transitive relation that every
step respects, while `I` holds and the step meets `C`, relates the two ends of
every run whose steps meet `C`. -/
theorem run_relation {step : σ → ι → σ} {C : σ → ι → Prop} {I : σ → Prop} {R : σ → σ → Prop}
    (hrefl : ∀ s, R s s) (htrans : ∀ {s t u}, R s t → R t u → R s u)
    (hstep : ∀ s i, I s → C s i → I (step s i) ∧ R s (step s i)) :
    ∀ {s : σ} {is : List ι}, I s → Meets step C s is → R s (run step s is) := by
  intro s is hI hC
  induction is generalizing s with
  | nil => exact hrefl s
  | cons i is ih =>
    obtain ⟨hI', hR⟩ := hstep s i hI hC.1
    exact htrans hR (ih hI' hC.2)

/-- **The rule of the cause.**  What holds after a run held all the time, or was brought about by a step
of the run and has held ever since. -/
theorem always_or_cause {step : σ → ι → σ} {P : σ → Prop} : ∀ {s : σ} {is : List ι},
    P (run step s is) → (∀ js, js <+: is → P (run step s js)) ∨
      ∃ before i after, is = before ++ i :: after ∧ ¬ P (run step s before) ∧
        ∀ js, js <+: after → P (run step (step (run step s before) i) js)
  | s, [], h => Or.inl fun js hjs => by
    obtain rfl := List.prefix_nil.1 hjs
    exact h
  | s, i :: is, h => by
    rcases always_or_cause (s := step s i) h with halways | ⟨before, j, after, rfl, hnot, hsince⟩
    · by_cases hs : P s
      · refine Or.inl fun js hjs => ?_
        rcases List.prefix_cons_iff.1 hjs with rfl | ⟨rest, rfl, hrest⟩
        · exact hs
        · exact halways rest hrest
      · exact Or.inr ⟨[], i, is, rfl, hs, halways⟩
    · exact Or.inr ⟨i :: before, j, after, rfl, hnot, hsince⟩

/-- **The rule of the latch.**  What a step that meets `C` brings about, and every step keeps, holds
after every run with such a step. -/
theorem run_of_somewhere {step : σ → ι → σ} {C : σ → ι → Prop} {P : σ → Prop}
    (hset : ∀ s i, C s i → P (step s i)) (hkeep : ∀ s i, P s → P (step s i)) :
    ∀ {s : σ} {is : List ι}, Somewhere step C s is → P (run step s is) := by
  intro s is h
  induction is generalizing s with
  | nil => exact h.elim
  | cons i is ih =>
    rcases h with hC | hlater
    · rw [run_cons]
      exact run_preserves hkeep (hset s i hC) is
    · exact ih hlater

/-- A latch is set after a run exactly when some step of it sets it, if the steps that do not keep
what it excludes. -/
theorem run_iff_somewhere {step : σ → ι → σ} {C : σ → ι → Prop} {D : ι → Prop} {P Q : σ → Prop}
    (hset : ∀ s i, C s i → P (step s i)) (hkeep : ∀ s i, P s → P (step s i))
    (hclear : ∀ s i, Q s → D i → ¬ C s i → Q (step s i)) (hexcl : ∀ s, P s → ¬ Q s)
    {s : σ} {is : List ι} (hQ : Q s) (hD : ∀ i ∈ is, D i) :
    P (run step s is) ↔ Somewhere step C s is := by
  refine ⟨fun hP => Classical.not_not.1 fun hnot => ?_, run_of_somewhere hset hkeep⟩
  have hmeets := (meets_of_mem s hD).and (not_somewhere_iff.1 hnot)
  exact hexcl _ hP (run_invariant (fun s i hQ h => hclear s i hQ h.1 h.2) hQ hmeets)

/-- **The rule of simulation.**  Two machines whose steps keep `R` end every run of the same
inputs in states that `R` relates. -/
theorem run_simulation {τ : Type*} {step : σ → ι → σ} {step' : τ → ι → τ} {R : σ → τ → Prop}
    (hstep : ∀ s t i, R s t → R (step s i) (step' t i)) :
    ∀ {s : σ} {t : τ} (is : List ι), R s t → R (run step s is) (run step' t is) := by
  intro s t is h
  induction is generalizing s t with
  | nil => exact h
  | cons i is ih => exact ih (hstep s t i h)

/-- **The rule of the closure.**  What one step of `r` preserves, any number of steps
preserve. -/
theorem holds_of_reflTransGen {r : σ → σ → Prop} {I : σ → Prop}
    (hstep : ∀ s t, r s t → I s → I t) {s t : σ} (h : Relation.ReflTransGen r s t) (hI : I s) :
    I t := by
  induction h with
  | refl => exact hI
  | tail _ hst ih => exact hstep _ _ hst ih

end Runs

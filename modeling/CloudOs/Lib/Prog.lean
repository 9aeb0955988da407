/-
# Programs that keep their state when they throw

A method of a server changes shared state step by step, and an exception that
leaves it does not undo the steps already taken.  `Prog σ ε` is that reading of
a method body: a function of the state `σ` that ends with a value or with an
error of type `ε`, and leaves a state in both cases.  `Prog.attempt` is `try`:
the error becomes a value and the state stays as the body left it.

`Prog.Ends m s Q` says that the run of `m` from `s` ends in a result and a
state that satisfy `Q`.  Its rules are equivalences, one for each way a body is
put together, so that `simp` turns a statement about a body into one about the
calls it makes, and `Prog.Ends.mono` then replaces a call by what is known of
it.

`Prog.Respects R m` says that every run of `m`, however it ends, relates the
state it starts from to the one it leaves by `R`.  For a reflexive and
transitive `R` a body respects `R` as soon as its parts do.
-/

import Mathlib.Order.Defs.Unbundled

/-- A method body over the state `σ` with exceptions `ε`: the state survives an
exception. -/
abbrev Prog (σ ε α : Type) : Type := ExceptT ε (StateM σ) α

namespace Prog

variable {σ ε α β : Type}

/-- The run of `m` from `s`: how it ends, and the state it leaves. -/
def exec (m : Prog σ ε α) (s : σ) : Except ε α × σ := m s

/-- The state that `m` leaves when it is run from `s`. -/
def after (m : Prog σ ε α) (s : σ) : σ := (exec m s).2

/-- The run of `m` from `s` ends in a result and a state that satisfy `Q`. -/
def Ends (m : Prog σ ε α) (s : σ) (Q : Except ε α → σ → Prop) : Prop :=
  Q (exec m s).1 (exec m s).2

/-- `try m catch`: the error of `m` becomes a value. -/
def attempt (m : Prog σ ε α) : Prog σ ε (Except ε α) := fun s =>
  (.ok (exec m s).1, (exec m s).2)

/-- A body over a part of the state; the rest stays as it is. -/
def zoom {τ : Type} (part : τ → σ) (put : σ → τ → τ) (m : Prog σ ε α) : Prog τ ε α := fun s =>
  ((exec m (part s)).1, put (exec m (part s)).2 s)

/-- A computation that reads the state and may throw. -/
def reads (f : σ → Except ε α) : Prog σ ε α := fun s => (f s, s)

/-- A call to something outside: it leaves its mark on the state, also when it fails. -/
def callOut (fails : σ → Bool) (error : ε) (mark : σ → σ) : Prog σ ε PUnit := fun s =>
  (if fails s then .error error else .ok ⟨⟩, mark s)

theorem Ends.mono {m : Prog σ ε α} {s : σ} {P Q : Except ε α → σ → Prop} (h : Ends m s P)
    (hPQ : ∀ r t, P r t → Q r t) : Ends m s Q := hPQ _ _ h

theorem Ends.and {m : Prog σ ε α} {s : σ} {P Q : Except ε α → σ → Prop} (hP : Ends m s P)
    (hQ : Ends m s Q) : Ends m s fun r t => P r t ∧ Q r t := ⟨hP, hQ⟩

/-- What every end agrees on is decided before the run. -/
theorem ends_iff {m : Prog σ ε α} {s : σ} {Q : Except ε α → σ → Prop} {P : Prop}
    (h : Ends m s fun r t => (Q r t ↔ P)) : Ends m s Q ↔ P := h

/-- A body ends as it does. -/
theorem ends_exec (m : Prog σ ε α) (s : σ) : Ends m s fun r t => exec m s = (r, t) := rfl

/-- What holds of every end holds of the state that is left. -/
theorem Ends.after {m : Prog σ ε α} {s : σ} {P : σ → Prop} (h : Ends m s fun _ t => P t) :
    P (after m s) := h

@[simp] theorem ends_pure (a : α) (s : σ) (Q : Except ε α → σ → Prop) :
    Ends (pure a : Prog σ ε α) s Q ↔ Q (.ok a) s := Iff.rfl

@[simp] theorem ends_throw (e : ε) (s : σ) (Q : Except ε α → σ → Prop) :
    Ends (throw e : Prog σ ε α) s Q ↔ Q (.error e) s := Iff.rfl

@[simp] theorem ends_get (s : σ) (Q : Except ε σ → σ → Prop) :
    Ends (get : Prog σ ε σ) s Q ↔ Q (.ok s) s := Iff.rfl

@[simp] theorem ends_modify (f : σ → σ) (s : σ) (Q : Except ε PUnit → σ → Prop) :
    Ends (modify f : Prog σ ε PUnit) s Q ↔ Q (.ok ⟨⟩) (f s) := Iff.rfl

@[simp] theorem ends_zoom {τ : Type} (part : τ → σ) (put : σ → τ → τ) (m : Prog σ ε α) (s : τ)
    (Q : Except ε α → τ → Prop) :
    Ends (zoom part put m) s Q ↔ Ends m (part s) fun r t => Q r (put t s) := Iff.rfl

@[simp] theorem ends_reads (f : σ → Except ε α) (s : σ) (Q : Except ε α → σ → Prop) :
    Ends (reads f) s Q ↔ Q (f s) s := Iff.rfl

@[simp] theorem ends_callOut (fails : σ → Bool) (error : ε) (mark : σ → σ) (s : σ)
    (Q : Except ε PUnit → σ → Prop) :
    Ends (callOut fails error mark) s Q ↔ Q (if fails s then .error error else .ok ⟨⟩) (mark s) :=
  Iff.rfl

@[simp] theorem ends_attempt (m : Prog σ ε α) (s : σ) (Q : Except ε (Except ε α) → σ → Prop) :
    Ends (attempt m) s Q ↔ Ends m s fun r t => Q (.ok r) t := Iff.rfl

/-- **The rule of sequence.**  The second part runs from the state the first one
leaves, unless the first one throws. -/
@[simp] theorem ends_bind (m : Prog σ ε α) (f : α → Prog σ ε β) (s : σ)
    (Q : Except ε β → σ → Prop) :
    Ends (m >>= f) s Q ↔ Ends m s fun r t => match r with
      | .ok a => Ends (f a) t Q
      | .error e => Q (.error e) t := by
  unfold Ends exec
  change Q (ExceptT.bindCont f (m s).1 (m s).2).1 (ExceptT.bindCont f (m s).1 (m s).2).2 ↔ _
  cases (m s).1 <;> exact Iff.rfl

/-- The sequence of two bodies, as a function of the state. -/
theorem exec_bind (m : Prog σ ε α) (f : α → Prog σ ε β) (s : σ) :
    exec (m >>= f) s = match exec m s with
      | (.ok a, t) => exec (f a) t
      | (.error e, t) => (.error e, t) := by
  change ExceptT.bindCont f (m s).1 (m s).2 = _
  rw [exec]
  rcases m s with ⟨_ | _, _⟩ <;> rfl

/-- An error is no value. -/
theorem of_error_eq_ok {e : ε} {a : α} {P : Prop} (h : (Except.error e : Except ε α) = .ok a) :
    P := by
  cases h

theorem not_exists_error_eq_ok {e : ε} : ¬ ∃ a, (Except.error e : Except ε α) = .ok a := by
  rintro ⟨a, h⟩
  cases h

theorem toOption_eq_some {x : Except ε α} {a : α} : x.toOption = some a ↔ x = .ok a := by
  cases x with
  | error e => exact ⟨fun h => absurd h (Option.some_ne_none a).symm, fun h => of_error_eq_ok h⟩
  | ok b => exact ⟨fun h => congrArg Except.ok (Option.some.inj h), fun h =>
      congrArg some (Except.ok.inj h)⟩

/-- A sequence that ends with a value has passed its first part. -/
theorem exists_of_bind_eq_ok {x : Except ε α} {f : α → Except ε β} {b : β} (h : x >>= f = .ok b) :
    ∃ a, x = .ok a ∧ f a = .ok b := by
  cases x with
  | error e => exact of_error_eq_ok h
  | ok a => exact ⟨a, rfl, h⟩

/-! ### Relations that a body respects -/

/-- Every run of `m` relates the state it starts from to the one it leaves. -/
def Respects (R : σ → σ → Prop) (m : Prog σ ε α) : Prop := ∀ s, Ends m s fun _ t => R s t

namespace Respects

variable {R : σ → σ → Prop} {m : Prog σ ε α}

protected theorem attempt (h : Respects R m) : Respects R (attempt m) := h

protected theorem modify {f : σ → σ} (h : ∀ s, R s (f s)) :
    Respects R (modify f : Prog σ ε PUnit) := h

protected theorem bind [IsTrans σ R] {f : α → Prog σ ε β} (h : Respects R m)
    (hf : ∀ a, Respects R (f a)) : Respects R (m >>= f) := by
  intro s
  rw [ends_bind]
  refine (h s).mono fun r t hst => ?_
  cases r with
  | ok a => exact (hf a t).mono fun _ _ htu => trans_of R hst htu
  | error e => exact hst

variable [Std.Refl R]

protected theorem pure (a : α) : Respects R (pure a : Prog σ ε α) := fun s => refl_of R s

protected theorem throw (e : ε) : Respects R (throw e : Prog σ ε α) := fun s => refl_of R s

protected theorem reads (f : σ → Except ε α) : Respects R (reads f) := fun s => refl_of R s

protected theorem get : Respects R (get : Prog σ ε σ) := fun s => refl_of R s

/-- A loop respects what its body does. -/
protected theorem forM [IsTrans σ R] {f : β → Prog σ ε PUnit} (h : ∀ b, Respects R (f b)) :
    ∀ l : List β, Respects R (l.forM f)
  | [] => Respects.pure _
  | b :: l => (h b).bind fun _ => Respects.forM h l

end Respects

end Prog

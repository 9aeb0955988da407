/-
# Tasks

A task runs in the background on the repository of the apps.  `execute` returns a result, or
`null` after it has reported an error, or throws; the last two are exits of the body, so that
the steps after them are not taken.
-/

import CloudOs.Lib.Prog
import CloudOs.Model.AppRepository

namespace CloudOs

/-- The body of a task. -/
abbrev AppTask := Prog AppServer Exit

namespace AppTask

open Prog

variable {α : Type}

/-- Changes what the task reports. -/
def report (f : TaskResult → TaskResult) : AppTask PUnit := modify fun s => { s with task := f s.task }

def description (key : String) : AppTask PUnit := report fun r => { r with description := some key }

def addEvent (key : String) : AppTask PUnit := report fun r => { r with events := key :: r.events }

def error (key : String) : AppTask PUnit := report fun r => { r with error := some key }

/-- `error`, and `return null`. -/
def fail (key : String) : AppTask α := do
  error key
  throw .null

/-- Throws the exception of a call. -/
def orThrow : Except Exn α → AppTask α
  | .ok a => pure a
  | .error x => throw (.threw x)

/-- `call` on a new task: its result, unless it has none. -/
def call (task : AppTask TaskResult) : AppTask (Option TaskResult) := do
  let own := (← get).task
  modify fun s => { s with task := {} }
  let r ← attempt task
  modify fun s => { s with task := own }
  return r.toOption

/-- A task that ends with a result that reports success. -/
def Succeeds (r : Except Exit TaskResult) : Prop := ∃ result, r = .ok result ∧ result.success = true

theorem succeeds_iff {r : Except Exit TaskResult} :
    Succeeds r ↔ r.toOption.map TaskResult.success = some true := by
  rw [Succeeds, Option.map_eq_some_iff]
  exact exists_congr fun result => and_congr_left fun _ => toOption_eq_some.symm

theorem not_succeeds_error {e : Exit} : ¬ Succeeds (.error e) := by
  rintro ⟨result, hresult, -⟩
  exact of_error_eq_ok hresult

/-! ### Steps that leave the repository alone -/

/-- The step leaves the repository alone, and goes on with the values that satisfy `P`. -/
def Yields (s : AppServer) (P : α → Prop) (m : AppTask α) : Prop :=
  Ends m s fun r t => t.repository = s.repository ∧ ∀ a, r = .ok a ↔ P a

namespace Yields

variable {β : Type} {s : AppServer} {P : α → Prop} {m : AppTask α}

protected theorem pure (a : α) : Yields s (a = ·) (pure a) :=
  ⟨rfl, fun _ => ⟨Except.ok.inj, congrArg Except.ok⟩⟩

protected theorem orThrow (x : Except Exn α) : Yields s (x = .ok ·) (orThrow x) := by
  cases x with
  | ok a => exact ⟨rfl, fun _ => ⟨fun h => congrArg Except.ok (Except.ok.inj h), fun h =>
      congrArg Except.ok (Except.ok.inj h)⟩⟩
  | error x => exact ⟨rfl, fun _ => ⟨fun h => of_error_eq_ok h, fun h => of_error_eq_ok h⟩⟩

/-- A step that changes what is beside the repository. -/
protected theorem modify {f : AppServer → AppServer} (hf : (f s).repository = s.repository) :
    Yields s (fun _ => True) (modify f : AppTask PUnit) :=
  ⟨hf, fun _ => iff_of_true rfl trivial⟩

protected theorem bind {R : α → β → Prop} {f : α → AppTask β} (h : Yields s P m)
    (hf : ∀ a, P a → ∀ t, Yields t (R a) (f a)) : Yields s (fun b => ∃ a, P a ∧ R a b) (m >>= f) := by
  rw [Yields, ends_bind]
  refine Ends.mono h fun r t ht => ?_
  obtain ⟨hrepository, hr⟩ := ht
  cases r with
  | ok a =>
    have ha : P a := (hr a).1 rfl
    refine (hf a ha t).mono fun r' u hu => ⟨hu.1.trans hrepository, fun b => ?_⟩
    rw [hu.2 b]
    constructor
    · exact fun hb => ⟨a, ha, hb⟩
    · rintro ⟨a', ha', hb⟩
      obtain rfl := Except.ok.inj ((hr a').2 ha')
      exact hb
  | error e =>
    refine ⟨hrepository, fun b => ⟨fun h => of_error_eq_ok h, ?_⟩⟩
    rintro ⟨a, ha, -⟩
    exact of_error_eq_ok ((hr a).2 ha)

theorem congr {P' : α → Prop} (h : Yields s P m) (hP : ∀ a, P a ↔ P' a) : Yields s P' m :=
  Ends.mono h fun _ _ ht => ⟨ht.1, fun a => (ht.2 a).trans (hP a)⟩

/-- A step that changes what is beside the repository, and then another one. -/
theorem modify_bind {R : β → Prop} {f : AppServer → AppServer} {m : PUnit → AppTask β}
    (hf : ∀ s, (f s).repository = s.repository) (hm : ∀ t, Yields t R (m ⟨⟩)) :
    Yields s R ((modify f : AppTask PUnit) >>= m) :=
  ((Yields.modify (hf s)).bind fun _ _ t => hm t).congr fun _ =>
    ⟨fun ⟨_, _, h⟩ => h, fun h => ⟨⟨⟩, trivial, h⟩⟩

end Yields

end AppTask

end CloudOs

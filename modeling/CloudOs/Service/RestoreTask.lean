/-
# `RestoreTask`

The task asks rooty to restore the cloudstead from a backup.  A restore that works restarts the
server, so that the task has no end in which it succeeds: whatever rooty answers, the task reports
an error and has no result, or throws.

The task runs in the background and its result can be read meanwhile.  `Stage` says where it stands,
and `advance` takes it on; `execute` is the stages one after the other (`drive_execute`).

| stage | what is done next |
| --- | --- |
| `starting` | `description`, the event of the restore |
| `restoring` | the message is sent |
| `waiting` | its answer is looked at |
| `ended` | nothing |

`sent` is a log of the model: the messages that rooty was sent, the last one first.
-/

import CloudOs.Resources.SetupResource
import CloudOs.Service.CloudOsTaskBase

namespace CloudOs

open Prog

/-- `rooty.toots.restore.RestoreMessage`. -/
structure RestoreMessage where
  restoreKey : Option String
  restoreDatestamp : Option String
  notifyEmail : Option String
  deriving DecidableEq, Repr

/-- What a restore cannot change.  `hasValue` and `isEmail` are the checks of the library on the
fields of a request, `taskId n` is the id of the `n`-th task, and `answer n` is what rooty answers
to the `n`-th message: its results, or nothing in time. -/
structure RestoreEnv extends Env where
  hasValue : String → Bool
  isEmail : String → Bool
  taskId : ℕ → String
  rootyUuid : ℕ → String
  answer : ℕ → Except Exn (Option String)

/-- What a restore can change. -/
structure Restoring where
  result : TaskResult := {}
  sent : List RestoreMessage := []
  answers : ℕ := 0

/-- The task, with what it was made for. -/
structure RestoreTask where
  restoreKey : Option String
  restoreDatestamp : Option String
  notifyEmail : Option String
  deriving DecidableEq, Repr

namespace RestoreTask

variable (env : RestoreEnv) (task : RestoreTask)

/-- The message of the task. -/
def restoreMessage : RestoreMessage := ⟨task.restoreKey, task.restoreDatestamp, task.notifyEmail⟩

/-- Changes what the task reports. -/
def report (f : TaskResult → TaskResult) : Prog Restoring Exit PUnit :=
  modify fun s => { s with result := f s.result }

/-- `description`, and the event of the restore. -/
def start : Prog Restoring Exit PUnit := do
  report fun r => { r with description := some "{restore.starting}" }
  report fun r => { r with events := "{restore.restoring}" :: r.events }

/-- The first half of `request`: the message is sent. -/
def send : Prog Restoring Exit PUnit := do
  let s ← get
  report fun r => { r with rootyUuid := some (env.rootyUuid s.sent.length) }
  modify fun s => { s with sent := task.restoreMessage :: s.sent }

/-- The second half of `request`: the answer. -/
def receive : Prog Restoring Exit (Except Exn (Option String)) := do
  let s ← get
  modify fun s => { s with answers := s.answers + 1 }
  return env.answer s.answers

/-- `error`, and `return null`. -/
def fail {α : Type} (key : String) : Prog Restoring Exit α := do
  report fun r => { r with error := some key }
  throw .null

/-- What the task does with the answer.  No answer in time is a null. -/
def finish {α : Type} : Except Exn (Option String) → Prog Restoring Exit α
  | .error _ => fail "{restore.error.restoring}"
  | .ok none => throw (.threw .nullPointer)
  | .ok (some _) => fail "{restore.error.unknown}"

/-- `execute`. -/
def execute : Prog Restoring Exit TaskResult := do
  start
  send env task
  finish (← receive env)

/-! ### Its stages -/

/-- Where a task stands. -/
inductive Stage
  | starting | restoring | waiting
  | ended (exit : Exit)

/-- One stage of a task. -/
def advance : Stage → Prog Restoring Exit Stage
  | .starting => do
    start
    return .restoring
  | .restoring => do
    send env task
    return .waiting
  | .waiting => do
    finish (← receive env)
  | .ended exit => return .ended exit

/-- The next `n` stages of a task. -/
def drive : ℕ → Stage → Prog Restoring Exit Stage
  | 0, stage => return stage
  | n + 1, stage => do
    let next ← advance env task stage
    drive n next

/-- What a task that throws has as its stage. -/
def land : Except Exit Stage → Stage
  | .ok stage => stage
  | .error exit => .ended exit

variable {env task}

theorem finish_bind {α β : Type} (answer : Except Exn (Option String))
    (f : α → Prog Restoring Exit β) : (finish answer >>= f) = finish answer := by
  rcases answer with _ | _ | _
  · rfl
  · rfl
  · rfl

/-- **The stages make up `execute`.** -/
theorem drive_execute : drive env task 3 .starting =
    (do let _ ← execute env task; return .starting) := by
  simp only [drive, advance, execute, bind_assoc, pure_bind, finish_bind]

/-- The task reports no success, and what it was made for is all that it sends. -/
structure Keeps (task : RestoreTask) (s t : Restoring) : Prop where
  success : t.result.success = s.result.success
  sent : t.sent = s.sent ∨ t.sent = task.restoreMessage :: s.sent

theorem advance_keeps (stage : Stage) (s : Restoring) :
    Ends (advance env task stage) s fun _ t => Keeps task s t := by
  cases stage with
  | starting => exact ⟨rfl, Or.inl rfl⟩
  | restoring => exact ⟨rfl, Or.inr rfl⟩
  | waiting =>
    simp only [advance, receive, ends_bind, ends_get, ends_modify, ends_pure]
    generalize env.answer s.answers = answer
    rcases answer with _ | _ | _
    · exact ⟨rfl, Or.inl rfl⟩
    · exact ⟨rfl, Or.inl rfl⟩
    · exact ⟨rfl, Or.inl rfl⟩
  | ended exit => exact ⟨rfl, Or.inl rfl⟩

/-- A stage reports an event, or comes behind the one that did. -/
theorem events_advance (stage : Stage) (s : Restoring) :
    Ends (advance env task stage) s fun _ t => t.result.events ≠ [] ∨
      stage ≠ .starting ∧ t.result.events = s.result.events := by
  cases stage with
  | starting => exact Or.inl (List.cons_ne_nil _ _)
  | restoring => exact Or.inr ⟨Stage.noConfusion, rfl⟩
  | waiting =>
    simp only [advance, receive, ends_bind, ends_get, ends_modify, ends_pure]
    generalize env.answer s.answers = answer
    rcases answer with _ | _ | _
    · exact Or.inr ⟨Stage.noConfusion, rfl⟩
    · exact Or.inr ⟨Stage.noConfusion, rfl⟩
    · exact Or.inr ⟨Stage.noConfusion, rfl⟩
  | ended exit => exact Or.inr ⟨Stage.noConfusion, rfl⟩

/-- **The task has no result.** -/
theorem execute_ends (s : Restoring) :
    Ends (execute env task) s fun r t => (∃ exit, r = .error exit) ∧
      t.sent = task.restoreMessage :: s.sent ∧ t.result.success = s.result.success := by
  simp only [execute, start, send, receive, report, ends_bind, ends_modify, ends_get, ends_pure]
  generalize env.answer s.answers = answer
  rcases answer with _ | _ | _
  · exact ⟨⟨.null, rfl⟩, rfl, rfl⟩
  · exact ⟨⟨_, rfl⟩, rfl, rfl⟩
  · exact ⟨⟨.null, rfl⟩, rfl, rfl⟩

end RestoreTask

end CloudOs

/-
# The page of the restore

`RestoreController` posts the form of a restore and then asks for the result of the task every five
seconds.  A restore that works restarts the server, which forgets its tasks; so the page takes a
404 for the end of the restore.

| answer to a poll | what the page shows | polls go on |
| --- | --- | --- |
| a result with an error | the last event, as a failure | yes |
| 503 | that the server is shutting down | yes |
| 404 | that the restore is done | no |
| anything else | what the task is doing | yes |

The page does not look at the answer to its post.  A request that was refused is answered without
the id of a task, and the page polls for the task `undefined`.

The task service is a library; it keeps the results of its tasks as long as the server runs, and its
ids are never given out twice.
-/

import CloudOs.Lib.Texts
import CloudOs.Model.Numbers
import CloudOs.Setup.Restores

namespace CloudOs

open Prog Texts

/-- The answer of `Api.get_task_results`: a result, or the status of an error as a text and as a
number. -/
inductive TaskAnswer
  | result (r : TaskResult)
  | failed (status : String) (code : ℕ)

namespace RestoreController

/-- The fields of the form. -/
structure RestoreData where
  setupKey : Option String
  initialPassword : Option String
  restoreKey : Option String
  notifyEmail : Option String
  deriving DecidableEq, Repr

/-- `Ember.isEmpty` of a text. -/
def isEmpty (s : Option String) : Bool := s.all (· = "")

/-- The messages of a form, by their keys. -/
structure Validation where
  setupKey : Option String := none
  initialPassword : Option String := none
  notifyEmail : Option String := none
  restoreKey : Option String := none
  deriving DecidableEq, Repr

def validate (data : RestoreData) : Validation where
  setupKey := if isEmpty data.setupKey then some "setup_key_missing" else none
  initialPassword :=
    if isEmpty data.initialPassword then some "field_required"
    else if jsLength (data.initialPassword.getD "") < 8 then some "password_short"
    else none
  notifyEmail := if isEmpty data.notifyEmail then some "field_required" else none
  restoreKey := if isEmpty data.restoreKey then some "field_required" else none

def hasValidationFailed (v : Validation) : Bool :=
  v.setupKey.isSome || v.restoreKey.isSome || v.initialPassword.isSome || v.notifyEmail.isSome

/-- The message of the page: the key of a translation. -/
inductive UserMessage
  | initializing
  | event (key : Option String)
  deriving DecidableEq, Repr

/-- `user_message_priority`. -/
inductive Priority
  | plain | alert | success
  deriving DecidableEq, Repr

/-- The page; `intervals` are the tasks it polls for. -/
structure Page where
  requestMessages : Option Validation := none
  user_message : UserMessage := .initializing
  user_message_priority : Priority := .plain
  isHidden : Bool := true
  intervals : List String := []
  deriving DecidableEq, Repr

def hasRestoreTaskSucceded : TaskAnswer → Bool
  | .failed status code => status = "error" && code = 404
  | .result _ => false

def hasRestoreTaskFailed : TaskAnswer → Bool
  | .result r => !isEmpty r.error
  | .failed _ _ => false

def isShuttingDown : TaskAnswer → Bool
  | .failed status code => status = "error" && code = 503
  | .result _ => false

/-- `actionMessageKey`. -/
def actionMessageKey : TaskAnswer → Option String
  | .result r => r.description
  | .failed _ _ => none

/-- `result.events[result.events.length-1].messageKey`; without events the callback throws. -/
def lastEvent : TaskAnswer → Option String
  | .result r => r.events.head?
  | .failed _ _ => none

/-- The callback of an interval. -/
def onInterval (page : Page) (task_id : String) (result : TaskAnswer) : Page :=
  if hasRestoreTaskFailed result then
    match lastEvent result with
    | none => page
    | some last_error =>
      { page with user_message := .event (some last_error), user_message_priority := .alert,
                  isHidden := false }
  else if isShuttingDown result then
    { page with user_message := .event (some "{restore.shutting_down}"),
                user_message_priority := .plain }
  else if hasRestoreTaskSucceded result then
    { page with intervals := page.intervals.erase task_id,
                user_message := .event (some "{restore.done}"), user_message_priority := .success }
  else
    { page with user_message := .event (actionMessageKey result), user_message_priority := .plain }

/-- The page says that the restore is done. -/
def SaysDone (page : Page) : Prop := page.user_message_priority = .success

instance (page : Page) : Decidable (SaysDone page) := inferInstanceAs (Decidable (_ = _))

/-- The request that the form is posted as; the date is the default of the server. -/
def toRequest (data : RestoreData) : RestoreRequest where
  setupKey := data.setupKey
  initialPassword := data.initialPassword
  restoreKey := data.restoreKey
  notifyEmail := data.notifyEmail

/-! ### The page and the server -/

open Restores

variable (env : RestoreEnv) {ι : Type} [DecidableEq ι]

/-- `TasksResource.getHistory`. -/
def getHistory (s : State env ι) (uuid : String) : TaskAnswer :=
  match s.tasks.find? (·.id = uuid) with
  | none => .failed "error" 404
  | some started => .result started.result

/-- The server and the page. -/
structure Site (env : RestoreEnv) (ι : Type) where
  state : State env ι
  page : Page := {}

/-- The id in the answer of `Api.restore`, as it stands in a path: an error has none. -/
def taskId : Except Exn String → String
  | .ok id => id
  | .error _ => "undefined"

/-- `doRestore`. -/
def doRestore (s : Site env ι) (data : RestoreData) : Site env ι :=
  if hasValidationFailed (validate data) then
    { s with page := { s.page with requestMessages := some (validate data) } }
  else
    let posted := exec (restore env (toRequest data)) s.state
    ⟨posted.2, { s.page with intervals := s.page.intervals ++ [taskId posted.1] }⟩

/-- What happens next: something on the server, a form is sent, a poll is answered, by the server or
by what stands before it, or the server is started again. -/
inductive Event (env : RestoreEnv) (ι : Type)
  | server (a : Action ι)
  | doRestore (data : RestoreData)
  | poll (task_id : String) (answer : Option TaskAnswer)
  | restart (w : World env.ctx)

/-- One event.  A server that is started again has forgotten its tasks. -/
def advance (requests : ι → SetupRequest) (s : Site env ι) : Event env ι → Site env ι
  | .server a => { s with state := step env requests s.state a }
  | .doRestore data => doRestore env s data
  | .poll task_id answer =>
    if task_id ∈ s.page.intervals then
      { s with page := onInterval s.page task_id (answer.getD (getHistory env s.state task_id)) }
    else s
  | .restart w => { s with state := { s.state with server := Setup.State.start w, tasks := [] } }

/-- The page after the server has answered a poll. -/
def polled (s : Site env ι) (task_id : String) : Page :=
  onInterval s.page task_id (getHistory env s.state task_id)

variable {env} {requests : ι → SetupRequest} {s : Site env ι}

/-! ### The tasks that the server knows -/

/-- The ids of the tasks. -/
def ids (s : State env ι) : List String := s.tasks.map (·.id)

/-- What a step does to the ids: nothing, or one more is given out. -/
def Draws (s t : State env ι) : Prop :=
  ids t = ids s ∧ t.drawn = s.drawn ∨
    ids t = ids s ++ [env.taskId s.drawn] ∧ t.drawn = s.drawn + 1

omit [DecidableEq ι] in
theorem draws_restore (request : RestoreRequest) (s : State env ι) :
    Ends (restore env request) s fun r t => (∃ x, r = .error x) ∧ t = s ∨
      r = .ok (env.taskId s.drawn) ∧ ids t = ids s ++ [env.taskId s.drawn] ∧
        t.drawn = s.drawn + 1 := by
  refine (restore_ends request).mono fun r t ht => ht.imp id ?_
  rintro ⟨hid, rfl⟩
  exact ⟨hid, List.map_append, rfl⟩

theorem draws_step (requests : ι → SetupRequest) (s : State env ι) (a : Action ι) :
    Draws s (step env requests s a) := by
  cases a with
  | setup i => exact Or.inl ⟨rfl, rfl⟩
  | restore request =>
    have hends : Ends (restore env request) s _ := draws_restore request s
    rcases hends with ⟨_, h⟩ | ⟨_, h⟩
    · have hstep : step env requests s (.restore request) = s := h
      exact Or.inl ⟨by rw [hstep], by rw [hstep]⟩
    · exact Or.inr h
  | task k =>
    have hids : ids (step env requests s (.task k)) = ids s := by
      have hstarted := congrArg (List.map Prod.fst) (task_step requests s k).2
      simpa [State.started, Started.key, ids, List.map_map, Function.comp_def] using hstarted
    refine Or.inl ⟨hids, ?_⟩
    rw [step]
    split <;> rfl

/-- **What an event does to the ids.** -/
theorem ids_advance (requests : ι → SetupRequest) (s : Site env ι) (e : Event env ι) :
    Draws s.state (advance env requests s e).state ∨
      (∃ w, e = .restart w) ∧ ids (advance env requests s e).state = [] ∧
        (advance env requests s e).state.drawn = s.state.drawn := by
  cases e with
  | server a => exact Or.inl (draws_step requests s.state a)
  | doRestore data =>
    rw [advance, doRestore]
    split_ifs
    · exact Or.inl (Or.inl ⟨rfl, rfl⟩)
    · have hends : Ends (restore env (toRequest data)) s.state _ := draws_restore _ s.state
      rcases hends with ⟨_, h⟩ | ⟨_, h⟩
      · exact Or.inl (Or.inl ⟨congrArg ids h, congrArg State.drawn h⟩)
      · exact Or.inl (Or.inr h)
  | poll task_id answer =>
    rw [advance]
    split_ifs <;> exact Or.inl (Or.inl ⟨rfl, rfl⟩)
  | restart w => exact Or.inr ⟨⟨w, rfl⟩, rfl, rfl⟩

/-- Every id was drawn. -/
def Numbered (s : Site env ι) : Prop := ∀ id ∈ ids s.state, ∃ n, id = env.taskId n

theorem numbered_advance (h : Numbered s) (e : Event env ι) :
    Numbered (advance env requests s e) := by
  intro id hid
  rcases ids_advance requests s e with (⟨hids, _⟩ | ⟨hids, _⟩) | ⟨_, hids, _⟩
  · exact h id (hids ▸ hid)
  · rcases List.mem_append.1 (hids ▸ hid) with hold | hnew
    · exact h id hold
    · exact ⟨_, List.mem_singleton.1 hnew⟩
  · exact absurd (hids ▸ hid) List.not_mem_nil

/-- The server knows task number `n`. -/
def Knows (n : ℕ) (s : Site env ι) : Prop := n < s.state.drawn ∧ env.taskId n ∈ ids s.state

/-- The server has forgotten task number `n`. -/
def Forgot (n : ℕ) (s : Site env ι) : Prop := n < s.state.drawn ∧ env.taskId n ∉ ids s.state

/-- A task is known until the server is started again. -/
theorem knows_advance (requests : ι → SetupRequest) {n : ℕ} (h : Knows n s) {e : Event env ι} 
    (he : ∀ w, e ≠ .restart w) : Knows n (advance env requests s e) := by
  rcases ids_advance requests s e with
      (⟨hids, hdrawn⟩ | ⟨hids, hdrawn⟩) | ⟨⟨w, hw⟩, _⟩
  · exact ⟨hdrawn ▸ h.1, hids ▸ h.2⟩
  · exact ⟨hdrawn ▸ Nat.lt_succ_of_lt h.1, hids ▸ List.mem_append_left _ h.2⟩
  · exact absurd hw (he w)

/-- A task that is forgotten stays forgotten: its id is never given out again. -/
theorem forgot_advance (hinj : Function.Injective env.taskId) {n : ℕ} (h : Forgot n s)
    (e : Event env ι) : Forgot n (advance env requests s e) := by
  rcases ids_advance requests s e with
      (⟨hids, hdrawn⟩ | ⟨hids, hdrawn⟩) | ⟨_, hids, hdrawn⟩
  · exact ⟨hdrawn ▸ h.1, hids ▸ h.2⟩
  · refine ⟨hdrawn ▸ Nat.lt_succ_of_lt h.1, fun hmem => ?_⟩
    rcases List.mem_append.1 (hids ▸ hmem) with hold | hnew
    · exact h.2 hold
    · exact absurd (hinj (List.mem_singleton.1 hnew)) h.1.ne
  · exact ⟨hdrawn ▸ h.1, hids ▸ List.not_mem_nil⟩

/-- A task that was given out is known, or was forgotten when the server was started again. -/
theorem knows_or_forgot (requests : ι → SetupRequest) (hinj : Function.Injective env.taskId) {n : ℕ}
    (es : List (Event env ι)) (h : Knows n s) :
    (Knows n (Runs.run (advance env requests) s es) ∧ ¬ ∃ w, .restart w ∈ es) ∨
      (Forgot n (Runs.run (advance env requests) s es) ∧ ∃ w, .restart w ∈ es) := by
  induction es generalizing s with
  | nil => exact Or.inl ⟨h, fun ⟨_, hw⟩ => absurd hw List.not_mem_nil⟩
  | cons e es ih =>
    by_cases he : ∃ w, e = .restart w
    · obtain ⟨w, rfl⟩ := he
      have hforgot : Forgot n (advance env requests s (.restart w)) := ⟨h.1, List.not_mem_nil⟩
      refine Or.inr ⟨?_, w, List.mem_cons_self⟩
      exact Runs.run_preserves (I := Forgot n) (fun _ e ht => forgot_advance hinj ht e) hforgot es
    · have hnext := knows_advance requests h fun w hw => he ⟨w, hw⟩
      refine (ih hnext).imp (And.imp_right fun hnone => ?_) (And.imp_right fun hsome => ?_)
      · rintro ⟨w, hw⟩
        rcases List.mem_cons.1 hw with hhead | hrest
        · exact he ⟨w, hhead.symm⟩
        · exact hnone ⟨w, hrest⟩
      · obtain ⟨w, hw⟩ := hsome
        exact ⟨w, List.mem_cons_of_mem e hw⟩

/-! ### What the page says -/

/-- A task that has reported an error has reported an event before. -/
def Reports (started : Started) : Prop :=
  (started.stage = .starting ∧ started.result.error = none) ∨ started.result.events ≠ []

omit [DecidableEq ι] in
/-- The next stage of a task. -/
theorem reports_advanceTask {started : Started} (s : State env ι) (h : Reports started) :
    Reports (advanceTask env s started).1 := by
  have hends : Ends (RestoreTask.advance env started.task started.stage)
      ⟨started.result, s.sent, s.answers⟩ _ := RestoreTask.events_advance _ _
  refine Or.inr ?_
  rcases hends with hsome | ⟨hlater, hsame⟩
  · exact hsome
  · have hevents := h.resolve_left fun hleft => hlater hleft.1
    rw [← hsame] at hevents
    exact hevents

/-- All tasks of the server. -/
def AllReport (s : Site env ι) : Prop := ∀ started ∈ s.state.tasks, Reports started

theorem allReport_step (requests : ι → SetupRequest) {s : State env ι}
    (h : ∀ started ∈ s.tasks, Reports started) (a : Action ι) :
    ∀ started ∈ (step env requests s a).tasks, Reports started := by
  cases a with
  | setup i => exact h
  | restore request => 
    have hends : Ends (restore env request) s _ := restore_ends request
    rcases hends with ⟨_, hstep⟩ | ⟨_, hstep⟩
    · have hsame : step env requests s (.restore request) = s := hstep
      exact hsame.symm ▸ h
    · have hadded : (step env requests s (.restore request)).tasks = s.tasks ++ _ :=
        congrArg State.tasks hstep
      intro started hstarted
      rw [hadded] at hstarted
      rcases List.mem_append.1 hstarted with hold | hnew
      · exact h started hold
      · obtain rfl := List.mem_singleton.1 hnew
        exact Or.inl ⟨rfl, rfl⟩
  | task k =>
    rw [step]
    split
    · exact h
    · next started hstarted =>
      intro other hother
      rcases List.mem_or_eq_of_mem_set hother with hold | rfl
      · exact h other hold
      · exact reports_advanceTask s (h started (List.mem_of_getElem? hstarted))

theorem allReport_advance (requests : ι → SetupRequest) (h : AllReport s) (e : Event env ι) :
    AllReport (advance env requests s e) := by
  cases e with
  | server a => exact allReport_step requests h a
  | doRestore data =>
    rw [advance, doRestore]
    split_ifs
    · exact h
    · exact allReport_step requests h (.restore (toRequest data))
  | poll task_id answer =>
    rw [advance]
    split_ifs <;> exact h
  | restart w => exact fun _ hnone => absurd hnone List.not_mem_nil

/-- A page that is shown the result of a task does not say that the restore is done. -/
theorem not_saysDone_result {started : Started} (h : Reports started) (page : Page) (id : String) :
    ¬ SaysDone (onInterval page id (.result started.result)) := by
  unfold onInterval
  by_cases hfailed : hasRestoreTaskFailed (.result started.result) = true
  · rw [if_pos hfailed]
    have herror : started.result.error ≠ none := by
      intro hnone
      rw [hasRestoreTaskFailed, hnone] at hfailed
      exact Bool.noConfusion hfailed
    have hevents := h.resolve_left fun hleft => herror hleft.2
    obtain ⟨event, events, hlast⟩ := List.exists_cons_of_ne_nil hevents
    rw [lastEvent, hlast]
    exact Priority.noConfusion
  · rw [if_neg hfailed]
    exact Priority.noConfusion

omit [DecidableEq ι] in
/-- **The page says that the restore is done** when the server does not know the task. -/
theorem saysDone_polled (h : AllReport s) (task_id : String) :
    SaysDone (polled env s task_id) ↔ task_id ∉ ids s.state := by
  rw [polled, getHistory, ids, List.mem_map]
  cases hfind : s.state.tasks.find? (·.id = task_id) with
  | none =>
    rw [List.find?_eq_none] at hfind
    refine iff_of_true rfl ?_
    rintro ⟨started, hstarted, hid⟩
    exact hfind started hstarted (decide_eq_true hid)
  | some started =>
    have hstarted := List.mem_of_find?_eq_some hfind
    have hid : started.id = task_id := by simpa using List.find?_some hfind
    exact iff_of_false (not_saysDone_result (h started hstarted) _ _)
      fun hnone => hnone ⟨started, hstarted, hid⟩

/-- The site after the events `es`, from the start of the server. -/
def history (env : RestoreEnv) (requests : ι → SetupRequest) (w : World env.ctx)
    (es : List (Event env ι)) : Site env ι :=
  Runs.run (advance env requests) ⟨State.start env w, {}⟩ es

theorem numbered_history (requests : ι → SetupRequest) (w : World env.ctx)
    (es : List (Event env ι)) : Numbered (history env requests w es) :=
  Runs.run_preserves (I := Numbered) (fun _ e h => numbered_advance h e)
    (fun _ hnone => absurd hnone List.not_mem_nil) es

theorem allReport_history (requests : ι → SetupRequest) (w : World env.ctx)
    (es : List (Event env ι)) : AllReport (history env requests w es) :=
  Runs.run_preserves (I := AllReport) (fun _ e h => allReport_advance requests h e)
    (fun _ hnone => absurd hnone List.not_mem_nil) es

/-- The id under which the page polls for what it posts next. -/
def nextId (s : Site env ι) (data : RestoreData) : String :=
  taskId (exec (restore env (toRequest data)) s.state).1

/-- **What "done" means.**  A form that passes the checks of the page is posted, and the page polls
for it; whatever happens before the server answers a poll, the page then says that the restore
is done exactly when the request was refused, or the server was started again in between. -/
theorem saysDone_iff (env : RestoreEnv) (requests : ι → SetupRequest) (w : World env.ctx)
    (es fs : List (Event env ι)) (data : RestoreData) (hinj : Function.Injective env.taskId)
    (hundefined : ∀ n, env.taskId n ≠ "undefined")
    (hvalid : hasValidationFailed (validate data) = false) :
    nextId (history env requests w es) data ∈
        (history env requests w (es ++ [.doRestore data])).page.intervals ∧
      (SaysDone (polled env (history env requests w (es ++ .doRestore data :: fs))
          (nextId (history env requests w es) data)) ↔
        ¬ Accepts (history env requests w es).state (toRequest data) ∨ ∃ v, .restart v ∈ fs) := by
  have hnumbered := numbered_history requests w (es ++ .doRestore data :: fs)
  rw [saysDone_polled (allReport_history requests w _)]
  unfold history at hnumbered ⊢
  rw [Runs.run_append] at hnumbered ⊢
  rw [Runs.run_append]
  generalize Runs.run (advance env requests) ⟨State.start env w, {}⟩ es = s at hnumbered ⊢
  rw [Runs.run_cons] at hnumbered ⊢
  rw [Runs.run_cons, Runs.run_nil]
  have hpost : advance env requests s (.doRestore data) = ⟨_, _⟩ :=
    if_neg (by rw [hvalid]; exact Bool.false_ne_true)
  have hends : Ends (restore env (toRequest data)) s.state _ := draws_restore _ s.state
  refine ⟨?_, ?_⟩
  · rw [hpost]
    exact List.mem_append_right _ List.mem_cons_self
  rcases hends with ⟨⟨x, hx⟩, _⟩ | ⟨hid, hids, hdrawn⟩
  · have hrefused : ¬ Accepts s.state (toRequest data) := by
      rintro ⟨id, hid⟩
      exact of_error_eq_ok (hx.symm.trans hid)
    have hnext : nextId s data = "undefined" := by rw [nextId, hx]; rfl
    rw [hnext]
    refine iff_of_true (fun hmem => ?_) (Or.inl hrefused)
    obtain ⟨n, hn⟩ := hnumbered _ hmem
    exact hundefined n hn.symm
  · have haccepts : Accepts s.state (toRequest data) := ⟨_, hid⟩
    have hnext : nextId s data = env.taskId s.state.drawn := by rw [nextId, hid]; rfl
    have hknows : Knows s.state.drawn (advance env requests s (.doRestore data)) := by
      rw [hpost]
      exact ⟨hdrawn ▸ Nat.lt_succ_self _, hids ▸ List.mem_append_right _ List.mem_cons_self⟩
    rw [hnext]
    rcases knows_or_forgot requests hinj fs hknows with ⟨h, hnone⟩ | ⟨h, hsome⟩
    · exact iff_of_false (fun hnot => hnot h.2) (not_or.2 ⟨fun hnot => hnot haccepts, hnone⟩)
    · exact iff_of_true h.2 (Or.inr hsome)

theorem mockEnv_taskId_injective : Function.Injective mockEnv.taskId := fun _ _ h =>
  toString_injective ((String.append_right_inj _).1 h)

theorem mockEnv_taskId_ne (n : ℕ) : mockEnv.taskId n ≠ "undefined" := by
  intro h
  have hhead := congrArg (fun id => id.toList.head?) h
  simp [mockEnv] at hhead

/-- A server that was never set up. -/
def awaiting : World Env.mock.ctx where
  keyFile := .settings
    { secret := "key", email := "root@example.com", passwordHash := "password", backupKey := "b" }

/-- A form with the secrets of its key file. -/
def filled : RestoreData where
  setupKey := some "key"
  initialPassword := some "password"
  restoreKey := some "backup"
  notifyEmail := some "root@example.com"

/-- The form is posted, its task goes on, and the server is started again. -/
theorem saysDone_filled : SaysDone (polled mockEnv
    (history mockEnv Setup.twoRequests awaiting
      [.doRestore filled, .server (.task 0), .restart awaiting])
    (nextId (history mockEnv Setup.twoRequests awaiting []) filled)) :=
  (saysDone_iff mockEnv Setup.twoRequests awaiting [] [.server (.task 0), .restart awaiting]
    filled mockEnv_taskId_injective mockEnv_taskId_ne (by decide)).2.2
    (Or.inr ⟨awaiting, by simp⟩)

/-- The page while the task is under way, and after a form with a wrong key. -/
example : ¬ SaysDone (polled mockEnv (history mockEnv Setup.twoRequests awaiting
      [.doRestore filled, .server (.task 0)]) "task0") ∧
    SaysDone (polled mockEnv (history mockEnv Setup.twoRequests awaiting
      [.doRestore { filled with setupKey := some "other" }]) "undefined") := by
  decide +kernel

end RestoreController

end CloudOs

/-
# Restores and the first-time setup

`POST /setup/restore` starts a task that restores the cloudstead from a backup.  The request has no
session; what lets it in is the key file, whose secret and password it has to know.  The first-time
setup asks for the same secrets, and truncates the file when it is done.  Unlike the setup, a
restore does not look for administrators: the file is all that keeps a cloudstead that is in use
from being restored over.

Requests to `/setup` take their phases one by one, requests to `/setup/restore` are served between
them, and the tasks run in the background.  So the questions are about schedules of all three:

* a restore is accepted exactly when it knows the secrets of the file as it was at the start, and no
  request has truncated the file since (`accepts_iff`);
* when the file can be written, an answer with a session is the end of restores and of setups
  (`closed_of_opened`).
-/

import CloudOs.Service.RestoreTask
import CloudOs.Setup.Once

namespace CloudOs

open Prog SetupResource

/-- `cloudos.model.support.RestoreRequest`. -/
structure RestoreRequest where
  setupKey : Option String
  initialPassword : Option String
  restoreKey : Option String
  restoreDatestamp : Option String := some ""
  notifyEmail : Option String
  deriving DecidableEq, Repr

namespace RestoreRequest

/-- The rest of a text that begins with `n` digits. -/
def dropDigits : ℕ → List Char → Option (List Char)
  | 0, cs => some cs
  | n + 1, c :: cs => if c.isDigit then dropDigits n cs else none
  | _ + 1, [] => none

/-- One to six digits behind a hyphen, or nothing. -/
def isTime : List Char → Bool
  | [] => true
  | '-' :: cs => cs.length != 0 && cs.length ≤ 6 && cs.all Char.isDigit
  | _ => false

/-- Two digits behind a hyphen, and what may stand behind them; or nothing. -/
def isPart (rest : List Char → Bool) : List Char → Bool
  | [] => true
  | '-' :: cs => (dropDigits 2 cs).any rest
  | _ => false

/-- The pattern of `restoreDatestamp`: a year from 2000 on, a month, a day, a time. -/
def isDatestamp : List Char → Bool
  | [] => true
  | '2' :: cs => (dropDigits 3 cs).any (isPart (isPart isTime))
  | _ => false

variable (env : RestoreEnv) (request : RestoreRequest)

/-- The checks of the fields, in their order: the messages of those that fail. -/
def violations : List String :=
  (if request.setupKey.any env.hasValue then [] else ["err.setupKey.empty"]) ++
  (if request.initialPassword.any env.hasValue then [] else ["err.initialPassword.empty"]) ++
  (if request.restoreKey.any env.hasValue then [] else ["err.restoreKey.empty"]) ++
  (if request.restoreDatestamp.all fun s => isDatestamp s.toList then []
    else ["err.restoreDate.invalid"]) ++
  (if request.notifyEmail.all env.isEmail then [] else ["err.email.invalid"])

/-- The request for a setup whose secrets are checked; a null is refused before it gets here. -/
def toSetup : SetupRequest where
  toAccount := Account.new ""
  setupKey := request.setupKey.getD ""
  initialPassword := request.initialPassword.getD ""

def toTask : RestoreTask := ⟨request.restoreKey, request.restoreDatestamp, request.notifyEmail⟩

/-- The request knows the secrets of the key file. -/
def Matches (keyFile : KeyFile) : Prop :=
  ∃ settings, keyFile = .settings settings ∧ request.setupKey = some settings.secret ∧
    request.initialPassword.any (env.checkpw · settings.passwordHash) = true

end RestoreRequest

namespace Restores

/-- A task that was started. -/
structure Started where
  id : String
  task : RestoreTask
  stage : RestoreTask.Stage := .starting
  result : TaskResult := {}

/-- What the task service gave out. -/
def Started.key (started : Started) : String × RestoreTask := (started.id, started.task)

/-- The server, where each setup stands, and the tasks in the order of their start. -/
structure State (env : RestoreEnv) (ι : Type) where
  server : Setup.State env.toEnv ι
  tasks : List Started := []
  drawn : ℕ := 0
  sent : List RestoreMessage := []
  answers : ℕ := 0

/-- What happens next: a setup takes its next phase, a restore is served, or a task takes its next
stage. -/
inductive Action (ι : Type)
  | setup (i : ι)
  | restore (request : RestoreRequest)
  | task (k : ℕ)

section Steps

variable (env : RestoreEnv) {ι : Type} [DecidableEq ι]

/-- `taskService.execute`. -/
def startTask (task : RestoreTask) : Prog (State env ι) Exn String := do
  let s ← get
  let id := env.taskId s.drawn
  modify fun s =>
    { s with tasks := s.tasks ++ [{ id := id, task := task }], drawn := s.drawn + 1 }
  return id

/-- `restore`. -/
def restore (request : RestoreRequest) : Prog (State env ι) Exn String :=
  if request.violations env ≠ [] then
    throw (.invalidEx (", ".intercalate (request.violations env)) none)
  else do
    let _ ← reads fun s : State env ι =>
      SetupSettingsSource.validateFirstTimeSetup env.toEnv request.toSetup s.server.world.keyFile
    startTask env request.toTask

/-- The next stage of a task, and what it changes. -/
def advanceTask (s : State env ι) (started : Started) : Started × Restoring :=
  let end_ := exec (RestoreTask.advance env started.task started.stage)
    ⟨started.result, s.sent, s.answers⟩
  ({ started with stage := RestoreTask.land end_.1, result := end_.2.result }, end_.2)

/-- One action. -/
def step (requests : ι → SetupRequest) (s : State env ι) : Action ι → State env ι
  | .setup i => { s with server := Setup.step requests s.server i }
  | .restore request => after (restore env request) s
  | .task k =>
    match s.tasks[k]? with
    | none => s
    | some started =>
      let next := advanceTask env s started
      { s with tasks := s.tasks.set k next.1, sent := next.2.sent, answers := next.2.answers }

/-- No request has been served yet. -/
def State.start (w : World env.ctx) : State env ι := { server := Setup.State.start w }

end Steps

variable {env : RestoreEnv} {ι : Type} [DecidableEq ι] {requests : ι → SetupRequest}
  {s : State env ι}

/-- The key file. -/
def State.keyFile (s : State env ι) : KeyFile := s.server.world.keyFile

/-- The tasks that were started. -/
def State.started (s : State env ι) : List (String × RestoreTask) := s.tasks.map Started.key

/-- The request would be answered with the id of a task. -/
def Accepts (s : State env ι) (request : RestoreRequest) : Prop :=
  Ends (restore env request) s fun r _ => ∃ id, r = .ok id

/-- The phase that truncates the key file. -/
def IsComplete (p : Phase) : Prop :=
  ∃ backupKey account sessionId, p = .complete backupKey account sessionId

/-- A setup has come to truncating the key file, and the file is written. -/
def Truncates (s : State env ι) : Action ι → Prop
  | .setup i => IsComplete (s.server.phase i) ∧ env.fails .keyFile s.server.world.calls = false
  | _ => False

/-! ### The key file -/

/-- The fields that are checked to have a value have one. -/
theorem isSome_of_violations {request : RestoreRequest} (hvalid : request.violations env = []) :
    (∃ key, request.setupKey = some key) ∧ ∃ password, request.initialPassword = some password := by
  have hfield : ∀ {field : Option String} {message : String},
      (if field.any env.hasValue then [] else [message]) = [] → ∃ value, field = some value := by
    intro field message h
    cases field with
    | none => exact absurd h (List.cons_ne_nil _ _)
    | some value => exact ⟨value, rfl⟩
  simp only [RestoreRequest.violations, List.append_eq_nil_iff] at hvalid
  exact ⟨hfield hvalid.1.1.1.1, hfield hvalid.1.1.1.2⟩

/-- **What `validateFirstTimeSetup` lets pass**, and with which backup key. -/
theorem validateFirstTimeSetup_eq_ok_iff {env : Env} {request : SetupRequest} {keyFile : KeyFile}
    {backupKey : String} :
    SetupSettingsSource.validateFirstTimeSetup env request keyFile = .ok backupKey ↔
      ∃ settings, keyFile = .settings settings ∧ request.setupKey = settings.secret ∧
        env.checkpw request.initialPassword settings.passwordHash = true ∧
        backupKey = settings.backupKey := by
  cases keyFile with
  | missing => exact iff_of_false of_error_eq_ok fun ⟨_, h, _⟩ => KeyFile.noConfusion h
  | truncated => exact iff_of_false of_error_eq_ok fun ⟨_, h, _⟩ => KeyFile.noConfusion h
  | settings settings =>
    change (SetupSettingsSource.validateSecrets env request settings >>= fun _ => _) = _ ↔ _
    unfold SetupSettingsSource.validateSecrets
    split_ifs with hsecret hpassword
    · refine iff_of_false of_error_eq_ok ?_
      rintro ⟨_, hfile, hkey, -⟩
      obtain rfl := KeyFile.settings.inj hfile
      exact bne_iff_ne.1 hsecret hkey.symm
    · refine iff_of_false of_error_eq_ok ?_
      rintro ⟨_, hfile, -, hcheck, -⟩
      obtain rfl := KeyFile.settings.inj hfile
      exact absurd hcheck (by simpa using hpassword)
    · constructor
      · intro h
        obtain rfl := Except.ok.inj h
        have hkey : settings.secret = request.setupKey := by simpa using hsecret
        exact ⟨settings, rfl, hkey.symm, by simpa using hpassword, rfl⟩
      · rintro ⟨_, hfile, -, -, rfl⟩
        obtain rfl := KeyFile.settings.inj hfile
        rfl

omit [DecidableEq ι] in
/-- The secrets of a restore are checked as those of a setup. -/
theorem validate_iff {request : RestoreRequest} (hvalid : request.violations env = [])
    (keyFile : KeyFile) : (∃ backupKey, SetupSettingsSource.validateFirstTimeSetup env.toEnv
      request.toSetup keyFile = .ok backupKey) ↔ request.Matches env keyFile := by
  obtain ⟨⟨key, hkey⟩, password, hpassword⟩ := isSome_of_violations hvalid
  simp only [validateFirstTimeSetup_eq_ok_iff, RestoreRequest.Matches, RestoreRequest.toSetup, hkey,
    hpassword, Option.getD_some, Option.some.injEq, Option.any_some]
  constructor
  · rintro ⟨backupKey, settings, hfile, hsecret, hcheck, -⟩
    exact ⟨settings, hfile, hsecret, hcheck⟩
  · rintro ⟨settings, hfile, hsecret, hcheck⟩
    exact ⟨settings.backupKey, settings, hfile, hsecret, hcheck, rfl⟩

omit [DecidableEq ι] in
/-- **When a restore is accepted.** -/
theorem accepts_iff_matches (s : State env ι) (request : RestoreRequest) :
    Accepts s request ↔ request.violations env = [] ∧ request.Matches env s.keyFile := by
  unfold Accepts restore
  split_ifs with hvalid
  · rw [ends_throw]
    exact iff_of_false not_exists_error_eq_ok fun h => hvalid h.1
  · rw [not_not] at hvalid
    rw [← validate_iff hvalid, ends_bind, ends_reads, and_iff_right hvalid]
    cases hvalidate : SetupSettingsSource.validateFirstTimeSetup env.toEnv request.toSetup
        s.server.world.keyFile with
    | error x => 
      refine iff_of_false not_exists_error_eq_ok ?_
      exact fun ⟨_, h⟩ => of_error_eq_ok (hvalidate.symm.trans h)
    | ok backupKey => exact iff_of_true ⟨_, rfl⟩ ⟨backupKey, hvalidate⟩

section Phases

variable {env : Env} {w : World env.ctx} {request : SetupRequest} {p : Phase}

/-- **The other phases** leave the key file alone, and answer with no session. -/
theorem advance_sameFile (hp : ¬ IsComplete p) : Ends (advance env request p) w fun r t =>
    t.keyFile = w.keyFile ∧ (Setup.opened (Setup.land r) = none ∨ Setup.land r = p) := by
  cases p with
  | validate =>
    rw [advance, ends_bind, ends_reads]
    split <;> exact ⟨rfl, Or.inl rfl⟩
  | adminsExist k =>
    rw [advance, ends_bind, ends_reads]
    split
    · split_ifs <;> exact ⟨rfl, Or.inl rfl⟩
    · exact ⟨rfl, Or.inl rfl⟩
  | create k =>
    simp only [advance, ends_bind, ends_attempt]
    refine (AccountDAO.create_ends _).mono fun r t ht => ?_
    have hfile : t.keyFile = w.keyFile := by
      rcases ht with ⟨_, hs⟩ | ⟨_, _, hadded, _⟩
      · exact hs.keyFile
      · obtain ⟨_, _, hs⟩ := hadded.enrolls
        exact hs.keyFile
    cases r with
    | error x => exact ⟨hfile, Or.inl rfl⟩
    | ok created => exact ⟨hfile, Or.inl rfl⟩
  | update k account =>
    simp only [advance, ends_bind, ends_attempt]
    refine (AccountDAO.update_ends account).mono fun r t ht => ?_
    have hfile : t.keyFile = w.keyFile := by
      rcases ht with ⟨_, hs⟩ | ⟨_, _, ⟨_, _, _, hs⟩ | ⟨_, _, _, hs⟩⟩ <;> exact hs.keyFile
    cases r with
    | error x => exact ⟨hfile, Or.inl rfl⟩
    | ok a => exact ⟨hfile, Or.inl rfl⟩
  | undo n =>
    simp only [advance, ends_bind]
    refine (AccountDAO.delete_ends n).mono fun r t ht => ?_
    have hfile : t.keyFile = w.keyFile := by
      rcases ht with hs | ⟨_, hs⟩ <;> exact hs.keyFile
    cases r with
    | error x => exact ⟨hfile, Or.inl rfl⟩
    | ok a => exact ⟨hfile, Or.inl rfl⟩
  | session k account =>
    simp only [advance, ends_bind]
    refine (Setup.respects_setTimezone request w).mono fun r t hs => ?_
    cases r with
    | error x => exact ⟨hs.keyFile, Or.inl rfl⟩
    | ok a =>
      simp only [ends_createSession, ends_pure]
      split_ifs <;> exact ⟨hs.keyFile, Or.inl rfl⟩
  | complete k account id => exact absurd ⟨k, account, id, rfl⟩ hp
  | done result => exact ⟨rfl, Or.inr rfl⟩

/-- **The phase that truncates the key file**, unless the file cannot be written. -/
theorem complete_truncates {backupKey sessionId : String} {account : Account} :
    Ends (advance env request (.complete backupKey account sessionId)) w fun _ t =>
      t.keyFile = if env.fails .keyFile w.calls = false then .truncated else w.keyFile := by
  simp only [advance, SetupSettingsSource.firstTimeSetupCompleted, ends_bind, ends_attempt,
    ends_call]
  cases hfails : env.fails .keyFile w.calls with
  | true =>
    simp only [if_true, Bool.true_eq_false, if_false, ends_pure]
    split_ifs <;> rfl
  | false =>
    simp only [Bool.false_eq_true, if_false, ends_pure, ends_modify]
    split_ifs <;> rfl

/-- A request that comes to a truncated file is refused. -/
theorem validate_truncated (h : w.keyFile = .truncated) :
    Ends (advance env request .validate) w fun r _ => ∃ e, Setup.land r = .done (.error e) := by
  rw [advance, ends_bind, ends_reads, h]
  exact ⟨_, rfl⟩

end Phases

/-! ### Schedules -/

omit [DecidableEq ι] in
/-- A restore that is served starts a task, or changes nothing. -/
theorem restore_ends (request : RestoreRequest) : Ends (restore env request) s fun r t =>
    (∃ x, r = .error x) ∧ t = s ∨ r = .ok (env.taskId s.drawn) ∧
      t = { s with
        tasks := s.tasks ++ [{ id := env.taskId s.drawn, task := request.toTask }]
        drawn := s.drawn + 1 } := by
  unfold restore
  split_ifs
  · exact Or.inl ⟨⟨_, rfl⟩, rfl⟩
  · rw [ends_bind, ends_reads]
    split
    · exact Or.inr ⟨rfl, rfl⟩
    · exact Or.inl ⟨⟨_, rfl⟩, rfl⟩

/-- A task that goes on is the task that it was, and its step has nothing to do with the server. -/
theorem task_step (requests : ι → SetupRequest) (s : State env ι) (k : ℕ) :
    (step env requests s (.task k)).server = s.server ∧
      (step env requests s (.task k)).started = s.started := by
  rw [step]
  split
  · exact ⟨rfl, rfl⟩
  · next started hstarted =>
    obtain ⟨hk, rfl⟩ := List.getElem?_eq_some_iff.1 hstarted
    refine ⟨rfl, ?_⟩
    have hmap : k < (s.tasks.map Started.key).length := by simpa using hk
    have hself := List.set_getElem_self hmap
    rw [List.getElem_map] at hself
    change (s.tasks.set k _).map Started.key = _
    rw [List.map_set]
    exact hself

/-- **What an action leaves of the key file.** -/
theorem keyFile_step (a : Action ι) :
    (Truncates s a → (step env requests s a).keyFile = .truncated) ∧
      (¬ Truncates s a → (step env requests s a).keyFile = s.keyFile) := by
  cases a with
  | setup i =>
    by_cases hp : IsComplete (s.server.phase i)
    · obtain ⟨backupKey, account, sessionId, hphase⟩ := hp
      have hends : Ends (advance env.toEnv (requests i) (s.server.phase i)) s.server.world
          fun _ t => t.keyFile = _ := hphase ▸ complete_truncates
      refine ⟨fun h => ?_, fun h => ?_⟩
      · exact hends.trans (if_pos h.2)
      · exact hends.trans (if_neg fun hfails => h ⟨⟨backupKey, account, sessionId, hphase⟩, hfails⟩)
    · have hends : Ends (advance env.toEnv (requests i) (s.server.phase i)) s.server.world _ :=
        advance_sameFile hp
      exact ⟨fun h => absurd h.1 hp, fun _ => hends.1⟩
  | restore request =>
    refine ⟨fun h => h.elim, fun _ => ?_⟩
    have hends : Ends (restore env request) s _ := restore_ends request
    rcases hends with ⟨_, h⟩ | ⟨_, h⟩
    · exact (congrArg State.keyFile h :)
    · exact (congrArg State.keyFile h :)
  | task k =>
    refine ⟨fun h => h.elim, fun _ => ?_⟩
    rw [State.keyFile, (task_step requests s k).1]
    rfl

/-- A truncated file stays truncated. -/
theorem keyFile_truncated (a : Action ι) (h : s.keyFile = .truncated) :
    (step env requests s a).keyFile = .truncated := by
  by_cases ha : Truncates s a
  · exact (keyFile_step a).1 ha
  · exact ((keyFile_step a).2 ha).trans h

open Runs in
theorem keyFile_run (as : List (Action ι)) :
    (Somewhere (step env requests) Truncates s as →
        (run (step env requests) s as).keyFile = .truncated) ∧
      (¬ Somewhere (step env requests) Truncates s as →
        (run (step env requests) s as).keyFile = s.keyFile) := by
  have htruncated : Somewhere (step env requests) Truncates s as → _ :=
    run_of_somewhere (P := fun s => s.keyFile = .truncated) (fun _ a ha => (keyFile_step a).1 ha)
      fun _ a h => keyFile_truncated a h
  refine ⟨htruncated, fun h => ?_⟩
  exact run_invariant (I := fun t => t.keyFile = s.keyFile)
    (fun _ a ht ha => ((keyFile_step a).2 ha).trans ht) rfl (not_somewhere_iff.1 h)

/-- **The key file lets restores in.**  After every schedule, a restore is accepted exactly when it
passes the checks of its fields, knows the secrets of the key file as it was at the start, and no
setup of the schedule has truncated the file. -/
theorem accepts_iff (env : RestoreEnv) (requests : ι → SetupRequest) (w : World env.ctx)
    (as : List (Action ι)) (request : RestoreRequest) :
    Accepts (Runs.run (step env requests) (State.start env w) as) request ↔
      request.violations env = [] ∧ request.Matches env w.keyFile ∧
        ¬ Runs.Somewhere (step env requests) Truncates (State.start env w) as := by
  rw [accepts_iff_matches]
  refine and_congr_right fun _ => ?_
  by_cases h : Runs.Somewhere (step env requests) Truncates (State.start env w) as
  · rw [(keyFile_run as).1 h]
    refine iff_of_false ?_ fun hmatches => hmatches.2 h
    rintro ⟨_, hfile, -⟩
    exact KeyFile.noConfusion hfile
  · rw [(keyFile_run as).2 h]
    exact (and_iff_left h).symm

/-- The file system takes every write. -/
def FilesGo (env : RestoreEnv) : Prop := ∀ n, env.fails .keyFile n = false

/-- A setup that answered with a session has truncated the key file. -/
def OpenedLast (s : State env ι) : Prop :=
  (∃ i, (Setup.opened (s.server.phase i)).isSome = true) → s.keyFile = .truncated

theorem openedLast_step (hfiles : FilesGo env) (h : OpenedLast s) (a : Action ι) :
    OpenedLast (step env requests s a) := by
  by_cases ha : Truncates s a
  · exact fun _ => (keyFile_step a).1 ha
  rintro ⟨j, hj⟩
  refine ((keyFile_step a).2 ha).trans (h ⟨j, ?_⟩)
  cases a with
  | restore request =>
    have hends : Ends (restore env request) s _ := restore_ends request
    have hserver : (step env requests s (.restore request)).server = s.server := by
      rcases hends with ⟨_, h⟩ | ⟨_, h⟩
      · exact (congrArg State.server h :)
      · exact (congrArg State.server h :)
    exact hserver ▸ hj
  | task k =>
    exact (task_step requests s k).1 ▸ hj
  | setup i =>
    have hp : ¬ IsComplete (s.server.phase i) := fun hp => ha ⟨hp, hfiles _⟩
    have hends : Ends (advance env.toEnv (requests i) (s.server.phase i)) s.server.world _ :=
      advance_sameFile hp
    change (Setup.opened (Function.update s.server.phase i _ j)).isSome = true at hj
    rw [Function.update_apply] at hj
    split_ifs at hj with hji
    · obtain rfl := hji
      rcases hends.2 with hnone | hsame
      · exact absurd hj (by rw [hnone]; simp)
      · exact hsame ▸ hj
    · exact hj

/-- A restore that is not accepted changes nothing. -/
theorem restore_of_truncated {request : RestoreRequest} (h : s.keyFile = .truncated) :
    step env requests s (.restore request) = s := by
  have hends : Ends (restore env request) s _ := restore_ends request
  have hrefused : ¬ Accepts s request := by
    rw [accepts_iff_matches, h]
    rintro ⟨-, _, hfile, -⟩
    exact KeyFile.noConfusion hfile
  rcases hends with ⟨_, hsame⟩ | ⟨hid, _⟩
  · exact hsame
  · exact absurd ⟨_, hid⟩ hrefused

/-- An action of which nothing new comes: no task is started, and the setups that have not passed
the key file are refused. -/
structure Locks (s t : State env ι) : Prop where
  keyFile : t.keyFile = .truncated
  started : t.started = s.started
  refused : ∀ j, s.server.phase j = .validate →
    t.server.phase j = .validate ∨ ∃ e, t.server.phase j = .done (.error e)

theorem locks_step {t : State env ι} (h : Locks s t) (a : Action ι) :
    Locks s (step env requests t a) := by
  cases a with
  | restore request => exact (restore_of_truncated h.keyFile).symm ▸ h
  | task k =>
    obtain ⟨hserver, hstarted⟩ := task_step requests t k
    refine ⟨keyFile_truncated _ h.keyFile, hstarted.trans h.started, fun j hj => ?_⟩
    rw [hserver]
    exact h.refused j hj
  | setup i =>
    refine ⟨keyFile_truncated _ h.keyFile, h.started, fun j hj => ?_⟩
    have hphase := h.refused j hj
    change Function.update t.server.phase i _ j = _ ∨ ∃ e, Function.update t.server.phase i _ j = _
    rw [Function.update_apply]
    split_ifs with hji
    · obtain rfl := hji
      refine Or.inr ?_
      rcases hphase with hvalidate | ⟨e, hdone⟩
      · have hfile : t.server.world.keyFile = .truncated := h.keyFile
        rw [hvalidate]
        refine validate_truncated hfile
      · rw [hdone]
        exact ⟨e, rfl⟩
    · exact hphase

/-- **A session ends restores and setups.**  When the key file can be written, then after a setup
has answered with a session no restore is accepted and no further task is started, and a setup
that had not passed the key file by then never answers with a session. -/
theorem closed_of_opened (env : RestoreEnv) (requests : ι → SetupRequest) (w : World env.ctx)
    (as bs : List (Action ι)) (hfiles : FilesGo env)
    (hopened : ∃ i, (Setup.opened
      ((Runs.run (step env requests) (State.start env w) as).server.phase i)).isSome = true) :
    (∀ request, ¬ Accepts (Runs.run (step env requests) (State.start env w) (as ++ bs)) request) ∧
    (Runs.run (step env requests) (State.start env w) (as ++ bs)).started =
      (Runs.run (step env requests) (State.start env w) as).started ∧
    ∀ j, (Runs.run (step env requests) (State.start env w) as).server.phase j = .validate →
      Setup.opened ((Runs.run (step env requests) (State.start env w) (as ++ bs)).server.phase j)
        = none := by
  have hlast : OpenedLast (Runs.run (step env requests) (State.start env w) as) := by
    refine Runs.run_preserves (I := OpenedLast) (fun s a hs => openedLast_step hfiles hs a) ?_ as
    rintro ⟨i, hi⟩
    exact absurd hi Bool.noConfusion
  rw [Runs.run_append]
  generalize Runs.run (step env requests) (State.start env w) as = s at hlast hopened
  have hlocks : Locks s (Runs.run (step env requests) s bs) :=
    Runs.run_preserves (I := Locks s) (fun t a ht => locks_step ht a)
      ⟨hlast hopened, rfl, fun _ h => Or.inl h⟩ bs
  refine ⟨fun request => ?_, hlocks.started, fun j hj => ?_⟩
  · rw [accepts_iff_matches, hlocks.keyFile]
    rintro ⟨-, _, hfile, -⟩
    exact KeyFile.noConfusion hfile
  · rcases hlocks.refused j hj with h | ⟨e, h⟩
    · rw [h]
      rfl
    · rw [h]
      rfl

/-- A server without failing systems, which rooty answers. -/
def mockEnv : RestoreEnv where
  toEnv := .mock
  hasValue := fun s => s != ""
  isEmail := fun s => s.toList.contains '@'
  taskId := fun n => "task" ++ toString n
  rootyUuid := fun n => "rooty" ++ toString n
  answer := fun _ => .ok (some "failed")

/-- A restore with the right key and password. -/
def knowing : RestoreRequest where
  setupKey := some "key"
  initialPassword := some "pw"
  restoreKey := some "backup"
  notifyEmail := some "root@example.com"

/-- A setup that goes through, and then a restore and the other setup. -/
theorem closed_after_setup : ¬ Accepts (Runs.run (step mockEnv Setup.twoRequests)
    (State.start mockEnv Setup.fresh)
    (List.replicate 6 (.setup true) ++ [.restore knowing, .setup false])) knowing :=
  (closed_of_opened mockEnv Setup.twoRequests Setup.fresh _ _ (fun _ => rfl)
    ⟨true, by decide +kernel⟩).1 knowing

/-! ### What rooty is sent -/

/-- A request of the schedule that knew the secrets of the key file asked for the task. -/
def AskedFor (env : RestoreEnv) (keyFile : KeyFile) (as : List (Action ι)) (task : RestoreTask) :
    Prop :=
  ∃ request, Action.restore request ∈ as ∧ request.Matches env keyFile ∧ task = request.toTask

/-- Every task was asked for and reports no success, and every message is a task's. -/
structure Checked (file : KeyFile) (as : List (Action ι)) (s : State env ι) : Prop where
  keyFile : s.keyFile = file ∨ s.keyFile = .truncated
  tasks : ∀ started ∈ s.tasks, AskedFor env file as started.task ∧ started.result.success = false
  sent : ∀ message ∈ s.sent, ∃ task, AskedFor env file as task ∧ message = task.restoreMessage

/-- One action of the schedule. -/
theorem checked_step (requests : ι → SetupRequest) {file : KeyFile} {as : List (Action ι)}
    (h : Checked file as s) {a : Action ι} (ha : a ∈ as) :
    Checked file as (step env requests s a) := by
  have hfile : (step env requests s a).keyFile = file ∨
      (step env requests s a).keyFile = .truncated := by
    by_cases hwrites : Truncates s a
    · exact Or.inr ((keyFile_step a).1 hwrites)
    · rw [(keyFile_step a).2 hwrites]
      exact h.keyFile
  cases a with
  | setup i => exact ⟨hfile, h.tasks, h.sent⟩
  | restore request =>
    have hends : Ends (restore env request) s _ := restore_ends request
    rcases hends with ⟨_, hsame⟩ | ⟨hid, hadded⟩
    · have hstep : step env requests s (.restore request) = s := hsame
      rw [hstep]
      exact h
    · have hmatches := ((accepts_iff_matches s request).1 ⟨_, hid⟩).2
      have hasked : AskedFor env file as request.toTask := by
        rcases h.keyFile with hsame | htruncated
        · exact ⟨request, ha, hsame ▸ hmatches, rfl⟩
        · obtain ⟨_, hsettings, -⟩ := htruncated ▸ hmatches
          exact KeyFile.noConfusion hsettings
      have hstep : step env requests s (.restore request) = _ := hadded
      rw [hstep] at hfile ⊢
      refine ⟨hfile, fun started hstarted => ?_, h.sent⟩
      rcases List.mem_append.1 hstarted with hold | hnew
      · exact h.tasks started hold
      · obtain rfl := List.mem_singleton.1 hnew
        exact ⟨hasked, rfl⟩
  | task k =>
    rw [step] at hfile ⊢
    split
    · exact h
    · next started hstarted =>
      rw [hstarted] at hfile
      obtain ⟨hasked, hsuccess⟩ := h.tasks started (List.mem_of_getElem? hstarted)
      have hends : Ends (RestoreTask.advance env started.task started.stage)
          ⟨started.result, s.sent, s.answers⟩ fun _ t => _ := RestoreTask.advance_keeps _ _
      refine ⟨hfile, fun other hother => ?_, fun message hmessage => ?_⟩
      · rcases List.mem_or_eq_of_mem_set hother with hold | rfl
        · exact h.tasks other hold
        · exact ⟨hasked, hends.success.trans hsuccess⟩
      · rcases hends.sent with hsame | hmore
        · refine h.sent message ?_
          have hsent : (advanceTask env s started).2.sent = s.sent := hsame
          rw [← hsent]
          exact hmessage
        · have hmem : message ∈ started.task.restoreMessage :: s.sent := by
            have hsent : (advanceTask env s started).2.sent = _ := hmore
            rw [← hsent]
            exact hmessage
          rcases List.mem_cons.1 hmem with rfl | hold
          · exact ⟨started.task, hasked, rfl⟩
          · exact h.sent message hold

/-- **Only who knows the secrets has rooty restore.**  In every schedule, every message to rooty is
that of a restore request of the schedule that knew the secrets of the key file as it was at the
start; and no task ever reports success. -/
theorem sent_checked (env : RestoreEnv) (requests : ι → SetupRequest) (w : World env.ctx)
    (as : List (Action ι)) :
    (∀ message ∈ (Runs.run (step env requests) (State.start env w) as).sent,
      ∃ task, AskedFor env w.keyFile as task ∧ message = task.restoreMessage) ∧
    ∀ started ∈ (Runs.run (step env requests) (State.start env w) as).tasks,
      started.result.success = false := by
  have hstart : Checked w.keyFile as (State.start env w : State env ι) :=
    ⟨Or.inl rfl, fun _ h => absurd h List.not_mem_nil, fun _ h => absurd h List.not_mem_nil⟩
  have hchecked := Runs.run_invariant (I := Checked w.keyFile as) (C := fun _ a => a ∈ as)
    (fun s a hs ha => checked_step requests hs ha) hstart
    (Runs.meets_of_mem _ fun _ h => h)
  exact ⟨hchecked.sent, fun started h => (hchecked.tasks started h).2⟩

/-- A restore before the setup, and its task. -/
example : (Runs.run (step mockEnv Setup.twoRequests) (State.start mockEnv Setup.fresh)
    [.restore knowing, .task 0, .task 0]).sent = [knowing.toTask.restoreMessage] := by
  decide +kernel

end Restores

end CloudOs

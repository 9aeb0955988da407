/-
# `AppUninstallTask`

The task has chef remove the cookbook of an app from its run list, and then deletes the directory
of the app.

| step | when it fails |
| --- | --- |
| finds the layout of the app | reports an error and has no result |
| loads the manifest | throws |
| asks chef to remove the cookbook | reports an error and has no result |
| looks at what chef answers | the result has the error of chef |
| deletes the directory of the app | reports an error, and goes on |

A request has a mode: `uninstall` is meant to leave everything else as it is, `delete` and
`delete_backups` to delete the files.  The task looks at the mode only where it has nothing to do
yet, so that the directory of the app is deleted in every mode.

`removals` is a log of the model: the cookbooks that chef was asked to remove, the last one first.
-/

import CloudOs.Service.CloudOsTaskBase

namespace CloudOs

open Prog AppTask

/-- `AppUninstallMode`. -/
inductive AppUninstallMode
  | uninstall | delete | delete_backups
  deriving DecidableEq, Repr

structure AppUninstallRequest where
  name : String
  mode : Option AppUninstallMode := none
  deriving DecidableEq, Repr

/-- A cookbook that chef was asked to remove, and whether it answered with success. -/
structure ChefRemoval where
  cookbook : String
  success : Bool
  deriving DecidableEq, Repr

/-- What an uninstall cannot change.  `deleteQuietly` is what is left of the directory of an app
when it cannot be deleted. -/
structure UninstallEnv extends AppEnv where
  requestRemoval : String → Except Exn RootyStatus
  deleteQuietly : AppDir → Option AppDir

/-- What the tasks on the apps can change, uninstalls among them. -/
structure ChefServer extends AppServer where
  removals : List ChefRemoval := []

/-- The body of an uninstall. -/
abbrev UninstallTask := Prog ChefServer Exit

namespace AppUninstallTask

variable (env : UninstallEnv) {α : Type}

/-- A step of a task that asks chef for no removal. -/
def onServer (m : AppTask α) : UninstallTask α :=
  zoom ChefServer.toAppServer (fun s t => { t with toAppServer := s }) m

/-- The version that the layout of the app stands for, when it exists. -/
def layout (r : AppRepository) (app : String) : Option String :=
  (env.unversioned r app).filter (r.hasVersion app)

/-- Asks chef to remove a cookbook. -/
def requestRemoval (cookbook : String) : UninstallTask (Except Exn RootyStatus) := do
  onServer (report fun r => { r with rootyUuid := some env.uuid })
  let answer := env.requestRemoval cookbook
  let success := (answer.toOption.map RootyStatus.success).getD false
  modify fun s => { s with removals := ⟨cookbook, success⟩ :: s.removals }
  return answer

/-- What is left of the directory of an app. -/
def left (dir : AppDir) : AppDir := (env.deleteQuietly dir).getD {}

/-- The repository without the directory of an app, or with what is left of it. -/
def deleted (r : AppRepository) (app : String) : AppRepository :=
  Function.update r app (left env (r app))

/-- Deletes the directory of the app; a failure is reported. -/
def deleteAppDir (app : String) : AppTask PUnit := do
  let s ← get
  modify fun s => { s with repository := deleted env s.repository app }
  if (env.deleteQuietly (s.repository app)).isSome then
    error "{appUninstall.error.removingFromAppRepository}"
  else return ⟨⟩

/-- Removes the app from the repository. -/
def removeFromAppRepository (request : AppUninstallRequest) (version : String) :
    AppTask TaskResult := do
  addEvent "{appUninstall.removingFromAppRepository}"
  deleteAppDir env request.name
  -- the backups are left alone in the mode `delete_backups` too
  modify fun s => { s with resets := s.resets + 1 }
  let s ← get
  report fun r => { r with success := !s.repository.hasVersion request.name version }
  return (← get).task

/-- What the task does with the answer of chef. -/
def finish (request : AppUninstallRequest) (version : String) (status : RootyStatus) :
    AppTask TaskResult := do
  if status.success then removeFromAppRepository env request version
  else do
    report fun r => { r with error := status.lastError }
    return (← get).task

/-- `execute`. -/
def execute (request : AppUninstallRequest) : UninstallTask TaskResult := do
  onServer (description "{appUninstall.uninstallingApp}")
  let s ← get
  match layout env s.repository request.name with
  | none => onServer (fail "{appUninstall.error.appNotFound}")
  | some version => do
    onServer (addEvent "{appUninstall.notifyingChef}")
    let manifest ← onServer (orThrow (AppManifest.load (s.repository.version request.name version)))
    match ← requestRemoval env manifest.name with
    | .error _ => onServer (fail "{appUninstall.error.notifyingChef}")
    | .ok status => onServer (finish env request version status)

/-! ### How the task ends -/

variable {env} {s : ChefServer}

@[simp] theorem ends_onServer (m : AppTask α) (Q : Except Exit α → ChefServer → Prop) :
    Ends (onServer m) s Q ↔
      Ends m s.toAppServer fun r t => Q r { s with toAppServer := t } := Iff.rfl

/-- Chef removes the cookbook of the app. -/
structure Removes (env : UninstallEnv) (app : String) (r : AppRepository) (version : String)
    (manifest : AppManifest) : Prop where
  found : layout env r app = some version
  loads : AppManifest.load (r.version app version) = .ok manifest
  removed : ∃ status, env.requestRemoval manifest.name = .ok status ∧ status.success = true

/-- How the task ends, in the result `r` and the state `t`. -/
inductive Uninstalls (env : UninstallEnv) (request : AppUninstallRequest) (s : ChefServer)
    (r : Except Exit TaskResult) (t : ChefServer) : Prop
  | stops (stops : ∀ version manifest, ¬ Removes env request.name s.repository version manifest)
      (fails : ¬ Succeeds r) (same : t.repository = s.repository) (resets : t.resets = s.resets)
      (asked : t.removals = s.removals ∨
        ∃ cookbook, t.removals = ⟨cookbook, false⟩ :: s.removals) : Uninstalls env request s r t
  | removes {version : String} {manifest : AppManifest}
      (removes : Removes env request.name s.repository version manifest)
      (deleted : t.repository = deleted env s.repository request.name)
      (succeeds : Succeeds r ↔ t.repository.hasVersion request.name version = false)
      (resets : t.resets = s.resets + 1)
      (asked : t.removals = ⟨manifest.name, true⟩ :: s.removals) : Uninstalls env request s r t

theorem deleteAppDir_ends (app : String) {s : AppServer} :
    Ends (deleteAppDir env app) s fun r t => r = .ok ⟨⟩ ∧
      t.repository = deleted env s.repository app ∧ t.resets = s.resets := by
  rw [deleteAppDir, ends_bind, ends_get]
  dsimp only
  rw [ends_bind, ends_modify]
  dsimp only
  split_ifs
  · exact ⟨rfl, rfl, rfl⟩
  · exact ⟨rfl, rfl, rfl⟩

/-- **How the app is removed from the repository.** -/
theorem removeFromAppRepository_ends (request : AppUninstallRequest) (version : String)
    {s : AppServer} : Ends (removeFromAppRepository env request version) s fun r t =>
      t.repository = deleted env s.repository request.name ∧ t.resets = s.resets + 1 ∧
        (Succeeds r ↔ t.repository.hasVersion request.name version = false) := by
  rw [removeFromAppRepository, addEvent, report, ends_bind, ends_modify]
  dsimp only
  rw [ends_bind]
  refine (deleteAppDir_ends request.name).mono fun r t ht => ?_
  obtain ⟨rfl, hdeleted, hresets⟩ := ht
  dsimp only
  rw [ends_bind, ends_modify]
  dsimp only
  rw [ends_bind, ends_get]
  dsimp only
  rw [report, ends_bind, ends_modify]
  refine ⟨hdeleted, congrArg (· + 1) hresets, ?_⟩
  constructor
  · rintro ⟨result, hresult, htrue⟩
    obtain rfl := Except.ok.inj hresult
    exact Bool.not_eq_eq_eq_not.1 htrue
  · exact fun h => ⟨_, rfl, Bool.not_eq_eq_eq_not.2 h⟩

/-- **How the uninstall ends.** -/
theorem execute_uninstalls (request : AppUninstallRequest)
    (hnew : s.task.success = false) : Ends (execute env request) s fun r t =>
      Uninstalls env request s r t := by
  rw [execute, ends_bind, ends_onServer, description, report, ends_modify]
  dsimp only
  rw [ends_bind, ends_get]
  dsimp only
  cases hlayout : layout env s.repository request.name with
  | none =>
    refine .stops (fun v m h => ?_) not_succeeds_error rfl rfl (Or.inl rfl)
    exact absurd (hlayout.symm.trans h.found) (Option.some_ne_none v).symm
  | some version =>
    dsimp only
    rw [ends_bind, ends_onServer, addEvent, report, ends_modify]
    dsimp only
    rw [ends_bind, ends_onServer]
    cases hload : AppManifest.load (s.repository.version request.name version) with
    | error x =>
      refine .stops (fun v m h => ?_) not_succeeds_error rfl rfl (Or.inl rfl)
      obtain rfl : version = v := Option.some.inj (hlayout.symm.trans h.found)
      exact of_error_eq_ok (hload.symm.trans h.loads)
    | ok manifest =>
      rw [orThrow, ends_pure]
      dsimp only
      rw [ends_bind, requestRemoval, ends_bind, ends_onServer, report, ends_modify]
      dsimp only
      rw [ends_bind, ends_modify]
      dsimp only
      rw [ends_pure]
      have hmanifest : ∀ v m, Removes env request.name s.repository v m → manifest = m := by
        intro v m h
        obtain rfl : version = v := Option.some.inj (hlayout.symm.trans h.found)
        exact Except.ok.inj (hload.symm.trans h.loads)
      cases hasked : env.requestRemoval manifest.name with
      | error x =>
        refine .stops (fun v m h => ?_) not_succeeds_error rfl rfl (Or.inr ⟨manifest.name, rfl⟩)
        obtain ⟨status, hstatus, -⟩ := h.removed
        rw [← hmanifest v m h, hasked] at hstatus
        exact of_error_eq_ok hstatus
      | ok status =>
        dsimp only
        rw [ends_onServer, finish]
        cases hsuccess : status.success with
        | true =>
          rw [if_pos rfl]
          refine (removeFromAppRepository_ends request version).mono fun r t ht => ?_
          refine .removes ⟨hlayout, hload, status, hasked, hsuccess⟩ ht.1 ht.2.2 ht.2.1 ?_
          change (_ :: _ : List ChefRemoval) = _
          simp [Except.toOption, hsuccess]
        | false =>
          rw [if_neg Bool.false_ne_true, report, ends_bind, ends_modify]
          refine .stops (fun v m h => ?_) ?_ rfl rfl (Or.inr ⟨manifest.name, ?_⟩)
          · obtain ⟨status', hstatus', htrue⟩ := h.removed
            rw [← hmanifest v m h, hasked] at hstatus'
            obtain rfl := Except.ok.inj hstatus'
            exact Bool.noConfusion (hsuccess.symm.trans htrue)
          · rintro ⟨result, hresult, htrue⟩
            obtain rfl := Except.ok.inj hresult
            exact Bool.noConfusion (hnew.symm.trans htrue)
          · simp [Except.toOption, hsuccess]

end AppUninstallTask

end CloudOs

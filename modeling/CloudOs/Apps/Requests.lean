/-
# `AppsResource`: who decides about apps

Requests for apps submit tasks, which run later, in any order and each with its own failures.

| request | of an admin | of anyone else |
| --- | --- | --- |
| `downloadApp`, `installApp`, `uninstallApp` | a task is submitted | refused |
| `setConfiguration` | the databags of the version are written | refused |
| `refresh` | the caches are reset | the same, with the refresh key; refused without |

A session may end, or become another account's, while its task waits.  An app that no admin asks for,
and that no bundle names, stays as it is (`app_kept`).
-/

import CloudOs.Apps.LifeCycle
import CloudOs.Model.Answers

namespace CloudOs

open Prog Apps

namespace AppsResource

/-- A task that waits for its turn, and the account that it runs for. -/
inductive Task
  | download (account : String) (request : AppDownloadRequest)
  | install (account : String) (request : AppInstallRequest)
  | uninstall (request : AppUninstallRequest)

/-- The run of a task, with its failures. -/
def Task.event (env : UninstallEnv) : Task → TaskEvent
  | .download account request => .download env.toAppEnv account request
  | .install account request => .install env.toAppEnv account request
  | .uninstall request => .uninstall env request

/-- The server: its apps, its sessions, and the tasks that were submitted, by their ids. -/
structure AppsServer where
  server : TaskServer
  sessions : String → Option Account
  tasks : List Task := []
  started : List ℕ := []

/-- What a request is answered with. -/
inductive Body
  | taskId (id : ℕ)
  | void

/-- `AppConfiguration`, as the databags that it writes for a manifest. -/
abbrev Databags := AppManifest → List (String × Content)

abbrev Method (α : Type) := Prog AppsServer Exn α

/-- `taskService.execute`. -/
def submit (task : Task) : Method (Answer Body) := do
  let s ← get
  modify fun s => { s with tasks := s.tasks ++ [task] }
  return .ok (.taskId s.tasks.length)

/-- `downloadApp`. -/
def downloadApp (apiKey : String) (request : AppDownloadRequest) : Method (Answer Body) := do
  let s ← get
  asAdmin s.sessions apiKey fun admin => submit (.download admin.name request)

/-- `installApp`. -/
def install (apiKey app version : String) (force : Option Bool) : Method (Answer Body) := do
  let s ← get
  asAdmin s.sessions apiKey fun admin =>
    submit (.install admin.name
      (AppDAO.install app (if version = "latest" then none else some version) (force.getD false)))

/-- `uninstallApp`; the name is taken from the path. -/
def uninstallApp (apiKey app : String) (request : AppUninstallRequest) : Method (Answer Body) := do
  let s ← get
  asAdmin s.sessions apiKey fun _ => submit (.uninstall { request with name := app })

/-- `AppDAO.setConfiguration`. -/
def writeConfiguration (r : AppRepository) (app version : String) (config : Databags) :
    Except Exn AppRepository :=
  if !r.hasVersion app version then
    .error (.illegalArgument ("App/version does not exist: " ++ app ++ "/" ++ version))
  else do
    let manifest ← AppManifest.load (r.version app version)
    return r.onVersion app version fun t =>
      t.writeAll ((config manifest).map fun e => (AppLayout.databagFile manifest.name e.1, e.2))

/-- `setConfiguration`. -/
def setConfiguration (apiKey app version : String) (config : Databags) : Method (Answer Body) := do
  let s ← get
  asAdmin s.sessions apiKey fun _ => do
    match writeConfiguration s.server.repository app version config with
    | .error x => throw x
    | .ok r =>
      modify fun s => { s with server := { s.server with repository := r } }
      return .ok .void

/-- `resetApps`. -/
def resetApps : Method PUnit :=
  modify fun s => { s with server := { s.server with resets := s.server.resets + 1 } }

/-- `refresh`. -/
def refresh (appRefreshKey : Option String) (apiKey : String) (refreshKey : Option String) :
    Method (Answer Body) := do
  if !empty refreshKey then
    if refreshKey != appRefreshKey then return .forbidden
    else do
      resetApps
      return .ok .void
  else do
    let s ← get
    asAdmin s.sessions apiKey fun _ => do
      resetApps
      return .ok .void

/-- What happens at the server. -/
inductive Event
  | session (apiKey : String) (account : Option Account)
  | downloadApp (apiKey : String) (request : AppDownloadRequest)
  | installApp (apiKey app version : String) (force : Option Bool)
  | uninstallApp (apiKey app : String) (request : AppUninstallRequest)
  | setConfiguration (apiKey app version : String) (config : Databags)
  | refresh (apiKey : String) (refreshKey : Option String)
  | run (id : ℕ) (env : UninstallEnv)

variable (appRefreshKey : Option String)

/-- The state after an event. -/
def step (s : AppsServer) : Event → AppsServer
  | .session apiKey account => { s with sessions := Function.update s.sessions apiKey account }
  | .downloadApp apiKey request => after (downloadApp apiKey request) s
  | .installApp apiKey app version force => after (install apiKey app version force) s
  | .uninstallApp apiKey app request => after (uninstallApp apiKey app request) s
  | .setConfiguration apiKey app version config =>
      after (setConfiguration apiKey app version config) s
  | .refresh apiKey refreshKey => after (refresh appRefreshKey apiKey refreshKey) s
  | .run id env =>
      match s.tasks[id]? with
      | none => s
      | some task =>
        if id ∈ s.started then s
        else { s with server := s.server.step (task.event env), started := id :: s.started }

/-! ### Apps that no admin asks for -/

/-- The task is not about the app. -/
def Task.IsAboutOther (b : String) : Task → Prop
  | .download _ _ => True
  | .install _ request => request.name ≠ b
  | .uninstall request => request.name ≠ b

/-- No bundle that the task brings names the app. -/
def BundlesSpare (env : UninstallEnv) (b : String) : Task → Prop
  | .download account request => NamesOther b (.download env.toAppEnv account request)
  | .install _ request => ∀ l, AppInstallTask.listing env.toAppEnv request = .ok (some l) →
      SparesBundles env.toAppEnv b (AppInstallTask.downloadRequest request l)
  | .uninstall _ => True

/-- An admin asks for another app, and a task that is run brings another app. -/
def Spares (b : String) (s : AppsServer) : Event → Prop
  | .installApp apiKey app _ _ => IsAdminSession s.sessions apiKey → app ≠ b
  | .uninstallApp apiKey app _ => IsAdminSession s.sessions apiKey → app ≠ b
  | .setConfiguration apiKey app _ _ => IsAdminSession s.sessions apiKey → app ≠ b
  | .run id env => ∀ task ∈ s.tasks[id]?, BundlesSpare env b task
  | _ => True

/-- What an event keeps of the app: it stays as it is, and no task is about it. -/
structure Keeps (b : String) (s t : AppsServer) : Prop where
  sameApp : SameApp b s.server.repository t.server.repository
  tasks : ∀ task ∈ t.tasks, task ∈ s.tasks ∨ task.IsAboutOther b

variable {appRefreshKey} {b : String} {s : AppsServer}

theorem Keeps.refl (b : String) (s : AppsServer) : Keeps b s s :=
  ⟨.refl b _, fun _ h => Or.inl h⟩

/-- A task that is not about the app is submitted. -/
theorem submit_keeps {task : Task} (htask : task.IsAboutOther b) :
    Ends (submit task) s fun _ t => Keeps b s t := by
  simp only [submit, ends_bind, ends_get, ends_modify, ends_pure]
  refine ⟨.refl b _, fun other hother => ?_⟩
  rcases List.mem_append.1 hother with h | h
  · exact Or.inl h
  · obtain rfl := List.mem_singleton.1 h
    exact Or.inr htask

/-- Only an admin's request can change anything. -/
theorem asAdmin_keeps {apiKey : String} {body : Account → Method (Answer Body)}
    (hbody : IsAdminSession s.sessions apiKey → ∀ admin, Ends (body admin) s fun _ t => Keeps b s t) :
    Ends (asAdmin s.sessions apiKey body) s fun _ t => Keeps b s t :=
  ends_asAdmin (fun _ _ _ => .refl b s) fun admin _ hadmin => hbody hadmin admin

theorem resetApps_keeps : Ends resetApps s fun _ t => Keeps b s t :=
  ⟨.refl b _, fun _ h => Or.inl h⟩

/-- The databags of another app are written. -/
theorem writeConfiguration_sameApp {r r' : AppRepository} {app version : String} {config : Databags}
    (h : writeConfiguration r app version config = .ok r') (hne : app ≠ b) : SameApp b r r' := by
  unfold writeConfiguration at h
  split_ifs at h
  obtain ⟨manifest, -, h⟩ := exists_of_bind_eq_ok h
  obtain rfl := Except.ok.inj h
  exact .of_leaves (r.leaves_onVersion app version _) hne

/-- One event. -/
theorem step_keeps (event : Event) (htasks : ∀ task ∈ s.tasks, task.IsAboutOther b)
    (hspares : Spares b s event) : Keeps b s (step appRefreshKey s event) := by
  cases event with
  | session apiKey account => exact ⟨.refl b _, fun _ h => Or.inl h⟩
  | downloadApp apiKey request =>
    refine Ends.after (P := Keeps b s) ?_
    simp only [downloadApp, ends_bind, ends_get]
    exact asAdmin_keeps fun _ _ => submit_keeps trivial
  | installApp apiKey app version force =>
    refine Ends.after (P := Keeps b s) ?_
    simp only [install, ends_bind, ends_get]
    exact asAdmin_keeps fun hadmin _ => submit_keeps (hspares hadmin)
  | uninstallApp apiKey app request =>
    refine Ends.after (P := Keeps b s) ?_
    simp only [uninstallApp, ends_bind, ends_get]
    exact asAdmin_keeps fun hadmin _ => submit_keeps (hspares hadmin)
  | setConfiguration apiKey app version config =>
    refine Ends.after (P := Keeps b s) ?_
    simp only [setConfiguration, ends_bind, ends_get]
    refine asAdmin_keeps fun hadmin _ => ?_
    cases hwrite : writeConfiguration s.server.repository app version config with
    | error x => exact .refl b s
    | ok r => exact ⟨writeConfiguration_sameApp hwrite (hspares hadmin), fun _ h => Or.inl h⟩
  | refresh apiKey refreshKey =>
    refine Ends.after (P := Keeps b s) ?_
    unfold refresh
    split_ifs
    · exact .refl b s
    · exact resetApps_keeps
    · simp only [ends_bind, ends_get]
      exact asAdmin_keeps fun _ _ => resetApps_keeps
  | run id env =>
    rw [step]
    cases htask : s.tasks[id]? with
    | none => exact .refl b s
    | some task =>
      have hother := htasks task (List.mem_of_getElem? htask)
      have hbundles := hspares task htask
      dsimp only
      split_ifs
      · exact .refl b s
      refine ⟨sameApp_step (s := s.server) (task.event env) ?_, fun _ h => Or.inl h⟩
      cases task with
      | download account request => exact hbundles
      | install account request => exact ⟨hother, hbundles⟩
      | uninstall request => exact hother

/-- **An app that no admin asks for stays as it is**, in every run in which the requests of admins
are about other apps, and the tasks that run bring no bundle that names it, whatever anyone else
asks for: it has the same metadata and files, and it is found as installed as before. -/
theorem app_kept {events : List Event} (htasks : ∀ task ∈ s.tasks, task.IsAboutOther b)
    (h : Runs.Meets (step appRefreshKey) (Spares b) s events) :
    SameApp b s.server.repository (Runs.run (step appRefreshKey) s events).server.repository ∧
      AppDAO.findInstalledByName (Runs.run (step appRefreshKey) s events).server.repository b
        = AppDAO.findInstalledByName s.server.repository b := by
  have hsame := Runs.run_relation (I := fun s : AppsServer => ∀ task ∈ s.tasks, task.IsAboutOther b)
    (R := fun s t : AppsServer => SameApp b s.server.repository t.server.repository)
    (fun _ => .refl b _) (fun h h' => h.trans h') (fun s event hs hspares => ?_) htasks h
  · exact ⟨hsame, hsame.findInstalledByName⟩
  · have hkeeps : Keeps b s (step appRefreshKey s event) := step_keeps event hs hspares
    exact ⟨fun task htask => (hkeeps.tasks task htask).elim (hs task) id, hkeeps.sameApp⟩

/-- The blog is active, and the wiki is in the repository. -/
def wikiServer : TaskServer where
  repository := runningBlog.repository.onVersion "wiki" "1.0.0" fun _ =>
    .ofEntries [("cloudos-manifest.json", .single (.manifest
      { blogManifest with name := "wiki", scrubbedName := "wiki", normalizedLocalMount := "/wiki/" })),
      ("chef", .ofEntries [])]

/-- A server with a session of an admin and one of somebody else. -/
def appsServer : AppsServer where
  server := wikiServer
  sessions := fun apiKey =>
    if apiKey = "root" then some ((Account.new "root").setAdmin true)
    else if apiKey = "eve" then some (Account.new "eve")
    else none

/-- The admin has the wiki installed, while somebody else asks for the end of the blog. -/
def appRequests : List Event :=
  [.uninstallApp "eve" "blog" ⟨"blog", some .delete⟩, .installApp "root" "wiki" "1.0.0" none,
    .session "root" none, .run 0 goodbye]

/-- The wiki is installed for the admin, and the blog stays. -/
theorem app_kept_blog :
    IsActive (Runs.run (step none) appsServer appRequests).server.repository "wiki" ∧
    SameApp "blog" wikiServer.repository
        (Runs.run (step none) appsServer appRequests).server.repository ∧
      AppDAO.findInstalledByName (Runs.run (step none) appsServer appRequests).server.repository
          "blog" = AppDAO.findInstalledByName wikiServer.repository "blog" := by
  have heve : Spares "blog" appsServer (.uninstallApp "eve" "blog" ⟨"blog", some .delete⟩) :=
    fun h => absurd h (by decide +kernel)
  refine ⟨by unfold IsActive; decide +kernel, ?_⟩
  refine app_kept (s := appsServer) (fun task h => absurd h List.not_mem_nil)
    ⟨heve, fun _ => by decide, trivial, fun task htask => ?_, trivial⟩
  obtain rfl := Option.some.inj htask
  exact fun l hl => absurd (Except.ok.inj hl) (Option.some_ne_none l).symm

end AppsResource

end CloudOs

/-
# The life of an app

Downloads, installs and uninstalls are run one after the other, each with its own failures.

| task | the metadata it can change | the directories it can change |
| --- | --- | --- |
| download | none, or those of the app that it installs by itself | the version that the bundle names |
| install | those of the app of the request | the version it finds, or the version of a bundle |
| uninstall | those of the app of the request | those of the app of the request |

`chef` is a log of the model: the calls to chef of all tasks, the last one first.  An app stands on
the run list when the last call for it that chef answered with success was to add it.  An app
that is active stands on the run list, as long as a deletion that fails leaves no metadata
that name a version (`active_onRunList`).  An app that no task names, and whose directory no bundle
names, stays as it is (`run_spares`).
-/

import CloudOs.Apps.RunningApp
import CloudOs.Lib.Runs
import CloudOs.Service.AppUninstallTask

namespace CloudOs

open Prog AppTask

/-! ### What a download leaves alone -/

namespace AppDownloadTask

variable (env : AppEnv) {α : Type}

/-- Neither chef nor the caches have been asked for anything, and no success is reported. -/
def Quiet (s t : AppServer) : Prop :=
  t.messages = s.messages ∧ t.resets = s.resets ∧ t.task.success = s.task.success

instance quietRefl : Std.Refl Quiet := ⟨fun _ => ⟨rfl, rfl, rfl⟩⟩

instance quietTrans : IsTrans AppServer Quiet :=
  ⟨fun _ _ _ h h' => ⟨h'.1.trans h.1, h'.2.1.trans h.2.1, h'.2.2.trans h.2.2⟩⟩

theorem quiet_orThrow (x : Except Exn α) : Respects Quiet (orThrow x) := by
  cases x with
  | ok a => exact Respects.pure a
  | error x => exact Respects.throw _

theorem quiet_abort (key : String) (files : List TempFile) :
    Respects Quiet (abort env key files : AppTask α) := fun _ => ⟨rfl, rfl, rfl⟩

theorem quiet_description (key : String) : Respects Quiet (description key) :=
  fun _ => ⟨rfl, rfl, rfl⟩

theorem quiet_addEvent (key : String) : Respects Quiet (addEvent key) := fun _ => ⟨rfl, rfl, rfl⟩

theorem quiet_fetch (request : AppDownloadRequest) : Respects Quiet (fetch env request) := by
  refine (quiet_description _).bind fun _ => Respects.bind ?_ fun tarball =>
    Respects.bind ?_ fun _ => Respects.bind ?_ fun unrolled => Respects.bind ?_ fun _ =>
      Respects.pure _
  · refine (quiet_addEvent _).bind fun _ => (quiet_orThrow _).bind fun _ => ?_
    split_ifs
    · exact quiet_abort env _ _
    · refine Respects.bind (fun _ => ⟨rfl, rfl, rfl⟩) fun _ => ?_
      split
      · exact Respects.pure _
      · exact quiet_abort env _ _
  · unfold checkSha
    split_ifs
    · refine (quiet_orThrow _).bind fun sha => ?_
      split_ifs
      · exact quiet_abort env _ _
      · exact Respects.pure _
    · exact Respects.pure _
  · refine (quiet_addEvent _).bind fun _ => ?_
    split
    · exact Respects.bind (fun _ => ⟨rfl, rfl, rfl⟩) fun _ => Respects.pure _
    · exact quiet_abort env _ _
  · refine (quiet_addEvent _).bind fun _ => ?_
    split
    · exact Respects.pure _
    · exact quiet_abort env _ _

theorem quiet_onVersionDir (manifest : AppManifest) (f : FileTree Content → FileTree Content) :
    Respects Quiet (onVersionDir manifest f) := fun _ => ⟨rfl, rfl, rfl⟩

theorem quiet_versionDir (manifest : AppManifest) : Respects Quiet (versionDir manifest) :=
  Respects.get.bind fun _ => Respects.pure _

theorem quiet_makeRoom (request : AppDownloadRequest) (manifest : AppManifest) (tarball : Tarball) :
    Respects Quiet (makeRoom env request manifest tarball) := by
  unfold makeRoom
  split
  · exact quiet_abort env _ _
  split
  · exact quiet_abort env _ _
  refine (quiet_onVersionDir manifest _).bind fun _ => (quiet_versionDir manifest).bind fun dir => ?_
  split_ifs
  · exact quiet_abort env _ _
  · exact quiet_abort env _ _
  · exact Respects.bind (fun _ => ⟨rfl, rfl, rfl⟩) fun _ => quiet_onVersionDir manifest _

theorem quiet_moveEntry (request : AppDownloadRequest) (manifest : AppManifest)
    (entry : String × FileTree Content) : Respects Quiet (moveEntry env request manifest entry) := by
  refine Respects.bind ?_ fun _ => ?_
  · refine (quiet_versionDir manifest).bind fun dir => ?_
    split_ifs
    · exact Respects.pure _
    · exact quiet_abort env _ _
    · exact (quiet_onVersionDir manifest _).bind fun _ => quiet_abort env _ _
    · exact quiet_abort env _ _
    · exact quiet_onVersionDir manifest _
  · split_ifs
    · exact quiet_abort env _ _
    · exact quiet_onVersionDir manifest _

/-- **A download asks chef and the caches for nothing**, until it installs what it has brought. -/
theorem quiet_add (request : AppDownloadRequest) : Respects Quiet (add env request) := by
  refine (quiet_fetch env request).bind fun bundle =>
    (quiet_makeRoom env request bundle.manifest bundle.tarball).bind fun _ => Respects.bind ?_
      fun _ => (quiet_onVersionDir bundle.manifest _).bind fun _ => ?_
  · unfold moveEntries
    split_ifs
    · exact quiet_abort env _ _
    · exact Respects.forM (quiet_moveEntry env request bundle.manifest) _
  · split_ifs
    · exact quiet_abort env _ _
    · exact Respects.pure _

end AppDownloadTask

namespace Apps

/-! ### One uninstall -/

/-- Chef removes the cookbook of the app. -/
def IsRemoved (env : UninstallEnv) (app : String) (r : AppRepository) : Prop :=
  ∃ version manifest, AppUninstallTask.Removes env app r version manifest

/-- **An uninstall changes nothing unless chef removes the cookbook**, and then it deletes the
directory of the app, in every mode: it reports success when the version of the layout is gone, and
no app is found as installed when nothing is left of the directory.  The other apps are left
alone. -/
theorem uninstall_ends (env : UninstallEnv) (request : AppUninstallRequest) (s : ChefServer) :
    Ends (AppUninstallTask.execute env request) { s with task := {} } fun x t =>
      (∀ b, b ≠ request.name → t.repository b = s.repository b) ∧
      (¬ IsRemoved env request.name s.repository →
        t.repository = s.repository ∧ t.resets = s.resets ∧ ¬ Succeeds x) ∧
      (IsRemoved env request.name s.repository →
        t.repository request.name = AppUninstallTask.left env (s.repository request.name) ∧
        t.resets = s.resets + 1 ∧
        (Succeeds x ↔ ∀ version, AppUninstallTask.layout env s.repository request.name = some version →
          t.repository.hasVersion request.name version = false) ∧
        (env.deleteQuietly (s.repository request.name) = none →
          AppDAO.findInstalledByName t.repository request.name = none)) := by
  refine (AppUninstallTask.execute_uninstalls request (s := { s with task := {} }) rfl).mono
    fun x t ht => ?_
  cases ht with
  | stops hstops hfails hsame hresets _ =>
    refine ⟨fun b _ => congrFun hsame b, fun _ => ⟨hsame, hresets, hfails⟩, ?_⟩
    rintro ⟨version, manifest, hremoves⟩
    exact absurd hremoves (hstops version manifest)
  | @removes version manifest hremoves hdeleted hsucceeds hresets _ =>
    have hdir : t.repository request.name = AppUninstallTask.left env (s.repository request.name) := by
      rw [hdeleted, AppUninstallTask.deleted, Function.update_self]
    refine ⟨fun b hb => ?_, fun hnot => absurd ⟨version, manifest, hremoves⟩ hnot, fun _ =>
      ⟨hdir, hresets, hsucceeds.trans ⟨fun h v hv => ?_, fun h => h version hremoves.found⟩,
        fun hgone => ?_⟩⟩
    · rw [hdeleted, AppUninstallTask.deleted, Function.update_of_ne hb]
    · obtain rfl : version = v := Option.some.inj (hremoves.found.symm.trans hv)
      exact h
    · rw [AppDAO.findInstalledByName, AppRepository.activeVersion, hdir, AppUninstallTask.left, hgone]
      rfl

/-! ### Tasks one after the other -/

inductive ChefOperation
  | add | remove
  deriving DecidableEq, Repr

/-- A call to chef for an app, and whether chef answered with success. -/
structure ChefCall where
  operation : ChefOperation
  app : String
  cookbook : String
  success : Bool
  deriving DecidableEq, Repr

/-- The server with the calls to chef that all tasks have made; `messages` and `removals` are those
of the last task. -/
structure TaskServer extends ChefServer where
  chef : List ChefCall := []

/-- A task that is run, with its failures. -/
inductive TaskEvent
  | download (env : AppEnv) (account : String) (request : AppDownloadRequest)
  | install (env : AppEnv) (account : String) (request : AppInstallRequest)
  | uninstall (env : UninstallEnv) (request : AppUninstallRequest)

/-- A new task has nothing to report and has asked chef for nothing. -/
def fresh (s : AppServer) : AppServer := { s with task := {}, messages := [] }

def added (env : AppEnv) (message : ChefMessage) : ChefCall :=
  ⟨.add, message.app, message.cookbook,
    (env.request message).success && !(env.request message).hasError⟩

def removed (app : String) (removal : ChefRemoval) : ChefCall :=
  ⟨.remove, app, removal.cookbook, removal.success⟩

namespace TaskServer

/-- A task that adds apps is run. -/
def ran (s : TaskServer) (env : AppEnv) (m : AppTask TaskResult) : TaskServer :=
  let t := after m (fresh s.toAppServer)
  { s with toAppServer := t, chef := t.messages.map (added env) ++ s.chef }

/-- The server after a task, however it ends. -/
def step (s : TaskServer) : TaskEvent → TaskServer
  | .download env account request =>
    s.ran env (AppDownloadTask.execute env (AppInstallTask.execute env account) request)
  | .install env account request => s.ran env (AppInstallTask.execute env account request)
  | .uninstall env request =>
    let t := after (AppUninstallTask.execute env request) { toAppServer := fresh s.toAppServer }
    { toChefServer := t, chef := t.removals.map (removed request.name) ++ s.chef }

end TaskServer

/-- The last call for the app that chef answered with success was to add it. -/
def OnRunList (chef : List ChefCall) (app : String) : Prop :=
  (chef.find? fun c => c.app == app && c.success).map ChefCall.operation = some .add

/-- The metadata of the app name a version. -/
def IsActive (r : AppRepository) (app : String) : Prop := (r.activeVersion app).isSome = true

/-- Every app that is active stands on the run list. -/
def ActiveOnRunList (s : TaskServer) : Prop :=
  ∀ app, IsActive s.repository app → OnRunList s.chef app

/-- A deletion that fails leaves no metadata that name a version. -/
def ClearsMetadata (s : TaskServer) : TaskEvent → Prop
  | .uninstall env request =>
    (AppUninstallTask.left env (s.repository request.name)).metadata.fromJson.activeVersion = none
  | _ => True

theorem isActive_congr {r r' : AppRepository} {app : String}
    (h : (r' app).metadata = (r app).metadata) : IsActive r' app ↔ IsActive r app := by
  rw [IsActive, AppRepository.activeVersion, h]
  rfl

/-! ### The run list -/

theorem onRunList_append {new chef : List ChefCall} {app : String}
    (hnew : ∀ c ∈ new, c.app = app → c.success = true → c.operation = .add)
    (h : OnRunList chef app) : OnRunList (new ++ chef) app := by
  rw [OnRunList, List.find?_append]
  cases hfind : new.find? fun c => c.app == app && c.success with
  | none => exact h
  | some c =>
    have hc := List.find?_some hfind
    rw [Bool.and_eq_true, beq_iff_eq] at hc
    exact congrArg some (hnew c (List.mem_of_find?_eq_some hfind) hc.1 hc.2)

theorem onRunList_added {env : AppEnv} {messages rest : List ChefMessage} {message : ChefMessage}
    (hsent : messages = message :: rest)
    (hstatus : AppInstallTask.RootyStatus.Succeeds (env.request message)) (chef : List ChefCall) :
    OnRunList (messages.map (added env) ++ chef) message.app := by
  have hfirst : (added env message).success = true := by
    rw [added, hstatus.1, hstatus.2]
    rfl
  rw [OnRunList, hsent, List.map_cons, List.cons_append, List.find?_cons_of_pos]
  · rfl
  · rw [Bool.and_eq_true, beq_iff_eq]
    exact ⟨rfl, hfirst⟩

/-- What adds apps takes none from the run list. -/
theorem onRunList_ran {s : TaskServer} {env : AppEnv} {m : AppTask TaskResult} {app : String}
    (h : OnRunList s.chef app) : OnRunList (s.ran env m).chef app := by
  refine onRunList_append (fun c hc _ _ => ?_) h
  obtain ⟨message, -, rfl⟩ := List.mem_map.1 hc
  rfl

/-! ### What the tasks do to the metadata -/

section Metadata

open AppInstallTask

variable {env : AppEnv} {account : String} {s t : AppServer} {r : Except Exit TaskResult}

/-- An install leaves the metadata of the other apps as they were, and those of its own app too,
unless chef has added it. -/
theorem metadata_of_installs {request : AppInstallRequest}
    (h : Installs env account request s r t) (app : String) :
    (t.repository app).metadata = (s.repository app).metadata ∨
      app = request.name ∧ ∃ message rest, t.messages = message :: rest ∧ message.app = request.name ∧
        RootyStatus.Succeeds (env.request message) := by
  cases h with
  | unfound hfinds => exact Or.inl (hfinds.metadata app)
  | unread hfinds => exact Or.inl (hfinds.metadata app)
  | stops hfinds _ _ _ hwritten =>
    rw [hwritten, metadata_putDatabags]
    exact Or.inl (hfinds.metadata app)
  | records hfinds _ hrecords _ hsent hwritten =>
    obtain ⟨rest, hrest⟩ := hsent
    by_cases happ : app = request.name
    · exact Or.inr ⟨happ, _, rest, hrest, rfl, hrecords.status⟩
    · rw [hwritten, AppRepository.putMetadata, Function.update_of_ne happ, metadata_putDatabags]
      exact Or.inl (hfinds.metadata app)

/-- A download ends with what it has brought, and then installs it or not. -/
theorem download_metadata (request : AppDownloadRequest) (hnew : s.task.success = false)
    (app : String) :
    Ends (AppDownloadTask.execute env (AppInstallTask.execute env account) request) s fun _ t =>
      (t.repository app).metadata = (s.repository app).metadata ∨
        ∃ message rest, t.messages = message :: rest ∧ message.app = app ∧
          RootyStatus.Succeeds (env.request message) := by
  rw [AppDownloadTask.execute, ends_bind]
  refine ((AppDownloadTask.add_ends request).and (AppDownloadTask.quiet_add env request s)).mono
    fun r u hu => ?_
  obtain ⟨⟨-, hwhole⟩, -, -, hsuccess⟩ := hu
  have hmetadata : (u.repository app).metadata = (s.repository app).metadata := by
    rcases hwhole with ⟨b, -, -, hleaves⟩ | ⟨-, -, hsame⟩
    · exact hleaves.metadata app
    · exact hsame app
  cases r with
  | error e => exact Or.inl hmetadata
  | ok manifest =>
    dsimp only
    split_ifs
    · refine (execute_installs account _ (hsuccess.trans hnew)).mono fun r t ht => ?_
      rcases metadata_of_installs ht app with h | ⟨rfl, h⟩
      · exact Or.inl (h.trans hmetadata)
      · exact Or.inr h
    · exact Or.inl hmetadata

end Metadata

/-! ### Active apps stand on the run list -/

/-- A task that keeps the metadata of the apps that chef has not added. -/
theorem activeOnRunList_ran {s : TaskServer} {env : AppEnv} {m : AppTask TaskResult}
    (h : ∀ app, Ends m (fresh s.toAppServer) fun _ t =>
      (t.repository app).metadata = (s.repository app).metadata ∨
        ∃ message rest, t.messages = message :: rest ∧ message.app = app ∧
          AppInstallTask.RootyStatus.Succeeds (env.request message))
    (hs : ActiveOnRunList s) : ActiveOnRunList (s.ran env m) := by
  intro app hactive
  rcases h app with hsame | ⟨message, rest, hsent, rfl, hstatus⟩
  · exact onRunList_ran (hs app ((isActive_congr hsame).1 hactive))
  · exact onRunList_added hsent hstatus s.chef

/-- How an uninstall ends that is run on the server. -/
theorem uninstalls_step (env : UninstallEnv) (request : AppUninstallRequest) (s : TaskServer) :
    ∃ x, AppUninstallTask.Uninstalls env request { toAppServer := fresh s.toAppServer } x
      (after (AppUninstallTask.execute env request) { toAppServer := fresh s.toAppServer }) :=
  ⟨_, AppUninstallTask.execute_uninstalls request rfl⟩

theorem activeOnRunList_uninstall {s : TaskServer} {env : UninstallEnv}
    {request : AppUninstallRequest} (hclears : ClearsMetadata s (.uninstall env request))
    (hs : ActiveOnRunList s) : ActiveOnRunList (s.step (.uninstall env request)) := by
  intro app hactive
  obtain ⟨x, hends⟩ := uninstalls_step env request s
  rcases hends with ⟨-, -, hsame, -, hasked⟩ | ⟨-, hdeleted, -, -, hasked⟩
  · have hbefore : IsActive s.repository app := by
      refine (isActive_congr ?_).1 hactive
      exact congrArg (fun r : AppRepository => (r app).metadata) hsame
    refine onRunList_append (fun c hc _ hsuccess => ?_) (hs app hbefore)
    obtain ⟨removal, hremoval, rfl⟩ := List.mem_map.1 hc
    -- chef did not answer with success to what it was asked
    rcases hasked with hnone | ⟨cookbook, hone⟩
    · exact absurd (hnone ▸ hremoval) List.not_mem_nil
    · rw [show (after (AppUninstallTask.execute env request) _).removals = _ from hone] at hremoval
      obtain rfl := List.mem_singleton.1 hremoval
      exact Bool.noConfusion hsuccess
  · have hrepository : (s.step (.uninstall env request)).repository
        = AppUninstallTask.deleted env s.repository request.name := hdeleted
    have happ : app ≠ request.name := by
      rintro rfl
      rw [IsActive, AppRepository.activeVersion, hrepository, AppUninstallTask.deleted,
        Function.update_self, hclears] at hactive
      exact Bool.noConfusion hactive
    have hbefore : IsActive s.repository app := by
      refine (isActive_congr ?_).1 hactive
      rw [hrepository, AppUninstallTask.deleted, Function.update_of_ne happ]
    refine onRunList_append (fun c hc hname _ => ?_) (hs app hbefore)
    obtain ⟨removal, -, rfl⟩ := List.mem_map.1 hc
    exact absurd hname.symm happ

theorem activeOnRunList_step {s : TaskServer} (e : TaskEvent) (hs : ActiveOnRunList s)
    (hclears : ClearsMetadata s e) : ActiveOnRunList (s.step e) := by
  cases e with
  | download env account request =>
    exact activeOnRunList_ran (fun app => download_metadata request rfl app) hs
  | install env account request =>
    refine activeOnRunList_ran (fun app => ?_) hs
    refine (AppInstallTask.execute_installs account request rfl).mono fun r t ht => ?_
    rcases metadata_of_installs ht app with h | ⟨rfl, h⟩
    · exact Or.inl h
    · exact Or.inr h
  | uninstall env request => exact activeOnRunList_uninstall hclears hs

/-- **An app that is active stands on the run list of chef**, after every run of downloads, installs
and uninstalls that fail at any of their steps, when no deletion that fails leaves metadata that
name a version. -/
theorem active_onRunList {s : TaskServer} {events : List TaskEvent} (hs : ActiveOnRunList s)
    (hclears : Runs.Meets TaskServer.step ClearsMetadata s events) :
    ActiveOnRunList (Runs.run TaskServer.step s events) :=
  Runs.run_invariant (fun _ e hI hC => activeOnRunList_step e hI hC) hs hclears

/-- Chef removes what it is asked to remove, and directories are deleted. -/
def goodbye : UninstallEnv := { AppEnv.mock with
  requestRemoval := fun _ => .ok ⟨true, false, none⟩
  deleteQuietly := fun _ => none }

/-- The blog is installed and uninstalled. -/
def blogLife : List TaskEvent :=
  [.install .mock "root" (AppDAO.install "blog" (some "1.0.0") false),
    .uninstall goodbye ⟨"blog", some .uninstall⟩]

/-- Chef does not remove what it is asked to remove. -/
def reluctant : UninstallEnv := { goodbye with
  requestRemoval := fun _ => .ok ⟨false, true, some "chef failed"⟩ }

/-- The blog is installed, and its removal fails. -/
def blogStays : List TaskEvent :=
  [.install .mock "root" (AppDAO.install "blog" (some "1.0.0") false),
    .uninstall reluctant ⟨"blog", some .uninstall⟩]

theorem active_onRunList_blog :
    IsActive (Runs.run TaskServer.step { toAppServer := blogServer } blogStays).repository "blog" ∧
      ActiveOnRunList (Runs.run TaskServer.step { toAppServer := blogServer } blogStays) := by
  refine ⟨by unfold IsActive; decide +kernel, ?_⟩
  refine active_onRunList (fun app h => ?_) ⟨trivial, rfl, trivial⟩
  have hnone : (blogServer.repository app).metadata = .missing := by
    simp only [blogServer]
    split_ifs <;> rfl
  have hactive : (blogServer.repository app).metadata.fromJson.activeVersion.isSome = true := h
  rw [hnone] at hactive
  exact Bool.noConfusion hactive

/-! ### Apps that no task names -/

/-- The app has the same metadata and the same files. -/
structure SameApp (b : String) (r r' : AppRepository) : Prop where
  metadata : (r' b).metadata = (r b).metadata
  files : ∀ v, FileTree.SameFiles (r.version b v) (r'.version b v)

theorem SameApp.refl (b : String) (r : AppRepository) : SameApp b r r :=
  ⟨rfl, fun _ => .refl _⟩

theorem SameApp.trans {b : String} {r r' r'' : AppRepository} (h : SameApp b r r')
    (h' : SameApp b r' r'') : SameApp b r r'' :=
  ⟨h'.metadata.trans h.metadata, fun v => (h.files v).trans (h'.files v)⟩

theorem SameApp.of_sameFiles {b : String} {r r' : AppRepository} (h : r.SameFiles r')
    (hmetadata : ∀ app, (r' app).metadata = (r app).metadata) : SameApp b r r' :=
  ⟨hmetadata b, h b⟩

/-- A version of another app is replaced. -/
theorem SameApp.of_leaves {b app v : String} {t : FileTree Content} {r r' : AppRepository}
    (h : r.Leaves app v t r') (hne : app ≠ b) : SameApp b r r' := by
  refine ⟨h.metadata b, fun w => ?_⟩
  rw [h.others b w fun heq => hne (Prod.mk.inj heq).1.symm]
  exact .refl _

/-- What is found as installed is read from the metadata and from a manifest. -/
theorem SameApp.findInstalledByName {b : String} {r r' : AppRepository} (h : SameApp b r r') :
    AppDAO.findInstalledByName r' b = AppDAO.findInstalledByName r b := by
  have hload : ∀ v, AppDAO.loadApp r' b v = AppDAO.loadApp r b v := by
    intro v
    simp only [AppDAO.loadApp, AppManifest.load, h.metadata, h.files v AppLayout.manifestFile]
  simp only [AppDAO.findInstalledByName, AppRepository.activeVersion, h.metadata, funext hload]

section NamesOther

open AppInstallTask

variable {env : AppEnv} {account b : String}

/-- No bundle that a download brings names the app. -/
def SparesBundles (env : AppEnv) (b : String) (request : AppDownloadRequest) : Prop :=
  ∀ bundle, AppDownloadTask.Brings env request bundle → bundle.manifest.scrubbedName ≠ b

/-- An install names another app, and so does the bundle that it may have to download. -/
structure SparesInstall (env : AppEnv) (b : String) (request : AppInstallRequest) : Prop where
  name : request.name ≠ b
  bundles : ∀ l, listing env request = .ok (some l) → SparesBundles env b (downloadRequest request l)

/-- The install that follows a download. -/
def autoInstall (manifest : AppManifest) (request : AppDownloadRequest) : AppInstallRequest :=
  ⟨none, manifest.name, some manifest.version, request.overwrite⟩

/-- The task names another app. -/
def NamesOther (b : String) : TaskEvent → Prop
  | .download env _ request => SparesBundles env b request ∧
    (request.autoInstall = true → ∀ bundle, AppDownloadTask.Brings env request bundle →
      SparesInstall env b (autoInstall (env.withAssets bundle.manifest) request))
  | .install env _ request => SparesInstall env b request
  | .uninstall _ request => request.name ≠ b

theorem sameApp_of_finds {request : AppInstallRequest} {r r' : AppRepository}
    {found : Option String} (h : Finds env request r found r') (hspares : SparesInstall env b request) :
    SameApp b r r' := by
  cases h with
  | present => exact .refl b r
  | unlisted => exact .refl b r
  | unmoved _ _ _ hsame hmetadata => exact .of_sameFiles hsame hmetadata
  | moved _ hlisted hbrings _ hleaves =>
    exact .of_leaves hleaves (hspares.bundles _ hlisted _ hbrings)

theorem sameApp_of_installs {request : AppInstallRequest} {s t : AppServer}
    {r : Except Exit TaskResult} (h : Installs env account request s r t)
    (hspares : SparesInstall env b request) : SameApp b s.repository t.repository := by
  have hdatabags : ∀ (found : AppRepository) version ws,
      SameApp b found (putDatabags found request.name version ws) := fun found version ws =>
    .of_leaves (putDatabags_leaves found ws) hspares.name
  cases h with
  | unfound hfinds => exact sameApp_of_finds hfinds hspares
  | unread hfinds => exact sameApp_of_finds hfinds hspares
  | stops hfinds _ _ _ hwritten =>
    rw [hwritten]
    exact (sameApp_of_finds hfinds hspares).trans (hdatabags _ _ _)
  | records hfinds _ _ _ _ hwritten =>
    rw [hwritten]
    have hmetadata : ∀ (r : AppRepository) m, SameApp b r (r.putMetadata request.name m) := by
      intro r m
      refine ⟨?_, fun v => ?_⟩
      · rw [AppRepository.putMetadata, Function.update_of_ne hspares.name.symm]
      · rw [AppRepository.version_putMetadata]
        exact .refl _
    exact ((sameApp_of_finds hfinds hspares).trans (hdatabags _ _ _)).trans (hmetadata _ _)

/-- A download returns the manifest of the bundle that it has brought, with its assets. -/
theorem add_returns (request : AppDownloadRequest) (s : AppServer) :
    Ends (AppDownloadTask.add env request) s fun r _ => ∀ manifest, r = .ok manifest →
      ∃ bundle, AppDownloadTask.Brings env request bundle ∧
        manifest = env.withAssets bundle.manifest := by
  rw [AppDownloadTask.add, ends_bind]
  refine Ends.mono (AppDownloadTask.fetch_yields request) fun r t ht => ?_
  cases r with
  | error e => exact fun manifest h => of_error_eq_ok h
  | ok bundle =>
    have hbrings := (ht.2 bundle).1 rfl
    dsimp only
    rw [ends_bind]
    refine Ends.mono (ends_exec _ t) fun r u _ => ?_
    cases r with
    | error e => exact fun manifest h => of_error_eq_ok h
    | ok _ =>
      dsimp only
      rw [ends_bind]
      refine Ends.mono (ends_exec _ u) fun r v _ => ?_
      cases r with
      | error e => exact fun manifest h => of_error_eq_ok h
      | ok _ =>
        dsimp only
        rw [AppDownloadTask.downloadAssets, ends_bind, AppDownloadTask.onVersionDir, ends_modify]
        dsimp only
        split_ifs
        · exact fun manifest h => of_error_eq_ok h
        · exact fun manifest h => ⟨bundle, hbrings, (Except.ok.inj h).symm⟩

theorem download_sameApp (request : AppDownloadRequest) (s : AppServer)
    (hnew : s.task.success = false) (hspares : NamesOther b (.download env account request)) :
    Ends (AppDownloadTask.execute env (AppInstallTask.execute env account) request) s fun _ t =>
      SameApp b s.repository t.repository := by
  obtain ⟨hbundles, hinstall⟩ := hspares
  rw [AppDownloadTask.execute, ends_bind]
  refine (((AppDownloadTask.add_ends request).and (AppDownloadTask.quiet_add env request s)).and
    (add_returns request s)).mono fun r u hu => ?_
  obtain ⟨⟨⟨-, hwhole⟩, -, -, hsuccess⟩, hreturns⟩ := hu
  have hbrought : SameApp b s.repository u.repository := by
    rcases hwhole with ⟨bundle, hbrings, -, hleaves⟩ | ⟨-, hsame, hmetadata⟩
    · exact .of_leaves hleaves (hbundles bundle hbrings)
    · exact .of_sameFiles hsame hmetadata
  cases r with
  | error e => exact hbrought
  | ok manifest =>
    obtain ⟨bundle, hbrings, rfl⟩ := hreturns manifest rfl
    dsimp only
    split_ifs with hauto
    · rw [Bool.and_eq_true] at hauto
      refine (execute_installs account _ (hsuccess.trans hnew)).mono fun r t ht => ?_
      exact hbrought.trans (sameApp_of_installs ht (hinstall hauto.1 bundle hbrings))
    · exact hbrought

theorem sameApp_step {s : TaskServer} (e : TaskEvent) (hspares : NamesOther b e) :
    SameApp b s.repository (s.step e).repository := by
  cases e with
  | download env account request => exact download_sameApp request (fresh s.toAppServer) rfl hspares
  | install env account request =>
    exact (execute_installs account request (s := fresh s.toAppServer) rfl).mono fun r t ht =>
      sameApp_of_installs ht hspares
  | uninstall env request =>
    obtain ⟨x, hends⟩ := uninstalls_step env request s
    have hrepository : (s.step (.uninstall env request)).repository = s.repository ∨
        (s.step (.uninstall env request)).repository
          = AppUninstallTask.deleted env s.repository request.name := by
      cases hends with
      | stops _ _ hsame => exact Or.inl hsame
      | removes _ hdeleted => exact Or.inr hdeleted
    rcases hrepository with h | h
    · rw [h]
      exact .refl b _
    · have hdir : (s.step (.uninstall env request)).repository b = s.repository b := by
        rw [h, AppUninstallTask.deleted, Function.update_of_ne (Ne.symm hspares)]
      refine ⟨by rw [hdir], fun v => ?_⟩
      rw [AppRepository.version, AppRepository.version, hdir]
      exact .refl _

theorem sameApp_run {s : TaskServer} {events : List TaskEvent} (h : ∀ e ∈ events, NamesOther b e) :
    SameApp b s.repository (Runs.run TaskServer.step s events).repository :=
  Runs.run_relation (I := fun _ => True)
    (R := fun s t : TaskServer => SameApp b s.repository t.repository)
    (fun _ => .refl b _) (fun h h' => h.trans h')
    (fun _ e _ hspares => ⟨trivial, sameApp_step e hspares⟩) trivial
    (Runs.meets_of_mem s h)

/-- **An app that no task names stays as it is**, after every run of downloads, installs and
uninstalls that fail at any of their steps: it has the same metadata and files, and it is found as
installed as before. -/
theorem run_spares {s : TaskServer} {events : List TaskEvent} (h : ∀ e ∈ events, NamesOther b e) :
    SameApp b s.repository (Runs.run TaskServer.step s events).repository ∧
      AppDAO.findInstalledByName (Runs.run TaskServer.step s events).repository b
        = AppDAO.findInstalledByName s.repository b := by
  have hsame := sameApp_run (s := s) h
  exact ⟨hsame, hsame.findInstalledByName⟩

/-- The life of the blog leaves the wiki alone. -/
theorem run_spares_wiki :
    SameApp "wiki" runningBlog.repository
        (Runs.run TaskServer.step { toAppServer := runningBlog } blogLife).repository ∧
      AppDAO.findInstalledByName
          (Runs.run TaskServer.step { toAppServer := runningBlog } blogLife).repository "wiki"
        = AppDAO.findInstalledByName runningBlog.repository "wiki" := by
  refine run_spares (s := { toAppServer := runningBlog }) fun e he => ?_
  rcases List.mem_pair.1 he with rfl | rfl
  · refine ⟨by decide, fun l hl => ?_⟩
    exact absurd (Except.ok.inj hl) (Option.some_ne_none l).symm
  · exact fun h => absurd h (by decide)

end NamesOther

end Apps

end CloudOs

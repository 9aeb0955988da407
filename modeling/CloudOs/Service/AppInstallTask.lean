/-
# `AppInstallTask`

The task finds the version to install, downloading it when it is not in the repository, writes
its databags, lets chef run, and records the version in the metadata of the app.

| part | what it writes |
| --- | --- |
| `locate` | nothing, or what a download adds |
| `writeAppConfiguration` | the configuration, with the settings of the active version |
| `writeManifest` | the databag of the manifest |
| `writePorts` | the databag of the ports, newly picked |
| `setPermissions`, `notifyChef` | nothing |
| `record` | the metadata |
-/

import CloudOs.Service.AppDownloadTask

namespace CloudOs

open Prog AppTask

namespace AppInstallTask

variable (env : AppEnv) {α : Type}

/-- The version that the request stands for. -/
def requestedVersion (r : AppRepository) (request : AppInstallRequest) : Option String :=
  if request.hasVersion then request.version else env.latestVersion r request.name

/-- The download of an app of the app store, without auto-install. -/
def downloadRequest (request : AppInstallRequest) (listing : AppListing) : AppDownloadRequest where
  url := listing.bundleUrl
  sha := listing.bundleUrlSha
  autoInstall := false
  overwrite := request.force

/-- Downloads the version that the app store lists. -/
def downloadListed (request : AppInstallRequest) (listing : AppListing) : AppTask String := do
  -- there is no auto-install, so that no task is needed for it
  let result ← AppTask.call (AppDownloadTask.execute env (fun _ => throw .null)
    (downloadRequest request listing))
  let s ← get
  if (result.map TaskResult.success).getD false && env.completes &&
      s.repository.hasVersion request.name listing.version then
    return listing.version
  else fail "{appInstall.error.installFromAppStoreFailed}"

/-- Looks the version up in the app store. -/
def fromAppStore (request : AppInstallRequest) : AppTask String :=
  match env.findAppListing request.publisher request.name
    (if request.hasVersion then request.version else none) with
  | .error _ => fail "{appInstall.error.installFromAppStoreFailed}"
  | .ok none => fail "{appInstall.versionNotFound}"
  | .ok (some listing) => downloadListed env request listing

/-- Finds the app version to install. -/
def locate (request : AppInstallRequest) : AppTask String := do
  description "{appInstall.installingApp}"
  let s ← get
  match requestedVersion env s.repository request with
  | none => fromAppStore env request
  | some version =>
    if s.repository.hasVersion request.name version then return version
    else fromAppStore env request

/-- The files are written to the databag directory of the version, in order. -/
def putDatabags (r : AppRepository) (app version : String) (ws : List (String × Content)) :
    AppRepository :=
  r.onVersion app version fun t => t.writeAll (ws.map fun e => (AppLayout.databagFile app e.1, e.2))

/-- Writes databags of a version. -/
def put (app version : String) (ws : List (String × Content)) : AppTask PUnit :=
  modify fun s => { s with repository := putDatabags s.repository app version ws }

/-- What a write leaves in a databag. -/
def written (step : AppStep) (id : String) (content : Content) : List (String × Content) :=
  if env.fails step then (env.torn step).toList.map fun torn => (id, torn) else [(id, content)]

/-- `FileUtil.toFile` on a databag of the version. -/
def toFile (step : AppStep) (app version id : String) (content : Content) : AppTask PUnit := do
  put app version (written env step id content)
  if env.fails step then throw (.threw (.die "Error writing file"))
  else return ⟨⟩

/-- What is to be deployed: the manifest, the configuration, and the databags that are written to
copy over settings from the previous installation. -/
structure Plan where
  manifest : AppManifest
  config : Option env.AppConfiguration
  databags : List (String × Content)

/-- `readAppConfiguration` on the databags of a version. -/
def readAppConfiguration (manifest : AppManifest) (dir : FileTree Content) :
    Except Exn (Option env.AppConfiguration) :=
  env.readAppConfiguration manifest (dir.below AppLayout.databagsDir)

/-- The settings of the active version. -/
def currentConfig (r : AppRepository) (app : String) : Except Exn (Option env.AppConfiguration) :=
  match r.activeVersion app with
  | none => .ok none
  | some current =>
    if !r.hasVersion app current then .ok none
    else do
      let currentManifest ← AppManifest.load (r.version app current)
      readAppConfiguration env currentManifest
        (((env.unversioned r app).map (r.version app)).getD .empty)

/-- Reads what is to be deployed; the configuration is `null` when there is none. -/
def plan (r : AppRepository) (app version : String) : Except Exn (Plan env) := do
  let manifest ← AppManifest.load (r.version app version)
  let appConfig ← readAppConfiguration env manifest (r.version app version)
  match ← currentConfig env r app with
  | none => return ⟨manifest, appConfig, []⟩
  | some currentConfig =>
    match appConfig with
    | none => throw .nullPointer
    | some appConfig =>
      let merged := env.merge appConfig currentConfig
      return ⟨manifest, some merged, env.databags merged manifest⟩

/-- `writeAppConfiguration`. -/
def writeAppConfiguration (app version : String) (databags : List (String × Content)) :
    AppTask PUnit :=
  databags.forM fun e => toFile env (.writeConfiguration e.1) app version e.1 e.2

/-- Validates the configuration. -/
def validate : Option env.AppConfiguration → AppTask PUnit
  | none => throw (.threw .nullPointer)
  | some config =>
    if env.validate config ≠ [] then fail "appInstall.err.validation" else return ⟨⟩

/-- Writes the databag of the manifest. -/
def writeManifest (app version : String) (manifest : AppManifest) : AppTask PUnit := do
  match ← attempt (toFile env .writeManifest app version AppLayout.cloudosManifest
    (.manifest manifest)) with
  | .ok _ => return ⟨⟩
  | .error _ => fail "{appInstall.err.manifestDatabag}"

/-- The cookbooks of the version are there. -/
def checkChefDir (app version : String) : AppTask PUnit := do
  addEvent "{appInstall.verifyingChefCookbooks}"
  let s ← get
  if !(s.repository.version app version).hasPath AppLayout.chefDir then
    fail "\x7bappInstall.error.chefDir.notFound"
  else return ⟨⟩

/-- Generates a new ports databag every time. -/
def writePorts (app version : String) : AppTask PUnit := do
  match ← attempt (toFile env .writePorts app version AppLayout.portsId (.ports env.pick)) with
  | .ok _ => return ⟨⟩
  | .error _ => fail "{appInstall.error.writingPortsDataBag}"

/-- Ensures that the repository remains readable to the rooty group. -/
def setPermissions : AppTask PUnit :=
  if env.rootyGroup.isSome && env.fails .chgrp || env.fails .chmod then
    fail "{appInstall.error.perms}"
  else return ⟨⟩

/-- Notifies chef; `none` is an error, which is reported. -/
def notifyChef (message : ChefMessage) : AppTask (Option RootyStatus) := do
  addEvent "{appInstall.runningChef}"
  report fun r => { r with rootyUuid := some env.uuid }
  if env.fails .notifyChef then do
    error "{appInstall.error.notifyingChefToRun}"
    return none
  else do
    modify fun s => { s with messages := message :: s.messages }
    return some (env.request message)

/-- The metadata that an install records. -/
def recorded (account : String) (request : AppInstallRequest) (manifest : AppManifest) :
    AppMetadata where
  installedBy := some account
  activeVersion := request.version
  interactive := manifest.interactive

/-- What a write leaves in the metadata. -/
def writtenMetadata (metadata : AppMetadata) (old : MetadataFile) : MetadataFile :=
  if env.fails .writeMetadata then env.tornMetadata.getD old else .json metadata

/-- `AppMetadata.write`. -/
def writeMetadata (app : String) (metadata : AppMetadata) : AppTask PUnit := do
  modify fun s => { s with repository :=
    s.repository.putMetadata app (writtenMetadata env metadata (s.repository app).metadata) }
  if env.fails .writeMetadata then throw (.threw (.die "Error writing file"))
  else return ⟨⟩

/-- Records the installation, when chef has run. -/
def record (account : String) (request : AppInstallRequest) (manifest : AppManifest)
    (status : RootyStatus) : AppTask TaskResult := do
  if status.success && !status.hasError then do
    addEvent "{appInstall.recordingInstallation}"
    writeMetadata env request.name (recorded account request manifest)
    modify fun s => { s with resets := s.resets + 1 }
    report fun r => { r with success := true }
    return (← get).task
  else do
    report fun r => { r with error := status.lastError }
    return (← get).task

/-- Writes the databags of a version. -/
def prepare (app version : String) (plan : Plan env) : AppTask PUnit := do
  writeAppConfiguration env app version plan.databags
  validate env plan.config
  writeManifest env app version plan.manifest
  checkChefDir app version
  writePorts env app version
  setPermissions env

/-- The message for chef. -/
def chefMessage (request : AppInstallRequest) (version : String) (manifest : AppManifest) :
    ChefMessage :=
  ⟨request.name, version, manifest.name, request.force⟩

/-- `execute`. -/
def execute (account : String) (request : AppInstallRequest) : AppTask TaskResult := do
  let version ← locate env request
  let s ← get
  let plan ← orThrow (plan env s.repository request.name version)
  prepare env request.name version plan
  match ← notifyChef env (chefMessage request version plan.manifest) with
  | some status => record env account request plan.manifest status
  | none => return (← get).task

/-! ### What is written -/

section Databags

variable (r : AppRepository) {app version : String}

/-- The writes, by path. -/
abbrev byPath (app : String) (ws : List (String × Content)) : List (List String × Content) :=
  ws.map fun e => (AppLayout.databagFile app e.1, e.2)

theorem putDatabags_leaves (ws : List (String × Content)) : r.Leaves app version
    ((r.version app version).writeAll (byPath app ws)) (putDatabags r app version ws) :=
  AppRepository.leaves_onVersion app version fun t => t.writeAll (byPath app ws)

@[simp] theorem putDatabags_nil : putDatabags r app version [] = r := r.onVersion_id app version

theorem putDatabags_append (ws vs : List (String × Content)) : putDatabags r app version (ws ++ vs)
    = putDatabags (putDatabags r app version ws) app version vs := by
  rw [putDatabags, putDatabags, putDatabags, r.onVersion_onVersion]
  refine congrArg (r.onVersion app version) (funext fun t => ?_)
  rw [List.map_append, FileTree.writeAll_append]

theorem lookup_byPath (id : String) : ∀ ws : List (String × Content),
    (byPath app ws).lookup (AppLayout.databagFile app id) = ws.lookup id
  | [] => rfl
  | e :: es => by
    rw [byPath, List.map_cons, List.lookup_cons, List.lookup_cons, lookup_byPath id es]
    by_cases hid : id = e.1
    · rw [hid, beq_self_eq_true, beq_self_eq_true]
    · rw [beq_eq_false_iff_ne.2 hid, beq_eq_false_iff_ne.2 fun h =>
        hid (AppLayout.databagFile_inj.1 h)]

/-- The last write to a databag stands there. -/
theorem databag_putDatabags (ws : List (String × Content)) (id : String) :
    (putDatabags r app version ws).databag app version id
      = (ws.reverse.lookup id).or (r.databag app version id) := by
  rw [AppRepository.databag, (putDatabags_leaves r ws).version, FileTree.fileAt_writeAll, byPath,
    ← List.map_reverse, lookup_byPath]
  rfl

/-- What is no databag stays. -/
theorem putDatabags_of_ne {p : List String} (h : ∀ id, AppLayout.databagFile app id ≠ p)
    (ws : List (String × Content)) :
    (putDatabags r app version ws).version app version p = r.version app version p := by
  rw [(putDatabags_leaves r ws).version, FileTree.writeAll_of_notMem]
  intro w hw
  obtain ⟨e, -, rfl⟩ := List.mem_map.1 hw
  exact h e.1

end Databags

/-- The manifests are no databags. -/
theorem load_putDatabags (r : AppRepository) (app version w : String) (ws : List (String × Content)) :
    AppManifest.load ((putDatabags r app version ws).version app w)
      = AppManifest.load (r.version app w) := by
  by_cases hw : w = version
  · have hnode : (putDatabags r app version ws).version app version AppLayout.manifestFile
        = r.version app version AppLayout.manifestFile :=
      putDatabags_of_ne r (fun id => AppLayout.databagFile_ne_manifestFile app id) ws
    rw [hw, AppManifest.load, FileTree.fileAt_congr hnode, AppManifest.load]
  · rw [(putDatabags_leaves r ws).others app w fun h => hw (Prod.mk.inj h).2]

/-- The manifest that is deployed is that of the version. -/
theorem load_of_plan {env : AppEnv} {r : AppRepository} {app version : String} {p : Plan env}
    (h : plan env r app version = .ok p) :
    AppManifest.load (r.version app version) = .ok p.manifest := by
  obtain ⟨manifest, hload, h⟩ := exists_of_bind_eq_ok h
  obtain ⟨appConfig, -, h⟩ := exists_of_bind_eq_ok h
  obtain ⟨current, -, h⟩ := exists_of_bind_eq_ok h
  rw [hload]
  cases current with
  | none =>
    obtain rfl := Except.ok.inj h
    rfl
  | some current =>
    cases appConfig with
    | none => exact of_error_eq_ok h
    | some appConfig =>
      obtain rfl := Except.ok.inj h
      rfl

/-! ### How the parts end -/

/-- The step writes the databags `ws`, and goes on when `go`. -/
def Puts (app version : String) (s : AppServer) (ws : List (String × Content)) (go : Bool)
    (m : AppTask α) : Prop :=
  Ends m s fun r t => r.toOption.isSome = go ∧
    t.repository = putDatabags s.repository app version ws ∧ t.task.success = s.task.success

namespace Puts

variable {app version : String} {s : AppServer} {ws vs : List (String × Content)} {go go' : Bool}
  {β : Type} {m : AppTask α}

/-- A step that writes no databag. -/
theorem nothing (h : Ends m s fun r t => r.toOption.isSome = go ∧ t.repository = s.repository ∧
    t.task.success = s.task.success) : Puts app version s [] go m :=
  Ends.mono h fun _ _ ht => ⟨ht.1, by rw [putDatabags_nil, ht.2.1], ht.2.2⟩

theorem congr {ws' : List (String × Content)} (h : Puts app version s ws go m) (hws : ws = ws')
    (hgo : go = go') : Puts app version s ws' go' m := hws ▸ hgo ▸ h

theorem bind {f : α → AppTask β} (h : Puts app version s ws go m)
    (hf : ∀ a t, t.repository = putDatabags s.repository app version ws →
      Puts app version t vs go' (f a)) :
    Puts app version s (ws ++ if go then vs else []) (go && go') (m >>= f) := by
  rw [Puts, ends_bind]
  refine Ends.mono h fun r t ht => ?_
  obtain ⟨rfl, hrepository, hsuccess⟩ := ht
  cases r with
  | ok a =>
    refine Ends.mono (hf a t hrepository) fun r' u hu => ⟨hu.1, ?_, hu.2.2.trans hsuccess⟩
    rw [hu.2.1, hrepository, ← putDatabags_append]
    rfl
  | error e =>
    refine ⟨rfl, ?_, hsuccess⟩
    rw [hrepository]
    exact congrArg _ (List.append_nil ws).symm

end Puts

variable {env} {app version : String} {s : AppServer}

theorem toFile_puts (step : AppStep) (id : String) (c : Content) :
    Puts app version s (written env step id c) (!env.fails step)
      (toFile env step app version id c) := by
  rw [Puts, toFile, ends_bind, put, ends_modify]
  dsimp only
  split_ifs with hfails
  · exact ⟨by rw [hfails]; rfl, rfl, rfl⟩
  · exact ⟨by rw [Bool.eq_false_iff.2 hfails]; rfl, rfl, rfl⟩

/-- The databags of a configuration that are written, up to a write that fails. -/
def configurationWritten (env : AppEnv) : List (String × Content) → List (String × Content)
  | [] => []
  | e :: es => written env (.writeConfiguration e.1) e.1 e.2 ++
    if !env.fails (.writeConfiguration e.1) then configurationWritten env es else []

/-- Every write of the configuration goes through. -/
def configurationGoes (env : AppEnv) (databags : List (String × Content)) : Bool :=
  databags.all fun e => !env.fails (.writeConfiguration e.1)

theorem writeAppConfiguration_puts : ∀ (databags : List (String × Content)) {s : AppServer},
    Puts app version s (configurationWritten env databags) (configurationGoes env databags)
      (writeAppConfiguration env app version databags)
  | [], s => Puts.nothing ⟨rfl, rfl, rfl⟩
  | e :: es, s => by
    rw [configurationWritten, configurationGoes, List.all_cons]
    exact (toFile_puts _ _ _).bind fun _ _ _ => writeAppConfiguration_puts es

/-- The configuration is valid. -/
def valid (env : AppEnv) : Option env.AppConfiguration → Bool
  | none => false
  | some config => (env.validate config).isEmpty

theorem validate_puts (config : Option env.AppConfiguration) :
    Puts app version s [] (valid env config) (validate env config) := by
  refine Puts.nothing ?_
  cases config with
  | none => exact ⟨rfl, rfl, rfl⟩
  | some config =>
    simp only [validate, valid]
    split_ifs with hviolations
    · have hsome : (env.validate config).isEmpty = false := by simpa using hviolations
      exact ⟨by rw [hsome]; rfl, rfl, rfl⟩
    · have hnone : (env.validate config).isEmpty = true := by simpa using hviolations
      exact ⟨by rw [hnone]; rfl, rfl, rfl⟩

/-- A write whose failure is reported. -/
theorem tryWrite_puts (key : String) (step : AppStep) (id : String) (c : Content) :
    Puts app version s (written env step id c) (!env.fails step) (do
      match ← attempt (toFile env step app version id c) with
      | .ok _ => return ⟨⟩
      | .error _ => AppTask.fail key : AppTask PUnit) := by
  rw [Puts, ends_bind, ends_attempt]
  refine Ends.mono (toFile_puts step id c) fun r t ht => ?_
  cases r with
  | ok _ => exact ht
  | error e => exact ht

/-- The databags are no part of the directory of the cookbooks. -/
theorem hasChefDir_putDatabags (r : AppRepository) (ws : List (String × Content)) :
    ((putDatabags r app version ws).version app version).hasPath AppLayout.chefDir
      = (r.version app version).hasPath AppLayout.chefDir := by
  rw [FileTree.hasPath, putDatabags_of_ne _ (fun id => ?_), FileTree.hasPath]
  simp [AppLayout.databagFile, AppLayout.databagsDir, AppLayout.chefDir]

theorem checkChefDir_puts {there : Bool}
    (hthere : (s.repository.version app version).hasPath AppLayout.chefDir = there) :
    Puts app version s [] there (checkChefDir app version) := by
  subst hthere
  refine Puts.nothing ?_
  simp only [checkChefDir, addEvent, report, ends_bind, ends_modify, ends_get]
  split_ifs with hchef
  · rw [Bool.not_eq_true'] at hchef
    exact ⟨by rw [hchef]; rfl, rfl, rfl⟩
  · rw [Bool.not_eq_true', Bool.not_eq_false] at hchef
    exact ⟨by rw [hchef]; rfl, rfl, rfl⟩

/-- The permissions can be set. -/
def permissionsGo (env : AppEnv) : Bool :=
  !(env.rootyGroup.isSome && env.fails .chgrp || env.fails .chmod)

theorem setPermissions_puts : Puts app version s [] (permissionsGo env) (setPermissions env) := by
  refine Puts.nothing ?_
  unfold setPermissions permissionsGo
  split_ifs with hfails
  · exact ⟨by rw [hfails]; rfl, rfl, rfl⟩
  · exact ⟨by rw [Bool.eq_false_iff.2 hfails]; rfl, rfl, rfl⟩

/-- The steps before the databag of the manifest go through. -/
def reachesManifest (env : AppEnv) (plan : Plan env) : Bool :=
  configurationGoes env plan.databags && valid env plan.config

/-- The steps before the databag of the ports go through. -/
def reachesPorts (env : AppEnv) (r : AppRepository) (app version : String) (plan : Plan env) : Bool :=
  reachesManifest env plan && !env.fails .writeManifest &&
    (r.version app version).hasPath AppLayout.chefDir

/-- The steps before the request to chef go through. -/
def reachesChef (env : AppEnv) (r : AppRepository) (app version : String) (plan : Plan env) : Bool :=
  reachesPorts env r app version plan && !env.fails .writePorts && permissionsGo env

/-- The databags that `prepare` writes: the configuration, the manifest and the ports. -/
def deployed (env : AppEnv) (r : AppRepository) (app version : String) (plan : Plan env) :
    List (String × Content) :=
  configurationWritten env plan.databags ++
    (if reachesManifest env plan then
      written env .writeManifest AppLayout.cloudosManifest (.manifest plan.manifest) else []) ++
    (if reachesPorts env r app version plan then
      written env .writePorts AppLayout.portsId (.ports env.pick) else [])

/-- **What `prepare` writes.** -/
theorem prepare_puts (plan : Plan env) :
    Puts app version s (deployed env s.repository app version plan)
      (reachesChef env s.repository app version plan) (prepare env app version plan) := by
  refine ((writeAppConfiguration_puts plan.databags).bind fun _ t ht =>
    (validate_puts plan.config).bind fun _ u hu =>
      (tryWrite_puts "{appInstall.err.manifestDatabag}" .writeManifest
        AppLayout.cloudosManifest (.manifest plan.manifest)).bind fun _ v hv =>
          (checkChefDir_puts (by rw [hv, hasChefDir_putDatabags, hu, hasChefDir_putDatabags, ht,
            hasChefDir_putDatabags])).bind fun _ _ _ =>
              (tryWrite_puts "{appInstall.error.writingPortsDataBag}" .writePorts
                AppLayout.portsId (.ports env.pick)).bind fun _ _ _ =>
                  setPermissions_puts).congr ?_ ?_
  · simp only [deployed, reachesPorts, reachesManifest]
    by_cases hconfig : configurationGoes env plan.databags = true
    swap
    · simp [hconfig]
    by_cases hvalid : valid env plan.config = true
    swap
    · simp [hvalid]
    by_cases hmanifest : env.fails .writeManifest = true
    · simp [hconfig, hvalid, hmanifest]
    · simp [hconfig, hvalid, hmanifest]
  · simp only [reachesChef, reachesPorts, reachesManifest, Bool.and_assoc]

/-! ### Chef and the metadata -/

theorem notifyChef_ends (message : ChefMessage) : Ends (notifyChef env message) s fun r t =>
    t.repository = s.repository ∧ t.task.success = s.task.success ∧
      ((env.fails .notifyChef = true ∧ r = .ok none) ∨
        (env.fails .notifyChef = false ∧ r = .ok (some (env.request message)) ∧
          t.messages = message :: s.messages)) := by
  simp only [notifyChef, addEvent, report, ends_bind, ends_modify]
  split_ifs with hfails
  · exact ⟨rfl, rfl, Or.inl ⟨hfails, rfl⟩⟩
  · exact ⟨rfl, rfl, Or.inr ⟨Bool.eq_false_iff.2 hfails, rfl, rfl⟩⟩

/-- Chef reports success. -/
def RootyStatus.Succeeds (status : RootyStatus) : Prop :=
  status.success = true ∧ status.hasError = false

/-- **How the installation is recorded.** -/
theorem record_ends (account : String) (request : AppInstallRequest) (manifest : AppManifest)
    (status : RootyStatus) (hnew : s.task.success = false) :
    Ends (record env account request manifest status) s fun r t => t.messages = s.messages ∧
      ((RootyStatus.Succeeds status ∧ (AppTask.Succeeds r ↔ env.fails .writeMetadata = false) ∧
        t.repository = s.repository.putMetadata request.name (writtenMetadata env
          (recorded account request manifest) (s.repository request.name).metadata)) ∨
      (¬ RootyStatus.Succeeds status ∧ ¬ AppTask.Succeeds r ∧ t.repository = s.repository)) := by
  unfold record
  by_cases hstatus : (status.success && !status.hasError) = true
  · have hsucceeds : RootyStatus.Succeeds status := by simpa [RootyStatus.Succeeds] using hstatus
    rw [if_pos hstatus, addEvent, report, ends_bind, ends_modify, ends_bind, writeMetadata, ends_bind,
      ends_modify]
    cases hfails : env.fails .writeMetadata with
    | true =>
      exact ⟨rfl, Or.inl ⟨hsucceeds, iff_of_false not_succeeds_error (Bool.noConfusion ·), rfl⟩⟩
    | false => exact ⟨rfl, Or.inl ⟨hsucceeds, iff_of_true ⟨_, rfl, rfl⟩ rfl, rfl⟩⟩
  · rw [if_neg hstatus, report, ends_bind, ends_modify]
    refine ⟨rfl, Or.inr ⟨fun h => hstatus (by simpa [RootyStatus.Succeeds] using h), ?_, rfl⟩⟩
    rintro ⟨result, hresult, hsuccess⟩
    obtain rfl := Except.ok.inj hresult
    exact Bool.noConfusion (hnew.symm.trans hsuccess)

/-! ### The version -/

/-- How a download without auto-install ends. -/
theorem download_ends (install : AppInstallRequest → AppTask TaskResult)
    (request : AppDownloadRequest) (hinstall : request.autoInstall = false) :
    Ends (AppDownloadTask.execute env install request) s fun r t =>
      ((r.toOption.map TaskResult.success).getD false = true ↔
        AppDownloadTask.Completes env request s.repository) ∧
      ((∃ b, AppDownloadTask.Brings env request b ∧
          AppDownloadTask.MakesRoom env request b s.repository ∧
            AppDownloadTask.Replaces s.repository b.manifest (AppDownloadTask.leftBy env request b
              (AppDownloadTask.dirOf s.repository b.manifest)) t.repository) ∨
        ((∀ b, AppDownloadTask.Brings env request b →
            ¬ AppDownloadTask.MakesRoom env request b s.repository) ∧
          s.repository.SameFiles t.repository ∧
            ∀ app, (t.repository app).metadata = (s.repository app).metadata)) := by
  rw [AppDownloadTask.execute, ends_bind]
  refine (AppDownloadTask.add_ends request).mono fun r t ht => ?_
  cases r with
  | error e =>
    refine ⟨iff_of_false (Bool.noConfusion ·) fun h => ?_, ht.2⟩
    obtain ⟨m, hm⟩ := ht.1.2 h
    exact of_error_eq_ok hm
  | ok m =>
    dsimp only
    rw [hinstall, if_neg (by simp)]
    exact ⟨iff_of_true rfl (ht.1.1 ⟨m, rfl⟩), ht.2⟩

/-- The listing of the app store that the request stands for. -/
def listing (env : AppEnv) (request : AppInstallRequest) : Except Exn (Option AppListing) :=
  env.findAppListing request.publisher request.name
    (if request.hasVersion then request.version else none)

/-- The version of the request is not in the repository. -/
def Missing (env : AppEnv) (request : AppInstallRequest) (r : AppRepository) : Prop :=
  ∀ version, requestedVersion env r request = some version →
    r.hasVersion request.name version = false

/-- What is found, the version to install, and what the repository is then. -/
inductive Finds (env : AppEnv) (request : AppInstallRequest) (r : AppRepository) :
    Option String → AppRepository → Prop
  | present {version : String} (requested : requestedVersion env r request = some version)
      (there : r.hasVersion request.name version = true) : Finds env request r (some version) r
  | unlisted (missing : Missing env request r)
      (unlisted : ∀ l, listing env request ≠ .ok (some l)) : Finds env request r none r
  | unmoved {l : AppListing} {r' : AppRepository} (missing : Missing env request r)
      (listed : listing env request = .ok (some l))
      (unmoved : ∀ b, AppDownloadTask.Brings env (downloadRequest request l) b →
        ¬ AppDownloadTask.MakesRoom env (downloadRequest request l) b r)
      (same : r.SameFiles r') (metadata : ∀ app, (r' app).metadata = (r app).metadata) :
      Finds env request r none r'
  | moved {l : AppListing} {b : AppDownloadTask.Bundle} {found : Option String}
      {r' : AppRepository} (missing : Missing env request r)
      (listed : listing env request = .ok (some l))
      (brings : AppDownloadTask.Brings env (downloadRequest request l) b)
      (room : AppDownloadTask.MakesRoom env (downloadRequest request l) b r)
      (leaves : AppDownloadTask.Replaces r b.manifest (AppDownloadTask.leftBy env
        (downloadRequest request l) b (AppDownloadTask.dirOf r b.manifest)) r')
      (finds : ∀ version, found = some version ↔ version = l.version ∧
        AppDownloadTask.Completes env (downloadRequest request l) r ∧ env.completes = true ∧
          r'.hasVersion request.name l.version = true) : Finds env request r found r'

theorem downloadListed_finds {request : AppInstallRequest} {l : AppListing}
    (hmissing : Missing env request s.repository) (hlisted : listing env request = .ok (some l)) :
    Ends (downloadListed env request l) s fun r t => t.task.success = s.task.success ∧
      Finds env request s.repository r.toOption t.repository := by
  simp only [downloadListed, AppTask.call, ends_bind, ends_get, ends_modify, ends_attempt]
  refine (download_ends _ _ rfl).mono fun r t ht => ?_
  obtain ⟨hsuccess, hfiles⟩ := ht
  rw [ends_pure]
  dsimp only at hsuccess hfiles ⊢
  rcases hfiles with ⟨b, hb, hroom, hleaves⟩ | ⟨hnone, hsame, hmetadata⟩
  · split_ifs with hfound
    · rw [Bool.and_eq_true, Bool.and_eq_true] at hfound
      obtain ⟨⟨hcompletes, hdone⟩, hthere⟩ := hfound
      refine ⟨rfl, .moved hmissing hlisted hb hroom hleaves fun version => ?_⟩
      constructor
      · exact fun h => ⟨(Option.some.inj h).symm, hsuccess.1 hcompletes, hdone, hthere⟩
      · exact fun h => congrArg some h.1.symm
    · refine ⟨rfl, .moved hmissing hlisted hb hroom hleaves fun version => ?_⟩
      refine iff_of_false (Option.some_ne_none version).symm fun h => hfound ?_
      rw [Bool.and_eq_true, Bool.and_eq_true]
      exact ⟨⟨hsuccess.2 h.2.1, h.2.2.1⟩, h.2.2.2⟩
  · rw [if_neg]
    · exact ⟨rfl, .unmoved hmissing hlisted hnone hsame hmetadata⟩
    · rw [Bool.and_eq_true, Bool.and_eq_true]
      rintro ⟨⟨hcompletes, -⟩, -⟩
      obtain ⟨b, hb, hroom, -⟩ := hsuccess.1 hcompletes
      exact hnone b hb hroom

theorem fromAppStore_finds {request : AppInstallRequest}
    (hmissing : Missing env request s.repository) :
    Ends (fromAppStore env request) s fun r t => t.task.success = s.task.success ∧
      Finds env request s.repository r.toOption t.repository := by
  unfold fromAppStore
  split
  · next x hx =>
    exact ⟨rfl, .unlisted hmissing fun l hl => of_error_eq_ok (hx.symm.trans hl)⟩
  · next hnone =>
    exact ⟨rfl, .unlisted hmissing fun l hl =>
      absurd (Except.ok.inj (hnone.symm.trans hl)) (Option.some_ne_none l).symm⟩
  · next l hl => exact downloadListed_finds hmissing hl

/-- **How the version is found.** -/
theorem locate_finds (request : AppInstallRequest) : Ends (locate env request) s fun r t =>
    t.task.success = s.task.success ∧ Finds env request s.repository r.toOption t.repository := by
  rw [locate, description, report, ends_bind, ends_modify]
  dsimp only
  rw [ends_bind, ends_get]
  dsimp only
  cases hversion : requestedVersion env s.repository request with
  | none =>
    refine fromAppStore_finds fun v hv => ?_
    exact absurd (hversion.symm.trans hv) (Option.some_ne_none v).symm
  | some v =>
    dsimp only
    split_ifs with hthere
    · exact ⟨rfl, .present hversion hthere⟩
    · refine fromAppStore_finds fun w hw => ?_
      obtain rfl := Option.some.inj (hversion.symm.trans hw)
      exact Bool.eq_false_iff.2 hthere

namespace Finds

variable {request : AppInstallRequest} {r r' r'' : AppRepository} {found found' : Option String}

/-- The metadata stay. -/
theorem metadata (h : Finds env request r found r') (app : String) :
    (r' app).metadata = (r app).metadata := by
  cases h with
  | present => rfl
  | unlisted => rfl
  | unmoved _ _ _ _ hmetadata => exact hmetadata app
  | moved _ _ _ _ hleaves => exact hleaves.metadata app

/-- What is found is determined, up to empty directories when it is nothing. -/
theorem unique (h : Finds env request r found r') (h' : Finds env request r found' r'') :
    found = found' ∧ r'.SameFiles r'' ∧ (found ≠ none → r' = r'') := by
  have hthere : ∀ {v}, requestedVersion env r request = some v →
      r.hasVersion request.name v = true → ¬ Missing env request r :=
    fun hv hthere hmissing => Bool.noConfusion ((hmissing _ hv).symm.trans hthere)
  cases h with
  | present hv hpresent =>
    cases h' with
    | present hw => exact ⟨hv.symm.trans hw, .refl r, fun _ => rfl⟩
    | unlisted hmissing => exact absurd hmissing (hthere hv hpresent)
    | unmoved hmissing => exact absurd hmissing (hthere hv hpresent)
    | moved hmissing => exact absurd hmissing (hthere hv hpresent)
  | unlisted hmissing hunlisted =>
    cases h' with
    | present hv hpresent => exact absurd hmissing (hthere hv hpresent)
    | unlisted => exact ⟨rfl, .refl r, fun _ => rfl⟩
    | unmoved _ hlisted => exact absurd hlisted (hunlisted _)
    | moved _ hlisted => exact absurd hlisted (hunlisted _)
  | unmoved hmissing hlisted hunmoved hsame =>
    cases h' with
    | present hv hpresent => exact absurd hmissing (hthere hv hpresent)
    | unlisted _ hunlisted => exact absurd hlisted (hunlisted _)
    | unmoved _ _ _ hsame' => exact ⟨rfl, hsame.symm.trans hsame', fun h => absurd rfl h⟩
    | moved _ hlisted' hb hroom =>
      obtain rfl := Option.some.inj (Except.ok.inj (hlisted.symm.trans hlisted'))
      exact absurd hroom (hunmoved _ hb)
  | moved hmissing hlisted hb hroom hleaves hfound =>
    cases h' with
    | present hv hpresent => exact absurd hmissing (hthere hv hpresent)
    | unlisted _ hunlisted => exact absurd hlisted (hunlisted _)
    | unmoved _ hlisted' hunmoved =>
      obtain rfl := Option.some.inj (Except.ok.inj (hlisted.symm.trans hlisted'))
      exact absurd hroom (hunmoved _ hb)
    | moved _ hlisted' hb' _ hleaves' hfound' =>
      obtain rfl := Option.some.inj (Except.ok.inj (hlisted.symm.trans hlisted'))
      obtain rfl := hb.unique hb'
      obtain rfl := hleaves.unique hleaves'
      refine ⟨Option.ext fun v => ?_, .refl _, fun _ => rfl⟩
      rw [hfound, hfound']

/-- The version that is found, and the repository with it, are determined. -/
theorem unique_some {v w : String} (h : Finds env request r (some v) r')
    (h' : Finds env request r (some w) r'') : v = w ∧ r' = r'' := by
  obtain ⟨hv, -, hsame⟩ := h.unique h'
  exact ⟨Option.some.inj hv, hsame (Option.some_ne_none v)⟩

end Finds

/-! ### The whole install -/

/-- Chef runs with success, so that the installation is recorded. -/
structure Records (env : AppEnv) (request : AppInstallRequest) (r : AppRepository) (version : String)
    (plan : Plan env) : Prop where
  reaches : reachesChef env r request.name version plan = true
  notifies : env.fails .notifyChef = false
  status : RootyStatus.Succeeds (env.request (chefMessage request version plan.manifest))

/-- How the task ends, in the result `r` and the state `t`. -/
inductive Installs (env : AppEnv) (account : String) (request : AppInstallRequest) (s : AppServer)
    (r : Except Exit TaskResult) (t : AppServer) : Prop
  | unfound (finds : Finds env request s.repository none t.repository) (fails : ¬ Succeeds r) :
      Installs env account request s r t
  | unread {version : String} {x : Exn}
      (finds : Finds env request s.repository (some version) t.repository)
      (unread : plan env t.repository request.name version = .error x) (fails : ¬ Succeeds r) :
      Installs env account request s r t
  | stops {version : String} {found : AppRepository} {p : Plan env}
      (finds : Finds env request s.repository (some version) found)
      (planned : plan env found request.name version = .ok p)
      (stops : ¬ Records env request found version p) (fails : ¬ Succeeds r)
      (written : t.repository = putDatabags found request.name version
        (deployed env found request.name version p)) :
      Installs env account request s r t
  | records {version : String} {found : AppRepository} {p : Plan env}
      (finds : Finds env request s.repository (some version) found)
      (planned : plan env found request.name version = .ok p)
      (records : Records env request found version p)
      (succeeds : Succeeds r ↔ env.fails .writeMetadata = false)
      (sent : ∃ rest, t.messages = chefMessage request version p.manifest :: rest)
      (written : t.repository = (putDatabags found request.name version
        (deployed env found request.name version p)).putMetadata request.name
          (writtenMetadata env (recorded account request p.manifest)
            (s.repository request.name).metadata)) : Installs env account request s r t

theorem metadata_putDatabags (r : AppRepository) (ws : List (String × Content)) (b : String) :
    (putDatabags r app version ws b).metadata = (r b).metadata := (putDatabags_leaves r ws).metadata b

/-- **How the install ends.** -/
theorem execute_installs (account : String) (request : AppInstallRequest)
    (hnew : s.task.success = false) : Ends (execute env account request) s fun r t =>
      Installs env account request s r t := by
  rw [execute, ends_bind]
  refine (locate_finds request).mono fun r l hl => ?_
  obtain ⟨hsuccess, hfinds⟩ := hl
  cases r with
  | error e => exact .unfound hfinds not_succeeds_error
  | ok version =>
    dsimp only
    rw [ends_bind, ends_get]
    dsimp only
    rw [ends_bind]
    cases hplan : plan env l.repository request.name version with
    | error x => exact .unread hfinds hplan not_succeeds_error
    | ok p =>
      rw [orThrow, ends_pure]
      dsimp only
      rw [ends_bind]
      refine Ends.mono (prepare_puts p) fun r t ht => ?_
      obtain ⟨hgo, hwritten, hprepared⟩ := ht
      cases r with
      | error e =>
        refine .stops hfinds hplan (fun h => ?_) not_succeeds_error hwritten
        exact Bool.noConfusion (hgo.trans h.reaches)
      | ok _ =>
        dsimp only
        rw [ends_bind]
        refine (notifyChef_ends _).mono fun r u hu => ?_
        obtain ⟨hsame, hnotified, ⟨hfails, rfl⟩ | ⟨hnotifies, rfl, hsent⟩⟩ := hu
        · refine .stops hfinds hplan (fun h => ?_) ?_ (hsame.trans hwritten)
          · exact Bool.noConfusion (h.notifies.symm.trans hfails)
          · rintro ⟨result, hresult, htrue⟩
            obtain rfl := Except.ok.inj hresult
            have hfalse : u.task.success = false := by rw [hnotified, hprepared, hsuccess, hnew]
            exact Bool.noConfusion (hfalse.symm.trans htrue)
        · dsimp only
          have hfalse : u.task.success = false := by rw [hnotified, hprepared, hsuccess, hnew]
          refine (record_ends account request p.manifest _ hfalse).mono fun r v hv => ?_
          obtain ⟨hmessages, ⟨hstatus, hsucceeds, hrecorded⟩ | ⟨hstatus, hfails, hrecorded⟩⟩ := hv
          · refine .records hfinds hplan ⟨hgo.symm, hnotifies, hstatus⟩ hsucceeds
              ⟨t.messages, hmessages.trans hsent⟩ ?_
            have hold : (u.repository request.name).metadata
                = (s.repository request.name).metadata := by
              rw [hsame, hwritten, metadata_putDatabags, hfinds.metadata]
            rw [hrecorded, hold, hsame, hwritten]
          · refine .stops hfinds hplan (fun h => hstatus h.status) hfails ?_
            rw [hrecorded, hsame, hwritten]

end AppInstallTask

end CloudOs

/-
# `AppDAO`: the state of the repository of the apps

`getAppRepositoryState` goes over the directories of the repository and, in each, over the
directories of the versions, and collects what their manifests say.

| reader | what it looks at |
| --- | --- |
| `getAppRepositoryState` | the manifest of every version; the active version of its directory |
| `findActive` | the manifest of the active version of every directory |
| `findInstalledByName` | the manifest of the active version of one directory |
| `findLatestVersionByName` | the manifest of the latest version of one directory |

The state is keyed by the name in the manifest, the other readers by the name of the directory.
Where a directory is named by the manifests in it, the state marks as installed what the others
find (`installed_iff`).

The page of the installed apps shows the first version of every app, so that it shows an app as
installed when the active version is the first one that the file system lists (`shown_iff`).
-/

import CloudOs.Dao.AppDAO
import CloudOs.Lib.Grouped
import Mathlib.Data.Finset.Sort
import Mathlib.Data.String.Basic

namespace CloudOs

open Prog

/-- How directories are listed: those of the apps, and those in an app whose name is that of a
version. -/
structure Directories where
  appDirs : AppRepository → List String
  versionDirs : AppRepository → String → List String

/-- The directories that hold a manifest are listed, each once; `isVersion` says which names are
those of a version. -/
structure Directories.Lists (dirs : Directories) (isVersion : String → Bool) (r : AppRepository) :
    Prop where
  appDirs : (dirs.appDirs r).Nodup
  versionDirs : ∀ app, (dirs.versionDirs r app).Nodup
  named : ∀ app, ∀ v ∈ dirs.versionDirs r app, isVersion v = true
  complete : ∀ app v, isVersion v = true →
    (r.version app v).hasPath AppLayout.manifestFile = true →
      app ∈ dirs.appDirs r ∧ v ∈ dirs.versionDirs r app

structure CloudOsAppVersion where
  name : String
  version : String
  parent : Option String
  installed : Bool
  deriving DecidableEq, Inhabited, Repr

structure AppRepositoryState where
  appNames : Finset String := ∅
  appVersions : String → Option (List CloudOsAppVersion) := fun _ => none

/-- `addApp`. -/
def AppRepositoryState.addApp (state : AppRepositoryState) (version : CloudOsAppVersion) :
    AppRepositoryState where
  appNames := insert version.name state.appNames
  appVersions := Grouped.add CloudOsAppVersion.name state.appVersions version

namespace AppDAO

variable (dirs : Directories) (parent : AppManifest → Option String) (r : AppRepository)

/-- What the state holds of a manifest. -/
def appVersion (app v : String) (manifest : AppManifest) : CloudOsAppVersion :=
  ⟨manifest.name, manifest.version, parent manifest, r.activeVersion app == some v⟩

/-- The body of the inner loop. -/
def addVersion (app : String) (state : AppRepositoryState) (v : String) :
    Except Exn AppRepositoryState :=
  if (r.version app v).hasPath AppLayout.manifestFile then do
    let manifest ← AppManifest.load (r.version app v)
    return state.addApp (appVersion parent r app v manifest)
  else return state

/-- `getAppRepositoryState`. -/
def getAppRepositoryState : Except Exn AppRepositoryState :=
  (dirs.appDirs r).foldlM
    (fun state app => (dirs.versionDirs r app).foldlM (addVersion parent r app) state) {}

/-- `findActive`. -/
def findActive : List CloudOsApp := (dirs.appDirs r).filterMap (findInstalledByName r)

/-- `findLatestVersionByName`; the metadata of what it finds are `null`. -/
def findLatestVersionByName (env : AppEnv) (name : String) : Option AppManifest :=
  ((env.latestVersion r name).filter (r.hasVersion name)).bind fun v =>
    (AppManifest.load (r.version name v)).toOption

/-! ### The loops -/

variable {dirs parent r}

/-- A manifest that is there can be loaded. -/
def Readable (r : AppRepository) (app v : String) : Prop :=
  (r.version app v).hasPath AppLayout.manifestFile = true →
    ∃ manifest, AppManifest.load (r.version app v) = .ok manifest

/-- What the state holds of a version. -/
def entry (parent : AppManifest → Option String) (r : AppRepository) (app v : String) :
    Option CloudOsAppVersion :=
  (AppManifest.load (r.version app v)).toOption.map (appVersion parent r app v)

/-- What the state holds of an app. -/
def entries (dirs : Directories) (parent : AppManifest → Option String) (r : AppRepository)
    (app : String) : List CloudOsAppVersion :=
  (dirs.versionDirs r app).filterMap (entry parent r app)

theorem hasPath_of_load {t : FileTree Content} {manifest : AppManifest}
    (h : AppManifest.load t = .ok manifest) : t.hasPath AppLayout.manifestFile = true := by
  rw [FileTree.hasPath]
  by_contra hno
  rw [Bool.not_eq_true, Option.isSome_eq_false_iff, Option.isNone_iff_eq_none] at hno
  rw [AppManifest.load, FileTree.fileAt, hno] at h
  exact of_error_eq_ok h

theorem addVersion_eq_ok {app v : String} {state state' : AppRepositoryState} :
    addVersion parent r app state v = .ok state' ↔
      Readable r app v ∧ state' = (entry parent r app v).toList.foldl .addApp state := by
  rw [addVersion, Readable, entry]
  cases hload : AppManifest.load (r.version app v) with
  | ok manifest =>
    rw [if_pos (hasPath_of_load hload)]
    refine ⟨fun h => ⟨fun _ => ⟨manifest, rfl⟩, (Except.ok.inj h).symm⟩, fun h => ?_⟩
    exact congrArg Except.ok h.2.symm
  | error x =>
    split_ifs with hpath
    · refine iff_of_false (fun h => of_error_eq_ok h) fun h => ?_
      exact (h.1 hpath).elim fun _ => id
    · exact ⟨fun h => ⟨fun h => absurd h hpath, (Except.ok.inj h).symm⟩, fun h =>
        congrArg Except.ok h.2.symm⟩

/-- A loop that goes over what can be read adds what is read. -/
theorem foldlM_eq_ok {α : Type} {f : AppRepositoryState → α → Except Exn AppRepositoryState}
    {P : α → Prop} {g : α → List CloudOsAppVersion}
    (hf : ∀ state a state', f state a = .ok state' ↔ P a ∧ state' = (g a).foldl .addApp state) :
    ∀ {l : List α} {state state' : AppRepositoryState}, l.foldlM f state = .ok state' ↔
      (∀ a ∈ l, P a) ∧ state' = (l.flatMap g).foldl .addApp state
  | [], state, state' => by
    refine ⟨fun h => ⟨fun a ha => absurd ha List.not_mem_nil, (Except.ok.inj h).symm⟩, fun h => ?_⟩
    exact congrArg Except.ok h.2.symm
  | a :: l, state, state' => by
    rw [List.foldlM_cons, List.flatMap_cons, List.foldl_append, List.forall_mem_cons, and_assoc]
    constructor
    · intro h
      obtain ⟨next, hnext, hrest⟩ := exists_of_bind_eq_ok h
      obtain ⟨ha, rfl⟩ := (hf state a next).1 hnext
      exact ⟨ha, (foldlM_eq_ok hf).1 hrest⟩
    · rintro ⟨ha, hrest⟩
      rw [(hf state a _).2 ⟨ha, rfl⟩]
      exact (foldlM_eq_ok hf).2 hrest

/-- **How the state is made**: every manifest that is there is read, and makes an entry. -/
theorem getAppRepositoryState_eq_ok {state : AppRepositoryState} :
    getAppRepositoryState dirs parent r = .ok state ↔
      (∀ app ∈ dirs.appDirs r, ∀ v ∈ dirs.versionDirs r app, Readable r app v) ∧
        state = ((dirs.appDirs r).flatMap (entries dirs parent r)).foldl .addApp {} := by
  refine foldlM_eq_ok fun state app state' => ?_
  have hinner := @foldlM_eq_ok String (addVersion parent r app) (Readable r app)
    (fun v => (entry parent r app v).toList) (fun _ _ _ => addVersion_eq_ok)
  rw [hinner, entries, List.filterMap_eq_flatMap_toList]

theorem foldl_addApp (l : List CloudOsAppVersion) (state : AppRepositoryState) :
    (l.foldl .addApp state).appVersions
        = l.foldl (Grouped.add CloudOsAppVersion.name) state.appVersions ∧
      ∀ name, name ∈ (l.foldl .addApp state).appNames ↔
        name ∈ state.appNames ∨ ∃ e ∈ l, e.name = name := by
  induction l generalizing state with
  | nil => exact ⟨rfl, fun name => by simp⟩
  | cons e l ih =>
    obtain ⟨hversions, hnames⟩ := ih (state.addApp e)
    refine ⟨hversions, fun name => ?_⟩
    rw [List.foldl_cons, hnames, AppRepositoryState.addApp, Finset.mem_insert]
    simp only [List.mem_cons, exists_eq_or_imp, eq_comm (a := name)]
    tauto

/-! ### What the state says -/

/-- A directory is named by the manifests in it. -/
def NamedByManifests (r : AppRepository) : Prop :=
  ∀ app v manifest, AppManifest.load (r.version app v) = .ok manifest →
    manifest.name = app ∧ manifest.version = v

theorem entry_eq_some {app v : String} {e : CloudOsAppVersion} : entry parent r app v = some e ↔
    ∃ manifest, AppManifest.load (r.version app v) = .ok manifest ∧
      appVersion parent r app v manifest = e := by
  rw [entry, Option.map_eq_some_iff]
  exact exists_congr fun manifest => and_congr_left fun _ => toOption_eq_some

/-- What is found as installed is the manifest of the active version. -/
theorem findInstalledByName_iff {app : String} {manifest : AppManifest} :
    (∃ a, findInstalledByName r app = some a ∧ a.manifest = manifest) ↔
      ∃ v, r.activeVersion app = some v ∧ AppManifest.load (r.version app v) = .ok manifest := by
  rw [findInstalledByName]
  cases hactive : r.activeVersion app with
  | none => simp
  | some v =>
    rw [Option.bind_some, loadApp]
    cases hload : AppManifest.load (r.version app v) with
    | error x => simp [hload]
    | ok m => simp [hload]

variable {isVersion : String → Bool} {state : AppRepositoryState}

theorem name_of_mem_entries (hnamed : NamedByManifests r) {app : String} {e : CloudOsAppVersion}
    (he : e ∈ entries dirs parent r app) : e.name = app := by
  obtain ⟨v, -, hentry⟩ := List.mem_filterMap.1 he
  obtain ⟨manifest, hload, rfl⟩ := entry_eq_some.1 hentry
  exact (hnamed app v manifest hload).1

/-- The versions of an app are those of its directory. -/
theorem appVersions_eq (hlists : dirs.Lists isVersion r) (hnamed : NamedByManifests r)
    (hstate : getAppRepositoryState dirs parent r = .ok state) (app : String) :
    (state.appVersions app).getD []
      = if app ∈ dirs.appDirs r then entries dirs parent r app else [] := by
  obtain ⟨-, rfl⟩ := getAppRepositoryState_eq_ok.1 hstate
  rw [(foldl_addApp _ _).1]
  exact (Grouped.getD_group _ _ _).trans
    (Grouped.filter_flatMap (fun app _ he => name_of_mem_entries hnamed he) hlists.appDirs app)

theorem mem_appVersions (hlists : dirs.Lists isVersion r) (hnamed : NamedByManifests r)
    (hstate : getAppRepositoryState dirs parent r = .ok state) {app : String}
    {e : CloudOsAppVersion} : e ∈ (state.appVersions app).getD [] ↔
      ∃ v manifest, isVersion v = true ∧ AppManifest.load (r.version app v) = .ok manifest ∧
        appVersion parent r app v manifest = e := by
  rw [appVersions_eq hlists hnamed hstate]
  constructor
  · intro he
    split_ifs at he with happ
    · obtain ⟨v, hv, hentry⟩ := List.mem_filterMap.1 he
      obtain ⟨manifest, hload, heq⟩ := entry_eq_some.1 hentry
      exact ⟨v, manifest, hlists.named app v hv, hload, heq⟩
    · exact absurd he List.not_mem_nil
  · rintro ⟨v, manifest, hv, hload, heq⟩
    obtain ⟨happ, hdir⟩ := hlists.complete app v hv (hasPath_of_load hload)
    rw [if_pos happ]
    exact List.mem_filterMap.2 ⟨v, hdir, entry_eq_some.2 ⟨manifest, hload, heq⟩⟩

/-- The state and the readers of the active versions say the same. -/
structure Agrees (isVersion : String → Bool) (parent : AppManifest → Option String)
    (r : AppRepository) (state : AppRepositoryState) : Prop where
  once : ∀ app, (((state.appVersions app).getD []).map CloudOsAppVersion.version).Nodup
  installed : ∀ app e, (e ∈ (state.appVersions app).getD [] ∧ e.installed = true) ↔
    ∃ a, findInstalledByName r app = some a ∧ isVersion a.manifest.version = true ∧
      e = ⟨app, a.manifest.version, parent a.manifest, true⟩

/-- A version makes an entry of its own. -/
theorem nodup_versions (hlists : dirs.Lists isVersion r) (hnamed : NamedByManifests r)
    (app : String) : ((entries dirs parent r app).map CloudOsAppVersion.version).Nodup := by
  rw [entries, List.map_filterMap]
  refine (hlists.versionDirs app).filterMap fun v w version hv hw => ?_
  rw [Option.mem_def, Option.map_eq_some_iff] at hv hw
  obtain ⟨e, he, rfl⟩ := hv
  obtain ⟨d, hd, hsame⟩ := hw
  obtain ⟨m, hm, rfl⟩ := entry_eq_some.1 he
  obtain ⟨n, hn, rfl⟩ := entry_eq_some.1 hd
  have hversion : n.version = m.version := hsame
  rw [← (hnamed app v m hm).2, ← (hnamed app w n hn).2, hversion]

theorem isSome_appVersions (hstate : getAppRepositoryState dirs parent r = .ok state)
    (app : String) : app ∈ state.appNames ↔ (state.appVersions app).isSome = true := by
  obtain ⟨-, rfl⟩ := getAppRepositoryState_eq_ok.1 hstate
  obtain ⟨hversions, hnames⟩ := foldl_addApp ((dirs.appDirs r).flatMap (entries dirs parent r)) {}
  rw [hversions, hnames, or_iff_right (Finset.notMem_empty app)]
  exact (Grouped.isSome_group CloudOsAppVersion.name _ app).symm

/-- An entry is marked when the readers of the active versions find it. -/
theorem installed_iff (hlists : dirs.Lists isVersion r) (hnamed : NamedByManifests r)
    (hstate : getAppRepositoryState dirs parent r = .ok state) (app : String)
    (e : CloudOsAppVersion) : (e ∈ (state.appVersions app).getD [] ∧ e.installed = true) ↔
      ∃ a, findInstalledByName r app = some a ∧ isVersion a.manifest.version = true ∧
        e = ⟨app, a.manifest.version, parent a.manifest, true⟩ := by
  rw [mem_appVersions hlists hnamed hstate]
  constructor
  · rintro ⟨⟨v, manifest, hv, hload, rfl⟩, hactive⟩
    have hactive : r.activeVersion app = some v := eq_of_beq hactive
    obtain ⟨hname, hversion⟩ := hnamed app v manifest hload
    obtain ⟨a, ha, hmanifest⟩ := findInstalledByName_iff.2 ⟨v, hactive, hload⟩
    refine ⟨a, ha, hmanifest ▸ hversion ▸ hv, ?_⟩
    rw [appVersion, hname, hactive, beq_self_eq_true, hmanifest]
  · rintro ⟨a, ha, hv, rfl⟩
    obtain ⟨v, hactive, hload⟩ := findInstalledByName_iff.1 ⟨a, ha, rfl⟩
    obtain ⟨hname, hversion⟩ := hnamed app v a.manifest hload
    refine ⟨⟨v, a.manifest, hversion ▸ hv, hload, ?_⟩, rfl⟩
    rw [appVersion, hname, hactive, beq_self_eq_true]

/-- **The state of the repository.**  It is there when every manifest of a version can be read, one
that cannot makes it fail; and then its names are those that have versions, and where directories
are named by their manifests it has every version once, and marks as installed what is found as
installed. -/
theorem state_agrees (hlists : dirs.Lists isVersion r) :
    ((∃ state, getAppRepositoryState dirs parent r = .ok state) ↔
        ∀ app v, isVersion v = true → Readable r app v) ∧
      ∀ state, getAppRepositoryState dirs parent r = .ok state →
        (∀ app, app ∈ state.appNames ↔ (state.appVersions app).isSome = true) ∧
          (NamedByManifests r → Agrees isVersion parent r state) := by
  constructor
  · constructor
    · rintro ⟨state, hstate⟩ app v hv hpath
      obtain ⟨happ, hdir⟩ := hlists.complete app v hv hpath
      exact (getAppRepositoryState_eq_ok.1 hstate).1 app happ v hdir hpath
    · intro h
      exact ⟨_, getAppRepositoryState_eq_ok.2
        ⟨fun app _ v hv => h app v (hlists.named app v hv), rfl⟩⟩
  · intro state hstate
    refine ⟨isSome_appVersions hstate, fun hnamed =>
      ⟨fun app => ?_, installed_iff hlists hnamed hstate⟩⟩
    rw [appVersions_eq hlists hnamed hstate]
    split_ifs
    · exact nodup_versions hlists hnamed app
    · exact List.nodup_nil

/-! ### An upgraded app -/

/-- The manifest of a version of the blog. -/
def manifestOfBlog (v : String) : AppManifest where
  name := "blog"
  scrubbedName := "blog"
  version := v
  hasConfig := false
  interactive := true
  normalizedLocalMount := "/blog/"

/-- The blog has been upgraded, and its first version is still there. -/
def upgradedBlog : AppRepository := fun app => if app = "blog" then
    { metadata := .json { activeVersion := some "2.0.0" }
      versions := fun v => if v ∈ ["1.0.0", "2.0.0"] then
          FileTree.empty.write AppLayout.manifestFile (.manifest (manifestOfBlog v))
        else .empty }
  else {}

/-- The directories of the blog, in the order of the versions. -/
def blogDirectories : Directories where
  appDirs := fun _ => ["blog"]
  versionDirs := fun _ app => if app = "blog" then ["1.0.0", "2.0.0"] else []

theorem hasPath_upgradedBlog {app v : String}
    (h : (upgradedBlog.version app v).hasPath AppLayout.manifestFile = true) :
    app = "blog" ∧ v ∈ ["1.0.0", "2.0.0"] := by
  rw [AppRepository.version, upgradedBlog] at h
  split_ifs at h with happ
  · dsimp only at h
    split_ifs at h with hv
    · exact ⟨happ, hv⟩
    · exact absurd h Bool.false_ne_true
  · exact absurd h Bool.false_ne_true

theorem load_upgradedBlog {v : String} (hv : v ∈ ["1.0.0", "2.0.0"]) :
    AppManifest.load (upgradedBlog.version "blog" v) = .ok (manifestOfBlog v) := by
  rw [AppRepository.version, upgradedBlog, if_pos rfl, AppManifest.load]
  simp only [if_pos hv, FileTree.fileAt_write_self]

theorem namedByManifests_upgradedBlog : NamedByManifests upgradedBlog := by
  intro app v manifest hload
  obtain ⟨rfl, hv⟩ := hasPath_upgradedBlog (hasPath_of_load hload)
  rw [load_upgradedBlog hv] at hload
  rw [← Except.ok.inj hload]
  exact ⟨rfl, rfl⟩

theorem lists_upgradedBlog :
    blogDirectories.Lists (fun v => decide (v ∈ ["1.0.0", "2.0.0"])) upgradedBlog where
  appDirs := List.nodup_singleton _
  versionDirs app := by
    simp only [blogDirectories]
    split_ifs
    · decide
    · exact List.nodup_nil
  named app v hv := by
    simp only [blogDirectories] at hv
    split_ifs at hv
    · exact decide_eq_true hv
    · exact absurd hv List.not_mem_nil
  complete app v _ hpath := by
    obtain ⟨rfl, hv⟩ := hasPath_upgradedBlog hpath
    exact ⟨List.mem_singleton.2 rfl, hv⟩

theorem readable_upgradedBlog {app v : String} : Readable upgradedBlog app v := by
  intro hpath
  obtain ⟨rfl, hv⟩ := hasPath_upgradedBlog hpath
  exact ⟨_, load_upgradedBlog hv⟩

theorem exists_state_upgradedBlog :
    ∃ state, getAppRepositoryState blogDirectories (fun _ => none) upgradedBlog = .ok state :=
  ⟨_, getAppRepositoryState_eq_ok.2 ⟨fun _ _ _ _ => readable_upgradedBlog, rfl⟩⟩

theorem state_agrees_upgradedBlog :
    ∃ state, getAppRepositoryState blogDirectories (fun _ => none) upgradedBlog = .ok state ∧
      Agrees (fun v => decide (v ∈ ["1.0.0", "2.0.0"])) (fun _ => none) upgradedBlog state := by
  have h := @state_agrees blogDirectories (fun _ => none) upgradedBlog _ lists_upgradedBlog
  obtain ⟨state, hstate⟩ := h.1.2 fun _ _ _ => readable_upgradedBlog
  exact ⟨state, hstate, (h.2 state hstate).2 namedByManifests_upgradedBlog⟩

end AppDAO

/-! ### The page of the installed apps -/

/-- The model of `InstalledappsRoute`: the first version of every app.  A name that has no list of
versions is a `TypeError`; an empty list has no first version, and `undefined` is pushed. -/
def InstalledappsRoute.model (state : AppRepositoryState) :
    Option (List (Option CloudOsAppVersion)) :=
  (state.appNames.sort (· ≤ ·)).mapM fun name => (state.appVersions name).map List.head?

namespace InstalledappsRoute

open AppDAO

variable {dirs : Directories} {parent : AppManifest → Option String} {r : AppRepository}
  {isVersion : String → Bool} {state : AppRepositoryState}

/-- The first version of an app that the file system lists. -/
def firstVersion (dirs : Directories) (r : AppRepository) (app : String) : Option String :=
  (dirs.versionDirs r app).find? fun v => (r.version app v).hasPath AppLayout.manifestFile

theorem mapM_eq_some {α β : Type} {f : α → Option β} {g : α → β} :
    ∀ {l : List α}, (∀ a ∈ l, f a = some (g a)) → l.mapM f = some (l.map g)
  | [], _ => rfl
  | a :: l, h => by
    obtain ⟨ha, hl⟩ := List.forall_mem_cons.1 h
    rw [List.mapM_cons, ha, Option.bind_eq_bind, Option.bind_some, mapM_eq_some hl]
    rfl

theorem name_of_mem_appVersions (hstate : getAppRepositoryState dirs parent r = .ok state)
    {app : String} {e : CloudOsAppVersion} (he : e ∈ (state.appVersions app).getD []) :
    e.name = app := by
  obtain ⟨-, rfl⟩ := getAppRepositoryState_eq_ok.1 hstate
  rw [(foldl_addApp _ _).1] at he
  have hgroup : e ∈ ((dirs.appDirs r).flatMap (entries dirs parent r)).filter (·.name = app) :=
    Grouped.getD_group CloudOsAppVersion.name _ app ▸ he
  exact of_decide_eq_true (List.mem_filter.1 hgroup).2

/-- A name has versions, the first of which is shown. -/
theorem exists_first (hstate : getAppRepositoryState dirs parent r = .ok state) {app : String}
    (happ : app ∈ state.appNames) :
    ∃ e, (state.appVersions app).map List.head? = some (some e) ∧
      ((state.appVersions app).getD []).head? = some e := by
  obtain ⟨vs, hvs⟩ := Option.isSome_iff_exists.1 ((isSome_appVersions hstate app).1 happ)
  have hne : vs ≠ [] := by
    obtain ⟨-, rfl⟩ := getAppRepositoryState_eq_ok.1 hstate
    rw [(foldl_addApp _ _).1] at hvs
    exact Grouped.ne_nil_of_group _ hvs
  rw [hvs]
  exact ⟨vs.head hne, congrArg some (List.head?_eq_some_head hne), List.head?_eq_some_head hne⟩

/-- The first entry of an app is that of its first version. -/
theorem firstVersion_eq (hlists : dirs.Lists isVersion r) (hnamed : NamedByManifests r)
    (hstate : getAppRepositoryState dirs parent r = .ok state) {app : String}
    {e : CloudOsAppVersion} (he : ((state.appVersions app).getD []).head? = some e) :
    firstVersion dirs r app = some e.version ∧
      e.installed = (r.activeVersion app == some e.version) := by
  rw [appVersions_eq hlists hnamed hstate] at he
  split_ifs at he with happ
  · rw [entries, List.head?_filterMap] at he
    obtain ⟨before, v, after, hsplit, hentry, hbefore⟩ := List.findSome?_eq_some_iff.1 he
    obtain ⟨manifest, hload, rfl⟩ := entry_eq_some.1 hentry
    obtain ⟨-, hversion⟩ := hnamed app v manifest hload
    refine ⟨?_, congrArg (fun w => r.activeVersion app == some w) hversion.symm⟩
    have hskips : ∀ w ∈ before, (r.version app w).hasPath AppLayout.manifestFile = false := by
      intro w hw
      rw [Bool.eq_false_iff]
      intro hpath
      have hreads := (getAppRepositoryState_eq_ok.1 hstate).1 app happ w
        (hsplit ▸ List.mem_append_left _ hw)
      obtain ⟨m, hm⟩ := hreads hpath
      exact absurd (hbefore w hw) (ne_of_eq_of_ne (entry_eq_some.2 ⟨m, hm, rfl⟩)
        (Option.some_ne_none _))
    have hfound : firstVersion dirs r app = some v :=
      List.find?_eq_some_iff_append.2 ⟨hasPath_of_load hload, before, after, hsplit, fun w hw => by
        rw [hskips w hw, Bool.not_false]⟩
    rw [hfound]
    exact congrArg some hversion.symm
  · exact absurd he (Option.some_ne_none e).symm

/-- **What the page shows.**  The page has an app for every name, and none that is `undefined`; where
directories are named by their manifests it shows as installed those apps whose active version is the
first one that the file system lists. -/
theorem shown_iff (hlists : dirs.Lists isVersion r)
    (hstate : getAppRepositoryState dirs parent r = .ok state) :
    ∃ page : List CloudOsAppVersion, model state = some (page.map some) ∧
      page.map CloudOsAppVersion.name = state.appNames.sort (· ≤ ·) ∧
      (NamedByManifests r → ∀ e ∈ page, e.installed = true ↔
        ∃ a, findInstalledByName r e.name = some a ∧
          firstVersion dirs r e.name = some a.manifest.version) := by
  have hfirst : ∀ app ∈ state.appNames.sort (· ≤ ·), ∃ e,
      (state.appVersions app).map List.head? = some (some e) ∧
        ((state.appVersions app).getD []).head? = some e :=
    fun app happ => exists_first hstate ((Finset.mem_sort _).1 happ)
  choose! first hshown hhead using hfirst
  have hname : ∀ app ∈ state.appNames.sort (· ≤ ·), (first app).name = app :=
    fun app happ => name_of_mem_appVersions hstate (List.mem_of_mem_head? (hhead app happ))
  refine ⟨(state.appNames.sort (· ≤ ·)).map first, ?_, ?_, ?_⟩
  · rw [List.map_map]
    exact mapM_eq_some hshown
  · rw [List.map_map]
    exact (List.map_congr_left hname).trans (List.map_id _)
  · intro hnamed e he
    obtain ⟨app, happ, rfl⟩ := List.mem_map.1 he
    obtain ⟨hversion, hinstalled⟩ := firstVersion_eq hlists hnamed hstate (hhead app happ)
    rw [hname app happ, hversion, hinstalled, beq_iff_eq]
    have hmem : first app ∈ (state.appVersions app).getD [] :=
      List.mem_of_mem_head? (hhead app happ)
    obtain ⟨v, manifest, -, hload, heq⟩ := (mem_appVersions hlists hnamed hstate).1 hmem
    have hv : (first app).version = v := by rw [← heq, ← (hnamed app v manifest hload).2]; rfl
    constructor
    · intro hactive
      rw [hv] at hactive
      obtain ⟨a, ha, hmanifest⟩ := findInstalledByName_iff.2 ⟨v, hactive, hload⟩
      exact ⟨a, ha, by rw [hv, hmanifest, (hnamed app v manifest hload).2]⟩
    · rintro ⟨a, ha, hsame⟩
      obtain ⟨w, hactive, hw⟩ := findInstalledByName_iff.1 ⟨a, ha, rfl⟩
      rw [hactive, hsame, (hnamed app w a.manifest hw).2]

theorem shown_iff_upgradedBlog :
    ∃ state, getAppRepositoryState blogDirectories (fun _ => none) upgradedBlog = .ok state ∧
      ∃ page : List CloudOsAppVersion, model state = some (page.map some) ∧
        page.map CloudOsAppVersion.name = state.appNames.sort (· ≤ ·) ∧
        ∀ e ∈ page, e.installed = true ↔ ∃ a, findInstalledByName upgradedBlog e.name = some a ∧
          firstVersion blogDirectories upgradedBlog e.name = some a.manifest.version := by
  obtain ⟨state, hstate⟩ := exists_state_upgradedBlog
  obtain ⟨page, hpage, hnames, hinstalled⟩ := shown_iff lists_upgradedBlog hstate
  exact ⟨state, hstate, page, hpage, hnames, hinstalled namedByManifests_upgradedBlog⟩

end InstalledappsRoute

end CloudOs

/-
# The repository of the apps

The repository has a directory for every app, with its metadata and a directory for every
version of it that has been downloaded.

| path | what stands there |
| --- | --- |
| `app/metadata.json` | who installed the app, and the version that is active |
| `app/version/cloudos-manifest.json` | the manifest of the version |
| `app/version/chef` | its cookbooks |
| `app/version/chef/data_bags/app/id.json` | its databags: the configuration, the manifest, the ports |

`AppLayout`, `AppManifest`, `AppMetadata`, `AppConfiguration` and `PortsDatabag` are classes of a
library.  A file is here what the library reads from it, and `AppEnv` has the functions of the
library, the systems outside and the steps that fail as parameters.

* `latestVersion` is the latest version that is present; `unversioned` is the version that a
  layout without version stands for.
* `fails step` says whether a step fails.  A write that fails leaves the file as it was, or
  with the content `torn step`.
* `leftover` is what a failed deletion leaves of a directory, and `assetFiles m ok` are the files
  that the download of the assets writes into the version's directory.
-/

import CloudOs.Lib.FileTree
import CloudOs.Model.Requests

namespace CloudOs

/-- `cloudos-manifest.json`. -/
structure AppManifest where
  name : String
  scrubbedName : String
  version : String
  hasConfig : Bool
  interactive : Bool
  normalizedLocalMount : String
  deriving DecidableEq, Repr

/-- `metadata.json`. -/
structure AppMetadata where
  installedBy : Option String := none
  activeVersion : Option String := none
  interactive : Bool := false
  deriving DecidableEq, Repr

/-- The databag of the ports. -/
structure PortsDatabag where
  primary : ℕ
  deriving DecidableEq, Repr

/-- A file, as the library reads it. -/
inductive Content
  | manifest (m : AppManifest)
  | ports (p : PortsDatabag)
  | bytes (b : String)
  deriving DecidableEq, Repr

/-- The file of the metadata. -/
inductive MetadataFile
  | missing
  | unreadable
  | json (m : AppMetadata)
  deriving DecidableEq, Repr

/-- `AppMetadata.fromJson`; a file that is missing or unreadable names nothing. -/
def MetadataFile.fromJson : MetadataFile → AppMetadata
  | .json m => m
  | _ => {}

/-- The metadata could not be read. -/
def MetadataFile.hasError : MetadataFile → Bool
  | .json _ => false
  | _ => true

/-- `AppMetadata.isVersion`. -/
def AppMetadata.isVersion (m : AppMetadata) (v : String) : Bool := m.activeVersion == some v

/-- The directory of an app; a version whose directory is missing holds nothing. -/
structure AppDir where
  metadata : MetadataFile := .missing
  versions : String → FileTree Content := fun _ => .empty

/-- The directories of the apps, by name. -/
abbrev AppRepository := String → AppDir

/-! ### Where things stand -/

namespace AppLayout

/-- `AppManifest.CLOUDOS_MANIFEST`. -/
def cloudosManifest : String := "cloudos-manifest"

/-- `PortsDatabag.ID`. -/
def portsId : String := "ports"

def manifestFile : List String := ["cloudos-manifest.json"]

def chefDir : List String := ["chef"]

def databagsDir : List String := ["chef", "data_bags"]

/-- `getDatabagFile`. -/
def databagFile (app id : String) : List String := databagsDir ++ [app, id ++ ".json"]

theorem databagFile_inj {app id id' : String} :
    databagFile app id = databagFile app id' ↔ id = id' := by
  simp [databagFile]

theorem databagFile_ne_manifestFile (app id : String) : databagFile app id ≠ manifestFile := by
  simp [databagFile, databagsDir, manifestFile]

end AppLayout

/-- `AppManifest.load` on a directory. -/
def AppManifest.load (t : FileTree Content) : Except Exn AppManifest :=
  match t.fileAt AppLayout.manifestFile with
  | some (.manifest m) => .ok m
  | _ => .error (.die "Error loading manifest")

namespace AppRepository

variable (r : AppRepository)

/-- The directory of a version. -/
def version (app v : String) : FileTree Content := (r app).versions v

/-- `getAppActiveVersionDir`: the version that the metadata name. -/
def activeVersion (app : String) : Option String := (r app).metadata.fromJson.activeVersion

/-- The databag of a version. -/
def databag (app v id : String) : Option Content :=
  (r.version app v).fileAt (AppLayout.databagFile app id)

/-- `AppLayout.exists`. -/
def hasVersion (app v : String) : Bool := (r.version app v).hasPath []

/-- Changes the directory of a version. -/
def onVersion (app v : String) (f : FileTree Content → FileTree Content) : AppRepository :=
  Function.update r app
    { r app with versions := Function.update (r app).versions v (f (r.version app v)) }

/-- Writes the metadata of an app. -/
def putMetadata (app : String) (m : MetadataFile) : AppRepository :=
  Function.update r app { r app with metadata := m }

/-- The versions of the apps have the same files. -/
def SameFiles (r s : AppRepository) : Prop :=
  ∀ app v, FileTree.SameFiles (r.version app v) (s.version app v)

/-- The directory of one version is replaced by `t`. -/
structure Leaves (r : AppRepository) (app v : String) (t : FileTree Content) (s : AppRepository) :
    Prop where
  version : s.version app v = t
  others : ∀ b w, (b, w) ≠ (app, v) → s.version b w = r.version b w
  metadata : ∀ b, (s b).metadata = (r b).metadata

@[simp] theorem version_onVersion_self (app v : String) (f : FileTree Content → FileTree Content) :
    (r.onVersion app v f).version app v = f (r.version app v) := by
  rw [version, onVersion, Function.update_self]
  exact Function.update_self _ _ _

theorem version_onVersion_of_ne {app b v w : String} (h : (b, w) ≠ (app, v))
    (f : FileTree Content → FileTree Content) :
    (r.onVersion app v f).version b w = r.version b w := by
  rw [version, onVersion, Function.update_apply]
  split_ifs with hb
  · rw [hb] at h ⊢
    exact Function.update_of_ne (fun hw => h (by rw [hw])) _ _
  · rfl

/-- Two changes of one version are one. -/
theorem onVersion_onVersion (app v : String) (f g : FileTree Content → FileTree Content) :
    (r.onVersion app v f).onVersion app v g = r.onVersion app v fun t => g (f t) := by
  rw [onVersion, version_onVersion_self, onVersion, onVersion, Function.update_idem,
    Function.update_self, Function.update_idem]

/-- A version that stays as it is. -/
theorem onVersion_id (app v : String) : (r.onVersion app v fun t => t) = r := by
  have hversions : Function.update (r app).versions v (r.version app v) = (r app).versions :=
    Function.update_eq_self v _
  rw [onVersion, hversions]
  exact Function.update_eq_self app r

@[simp] theorem metadata_onVersion (app v b : String) (f : FileTree Content → FileTree Content) :
    (r.onVersion app v f b).metadata = (r b).metadata := by
  rw [onVersion, Function.update_apply]
  split_ifs with h
  · rw [h]
  · rfl

@[simp] theorem version_putMetadata (app b v : String) (m : MetadataFile) :
    (r.putMetadata app m).version b v = r.version b v := by
  rw [version, putMetadata, Function.update_apply, version]
  split_ifs with h
  · rw [h]
  · rfl

@[simp] theorem metadata_putMetadata_self (app : String) (m : MetadataFile) :
    (r.putMetadata app m app).metadata = m := by
  rw [putMetadata, Function.update_self]

/-- Metadata that are written as they are. -/
theorem putMetadata_metadata (app : String) : r.putMetadata app (r app).metadata = r :=
  Function.update_eq_self app r

variable {r}

theorem SameFiles.refl (r : AppRepository) : SameFiles r r := fun _ _ => FileTree.SameFiles.refl _

theorem SameFiles.symm {s : AppRepository} (h : SameFiles r s) : SameFiles s r :=
  fun app v => (h app v).symm

theorem SameFiles.trans {s q : AppRepository} (h : SameFiles r s) (h' : SameFiles s q) :
    SameFiles r q := fun app v => (h app v).trans (h' app v)

/-- Databags are files. -/
theorem SameFiles.databag {s : AppRepository} (h : SameFiles r s) (app v id : String) :
    r.databag app v id = s.databag app v id := h app v _

theorem leaves_onVersion (app v : String) (f : FileTree Content → FileTree Content) :
    r.Leaves app v (f (r.version app v)) (r.onVersion app v f) :=
  ⟨r.version_onVersion_self app v f, fun _ _ h => r.version_onVersion_of_ne h f,
    fun b => r.metadata_onVersion app v b f⟩

theorem Leaves.refl (app v : String) : r.Leaves app v (r.version app v) r :=
  ⟨rfl, fun _ _ _ => rfl, fun _ => rfl⟩

theorem Leaves.trans {app v : String} {t u : FileTree Content} {s q : AppRepository}
    (h : r.Leaves app v t s) (h' : s.Leaves app v u q) : r.Leaves app v u q :=
  ⟨h'.version, fun b w hne => (h'.others b w hne).trans (h.others b w hne), fun b =>
    (h'.metadata b).trans (h.metadata b)⟩

/-- What is left is determined. -/
theorem Leaves.unique {app v : String} {t : FileTree Content} {s q : AppRepository}
    (h : r.Leaves app v t s) (h' : r.Leaves app v t q) : s = q := by
  have hversions : ∀ b, (s b).versions = (q b).versions := by
    intro b
    funext w
    by_cases hbw : (b, w) = (app, v)
    · obtain ⟨rfl, rfl⟩ := Prod.mk.inj hbw
      exact h.version.trans h'.version.symm
    · exact (h.others b w hbw).trans (h'.others b w hbw).symm
  funext b
  have hmetadata : (s b).metadata = (q b).metadata := (h.metadata b).trans (h'.metadata b).symm
  have hdir := hversions b
  cases hs : s b
  cases hq : q b
  rw [hs, hq] at hmetadata hdir
  rw [AppDir.mk.injEq]
  exact ⟨hmetadata, hdir⟩

/-- Where one version is replaced, the files are the same when those of the version are. -/
theorem Leaves.sameFiles_iff {app v : String} {t : FileTree Content} {s : AppRepository}
    (h : r.Leaves app v t s) : SameFiles r s ↔ FileTree.SameFiles (r.version app v) t := by
  constructor
  · intro hsame
    exact h.version ▸ hsame app v
  · intro hsame b w
    by_cases hbw : (b, w) = (app, v)
    · obtain ⟨rfl, rfl⟩ := Prod.mk.inj hbw
      rw [h.version]
      exact hsame
    · rw [h.others b w hbw]
      exact FileTree.SameFiles.refl _

end AppRepository

/-! ### The requests and the systems outside -/

structure AppInstallRequest where
  publisher : Option String := none
  name : String
  version : Option String
  force : Bool
  deriving DecidableEq, Repr

/-- The request names a version. -/
def AppInstallRequest.hasVersion (r : AppInstallRequest) : Bool :=
  !empty r.version && r.version != some "null" && r.version != some "latest"

structure AppDownloadRequest where
  token : Option String := none
  url : Option String
  sha : Option String := none
  autoInstall : Bool := true
  overwrite : Bool := true
  deriving DecidableEq, Repr

namespace AppDownloadRequest

def hasSha (r : AppDownloadRequest) : Bool := !empty r.sha

/-- `getDownloadUrl`; `null` is printed. -/
def getDownloadUrl (r : AppDownloadRequest) : String :=
  r.url.getD "null" ++ "?token=" ++ r.token.getD "null"

end AppDownloadRequest

/-- An app that the app store lists. -/
structure AppListing where
  version : String
  bundleUrl : Option String
  bundleUrlSha : Option String

/-- A bundle that is unrolled into a directory: its entries. -/
structure Unrolled where
  entries : List (String × FileTree Content)
  nodup : (entries.map Prod.fst).Nodup

/-- A bundle that is downloaded. -/
structure Tarball where
  content : Content
  sha256 : Except Exn String
  unroll : Except Exn Unrolled

/-- The message that lets chef run the cookbooks of a version. -/
structure ChefMessage where
  app : String
  version : String
  cookbook : String
  forceApply : Bool
  deriving DecidableEq, Repr

/-- The answer of rooty. -/
structure RootyStatus where
  success : Bool
  hasError : Bool
  lastError : Option String

/-- A temporary file of a download. -/
inductive TempFile
  | tarball | tempDir
  deriving DecidableEq, Repr

/-- A step that may fail. -/
inductive AppStep
  | createTempFile
  | cleanup (f : TempFile)
  | mkdirAppDir
  | mkdirVersionDir
  | renameBundle
  | listFiles
  | delete (name : String)
  | rename (name : String)
  | downloadAssets
  | writeConfiguration (id : String)
  | writeManifest
  | writePorts
  | chgrp
  | chmod
  | notifyChef
  | writeMetadata
  deriving DecidableEq, Repr

/-- What a task on the apps cannot change. -/
structure AppEnv where
  AppConfiguration : Type
  latestVersion : AppRepository → String → Option String
  unversioned : AppRepository → String → Option String
  bundleFile : String
  readAppConfiguration : AppManifest → FileTree Content → Except Exn (Option AppConfiguration)
  merge : AppConfiguration → AppConfiguration → AppConfiguration
  databags : AppConfiguration → AppManifest → List (String × Content)
  validate : AppConfiguration → List String
  assetFiles : AppManifest → Bool → List (List String × Content)
  withAssets : AppManifest → AppManifest
  findAppListing : Option String → String → Option String → Except Exn (Option AppListing)
  download : String → Except Exn Tarball
  completes : Bool
  pick : PortsDatabag
  rootyGroup : Option String
  uuid : String
  request : ChefMessage → RootyStatus
  fails : AppStep → Bool
  torn : AppStep → Option Content
  tornMetadata : Option MetadataFile
  leftover : FileTree Content → FileTree Content

/-- A system without failures, where the apps have no configuration and the latest version of
every app is `1.0.0`. -/
def AppEnv.mock : AppEnv where
  AppConfiguration := List (String × Content)
  latestVersion := fun r app => if r.hasVersion app "1.0.0" then some "1.0.0" else none
  unversioned := fun r app => if r.hasVersion app "1.0.0" then some "1.0.0" else none
  bundleFile := "bundle.tar.gz"
  readAppConfiguration := fun _ _ => .ok (some [])
  merge := fun config current => config ++ current
  databags := fun config _ => config
  validate := fun _ => []
  assetFiles := fun _ _ => []
  withAssets := id
  findAppListing := fun _ _ _ => .ok none
  download := fun _ => .error (.die "404")
  completes := true
  pick := ⟨8080⟩
  rootyGroup := some "rooty"
  uuid := "uuid"
  request := fun _ => ⟨true, false, none⟩
  fails := fun _ => false
  torn := fun _ => none
  tornMetadata := none
  leftover := id

/-- What a task reports. -/
structure TaskResult where
  description : Option String := none
  events : List String := []
  error : Option String := none
  success : Bool := false
  returnValue : Option AppManifest := none
  rootyUuid : Option String := none

/-- What a task on the apps can change. -/
structure AppServer where
  repository : AppRepository
  temps : List TempFile := []
  messages : List ChefMessage := []
  resets : ℕ := 0
  task : TaskResult := {}

/-- How a task ends without a result: it returns `null` after an error, or throws. -/
inductive Exit
  | null
  | threw (x : Exn)

end CloudOs

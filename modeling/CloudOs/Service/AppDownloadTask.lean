/-
# `AppDownloadTask`

The task downloads a bundle, unrolls it into a temporary directory, and moves it into the
directory of its version: the bundle itself first, and then what stands in the temporary
directory, entry by entry.

| part | what it does |
| --- | --- |
| `fetch` | downloads, checks the SHA, unrolls, reads the manifest |
| `makeRoom` | makes the directories and moves the bundle |
| `moveEntries` | moves the entries |
| `downloadAssets` | writes the files of the assets |

Every part reports an error and removes the temporary files when it fails.  What has been
moved stays where it is.
-/

import CloudOs.Service.CloudOsTaskBase
import Mathlib.Data.List.Find

namespace CloudOs

open Prog AppTask

namespace AppDownloadTask

variable (env : AppEnv) {α : Type}

/-- `cleanup`: removes temporary files; one that cannot be removed is logged.  It returns
`null`. -/
def cleanup (files : List TempFile) : AppTask α := do
  modify fun s => { s with temps := s.temps.filter fun f => f ∉ files || env.fails (.cleanup f) }
  throw .null

/-- `error`, and `return cleanup`. -/
def abort (key : String) (files : List TempFile) : AppTask α := do
  error key
  cleanup env files

/-- The suffix of the temporary file is what follows the last dot of the URL. -/
def checkUrl : Option String → Except Exn Unit
  | none => .error .nullPointer
  | some url =>
    if url.toList.contains '.' then .ok () else .error (.die "String index out of range: -1")

def downloadTarball (request : AppDownloadRequest) : AppTask Tarball := do
  addEvent "{appDownload.downloadingTarball}"
  orThrow (checkUrl request.url)
  if env.fails .createTempFile then abort env "{appDownload.error.downloadingTarball}" []
  else do
    modify fun s => { s with temps := .tarball :: s.temps }
    match env.download request.getDownloadUrl with
    | .ok tarball => return tarball
    | .error _ => abort env "{appDownload.error.downloadingTarball}" [.tarball]

def checkSha (request : AppDownloadRequest) (tarball : Tarball) : AppTask PUnit := do
  if request.hasSha then do
    let sha ← orThrow tarball.sha256
    if request.sha != some sha then abort env "{appDownload.error.shaCheckFailed}" [.tarball]
    else return ⟨⟩
  else return ⟨⟩

def unroll (tarball : Tarball) : AppTask Unrolled := do
  addEvent "{appDownload.unpackingTarball}"
  match tarball.unroll with
  | .ok unrolled => do
    modify fun s => { s with temps := .tempDir :: s.temps }
    return unrolled
  | .error _ => abort env "{appDownload.error.unpackingTarball}" [.tarball]

def readManifest (unrolled : Unrolled) : AppTask AppManifest := do
  addEvent "{appDownload.readingManifest}"
  match AppManifest.load (.ofEntries unrolled.entries) with
  | .ok manifest => return manifest
  | .error _ => abort env "{appDownload.error.readingManifest}" [.tarball, .tempDir]

/-- What `fetch` brings. -/
structure Bundle where
  tarball : Tarball
  unrolled : Unrolled
  manifest : AppManifest

/-- Downloads the bundle and reads its manifest. -/
def fetch (request : AppDownloadRequest) : AppTask Bundle := do
  description "{appDownload.starting}"
  let tarball ← downloadTarball env request
  checkSha env request tarball
  let unrolled ← unroll env tarball
  let manifest ← readManifest env unrolled
  return ⟨tarball, unrolled, manifest⟩

/-- Changes the directory of the version that a manifest names. -/
def onVersionDir (manifest : AppManifest) (f : FileTree Content → FileTree Content) : AppTask PUnit :=
  modify fun s => { s with
    repository := s.repository.onVersion manifest.scrubbedName manifest.version f }

/-- The directory of the version that a manifest names. -/
def versionDir (manifest : AppManifest) : AppTask (FileTree Content) := do
  let s ← get
  return s.repository.version manifest.scrubbedName manifest.version

/-- `ensureDirExists` on the directory of a version. -/
def ensureDir (t : FileTree Content) : FileTree Content
  | [] => (t []).or (some .dir)
  | p => t p

/-- Makes the directories and moves the bundle. -/
def makeRoom (request : AppDownloadRequest) (manifest : AppManifest) (tarball : Tarball) :
    AppTask PUnit := do
  if env.fails .mkdirAppDir then
    abort env "{appDownload.error.mkdir.appDir}" [.tarball, .tempDir]
  else if env.fails .mkdirVersionDir then
    abort env "{appDownload.error.mkdir.appVersionDir}" [.tarball, .tempDir]
  else do
    onVersionDir manifest ensureDir
    let dir ← versionDir manifest
    if dir.hasPath [env.bundleFile] && !request.overwrite then
      abort env "{appDownload.error.alreadyExists}" [.tarball, .tempDir]
    else if env.fails .renameBundle then
      abort env "{appDownload.error.renaming.bundle}" [.tarball, .tempDir]
    else do
      modify fun s => { s with temps := s.temps.erase .tarball }
      onVersionDir manifest fun t => t.graft env.bundleFile (.single tarball.content)

/-- Removes what stands in the way of an entry. -/
def clear (request : AppDownloadRequest) (manifest : AppManifest) (name : String) : AppTask PUnit := do
  let dir ← versionDir manifest
  if !dir.hasPath [name] then return ⟨⟩
  else if !request.overwrite then
    abort env "{appDownload.error.alreadyExists}" [.tarball, .tempDir]
  else if env.fails (.delete name) then
    if dir.isDirectory [name] then do
      -- `deleteQuietly` may have removed a part of the directory
      onVersionDir manifest fun t => t.graft name (env.leftover (t.below [name]))
      abort env "{appDownload.error.deleting}" [.tarball, .tempDir]
    else abort env "{appDownload.error.overwriting}" [.tarball, .tempDir]
  else onVersionDir manifest fun t => t.graft name .empty

/-- Moves one entry of the temporary directory. -/
def moveEntry (request : AppDownloadRequest) (manifest : AppManifest)
    (entry : String × FileTree Content) : AppTask PUnit := do
  clear env request manifest entry.1
  if env.fails (.rename entry.1) then
    abort env "{appDownload.error.renaming.contents}" [.tarball, .tempDir]
  else onVersionDir manifest fun t => t.graft entry.1 entry.2

/-- Moves the entries. -/
def moveEntries (request : AppDownloadRequest) (manifest : AppManifest) (unrolled : Unrolled) :
    AppTask PUnit := do
  if env.fails .listFiles then abort env "{appDownload.error.noFiles}" [.tarball, .tempDir]
  else unrolled.entries.forM (moveEntry env request manifest)

/-- `AppMutableData.downloadAssetsAndUpdateManifest`. -/
def downloadAssets (manifest : AppManifest) : AppTask AppManifest := do
  onVersionDir manifest fun t => t.writeAll (env.assetFiles manifest (!env.fails .downloadAssets))
  if env.fails .downloadAssets then
    abort env "{appDownload.error.downloadingAssets}" [.tarball, .tempDir]
  else return env.withAssets manifest

/-- Puts the bundle into the repository. -/
def add (request : AppDownloadRequest) : AppTask AppManifest := do
  let bundle ← fetch env request
  makeRoom env request bundle.manifest bundle.tarball
  moveEntries env request bundle.manifest bundle.unrolled
  downloadAssets env bundle.manifest

/-- `execute`; `install` is the task that installs the app. -/
def execute (install : AppInstallRequest → AppTask TaskResult) (request : AppDownloadRequest) :
    AppTask TaskResult := do
  let manifest ← add env request
  if request.autoInstall && !manifest.hasConfig then
    install ⟨none, manifest.name, some manifest.version, request.overwrite⟩
  else do
    report fun r => { r with returnValue := some manifest, success := true }
    return (← get).task

/-! ### How the parts end -/

variable {env} {s : AppServer}

/-- An error leaves the repository alone. -/
theorem abort_ends (key : String) (files : List TempFile) :
    Ends (abort env key files : AppTask α) s fun r t =>
      (∃ e, r = .error e) ∧ t.repository = s.repository := ⟨⟨_, rfl⟩, rfl⟩

theorem abort_yields (key : String) (files : List TempFile) :
    Yields s (fun _ : α => False) (abort env key files) :=
  ⟨rfl, fun _ => ⟨fun h => of_error_eq_ok h, False.elim⟩⟩

/-- `fetch` brings the bundle. -/
structure Brings (env : AppEnv) (request : AppDownloadRequest) (b : Bundle) : Prop where
  url : checkUrl request.url = .ok ()
  createTempFile : env.fails .createTempFile = false
  download : env.download request.getDownloadUrl = .ok b.tarball
  sha : request.hasSha = true → ∃ sha, b.tarball.sha256 = .ok sha ∧ request.sha = some sha
  unroll : b.tarball.unroll = .ok b.unrolled
  manifest : AppManifest.load (.ofEntries b.unrolled.entries) = .ok b.manifest

theorem downloadTarball_yields (request : AppDownloadRequest) :
    Yields s (fun tarball => checkUrl request.url = .ok () ∧ env.fails .createTempFile = false ∧
      env.download request.getDownloadUrl = .ok tarball) (downloadTarball env request) := by
  refine Yields.modify_bind (fun _ => rfl) fun t => ?_
  refine ((Yields.orThrow _).bind (R := fun _ tarball => env.fails .createTempFile = false ∧
    env.download request.getDownloadUrl = .ok tarball) fun _ _ t => ?_).congr fun tarball =>
      ⟨fun ⟨_, h⟩ => h, fun h => ⟨_, h⟩⟩
  split_ifs with htemp
  · exact (abort_yields _ _).congr fun tarball => by simp [htemp]
  · refine Yields.modify_bind (fun _ => rfl) fun t => ?_
    cases hdownload : env.download request.getDownloadUrl with
    | ok tarball => exact (Yields.pure tarball).congr fun tarball' => by simp [htemp]
    | error x => exact (abort_yields _ _).congr fun tarball => by simp

theorem checkSha_yields (request : AppDownloadRequest) (tarball : Tarball) :
    Yields s (fun _ => request.hasSha = true → ∃ sha, tarball.sha256 = .ok sha ∧
      request.sha = some sha) (checkSha env request tarball) := by
  unfold checkSha
  split_ifs with hsha
  · refine ((Yields.orThrow _).bind (R := fun sha _ => request.sha = some sha)
      fun sha _ t => ?_).congr fun _ => ⟨fun h _ => h, fun h => h hsha⟩
    split_ifs with hne
    · exact (abort_yields _ _).congr fun _ => by simpa using hne
    · exact (Yields.pure _).congr fun _ => by simpa using hne
  · exact (Yields.pure _).congr fun _ => by simp [hsha]

theorem unroll_yields (tarball : Tarball) :
    Yields s (tarball.unroll = .ok ·) (unroll env tarball) := by
  refine Yields.modify_bind (fun _ => rfl) fun t => ?_
  cases hunroll : tarball.unroll with
  | ok unrolled =>
    refine Yields.modify_bind (fun _ => rfl) fun t => ?_
    exact (Yields.pure unrolled).congr fun _ => by simp
  | error x => exact (abort_yields _ _).congr fun _ => by simp

theorem readManifest_yields (unrolled : Unrolled) :
    Yields s (AppManifest.load (.ofEntries unrolled.entries) = .ok ·) (readManifest env unrolled) := by
  refine Yields.modify_bind (fun _ => rfl) fun t => ?_
  cases hload : AppManifest.load (.ofEntries unrolled.entries) with
  | ok manifest => exact (Yields.pure manifest).congr fun _ => by simp
  | error x => exact (abort_yields _ _).congr fun _ => by simp

/-- **How `fetch` ends**: it leaves the repository alone. -/
theorem fetch_yields (request : AppDownloadRequest) :
    Yields s (Brings env request) (fetch env request) := by
  refine Yields.modify_bind (fun _ => rfl) fun t => ?_
  refine ((downloadTarball_yields request).bind fun tarball _ t =>
    (checkSha_yields request tarball).bind fun _ _ t =>
      (unroll_yields tarball).bind fun unrolled _ t =>
        (readManifest_yields unrolled).bind fun manifest _ t => Yields.pure _).congr fun b => ?_
  constructor
  · rintro ⟨tarball, ⟨hurl, htemp, hdownload⟩, -, hsha, unrolled, hunroll, manifest, hload, rfl⟩
    exact ⟨hurl, htemp, hdownload, hsha, hunroll, hload⟩
  · intro h
    exact ⟨b.tarball, ⟨h.url, h.createTempFile, h.download⟩, ⟨⟩, h.sha, b.unrolled, h.unroll,
      b.manifest, h.manifest, rfl⟩

/-! ### What stands in the directory of the version -/

/-- The directory of the version that a manifest names. -/
abbrev dirOf (r : AppRepository) (manifest : AppManifest) : FileTree Content :=
  r.version manifest.scrubbedName manifest.version

/-- The directory of the version that a manifest names is replaced by `t`. -/
abbrev Replaces (r : AppRepository) (manifest : AppManifest) (t : FileTree Content)
    (r' : AppRepository) : Prop :=
  r.Leaves manifest.scrubbedName manifest.version t r'

theorem replaces_onVersion (r : AppRepository) (manifest : AppManifest)
    (f : FileTree Content → FileTree Content) : Replaces r manifest (f (dirOf r manifest))
      (r.onVersion manifest.scrubbedName manifest.version f) :=
  AppRepository.leaves_onVersion _ _ f

/-- The bundle can be moved. -/
structure MakesRoom (env : AppEnv) (request : AppDownloadRequest) (b : Bundle) (r : AppRepository) :
    Prop where
  mkdirAppDir : env.fails .mkdirAppDir = false
  mkdirVersionDir : env.fails .mkdirVersionDir = false
  overwrite : (ensureDir (dirOf r b.manifest)).hasPath [env.bundleFile] = true →
    request.overwrite = true
  renameBundle : env.fails .renameBundle = false

/-- The directory of the version with the bundle in it. -/
def withBundle (env : AppEnv) (tarball : Tarball) (t : FileTree Content) : FileTree Content :=
  (ensureDir t).graft env.bundleFile (.single tarball.content)

theorem sameFiles_ensureDir (t : FileTree Content) : FileTree.SameFiles t (ensureDir t) := by
  rintro (_ | ⟨n, p⟩)
  · simp only [FileTree.fileAt, ensureDir]
    cases t [] <;> rfl
  · rfl

/-- **How `makeRoom` ends**: the bundle is moved, or the files are as they were. -/
theorem makeRoom_ends (request : AppDownloadRequest) (b : Bundle) :
    Ends (makeRoom env request b.manifest b.tarball) s fun r t =>
      (r = .ok ⟨⟩ ∧ MakesRoom env request b s.repository ∧ Replaces s.repository b.manifest
        (withBundle env b.tarball (dirOf s.repository b.manifest)) t.repository) ∨
      ((∃ e, r = .error e) ∧ ¬ MakesRoom env request b s.repository ∧ ∃ d,
        FileTree.SameFiles (dirOf s.repository b.manifest) d ∧
          Replaces s.repository b.manifest d t.repository) := by
  unfold makeRoom
  by_cases happ : env.fails .mkdirAppDir = true
  · rw [if_pos happ]
    refine (abort_ends _ _).mono fun r t ht => Or.inr ⟨ht.1, fun h => ?_, _, .refl _, ?_⟩
    · exact Bool.noConfusion (h.mkdirAppDir.symm.trans happ)
    · exact ht.2 ▸ .refl _ _
  rw [if_neg happ]
  by_cases hversion : env.fails .mkdirVersionDir = true
  · rw [if_pos hversion]
    refine (abort_ends _ _).mono fun r t ht => Or.inr ⟨ht.1, fun h => ?_, _, .refl _, ?_⟩
    · exact Bool.noConfusion (h.mkdirVersionDir.symm.trans hversion)
    · exact ht.2 ▸ .refl _ _
  rw [if_neg hversion]
  have hdirs := replaces_onVersion s.repository b.manifest ensureDir
  simp only [onVersionDir, versionDir, ends_bind, ends_modify, ends_get, ends_pure]
  rw [hdirs.version]
  split_ifs with hthere hrename
  · refine (abort_ends _ _).mono fun r t ht => Or.inr ⟨ht.1, fun h => ?_, _,
      sameFiles_ensureDir _, ht.2 ▸ hdirs⟩
    rw [Bool.and_eq_true] at hthere
    simp [h.overwrite hthere.1] at hthere
  · refine (abort_ends _ _).mono fun r t ht => Or.inr ⟨ht.1, fun h => ?_, _,
      sameFiles_ensureDir _, ht.2 ▸ hdirs⟩
    exact Bool.noConfusion (h.renameBundle.symm.trans hrename)
  · rw [ends_bind, ends_modify, ends_modify]
    refine Or.inl ⟨rfl, ⟨Bool.eq_false_iff.2 happ, Bool.eq_false_iff.2 hversion, fun hpath => ?_,
      Bool.eq_false_iff.2 hrename⟩, hdirs.trans ?_⟩
    · simpa [hpath] using hthere
    · rw [withBundle, ← hdirs.version]
      exact replaces_onVersion _ _ fun t => t.graft env.bundleFile (.single b.tarball.content)

/-- What stands under the name cannot be removed. -/
def standsInWay (env : AppEnv) (overwrite : Bool) (t : FileTree Content) (name : String) : Bool :=
  t.hasPath [name] && (!overwrite || env.fails (.delete name))

/-- The entry of this name cannot be moved. -/
def blocks (env : AppEnv) (overwrite : Bool) (t : FileTree Content) (name : String) : Bool :=
  standsInWay env overwrite t name || env.fails (.rename name)

/-- What is left under the name of an entry before the entry is moved. -/
def remains (env : AppEnv) (overwrite : Bool) (t : FileTree Content) (name : String) :
    FileTree Content :=
  if !t.hasPath [name] || !overwrite then t.below [name]
  else if env.fails (.delete name) then
    if t.isDirectory [name] then env.leftover (t.below [name]) else t.below [name]
  else .empty

theorem clear_ends (request : AppDownloadRequest) (manifest : AppManifest) (name : String) :
    Ends (clear env request manifest name) s fun r t =>
      ((r = .ok ⟨⟩ ∧ standsInWay env request.overwrite (dirOf s.repository manifest) name = false) ∨
        ((∃ e, r = .error e) ∧
          standsInWay env request.overwrite (dirOf s.repository manifest) name = true)) ∧
      Replaces s.repository manifest ((dirOf s.repository manifest).graft name
        (remains env request.overwrite (dirOf s.repository manifest) name)) t.repository := by
  have hback : Replaces s.repository manifest ((dirOf s.repository manifest).graft name
      ((dirOf s.repository manifest).below [name])) s.repository := by
    rw [FileTree.graft_below]
    exact .refl _ _
  simp only [clear, versionDir, ends_bind, ends_get, ends_pure]
  by_cases hthere : (dirOf s.repository manifest).hasPath [name] = true
  swap
  · rw [if_pos (by simpa using hthere), ends_pure]
    rw [Bool.not_eq_true] at hthere
    refine ⟨Or.inl ⟨rfl, by simp [standsInWay, hthere]⟩, ?_⟩
    simpa [remains, hthere] using hback
  rw [if_neg (by simpa using hthere)]
  by_cases hoverwrite : request.overwrite = true
  swap
  · rw [if_pos (by simpa using hoverwrite)]
    rw [Bool.not_eq_true] at hoverwrite
    refine (abort_ends _ _).mono fun r t ht => ?_
    refine ⟨Or.inr ⟨ht.1, by simp [standsInWay, hthere, hoverwrite]⟩, ?_⟩
    simpa [remains, hoverwrite, ht.2] using hback
  rw [if_neg (by simpa using hoverwrite)]
  by_cases hdelete : env.fails (.delete name) = true
  swap
  · rw [if_neg hdelete, onVersionDir, ends_modify]
    rw [Bool.not_eq_true] at hdelete
    refine ⟨Or.inl ⟨rfl, by simp [standsInWay, hdelete, hoverwrite]⟩, ?_⟩
    simpa [remains, hthere, hoverwrite, hdelete] using
      replaces_onVersion s.repository manifest fun t => t.graft name .empty
  rw [if_pos hdelete]
  have hblocked : standsInWay env request.overwrite (dirOf s.repository manifest) name = true := by
    simp [standsInWay, hthere, hdelete]
  by_cases hdir : (dirOf s.repository manifest).isDirectory [name] = true
  · rw [if_pos hdir, ends_bind, onVersionDir, ends_modify]
    refine (abort_ends _ _).mono fun r t ht => ⟨Or.inr ⟨ht.1, hblocked⟩, ?_⟩
    simpa [remains, hthere, hoverwrite, hdelete, hdir, ht.2] using
      replaces_onVersion s.repository manifest fun t => t.graft name (env.leftover (t.below [name]))
  · rw [if_neg hdir]
    refine (abort_ends _ _).mono fun r t ht => ⟨Or.inr ⟨ht.1, hblocked⟩, ?_⟩
    simpa [remains, hthere, hoverwrite, hdelete, hdir, ht.2] using hback

/-- **How one entry is moved.** -/
theorem moveEntry_ends (request : AppDownloadRequest) (manifest : AppManifest)
    (entry : String × FileTree Content) :
    Ends (moveEntry env request manifest entry) s fun r t =>
      (r = .ok ⟨⟩ ∧ blocks env request.overwrite (dirOf s.repository manifest) entry.1 = false ∧
        Replaces s.repository manifest ((dirOf s.repository manifest).graft entry.1 entry.2)
          t.repository) ∨
      ((∃ e, r = .error e) ∧
        blocks env request.overwrite (dirOf s.repository manifest) entry.1 = true ∧
        Replaces s.repository manifest ((dirOf s.repository manifest).graft entry.1
          (remains env request.overwrite (dirOf s.repository manifest) entry.1)) t.repository) := by
  rw [moveEntry, ends_bind]
  refine (clear_ends request manifest entry.1).mono fun r t ht => ?_
  obtain ⟨⟨rfl, hclear⟩ | ⟨⟨e, rfl⟩, hstands⟩, hleaves⟩ := ht
  · dsimp only
    split_ifs with hrename
    · refine (abort_ends _ _).mono fun r u hu => Or.inr ⟨hu.1, ?_, hu.2 ▸ hleaves⟩
      rw [blocks, hrename, Bool.or_true]
    · refine Or.inl ⟨rfl, ?_, ?_⟩
      · rw [blocks, hclear, Bool.false_or, Bool.eq_false_iff.2 hrename]
      · have hgraft := replaces_onVersion t.repository manifest fun t => t.graft entry.1 entry.2
        rw [dirOf, hleaves.version, FileTree.graft_graft] at hgraft
        exact hleaves.trans hgraft
  · exact Or.inr ⟨⟨e, rfl⟩, by rw [blocks, hstands, Bool.true_or], hleaves⟩

/-- The entries that are moved: those before the first one that is blocked. -/
def moving (env : AppEnv) (overwrite : Bool) (t : FileTree Content)
    (entries : List (String × FileTree Content)) : List (String × FileTree Content) :=
  entries.takeWhile fun e => !blocks env overwrite t e.1

/-- The entry that stops the task. -/
def stuck (env : AppEnv) (overwrite : Bool) (t : FileTree Content)
    (entries : List (String × FileTree Content)) : Option (String × FileTree Content) :=
  entries.find? fun e => blocks env overwrite t e.1

/-- The directory with the entries that are moved, and with what is left under the name of the
one that stops the task. -/
def placed (env : AppEnv) (overwrite : Bool) (t : FileTree Content)
    (entries : List (String × FileTree Content)) : FileTree Content :=
  let moved := (moving env overwrite t entries).foldl (fun t e => t.graft e.1 e.2) t
  match stuck env overwrite t entries with
  | none => moved
  | some e => moved.graft e.1 (remains env overwrite t e.1)

theorem blocks_graft (overwrite : Bool) (t : FileTree Content) {m n : String} (h : m ≠ n)
    (d : FileTree Content) : blocks env overwrite (t.graft n d) m = blocks env overwrite t m := by
  simp only [blocks, standsInWay, t.hasPath_graft_of_ne h]

theorem remains_graft (overwrite : Bool) (t : FileTree Content) {m n : String} (h : m ≠ n)
    (d : FileTree Content) : remains env overwrite (t.graft n d) m = remains env overwrite t m := by
  simp only [remains, t.hasPath_graft_of_ne h, t.isDirectory_graft_of_ne h, t.below_graft_of_ne h]

/-- An entry of another name has no part in which entries are moved. -/
theorem moving_graft (overwrite : Bool) (t : FileTree Content) (n : String) (d : FileTree Content) :
    ∀ {entries : List (String × FileTree Content)}, (∀ e ∈ entries, e.1 ≠ n) →
      moving env overwrite (t.graft n d) entries = moving env overwrite t entries
  | [], _ => rfl
  | e :: es, h => by
    have hes := moving_graft overwrite t n d fun e he => h e (List.mem_cons_of_mem _ he)
    rw [moving] at hes ⊢
    rw [List.takeWhile_cons, hes, blocks_graft overwrite t (h e List.mem_cons_self), moving, moving,
      List.takeWhile_cons]

theorem stuck_graft (overwrite : Bool) (t : FileTree Content) (n : String) (d : FileTree Content)
    {entries : List (String × FileTree Content)} (h : ∀ e ∈ entries, e.1 ≠ n) :
    stuck env overwrite (t.graft n d) entries = stuck env overwrite t entries :=
  List.find?_congr fun e he => blocks_graft overwrite t (h e he) d

theorem placed_cons_of_blocks {overwrite : Bool} {t : FileTree Content}
    {e : String × FileTree Content} (h : blocks env overwrite t e.1 = true)
    (es : List (String × FileTree Content)) : stuck env overwrite t (e :: es) = some e ∧
      placed env overwrite t (e :: es) = t.graft e.1 (remains env overwrite t e.1) := by
  have hstuck : stuck env overwrite t (e :: es) = some e := List.find?_cons_of_pos h
  have hmoving : moving env overwrite t (e :: es) = [] := by
    rw [moving, List.takeWhile_cons_of_neg (by simp [h])]
  exact ⟨hstuck, by rw [placed, hstuck, hmoving]; rfl⟩

theorem placed_cons_of_not_blocks {overwrite : Bool} {t : FileTree Content}
    {e : String × FileTree Content} (h : blocks env overwrite t e.1 = false)
    {es : List (String × FileTree Content)} (hes : ∀ x ∈ es, x.1 ≠ e.1) :
    stuck env overwrite t (e :: es) = stuck env overwrite (t.graft e.1 e.2) es ∧
      placed env overwrite t (e :: es) = placed env overwrite (t.graft e.1 e.2) es := by
  have hstuck : stuck env overwrite t (e :: es) = stuck env overwrite t es :=
    List.find?_cons_of_neg (by simp [h])
  have hmoving : moving env overwrite t (e :: es) = e :: moving env overwrite t es :=
    List.takeWhile_cons_of_pos (by simp [h])
  rw [stuck_graft overwrite t e.1 e.2 hes]
  refine ⟨hstuck, ?_⟩
  simp only [placed, hstuck, hmoving, List.foldl_cons, moving_graft overwrite t e.1 e.2 hes,
    stuck_graft overwrite t e.1 e.2 hes]
  cases hfind : stuck env overwrite t es with
  | none => rfl
  | some x =>
    have hx : x ∈ es := List.mem_of_find?_eq_some hfind
    dsimp only
    rw [remains_graft overwrite t (hes x hx)]

/-- **How the entries are moved.** -/
theorem forM_moveEntry_ends (request : AppDownloadRequest) (manifest : AppManifest) :
    ∀ (entries : List (String × FileTree Content)), (entries.map Prod.fst).Nodup →
      ∀ s, Ends (entries.forM (moveEntry env request manifest)) s fun r t =>
        (r = .ok ⟨⟩ ↔ stuck env request.overwrite (dirOf s.repository manifest) entries = none) ∧
        Replaces s.repository manifest
          (placed env request.overwrite (dirOf s.repository manifest) entries) t.repository
  | [], _, s => ⟨iff_of_true rfl rfl, .refl _ _⟩
  | e :: es, hnodup, s => by
    obtain ⟨hnot, hnodup⟩ := List.nodup_cons.1 hnodup
    have hes : ∀ x ∈ es, x.1 ≠ e.1 := fun x hx hxe => hnot (List.mem_map.2 ⟨x, hx, hxe⟩)
    change Ends (moveEntry env request manifest e >>= fun _ =>
      es.forM (moveEntry env request manifest)) s _
    rw [ends_bind]
    refine (moveEntry_ends request manifest e).mono fun r t ht => ?_
    rcases ht with ⟨rfl, hblocks, hleaves⟩ | ⟨⟨x, rfl⟩, hblocks, hleaves⟩
    · obtain ⟨hstuck, hplaced⟩ := placed_cons_of_not_blocks hblocks hes
      rw [hstuck, hplaced, ← hleaves.version]
      refine (forM_moveEntry_ends request manifest es hnodup t).mono fun r u hu => ?_
      exact ⟨hu.1, hleaves.trans hu.2⟩
    · obtain ⟨hstuck, hplaced⟩ := placed_cons_of_blocks hblocks es
      rw [hstuck, hplaced]
      exact ⟨iff_of_false (fun h => of_error_eq_ok h) (Option.some_ne_none _), hleaves⟩

theorem moveEntries_ends (request : AppDownloadRequest) (manifest : AppManifest)
    (unrolled : Unrolled) : Ends (moveEntries env request manifest unrolled) s fun r t =>
      (r = .ok ⟨⟩ ↔ env.fails .listFiles = false ∧
        stuck env request.overwrite (dirOf s.repository manifest) unrolled.entries = none) ∧
      Replaces s.repository manifest (if env.fails .listFiles then dirOf s.repository manifest
        else placed env request.overwrite (dirOf s.repository manifest) unrolled.entries)
          t.repository := by
  unfold moveEntries
  by_cases hlist : env.fails .listFiles = true
  · rw [if_pos hlist, if_pos hlist]
    refine (abort_ends _ _).mono fun r t ht => ⟨?_, ht.2 ▸ .refl _ _⟩
    obtain ⟨⟨e, rfl⟩, -⟩ := ht
    exact iff_of_false (fun h => of_error_eq_ok h) fun h => by simp [hlist] at h
  · rw [if_neg hlist, if_neg hlist]
    refine (forM_moveEntry_ends request manifest _ unrolled.nodup s).mono fun r t ht => ?_
    exact ⟨by rw [ht.1, Bool.eq_false_iff.2 hlist]; simp, ht.2⟩

theorem downloadAssets_ends (manifest : AppManifest) : Ends (downloadAssets env manifest) s
    fun r t => ((∃ m, r = .ok m) ↔ env.fails .downloadAssets = false) ∧
      Replaces s.repository manifest ((dirOf s.repository manifest).writeAll
        (env.assetFiles manifest (!env.fails .downloadAssets))) t.repository := by
  rw [downloadAssets, ends_bind, onVersionDir, ends_modify]
  have hwritten := replaces_onVersion s.repository manifest fun t =>
    t.writeAll (env.assetFiles manifest (!env.fails .downloadAssets))
  dsimp only
  split_ifs with hfails
  · refine (abort_ends _ _).mono fun r t ht => ⟨?_, ht.2 ▸ hwritten⟩
    obtain ⟨⟨e, rfl⟩, -⟩ := ht
    rw [hfails]
    refine iff_of_false ?_ (Bool.noConfusion ·)
    rintro ⟨m, hm⟩
    exact of_error_eq_ok hm
  · exact ⟨iff_of_true ⟨_, rfl⟩ (Bool.eq_false_iff.2 hfails), hwritten⟩

/-! ### The whole download -/

/-- What the directory of the version holds when the task stops, the bundle having been moved. -/
def leftBy (env : AppEnv) (request : AppDownloadRequest) (b : Bundle) (t : FileTree Content) :
    FileTree Content :=
  let bundled := withBundle env b.tarball t
  if env.fails .listFiles then bundled
  else if (stuck env request.overwrite bundled b.unrolled.entries).isSome then
    placed env request.overwrite bundled b.unrolled.entries
  else (placed env request.overwrite bundled b.unrolled.entries).writeAll
    (env.assetFiles b.manifest (!env.fails .downloadAssets))

/-- No part of the task fails. -/
def Completes (env : AppEnv) (request : AppDownloadRequest) (r : AppRepository) : Prop :=
  ∃ b, Brings env request b ∧ MakesRoom env request b r ∧ env.fails .listFiles = false ∧
    stuck env request.overwrite (withBundle env b.tarball (dirOf r b.manifest))
      b.unrolled.entries = none ∧ env.fails .downloadAssets = false

/-- A bundle that is fetched is the only one. -/
theorem Brings.unique {request : AppDownloadRequest} {b c : Bundle} (hb : Brings env request b)
    (hc : Brings env request c) : b = c := by
  obtain ⟨tarball, unrolled, manifest⟩ := b
  obtain ⟨tarball', unrolled', manifest'⟩ := c
  obtain rfl : tarball = tarball' := Except.ok.inj (hb.download.symm.trans hc.download)
  obtain rfl : unrolled = unrolled' := Except.ok.inj (hb.unroll.symm.trans hc.unroll)
  obtain rfl : manifest = manifest' := Except.ok.inj (hb.manifest.symm.trans hc.manifest)
  rfl

/-- **How the bundle is put in place**, once there is room for it. -/
theorem place_ends (request : AppDownloadRequest) (b : Bundle) :
    Ends (moveEntries env request b.manifest b.unrolled >>= fun _ => downloadAssets env b.manifest) s
      fun r t => ((∃ m, r = .ok m) ↔ env.fails .listFiles = false ∧
          stuck env request.overwrite (dirOf s.repository b.manifest) b.unrolled.entries = none ∧
            env.fails .downloadAssets = false) ∧
        Replaces s.repository b.manifest (if env.fails .listFiles then dirOf s.repository b.manifest
          else if (stuck env request.overwrite (dirOf s.repository b.manifest)
            b.unrolled.entries).isSome then
              placed env request.overwrite (dirOf s.repository b.manifest) b.unrolled.entries
          else (placed env request.overwrite (dirOf s.repository b.manifest)
            b.unrolled.entries).writeAll (env.assetFiles b.manifest (!env.fails .downloadAssets)))
              t.repository := by
  rw [ends_bind]
  refine (moveEntries_ends request b.manifest b.unrolled).mono fun r u hu => ?_
  obtain ⟨hmoves, hmoved⟩ := hu
  cases r with
  | error e =>
    have hstops := mt hmoves.2 fun h => of_error_eq_ok h
    refine ⟨iff_of_false ?_ fun h => hstops ⟨h.1, h.2.1⟩, ?_⟩
    · rintro ⟨m, hm⟩
      exact of_error_eq_ok hm
    · split_ifs at hmoved ⊢ with hlist hstuck
      · exact hmoved
      · exact hmoved
      · exact absurd ⟨Bool.eq_false_iff.2 hlist, Option.not_isSome_iff_eq_none.1 hstuck⟩ hstops
  | ok _ =>
    obtain ⟨hlist, hstuck⟩ := hmoves.1 rfl
    refine (downloadAssets_ends b.manifest).mono fun r t ht => ⟨?_, ?_⟩
    · rw [ht.1, and_iff_right hlist, and_iff_right hstuck]
    · have hassets := ht.2
      rw [dirOf, hmoved.version] at hassets
      rw [hlist] at hassets hmoved
      rw [hlist, hstuck]
      exact hmoved.trans hassets

/-- **How the download ends.** -/
theorem add_ends (request : AppDownloadRequest) : Ends (add env request) s fun r t =>
    ((∃ m, r = .ok m) ↔ Completes env request s.repository) ∧
    ((∃ b, Brings env request b ∧ MakesRoom env request b s.repository ∧
        Replaces s.repository b.manifest (leftBy env request b (dirOf s.repository b.manifest))
          t.repository) ∨
      ((∀ b, Brings env request b → ¬ MakesRoom env request b s.repository) ∧
        s.repository.SameFiles t.repository ∧
          ∀ app, (t.repository app).metadata = (s.repository app).metadata)) := by
  have herror : ∀ {e : Exit}, ¬ ∃ m, (Except.error e : Except Exit AppManifest) = .ok m := by
    rintro e ⟨m, hm⟩
    exact of_error_eq_ok hm
  rw [add, ends_bind]
  refine Ends.mono (fetch_yields request) fun r t ht => ?_
  obtain ⟨hfetched, hbrings⟩ := ht
  cases r with
  | error e =>
    have hnone : ∀ b, ¬ Brings env request b := fun b hb => of_error_eq_ok ((hbrings b).2 hb)
    refine ⟨iff_of_false herror ?_, Or.inr ⟨fun b hb => absurd hb (hnone b), ?_, ?_⟩⟩
    · rintro ⟨b, hb, -⟩
      exact hnone b hb
    · rw [hfetched]
      exact fun _ _ _ => rfl
    · exact fun app => by rw [hfetched]
  | ok b =>
    have hb : Brings env request b := (hbrings b).1 rfl
    have hunique : ∀ {c}, Brings env request c → c = b := fun hc => hc.unique hb
    dsimp only
    rw [ends_bind]
    refine (makeRoom_ends request b).mono fun r u hu => ?_
    rw [hfetched] at hu
    rcases hu with ⟨rfl, hroom, hbundled⟩ | ⟨⟨e, rfl⟩, hroom, d, hsame, hleaves⟩
    · refine (place_ends request b).mono fun r v hv => ?_
      obtain ⟨hcompletes, hplaced⟩ := hv
      rw [dirOf, hbundled.version] at hcompletes hplaced
      refine ⟨hcompletes.trans ⟨fun h => ⟨b, hb, hroom, h⟩, ?_⟩,
        Or.inl ⟨b, hb, hroom, hbundled.trans hplaced⟩⟩
      rintro ⟨c, hc, -, h⟩
      exact hunique hc ▸ h
    · refine ⟨iff_of_false herror ?_, Or.inr ⟨fun c hc => hunique hc ▸ hroom,
        hleaves.sameFiles_iff.2 hsame, hleaves.metadata⟩⟩
      rintro ⟨c, hc, hcroom, -⟩
      exact hroom (hunique hc ▸ hcroom)

end AppDownloadTask

end CloudOs

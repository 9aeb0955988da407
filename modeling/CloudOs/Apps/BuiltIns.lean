/-
# Built-in apps

A synchronization is a list of changes that the chef directory decides, whatever the repository
holds: each one puts files over those of a version, and settles the metadata of the app on that
version.

| what | how it changes |
| --- | --- |
| a file | the last change that has it decides (`version_applyAll`) |
| the metadata of an app | kept while its active version is wanted (`metadata_applyAll`) |
| an app that no change names | not at all (`applyAll_of_notMem`) |

So a second synchronization changes nothing (`applyAll_applyAll`).  The version that is active at
the end is the one that was registered last (`activeVersion_inspectAll`); all of it is
`synchronize_registers`.
-/

import CloudOs.Lib.Settling
import CloudOs.Main.SyncAppRepositoryMain

namespace CloudOs

open Prog Settling SyncAppRepositoryMain

namespace BuiltIns

/-- The version that the metadata have active. -/
def activeOf (m : MetadataFile) : Option String := m.fromJson.activeVersion

/-- A change of the repository: the files of a version, and the metadata that are wanted. -/
structure Change where
  app : String
  version : String
  files : FileTree Content
  metadata : List MetadataFile

def apply (r : AppRepository) (c : Change) : AppRepository :=
  (r.onVersion c.app c.version fun t => t.overlay c.files).putMetadata c.app
    (settleAll activeOf (r c.app).metadata c.metadata)

def applyAll (r : AppRepository) (cs : List Change) : AppRepository := cs.foldl apply r

/-! ### What changes do -/

/-- The files that changes put into a version. -/
def filesOf (app v : String) : List Change → FileTree Content
  | [] => .empty
  | c :: cs =>
    if (app, v) = (c.app, c.version) then c.files.overlay (filesOf app v cs) else filesOf app v cs

/-- The metadata that changes want for an app. -/
def metadataOf (app : String) : List Change → List MetadataFile
  | [] => []
  | c :: cs => if c.app = app then c.metadata ++ metadataOf app cs else metadataOf app cs

theorem version_apply (r : AppRepository) (c : Change) (app v : String) :
    (apply r c).version app v = if (app, v) = (c.app, c.version) then
      (r.version app v).overlay c.files else r.version app v := by
  rw [apply, AppRepository.version_putMetadata]
  split_ifs with h
  · obtain ⟨rfl, rfl⟩ := Prod.mk.inj h
    exact r.version_onVersion_self _ _ _
  · exact r.version_onVersion_of_ne h _

theorem metadata_apply (r : AppRepository) (c : Change) (app : String) :
    (apply r c app).metadata = if c.app = app then
      settleAll activeOf (r app).metadata c.metadata else (r app).metadata := by
  split_ifs with h
  · rw [← h]
    exact AppRepository.metadata_putMetadata_self _ _ _
  · rw [apply, AppRepository.putMetadata, Function.update_of_ne (Ne.symm h)]
    exact r.metadata_onVersion _ _ _ _

/-- The files that are put over a version are those of the changes, in order. -/
theorem version_applyAll (r : AppRepository) (cs : List Change) (app v : String) :
    (applyAll r cs).version app v = (r.version app v).overlay (filesOf app v cs) := by
  induction cs generalizing r with
  | nil => rfl
  | cons c cs ih =>
    rw [applyAll, List.foldl_cons, ← applyAll, ih, version_apply, filesOf]
    split_ifs
    · exact FileTree.overlay_assoc _ _ _
    · rfl

/-- The metadata settle on what the changes want. -/
theorem metadata_applyAll (r : AppRepository) (cs : List Change) (app : String) :
    (applyAll r cs app).metadata = settleAll activeOf (r app).metadata (metadataOf app cs) := by
  induction cs generalizing r with
  | nil => rfl
  | cons c cs ih =>
    rw [applyAll, List.foldl_cons, ← applyAll, ih, metadata_apply, metadataOf]
    split_ifs
    · exact (settleAll_append activeOf _ _ _).symm
    · rfl

/-- Two repositories with the same versions and metadata are the same. -/
theorem repository_ext {r s : AppRepository} (hversion : ∀ app v, r.version app v = s.version app v)
    (hmetadata : ∀ app, (r app).metadata = (s app).metadata) : r = s := by
  funext app
  have hversions : (r app).versions = (s app).versions := funext fun v => hversion app v
  have hdir := hmetadata app
  cases hr : r app
  cases hs : s app
  rw [hr, hs] at hversions hdir
  rw [AppDir.mk.injEq]
  exact ⟨hdir, hversions⟩

/-- **Changes that are made twice are made once.** -/
theorem applyAll_applyAll (r : AppRepository) (cs : List Change) :
    applyAll (applyAll r cs) cs = applyAll r cs := by
  refine repository_ext (fun app v => ?_) fun app => ?_
  · rw [version_applyAll, version_applyAll, FileTree.overlay_overlay]
  · rw [metadata_applyAll, metadata_applyAll, settleAll_settleAll]

/-- An app that no change names stays as it is. -/
theorem applyAll_of_notMem {r : AppRepository} {cs : List Change} {app : String}
    (h : ∀ c ∈ cs, c.app ≠ app) : applyAll r cs app = r app := by
  induction cs generalizing r with
  | nil => rfl
  | cons c cs ih =>
    have hne : app ≠ c.app := (h c List.mem_cons_self).symm
    rw [applyAll, List.foldl_cons, ← applyAll, ih fun d hd => h d (List.mem_cons_of_mem c hd), apply,
      AppRepository.putMetadata, Function.update_of_ne hne, AppRepository.onVersion,
      Function.update_of_ne hne]

/-! ### What a synchronization changes -/

variable (env : SyncEnv) (chefDir : ChefDir)

/-- A body ends in the same way from every repository, and puts the same files over a version. -/
def Overlays (app v : String) (m : Sync PUnit) (result : Except Exn PUnit) (s : FileTree Content) :
    Prop :=
  ∀ r, exec m r = (result, r.onVersion app v fun t => t.overlay s)

theorem exists_overlays_copy (manifest : AppManifest) (step : SyncStep)
    (source : Option (FileTree Content)) : ∃ result s,
      Overlays manifest.scrubbedName manifest.version (copy env manifest step source) result s := by
  cases source with
  | none => exact ⟨_, .empty, fun r => congrArg (Prod.mk _) (r.onVersion_id _ _).symm⟩
  | some source =>
    rw [copy]
    split_ifs
    · exact ⟨_, _, fun r => rfl⟩
    · exact ⟨_, _, fun r => rfl⟩

/-- The metadata need updating when another version is active, or none. -/
theorem needsUpdating (m : MetadataFile) (v : String) :
    (m.hasError || !m.fromJson.isVersion v) = true ↔ activeOf m ≠ some v := by
  cases m with
  | missing => exact iff_of_true rfl (Option.some_ne_none v).symm
  | unreadable => exact iff_of_true rfl (Option.some_ne_none v).symm
  | json m =>
    rw [MetadataFile.hasError, Bool.false_or, Bool.not_eq_true', AppMetadata.isVersion,
      beq_eq_false_iff_ne]
    exact Iff.rfl

theorem exec_updateMetadata (manifest : AppManifest) (r : AppRepository) :
    exec (updateMetadata env manifest) r =
      if activeOf (r manifest.scrubbedName).metadata = some manifest.version then (.ok ⟨⟩, r)
      else if env.fails manifest .writeMetadata then (.error (.die "Error writing file"), r)
      else (.ok ⟨⟩, r.putMetadata manifest.scrubbedName (.json (builtin manifest))) := by
  have hneeds := needsUpdating (r manifest.scrubbedName).metadata manifest.version
  rw [updateMetadata, exec_bind]
  by_cases h : activeOf (r manifest.scrubbedName).metadata = some manifest.version
  · rw [if_pos h]
    exact congrArg (exec · r) (if_neg fun hu => hneeds.1 hu h)
  · rw [if_neg h]
    refine (congrArg (exec · r) (if_pos (hneeds.2 h))).trans ?_
    split_ifs
    · rfl
    · rfl

/-- A body makes one change, whatever the repository holds. -/
def Makes (m : Sync PUnit) (c : Change) : Prop := ∀ r, after m r = apply r c

/-- A change without metadata. -/
theorem apply_files (r : AppRepository) (app v : String) (s : FileTree Content) :
    apply r ⟨app, v, s, []⟩ = r.onVersion app v fun t => t.overlay s := by
  have hmetadata := (r.metadata_onVersion app v app fun t => t.overlay s).symm
  rw [apply, settleAll_nil, hmetadata]
  exact AppRepository.putMetadata_metadata _ _

/-- Files that are put over a version before a change are a part of it. -/
theorem apply_onVersion (r : AppRepository) (app v : String) (s u : FileTree Content)
    (l : List MetadataFile) : apply (r.onVersion app v fun t => t.overlay s) ⟨app, v, u, l⟩ =
      apply r ⟨app, v, s.overlay u, l⟩ := by
  rw [apply, AppRepository.onVersion_onVersion, AppRepository.metadata_onVersion]
  simp only [FileTree.overlay_assoc]
  rfl

theorem exists_makes_updateMetadata (manifest : AppManifest) : ∃ s l,
    Makes (updateMetadata env manifest) ⟨manifest.scrubbedName, manifest.version, s, l⟩ := by
  by_cases hfails : env.fails manifest .writeMetadata = true
  · refine ⟨.empty, [], fun r => ?_⟩
    rw [after, exec_updateMetadata, if_pos hfails, apply_files]
    refine Eq.trans ?_ (r.onVersion_id _ _).symm
    split_ifs
    · rfl
    · rfl
  · refine ⟨.empty, [.json (builtin manifest)], fun r => ?_⟩
    have hid := r.onVersion_id manifest.scrubbedName manifest.version
    rw [after, exec_updateMetadata, if_neg hfails, apply]
    refine Eq.trans ?_ (congrArg (AppRepository.putMetadata · _ _) hid.symm)
    rw [settleAll_cons, settleAll_nil]
    split_ifs with h
    · rw [settle_of_key activeOf h]
      exact (r.putMetadata_metadata _).symm
    · rw [settle_of_key_ne activeOf h]

theorem exists_makes_bind {app v : String} {m n : Sync PUnit}
    (hm : ∃ result s, Overlays app v m result s) (hn : ∃ s l, Makes n ⟨app, v, s, l⟩) :
    ∃ s l, Makes (m >>= fun _ => n) ⟨app, v, s, l⟩ := by
  obtain ⟨result, s, hm⟩ := hm
  obtain ⟨u, l, hn⟩ := hn
  cases result with
  | error e =>
    refine ⟨s, [], fun r => ?_⟩
    rw [after, exec_bind, hm, apply_files]
  | ok a =>
    refine ⟨s.overlay u, l, fun r => ?_⟩
    rw [after, exec_bind, hm, ← apply_onVersion]
    exact hn _

/-- **A registration is one change**: the copies and the metadata are decided by the chef
directory. -/
theorem exists_makes_registerApp (manifestFile : List String) (manifest : AppManifest) : ∃ s l,
    Makes (registerApp env chefDir manifestFile manifest)
      ⟨manifest.scrubbedName, manifest.version, s, l⟩ :=
  exists_makes_bind (exists_overlays_copy env manifest _ _)
    (exists_makes_bind (exists_overlays_copy env manifest _ _)
      (exists_makes_bind (exists_overlays_copy env manifest _ _)
        (exists_makes_updateMetadata env manifest)))

/-! ### The versions that become active -/

/-- A body that ends well leaves the version active, and one that throws leaves the metadata. -/
def Activates (app v : String) (m : Sync PUnit) : Prop := ∀ r,
  (∀ a, (exec m r).1 = .ok a → activeOf (after m r app).metadata = some v) ∧
  (∀ e, (exec m r).1 = .error e → ∀ b, (after m r b).metadata = (r b).metadata)

theorem activates_updateMetadata (manifest : AppManifest) :
    Activates manifest.scrubbedName manifest.version (updateMetadata env manifest) := by
  intro r
  rw [after, exec_updateMetadata]
  split_ifs with hactive hfails
  · exact ⟨fun _ _ => hactive, fun _ _ _ => rfl⟩
  · exact ⟨fun _ h => h.elim, fun _ _ _ => rfl⟩
  · refine ⟨fun _ _ => ?_, fun _ h => h.elim⟩
    rw [AppRepository.metadata_putMetadata_self]
    rfl

theorem activates_bind {app v : String} {m n : Sync PUnit}
    (hm : ∃ result s, Overlays app v m result s) (hn : Activates app v n) :
    Activates app v (m >>= fun _ => n) := by
  obtain ⟨result, s, hm⟩ := hm
  intro r
  rw [after, exec_bind, hm]
  cases result with
  | error e =>
    exact ⟨fun _ h => of_error_eq_ok h, fun _ _ b => r.metadata_onVersion _ _ _ _⟩
  | ok a =>
    obtain ⟨hok, herror⟩ := hn (r.onVersion app v fun t => t.overlay s)
    refine ⟨hok, fun e he b => (herror e he b).trans ?_⟩
    exact r.metadata_onVersion _ _ _ _

theorem activates_registerApp (manifestFile : List String) (manifest : AppManifest) :
    Activates manifest.scrubbedName manifest.version
      (registerApp env chefDir manifestFile manifest) :=
  activates_bind (exists_overlays_copy env manifest _ _)
    (activates_bind (exists_overlays_copy env manifest _ _)
      (activates_bind (exists_overlays_copy env manifest _ _)
        (activates_updateMetadata env manifest)))

/-! ### The recipes -/

/-- The manifest of a default recipe, with its file, if it can be loaded. -/
def manifestOf (recipe : String) : Option (List String × AppManifest) :=
  if isDefault recipe then
    (env.getCookbook recipe).toOption.join.bind fun app =>
      if chefDir.files.hasPath (manifestFile app) then
        (AppManifest.load (chefDir.files.below ["data_bags", app])).toOption.map
          (Prod.mk (manifestFile app))
      else none
  else none

/-- A recipe without a manifest does nothing, and one with a manifest registers it. -/
theorem after_inspectRecipe (recipe : String) (r : AppRepository) :
    after (inspectRecipe env chefDir recipe) r =
      ((manifestOf env chefDir recipe).elim r fun e => after (registerApp env chefDir e.1 e.2) r) := by
  rw [inspectRecipe, manifestOf]
  split_ifs with hdefault
  · rw [after, exec_bind]
    cases hcookbook : env.getCookbook recipe with
    | error e => rfl
    | ok cookbook =>
      cases cookbook with
      | none => rfl
      | some app =>
        simp only [reads, exec, Except.toOption, Option.join_some, Option.bind_some]
        by_cases hpath : chefDir.files.hasPath (manifestFile app) = true
        · rw [if_pos hpath, if_pos hpath]
          cases AppManifest.load (chefDir.files.below ["data_bags", app]) with
          | error e => rfl
          | ok manifest => rfl
        · rw [if_neg hpath, if_neg hpath]
          rfl
  · rfl

/-- The manifest that a recipe registers successfully. -/
def registersAt (r : AppRepository) (recipe : String) : Option AppManifest :=
  ((manifestOf env chefDir recipe).filter fun e =>
    (exec (registerApp env chefDir e.1 e.2) r).1.isOk).map Prod.snd

/-- The manifests that are registered successfully, in order. -/
def registered : List String → AppRepository → List AppManifest
  | [], _ => []
  | recipe :: rest, r => (registersAt env chefDir r recipe).toList ++
      registered rest (after (inspectRecipe env chefDir recipe) r)

/-- The last of these manifests that is one of the app. -/
def lastOf (app : String) (l : List AppManifest) : Option AppManifest :=
  (l.filter fun m => decide (m.scrubbedName = app)).getLast?

theorem lastOf_append (app : String) (l k : List AppManifest) :
    lastOf app (l ++ k) = (lastOf app k).or (lastOf app l) := by
  rw [lastOf, List.filter_append, List.getLast?_append, ← lastOf, ← lastOf]

theorem lastOf_singleton (app : String) (m : AppManifest) :
    lastOf app [m] = if m.scrubbedName = app then some m else none := by
  rw [lastOf]
  split_ifs with h
  · rw [List.filter_cons_of_pos (by simpa using h)]
    rfl
  · rw [List.filter_cons_of_neg (by simpa using h)]
    rfl

/-- The version that is active after a recipe. -/
theorem activeVersion_inspectRecipe (recipe : String) (r : AppRepository) (app : String) :
    (after (inspectRecipe env chefDir recipe) r).activeVersion app =
      ((lastOf app (registersAt env chefDir r recipe).toList).map AppManifest.version).or
        (r.activeVersion app) := by
  rw [after_inspectRecipe, registersAt]
  cases manifestOf env chefDir recipe with
  | none => rfl
  | some e =>
    rw [Option.elim_some]
    obtain ⟨s, l, hmakes⟩ := exists_makes_registerApp env chefDir e.1 e.2
    obtain ⟨hok, herror⟩ := activates_registerApp env chefDir e.1 e.2 r
    cases hresult : (exec (registerApp env chefDir e.1 e.2) r).1 with
    | error x =>
      rw [Option.filter_some, hresult, if_neg (by exact Bool.false_ne_true)]
      exact congrArg activeOf (herror x hresult app)
    | ok a =>
      rw [Option.filter_some, hresult, if_pos (by rfl), Option.map_some, Option.toList_some,
        lastOf_singleton]
      split_ifs with happ
      · exact happ ▸ hok a hresult
      · refine congrArg activeOf ?_
        rw [hmakes, metadata_apply]
        exact if_neg happ

theorem after_inspectAll_cons (recipe : String) (rest : List String) (r : AppRepository) :
    after (inspectAll env chefDir (recipe :: rest)) r =
      after (inspectAll env chefDir rest) (after (inspectRecipe env chefDir recipe) r) := rfl

/-- **The version that is active at the end** is the one that was registered last, or else the one
that was active before. -/
theorem activeVersion_inspectAll (runList : List String) (r : AppRepository) (app : String) :
    (after (inspectAll env chefDir runList) r).activeVersion app =
      ((lastOf app (registered env chefDir runList r)).map AppManifest.version).or
        (r.activeVersion app) := by
  induction runList generalizing r with
  | nil => rfl
  | cons recipe rest ih =>
    rw [after_inspectAll_cons, ih, activeVersion_inspectRecipe, registered, lastOf_append,
      Option.map_or, Option.or_assoc]

/-- Some default recipe of the run list has a manifest of the app that can be loaded. -/
def IsNamed (runList : List String) (app : String) : Prop :=
  ∃ recipe ∈ runList, ∃ e ∈ manifestOf env chefDir recipe, e.2.scrubbedName = app

/-- The loop makes changes that the chef directory decides, and to apps that it names. -/
theorem exists_applyAll (runList : List String) : ∃ cs : List Change,
    (∀ r, after (inspectAll env chefDir runList) r = applyAll r cs) ∧
    ∀ c ∈ cs, IsNamed env chefDir runList c.app := by
  induction runList with
  | nil => exact ⟨[], fun r => rfl, fun c hc => absurd hc List.not_mem_nil⟩
  | cons recipe rest ih =>
    obtain ⟨cs, hcs, hnamed⟩ := ih
    have hrest : ∀ c ∈ cs, IsNamed env chefDir (recipe :: rest) c.app := by
      intro c hc
      obtain ⟨recipe', hmem, he⟩ := hnamed c hc
      exact ⟨recipe', List.mem_cons_of_mem recipe hmem, he⟩
    cases hmanifest : manifestOf env chefDir recipe with
    | none =>
      refine ⟨cs, fun r => ?_, hrest⟩
      rw [after_inspectAll_cons, hcs, after_inspectRecipe, hmanifest]
      rfl
    | some e =>
      obtain ⟨s, l, hmakes⟩ := exists_makes_registerApp env chefDir e.1 e.2
      refine ⟨⟨e.2.scrubbedName, e.2.version, s, l⟩ :: cs, fun r => ?_, fun c hc => ?_⟩
      · rw [after_inspectAll_cons, hcs, after_inspectRecipe, hmanifest, Option.elim_some, hmakes]
        rfl
      · rcases List.mem_cons.1 hc with rfl | hc
        · exact ⟨recipe, List.mem_cons_self, e, hmanifest, rfl⟩
        · exact hrest c hc

/-- The run list of the chef directory. -/
def runListOf : List String :=
  match chefDir.soloJson with
  | some (.ok runList) => runList
  | _ => []

theorem after_synchronize (r : AppRepository) :
    after (synchronize env chefDir) r = after (inspectAll env chefDir (runListOf chefDir)) r := by
  rw [synchronize, runListOf]
  cases chefDir.soloJson with
  | none => rfl
  | some soloJson =>
    cases soloJson with
    | error e => rfl
    | ok runList => rfl

/-- **Built-in apps are registered once and in place.**  A second synchronization changes nothing;
the active version of an app is the one of the last manifest that was registered, if there is one;
and an app that no default recipe of the run list names stays as it is. -/
theorem synchronize_registers (r : AppRepository) :
    after (synchronize env chefDir) (after (synchronize env chefDir) r) =
        after (synchronize env chefDir) r ∧
      (∀ app, (after (synchronize env chefDir) r).activeVersion app =
        ((lastOf app (registered env chefDir (runListOf chefDir) r)).map AppManifest.version).or
          (r.activeVersion app)) ∧
      ∀ app, IsNamed env chefDir (runListOf chefDir) app ∨
        after (synchronize env chefDir) r app = r app := by
  obtain ⟨cs, hcs, hnamed⟩ := exists_applyAll env chefDir (runListOf chefDir)
  refine ⟨?_, fun app => ?_, fun app => ?_⟩
  · rw [after_synchronize, after_synchronize, hcs, hcs, applyAll_applyAll]
  · rw [after_synchronize]
    exact activeVersion_inspectAll env chefDir _ r app
  · by_cases h : IsNamed env chefDir (runListOf chefDir) app
    · exact Or.inl h
    · refine Or.inr ?_
      rw [after_synchronize, hcs]
      exact applyAll_of_notMem fun c hc happ => h (happ ▸ hnamed c hc)

end BuiltIns

end CloudOs

/-
# `SyncAppRepositoryMain`

What chef has installed without the server is put into the repository of the apps: every default
recipe of the run list whose databag has a manifest is registered, as that version of that app.

| step of `registerApp` | from the chef directory | into the directory of the version |
| --- | --- | --- |
| `copyCookbook` | `cookbooks/app` | `chef/cookbooks/app` |
| `copyDatabags` | `data_bags/app` | `chef/data_bags/app` |
| `copyManifest` | the manifest | `cloudos-manifest.json` |
| `writeMetadata` | | the metadata of the app, if another version is active |

A copy puts the files over those that stand there; one that fails has put `arrived` there.  Metadata
that cannot be written stay as they are.  What goes wrong with a recipe is logged, and the next one
is looked at.  Changes of owner and mode are left out.
-/

import CloudOs.Model.AppRepository
import CloudOs.Lib.Prog
import Mathlib.Data.List.Infix

namespace CloudOs

open Prog

/-- A step of a registration. -/
inductive SyncStep
  | copyCookbook | copyDatabags | copyManifest | writeMetadata
  deriving DecidableEq, Repr

/-- What a synchronization cannot change; `getCookbook` is that of `ChefMessage`. -/
structure SyncEnv where
  getCookbook : String → Except Exn (Option String)
  fails : AppManifest → SyncStep → Bool
  arrived : AppManifest → SyncStep → FileTree Content → FileTree Content

/-- The chef directory; `soloJson` is the run list as `solo.json` has it, or why it has none. -/
structure ChefDir where
  path : String
  soloJson : Option (Except String (List String))
  files : FileTree Content

namespace SyncAppRepositoryMain

abbrev Sync := Prog AppRepository Exn

variable (env : SyncEnv) (chefDir : ChefDir)

/-- A copy of the manifest's app; there is nothing to copy where the source is missing. -/
def copy (manifest : AppManifest) (step : SyncStep) : Option (FileTree Content) → Sync PUnit
  | none => throw (.die "Source does not exist")
  | some source =>
    if env.fails manifest step then do
      modify fun r => r.onVersion manifest.scrubbedName manifest.version fun t =>
        t.overlay (env.arrived manifest step source)
      throw (.die "Failed to copy")
    else modify fun r => r.onVersion manifest.scrubbedName manifest.version fun t =>
      t.overlay source

/-- `FileUtils.copyDirectory`. -/
def copyDirectory (manifest : AppManifest) (step : SyncStep) (source destination : List String) :
    Sync PUnit :=
  copy env manifest step (if chefDir.files.isDirectory source then
    some ((chefDir.files.below source).mount destination) else none)

/-- `FileUtils.copyFile`. -/
def copyFile (manifest : AppManifest) (step : SyncStep) (source destination : List String) :
    Sync PUnit :=
  copy env manifest step ((chefDir.files.fileAt source).map fun c =>
    (FileTree.single c).mount destination)

/-- The metadata of a built-in app. -/
def builtin (manifest : AppManifest) : AppMetadata where
  installedBy := some "cloudos-builtin"
  activeVersion := some manifest.version
  interactive := manifest.interactive

/-- Sets the active version if needed. -/
def updateMetadata (manifest : AppManifest) : Sync PUnit := do
  let r ← get
  if (r manifest.scrubbedName).metadata.hasError ||
      !(r manifest.scrubbedName).metadata.fromJson.isVersion manifest.version then
    if env.fails manifest .writeMetadata then throw (.die "Error writing file")
    else modify fun r => r.putMetadata manifest.scrubbedName (.json (builtin manifest))
  else return ⟨⟩

/-- `registerApp`. -/
def registerApp (manifestFile : List String) (manifest : AppManifest) : Sync PUnit := do
  copyDirectory env chefDir manifest .copyCookbook ["cookbooks", manifest.scrubbedName]
    (AppLayout.chefDir ++ ["cookbooks", manifest.scrubbedName])
  copyDirectory env chefDir manifest .copyDatabags ["data_bags", manifest.scrubbedName]
    (AppLayout.databagsDir ++ [manifest.scrubbedName])
  copyFile env chefDir manifest .copyManifest manifestFile AppLayout.manifestFile
  updateMetadata env manifest

/-- A recipe that names nothing but its cookbook. -/
def isDefault (recipe : String) : Bool := decide ¬ "::".toList <:+: recipe.toList

example : isDefault "recipe[email]" = true ∧ isDefault "recipe[email::lib]" = false := by
  decide +kernel

/-- The manifest in the databag directory of a cookbook. -/
def manifestFile (app : String) : List String := ["data_bags", app] ++ AppLayout.manifestFile

/-- What is done with a recipe. -/
def inspectRecipe (recipe : String) : Sync PUnit := do
  if isDefault recipe then
    match ← reads fun _ => env.getCookbook recipe with
    | none => return ⟨⟩
    | some app =>
      if chefDir.files.hasPath (manifestFile app) then
        let manifest ← reads fun _ => AppManifest.load (chefDir.files.below ["data_bags", app])
        -- whether the version is there already makes no difference
        registerApp env chefDir (manifestFile app) manifest
      else return ⟨⟩
  else return ⟨⟩

/-- The loop; an error is logged. -/
def inspectAll (runList : List String) : Sync PUnit :=
  runList.forM fun recipe => do
    let _ ← attempt (inspectRecipe env chefDir recipe)
    return ⟨⟩

/-- `synchronize`. -/
def synchronize : Sync PUnit :=
  match chefDir.soloJson with
  | none => throw (.die ("No solo.json file found: " ++ chefDir.path ++ "/solo.json"))
  | some (.error e) => throw (.die ("Error reading " ++ chefDir.path ++ "/solo.json: " ++ e))
  | some (.ok runList) => inspectAll env chefDir runList

end SyncAppRepositoryMain

end CloudOs

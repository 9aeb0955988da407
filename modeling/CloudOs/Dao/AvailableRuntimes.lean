/-
# The runtimes of the active apps

`initAvailableRuntimes` makes a runtime for every active app, and then merges into each app that
has a parent what the runtime of its parent holds at that time.

| loop | goes over | changes |
| --- | --- | --- |
| `findActive` | the directories | nothing |
| `loadRuntimes` | the active apps | `appCache` and `runtimes`, by the name in the manifest |
| `mergeLoop` | `appCache.values()`, in the order of a `HashMap` | the runtime of each child |

The order of a `HashMap` is none that its caller knows; here it is any `IterationOrder`.  The
runtimes that are returned are the objects of `runtimes`, as the loop leaves them.
-/

import CloudOs.Lib.KeyedMap
import CloudOs.Lib.Prog
import CloudOs.Model.AppRepository

namespace CloudOs

namespace AvailableRuntimes

variable {Auth Details : Type}

/-- `AppManifest`, as `initAvailableRuntimes` reads it; `installedAppDetails` is what
`getInstalledAppDetails` makes of it, with the assets. -/
structure Manifest (Auth Details : Type) where
  name : String
  parent : Option String := none
  plugin : String
  auth : Option Auth
  installedAppDetails : Details
  deriving DecidableEq, Repr

/-- A directory of the repository: its metadata, and what `loadApp` makes of it. -/
structure AppDirectory (Auth Details : Type) where
  metadata : AppMetadata
  app : Option (Manifest Auth Details)

/-- `AppRuntime`. -/
structure Runtime (Auth Details : Type) where
  details : Details
  authentication : Option Auth
  deriving DecidableEq, Repr

/-- The classes of the plugins and of the library. -/
structure RuntimesEnv (Auth Details : Type) where
  hasPluginJar : String → Bool
  loadPluginClass : String → String → Except Exn PUnit
  loadClass : String → Except Exn PUnit
  newInstance : String → Except Exn PUnit
  mergeDetails : Details → Details → Details

/-- `AppManifest.hasParent`, with the parent. -/
def Manifest.parentName (app : Manifest Auth Details) : Option String :=
  if empty app.parent then none else app.parent

/-- `appCache`: the last app of every name. -/
abbrev AppCache (Auth Details : Type) := KeyedMap fun app : Manifest Auth Details => app.name

/-- The order in which a map lists its values. -/
structure IterationOrder (Auth Details : Type) where
  values : AppCache Auth Details → List (Manifest Auth Details)
  perm : ∀ m, (values m).Perm m.values

/-- `findActive`. -/
def findActive (appDirs : List (AppDirectory Auth Details)) : List (Manifest Auth Details) :=
  appDirs.filterMap fun d => if d.metadata.activeVersion.isSome then d.app else none

variable (env : RuntimesEnv Auth Details)

/-- The class of the app, loaded and instantiated. -/
def newRuntime (app : Manifest Auth Details) : Except Exn PUnit := do
  if env.hasPluginJar app.name then env.loadPluginClass app.name app.plugin
  else env.loadClass app.plugin
  env.newInstance app.plugin

/-- What is loaded of an app. -/
def Manifest.runtime (app : Manifest Auth Details) : Runtime Auth Details :=
  ⟨app.installedAppDetails, app.auth⟩

abbrev Runtimes (Auth Details : Type) := String → Option (Runtime Auth Details)

/-- The loop that loads the runtimes. -/
def loadRuntimes : AppCache Auth Details → Runtimes Auth Details → List (Manifest Auth Details) →
    Except Exn (AppCache Auth Details × Runtimes Auth Details)
  | appCache, runtimes, [] => .ok (appCache, runtimes)
  | appCache, runtimes, app :: apps => do
    newRuntime env app
    loadRuntimes (appCache.put app) (Function.update runtimes app.name (some app.runtime)) apps

/-- `mergeParent`. -/
def mergeParent (appRuntime parentRuntime : Runtime Auth Details) : Runtime Auth Details :=
  ⟨env.mergeDetails appRuntime.details parentRuntime.details, parentRuntime.authentication⟩

/-- What the second loop does with an app. -/
def mergeApp (runtimes : Runtimes Auth Details) (app : Manifest Auth Details) :
    Except Exn (Runtimes Auth Details) :=
  match app.parentName with
  | none => .ok runtimes
  | some parent =>
    match runtimes app.name, runtimes parent with
    | some appRuntime, some parentRuntime =>
      .ok (Function.update runtimes app.name (some (mergeParent env appRuntime parentRuntime)))
    | _, _ => .error .nullPointer

/-- The loop that merges the parents. -/
def mergeLoop (runtimes : Runtimes Auth Details) (apps : List (Manifest Auth Details)) :
    Except Exn (Runtimes Auth Details) :=
  apps.foldlM (mergeApp env) runtimes

/-- `initAvailableRuntimes`. -/
def initAvailableRuntimes (order : IterationOrder Auth Details)
    (appDirs : List (AppDirectory Auth Details)) :
    Except Exn (List (String × Runtime Auth Details)) := do
  let (appCache, runtimes) ← loadRuntimes env .empty (fun _ => none) (findActive appDirs)
  let runtimes ← mergeLoop env runtimes (order.values appCache)
  return (order.values appCache).filterMap fun app => (runtimes app.name).map (Prod.mk app.name)

/-! ### The first loop -/

/-- The runtimes of the apps in a cache, as they are loaded. -/
def runtimesOf (appCache : AppCache Auth Details) : Runtimes Auth Details :=
  fun name => (appCache.lookup name).map Manifest.runtime

/-- The cache of a list of apps. -/
def cacheOf (apps : List (Manifest Auth Details)) : AppCache Auth Details :=
  apps.foldl KeyedMap.put .empty

theorem update_runtimesOf (appCache : AppCache Auth Details) (app : Manifest Auth Details) :
    Function.update (runtimesOf appCache) app.name (some app.runtime) =
      runtimesOf (appCache.put app) := by
  funext name
  rw [Function.update_apply, runtimesOf, runtimesOf, KeyedMap.lookup_put]
  split_ifs
  · rfl
  · rfl

/-- The first loop ends when every class can be loaded. -/
theorem loadRuntimes_of_forall {apps : List (Manifest Auth Details)}
    (h : ∀ app ∈ apps, newRuntime env app = .ok ⟨⟩) (appCache : AppCache Auth Details) :
    loadRuntimes env appCache (runtimesOf appCache) apps =
      .ok (apps.foldl KeyedMap.put appCache, runtimesOf (apps.foldl KeyedMap.put appCache)) := by
  induction apps generalizing appCache with
  | nil => rfl
  | cons app apps ih =>
    rw [loadRuntimes, h app List.mem_cons_self, update_runtimesOf]
    exact ih (fun other hother => h other (List.mem_cons_of_mem app hother)) _

theorem forall_of_loadRuntimes {apps : List (Manifest Auth Details)}
    {appCache : AppCache Auth Details} {runtimes : Runtimes Auth Details}
    {loaded : AppCache Auth Details × Runtimes Auth Details}
    (h : loadRuntimes env appCache runtimes apps = .ok loaded) :
    ∀ app ∈ apps, newRuntime env app = .ok ⟨⟩ := by
  induction apps generalizing appCache runtimes with
  | nil => exact fun app happ => absurd happ List.not_mem_nil
  | cons app apps ih =>
    obtain ⟨⟨⟩, hnew, hrest⟩ := Prog.exists_of_bind_eq_ok h
    intro other hother
    rcases List.mem_cons.1 hother with rfl | hother
    · exact hnew
    · exact ih hrest other hother

/-! ### The second loop -/

/-- What the runtime of a name has as authentication. -/
def authOf (runtimes : Runtimes Auth Details) (name : String) : Option (Option Auth) :=
  (runtimes name).map Runtime.authentication

theorem mergeLoop_append (runtimes : Runtimes Auth Details) (l k : List (Manifest Auth Details)) :
    mergeLoop env runtimes (l ++ k) = mergeLoop env runtimes l >>= fun t => mergeLoop env t k :=
  List.foldlM_append

/-- An app without parent is left as it is. -/
theorem mergeApp_of_none {app : Manifest Auth Details} (h : app.parentName = none)
    (runtimes : Runtimes Auth Details) : mergeApp env runtimes app = .ok runtimes := by
  rw [mergeApp, h]

/-- An app with a parent is merged when both have a runtime. -/
theorem mergeApp_eq_ok {app : Manifest Auth Details} {parent : String}
    (h : app.parentName = some parent) {runtimes t : Runtimes Auth Details}
    (ht : mergeApp env runtimes app = .ok t) :
    ∃ appRuntime parentRuntime, runtimes app.name = some appRuntime ∧
      runtimes parent = some parentRuntime ∧
      t = Function.update runtimes app.name (some (mergeParent env appRuntime parentRuntime)) := by
  rw [mergeApp, h] at ht
  cases happ : runtimes app.name with
  | none => simp [happ] at ht
  | some appRuntime =>
    cases hparent : runtimes parent with
    | none => simp [happ, hparent] at ht
    | some parentRuntime =>
      simp only [happ, hparent] at ht
      exact ⟨appRuntime, parentRuntime, rfl, rfl, (Except.ok.inj ht).symm⟩

/-- Another app is left as it is. -/
theorem mergeApp_of_ne {app : Manifest Auth Details} {runtimes t : Runtimes Auth Details}
    (h : mergeApp env runtimes app = .ok t) {name : String} (hne : name ≠ app.name) :
    t name = runtimes name := by
  cases hparent : app.parentName with
  | none =>
    rw [mergeApp_of_none env hparent] at h
    rw [Except.ok.inj h]
  | some parent =>
    obtain ⟨appRuntime, parentRuntime, -, -, rfl⟩ := mergeApp_eq_ok env hparent h
    exact Function.update_of_ne hne _ _

/-- An app that is not visited is left as it is. -/
theorem mergeLoop_of_notMem {l : List (Manifest Auth Details)} {runtimes t : Runtimes Auth Details}
    (h : mergeLoop env runtimes l = .ok t) {name : String} (hl : name ∉ l.map Manifest.name) :
    t name = runtimes name := by
  induction l generalizing runtimes with
  | nil => rw [Except.ok.inj h]
  | cons app l ih =>
    rw [List.map_cons, List.mem_cons, not_or] at hl
    obtain ⟨u, hu, ht⟩ := Prog.exists_of_bind_eq_ok h
    exact (ih ht hl.2).trans (mergeApp_of_ne env hu hl.1)

/-- The runtimes stay those of the same apps. -/
theorem isSome_mergeApp {app : Manifest Auth Details} {runtimes t : Runtimes Auth Details}
    (h : mergeApp env runtimes app = .ok t) (name : String) :
    (t name).isSome = (runtimes name).isSome := by
  by_cases hname : name = app.name
  · cases hparent : app.parentName with
    | none =>
      rw [mergeApp_of_none env hparent] at h
      rw [Except.ok.inj h]
    | some parent =>
      obtain ⟨appRuntime, parentRuntime, happ, -, rfl⟩ := mergeApp_eq_ok env hparent h
      rw [hname, Function.update_self, happ]
      rfl
  · rw [mergeApp_of_ne env h hname]

theorem isSome_mergeLoop {l : List (Manifest Auth Details)} {runtimes t : Runtimes Auth Details}
    (h : mergeLoop env runtimes l = .ok t) (name : String) :
    (t name).isSome = (runtimes name).isSome := by
  induction l generalizing runtimes with
  | nil => rw [Except.ok.inj h]
  | cons app l ih =>
    obtain ⟨u, hu, ht⟩ := Prog.exists_of_bind_eq_ok h
    exact (ih ht).trans (isSome_mergeApp env hu name)

/-- **When the second loop ends**: every parent has a runtime. -/
theorem mergeLoop_ends_iff {l : List (Manifest Auth Details)} {runtimes : Runtimes Auth Details}
    (hl : ∀ app ∈ l, (runtimes app.name).isSome) : (∃ t, mergeLoop env runtimes l = .ok t) ↔
      ∀ app ∈ l, ∀ parent ∈ app.parentName, (runtimes parent).isSome := by
  constructor
  · rintro ⟨t, ht⟩ app happ parent hparent
    obtain ⟨front, back, rfl⟩ := List.append_of_mem happ
    rw [mergeLoop_append] at ht
    obtain ⟨u, hu, hrest⟩ := Prog.exists_of_bind_eq_ok ht
    obtain ⟨v, hv, -⟩ := Prog.exists_of_bind_eq_ok hrest
    obtain ⟨appRuntime, parentRuntime, -, hsome, -⟩ := mergeApp_eq_ok env hparent hv
    rw [← isSome_mergeLoop env hu parent, hsome]
    rfl
  · intro hparents
    induction l generalizing runtimes with
    | nil => exact ⟨runtimes, rfl⟩
    | cons app l ih =>
      have hstep : ∃ u, mergeApp env runtimes app = .ok u := by
        cases hparent : app.parentName with
        | none => exact ⟨runtimes, mergeApp_of_none env hparent runtimes⟩
        | some parent =>
          obtain ⟨appRuntime, happ⟩ := Option.isSome_iff_exists.1 (hl app List.mem_cons_self)
          obtain ⟨parentRuntime, hruntime⟩ :=
            Option.isSome_iff_exists.1 (hparents app List.mem_cons_self parent hparent)
          rw [mergeApp, hparent]
          simp only [happ, hruntime]
          exact ⟨_, rfl⟩
      obtain ⟨u, hu⟩ := hstep
      have hsome := isSome_mergeApp env hu
      obtain ⟨t, ht⟩ := ih (fun other hother => (hsome _).trans (hl other
        (List.mem_cons_of_mem app hother))) fun other hother parent hparent =>
          (hsome _).trans (hparents other (List.mem_cons_of_mem app hother) parent hparent)
      refine ⟨t, ?_⟩
      rw [mergeLoop, List.foldlM_cons, hu]
      exact ht

/-- **What the second loop leaves.**  An app without parent keeps its authentication. -/
theorem authOf_mergeLoop_of_none {front back : List (Manifest Auth Details)}
    {app : Manifest Auth Details} {runtimes t : Runtimes Auth Details}
    (hnames : ((front ++ app :: back).map Manifest.name).Nodup)
    (h : mergeLoop env runtimes (front ++ app :: back) = .ok t) (happ : app.parentName = none) :
    authOf t app.name = authOf runtimes app.name := by
  rw [mergeLoop_append] at h
  obtain ⟨u, hu, hrest⟩ := Prog.exists_of_bind_eq_ok h
  obtain ⟨v, hv, ht⟩ := Prog.exists_of_bind_eq_ok hrest
  rw [List.map_append, List.map_cons, List.nodup_append, List.nodup_cons] at hnames
  rw [mergeApp_of_none env happ] at hv
  rw [authOf, mergeLoop_of_notMem env ht hnames.2.1.1, ← Except.ok.inj hv,
    mergeLoop_of_notMem env hu fun hmem => hnames.2.2 _ hmem _ List.mem_cons_self rfl, ← authOf]

/-- One with a parent gets the authentication that the parent has when it is visited: at the end
the parent has it still if it stands in front, and otherwise it had it at the start. -/
theorem authOf_mergeLoop_of_some {front back : List (Manifest Auth Details)}
    {app : Manifest Auth Details} {parent : String} {runtimes t : Runtimes Auth Details}
    (hnames : ((front ++ app :: back).map Manifest.name).Nodup)
    (h : mergeLoop env runtimes (front ++ app :: back) = .ok t)
    (happ : app.parentName = some parent) :
    (parent ∈ front.map Manifest.name → authOf t app.name = authOf t parent) ∧
    (parent ∉ front.map Manifest.name → authOf t app.name = authOf runtimes parent) := by
  rw [mergeLoop_append] at h
  obtain ⟨u, hu, hrest⟩ := Prog.exists_of_bind_eq_ok h
  obtain ⟨v, hv, ht⟩ := Prog.exists_of_bind_eq_ok hrest
  rw [List.map_append, List.map_cons, List.nodup_append, List.nodup_cons] at hnames
  obtain ⟨appRuntime, parentRuntime, -, hparent, hupdate⟩ := mergeApp_eq_ok env happ hv
  have hfinal : authOf t app.name = authOf u parent := by
    rw [authOf, mergeLoop_of_notMem env ht hnames.2.1.1, hupdate, Function.update_self, authOf,
      hparent]
    rfl
  refine ⟨fun hfront => hfinal.trans ?_, fun hfront => hfinal.trans ?_⟩
  · have hback : parent ∉ (app :: back).map Manifest.name :=
      fun hmem => hnames.2.2 _ hfront _ hmem rfl
    rw [authOf, authOf, mergeLoop_of_notMem env hrest hback]
  · rw [authOf, authOf, mergeLoop_of_notMem env hu hfront]

end AvailableRuntimes

end CloudOs

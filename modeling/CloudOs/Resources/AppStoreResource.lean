/-
# `AppStoreResource`

Every listing of the app store is marked with what the server has of the app, and the client
offers what to do next.

| what the server has | status | the client offers |
| --- | --- | --- |
| an active version, the listed one is not newer | `installed` | to open it |
| an active version, the listed one is newer | `upgrade_available_installed` | the upgrade |
| no active version, the latest one is not older than the listed one | `available_local` | the install |
| no active version, the latest one is older | `upgrade_available_not_installed` | the install |
| nothing | `available_appstore` | the install |

Versions are compared as `SemanticVersion`s, a class of a library: `parse` makes them from the
texts, and `V` is their order.

The status follows the tasks: after an install that activates what it deployed the listed version
counts as installed, whatever is done to other apps meanwhile (`status_after_install`), and after an
uninstall that deletes the directory the app is available in the store (`status_after_uninstall`).
-/

import CloudOs.Apps.LifeCycle
import CloudOs.Dao.AppRepositoryState
import CloudOs.Dao.GroupMembers

namespace CloudOs

open Prog AppTask

/-- `AppInstallStatus`. -/
inductive AppInstallStatus
  | installed | upgrade_available_installed | available_local | upgrade_available_not_installed
  | available_appstore | unavailable
  deriving DecidableEq, Repr

/-- What the app store says of a version of an app. -/
structure StoreListing where
  name : String
  version : String
  installStatus : Option AppInstallStatus := none
  deriving DecidableEq, Repr

/-- What the server answers; everything but `ok` has no body. -/
inductive StoreResponse (α : Type)
  | ok (body : α)
  | notFound
  | serverError
  deriving DecidableEq, Repr

namespace AppStoreResource

variable {V : Type} [LinearOrder V] (parse : String → Except Exn V) (env : AppEnv)
  (r : AppRepository)

/-- The status of a version `listed`. -/
def statusOf (name : String) (listed : V) : Except Exn AppInstallStatus :=
  match AppDAO.findInstalledByName r name with
  | some found => do
    let active ← (found.metadata.activeVersion.elim (.error .nullPointer) parse)
    return if active < listed then .upgrade_available_installed else .installed
  | none =>
    match AppDAO.findLatestVersionByName r env name with
    | some found => do
      let latest ← parse found.version
      return if latest < listed then .upgrade_available_not_installed else .available_local
    | none => return .available_appstore

/-- `updateWithLocalInfo`. -/
def updateWithLocalInfo (listing : StoreListing) : Except Exn StoreListing := do
  let listed ← parse listing.version
  let status ← statusOf parse env r listing.name listed
  return { listing with installStatus := some status }

/-- `queryAppStore`; what the app store throws is caught, and what marking a listing throws is
not. -/
def queryAppStore (sessions : String → Option Account) (apiKey : String)
    (search : Except Exn (List StoreListing)) : Except Exn (StoreResponse (List StoreListing)) :=
  match sessions apiKey, search with
  | none, _ => return .notFound
  | some _, .error _ => return .serverError
  | some _, .ok [] => return .notFound
  | some _, .ok results => .ok <$> results.mapM (updateWithLocalInfo parse env r)

/-- `viewAppDetails`. -/
def viewAppDetails (sessions : String → Option Account) (apiKey : String)
    (found : Except Exn StoreListing) : StoreResponse StoreListing :=
  match sessions apiKey, found.bind (updateWithLocalInfo parse env r) with
  | none, _ => .notFound
  | some _, .error _ => .serverError
  | some _, .ok listing => .ok listing

end AppStoreResource

/-! ### What the client offers -/

namespace StoreListing

variable (app : StoreListing)

def isInstalled : Bool := app.installStatus == some .installed

def isAvailableAppStore : Bool := app.installStatus == some .available_appstore

def isAvailableLocal : Bool := app.installStatus == some .available_local

def isUpgradeAvailableInstalled : Bool := app.installStatus == some .upgrade_available_installed

def isUpgradeAvailableNotInstalled : Bool :=
  app.installStatus == some .upgrade_available_not_installed

def canBeInstalled : Bool :=
  app.isAvailableAppStore || app.isAvailableLocal || app.isUpgradeAvailableNotInstalled

def canBeUpgraded : Bool := app.isUpgradeAvailableInstalled

end StoreListing

namespace AppStoreResource

open AppDAO

variable {V : Type} {parse : String → Except Exn V} {env : AppEnv} {r : AppRepository}
  {name : String}

/-- The version that is active. -/
def activeOf (parse : String → Except Exn V) (found : CloudOsApp) : Except Exn V :=
  found.metadata.activeVersion.elim (.error .nullPointer) parse

/-- An app that is found as installed has the metadata of its directory. -/
theorem activeOf_of_found {app : CloudOsApp} {v : String}
    (hfound : findInstalledByName r name = some app) (hactive : r.activeVersion name = some v) :
    activeOf parse app = parse v := by
  rw [findInstalledByName, hactive, Option.bind_some, loadApp] at hfound
  split at hfound
  · obtain rfl := Option.some.inj hfound
    have hmetadata : (r name).metadata.fromJson.activeVersion = some v := hactive
    rw [activeOf, hmetadata]
    rfl
  · exact absurd hfound (Option.some_ne_none app).symm

/-- An app is found as installed, in a version of which `P` holds. -/
def IsActiveIn (parse : String → Except Exn V) (r : AppRepository) (name : String) (P : V → Prop) :
    Prop :=
  ∃ found active, findInstalledByName r name = some found ∧ activeOf parse found = .ok active ∧
    P active

theorem isActiveIn_iff {found : CloudOsApp} {active : V}
    (hfound : findInstalledByName r name = some found) (hactive : activeOf parse found = .ok active)
    (P : V → Prop) : IsActiveIn parse r name P ↔ P active := by
  constructor
  · rintro ⟨found', active', hfound', hactive', hP⟩
    obtain rfl := Option.some.inj (hfound.symm.trans hfound')
    obtain rfl := Except.ok.inj (hactive.symm.trans hactive')
    exact hP
  · exact fun hP => ⟨found, active, hfound, hactive, hP⟩

theorem not_isActiveIn (hnone : findInstalledByName r name = none) (P : V → Prop) :
    ¬ IsActiveIn parse r name P := by
  rintro ⟨found, -, hfound, -⟩
  exact Option.some_ne_none found (hfound.symm.trans hnone)

variable [LinearOrder V]

/-- How a version is marked. -/
inductive Marks (parse : String → Except Exn V) (r : AppRepository) (name : String) (listed : V) :
    AppInstallStatus → Prop
  | current {found : CloudOsApp} {active : V} (hfound : findInstalledByName r name = some found)
      (hactive : activeOf parse found = .ok active) (hle : listed ≤ active) :
      Marks parse r name listed .installed
  | outdated {found : CloudOsApp} {active : V} (hfound : findInstalledByName r name = some found)
      (hactive : activeOf parse found = .ok active) (hlt : active < listed) :
      Marks parse r name listed .upgrade_available_installed
  | inactive {status : AppInstallStatus} (hnone : findInstalledByName r name = none)
      (hstatus : status ∈ [.available_local, .upgrade_available_not_installed, .available_appstore]) :
      Marks parse r name listed status

theorem marks_of_statusOf {listed : V} {status : AppInstallStatus}
    (h : statusOf parse env r name listed = .ok status) : Marks parse r name listed status := by
  unfold statusOf at h
  split at h
  next found hfound =>
    obtain ⟨active, hactive, h⟩ := exists_of_bind_eq_ok h
    obtain rfl := Except.ok.inj h
    split_ifs with hlt
    · exact .outdated hfound hactive hlt
    · exact .current hfound hactive (not_lt.1 hlt)
  next hnone =>
    refine .inactive hnone ?_
    split at h
    · obtain ⟨latest, -, h⟩ := exists_of_bind_eq_ok h
      obtain rfl := Except.ok.inj h
      split_ifs <;> decide
    · obtain rfl := Except.ok.inj h
      decide

/-- What the client offers for a listing that is marked: the install when no version is active, the
upgrade when an older one is, and to open the app otherwise. -/
structure Offers (parse : String → Except Exn V) (r : AppRepository) (listing marked : StoreListing)
    (listed : V) : Prop where
  name : marked.name = listing.name
  version : marked.version = listing.version
  install : marked.canBeInstalled = true ↔ findInstalledByName r listing.name = none
  upgrade : marked.canBeUpgraded = true ↔ IsActiveIn parse r listing.name (· < listed)
  opens : marked.isInstalled = true ↔ IsActiveIn parse r listing.name (listed ≤ ·)

theorem offers_of_update {listing marked : StoreListing}
    (h : updateWithLocalInfo parse env r listing = .ok marked) :
    ∃ listed, parse listing.version = .ok listed ∧ Offers parse r listing marked listed := by
  unfold updateWithLocalInfo at h
  obtain ⟨listed, hlisted, h⟩ := exists_of_bind_eq_ok h
  obtain ⟨status, hstatus, h⟩ := exists_of_bind_eq_ok h
  obtain rfl := Except.ok.inj h
  refine ⟨listed, hlisted, ?_⟩
  cases marks_of_statusOf hstatus with
  | current hfound hactive hle =>
    have hsome := isActiveIn_iff hfound hactive
    exact ⟨rfl, rfl, iff_of_false Bool.false_ne_true (Option.some_ne_none _ ∘ hfound.symm.trans),
      iff_of_false Bool.false_ne_true (mt (hsome _).1 hle.not_gt), iff_of_true rfl ((hsome _).2 hle)⟩
  | outdated hfound hactive hlt =>
    have hsome := isActiveIn_iff hfound hactive
    exact ⟨rfl, rfl, iff_of_false Bool.false_ne_true (Option.some_ne_none _ ∘ hfound.symm.trans),
      iff_of_true rfl ((hsome _).2 hlt), iff_of_false Bool.false_ne_true (mt (hsome _).1 hlt.not_ge)⟩
  | inactive hnone hmem =>
    have hnot : ∀ P, ¬ IsActiveIn parse r listing.name P := not_isActiveIn hnone
    simp only [List.mem_cons, List.not_mem_nil, or_false] at hmem
    rcases hmem with rfl | rfl | rfl
    all_goals exact ⟨rfl, rfl, iff_of_true rfl hnone, iff_of_false Bool.false_ne_true (hnot _),
      iff_of_false Bool.false_ne_true (hnot _)⟩

/-- The listing can be marked: its version can be read, and so can the one that it is compared with. -/
structure Comparable (parse : String → Except Exn V) (env : AppEnv) (r : AppRepository)
    (listing : StoreListing) : Prop where
  listed : ∃ v, parse listing.version = .ok v
  active : ∀ found, findInstalledByName r listing.name = some found →
    ∃ v, activeOf parse found = .ok v
  latest : ∀ found, findInstalledByName r listing.name = none →
    findLatestVersionByName r env listing.name = some found → ∃ v, parse found.version = .ok v

theorem exists_ok_bind_pure {α β : Type} {x : Except Exn α} {f : α → β} :
    (∃ b, (do let a ← x; return f a : Except Exn β) = .ok b) ↔ ∃ a, x = .ok a := by
  cases x with
  | error e => exact iff_of_false not_exists_error_eq_ok not_exists_error_eq_ok
  | ok a => exact iff_of_true ⟨_, rfl⟩ ⟨_, rfl⟩

theorem statusOf_ok_iff {listed : V} :
    (∃ status, statusOf parse env r name listed = .ok status) ↔
      (∀ found, findInstalledByName r name = some found → ∃ v, activeOf parse found = .ok v) ∧
        ∀ found, findInstalledByName r name = none → findLatestVersionByName r env name = some found →
          ∃ v, parse found.version = .ok v := by
  unfold statusOf
  cases hfound : findInstalledByName r name with
  | some found =>
    refine exists_ok_bind_pure.trans ⟨fun h => ⟨fun found' hfound' => ?_, fun _ hnone =>
      absurd hnone (Option.some_ne_none found)⟩, fun h => h.1 found rfl⟩
    obtain rfl := Option.some.inj hfound'
    exact h
  | none =>
    cases hlatest : findLatestVersionByName r env name with
    | some found =>
      refine exists_ok_bind_pure.trans ⟨fun h => ⟨fun other hother => ?_, fun found' _ hfound' => ?_⟩,
        fun h => h.2 found rfl rfl⟩
      · exact absurd hother.symm (Option.some_ne_none other)
      · obtain rfl := Option.some.inj hfound'
        exact h
    | none =>
      exact iff_of_true ⟨_, rfl⟩ ⟨fun other hother => absurd hother.symm (Option.some_ne_none other),
        fun other _ hother => absurd hother.symm (Option.some_ne_none other)⟩

/-- A listing is marked exactly when the versions can be read. -/
theorem updateWithLocalInfo_ok_iff {listing : StoreListing} :
    (∃ marked, updateWithLocalInfo parse env r listing = .ok marked) ↔
      Comparable parse env r listing := by
  unfold updateWithLocalInfo
  cases hlisted : parse listing.version with
  | error x =>
    refine iff_of_false not_exists_error_eq_ok fun h => ?_
    obtain ⟨v, hv⟩ := h.listed
    exact of_error_eq_ok (hlisted.symm.trans hv)
  | ok listed =>
    refine (exists_ok_bind_pure.trans statusOf_ok_iff).trans ⟨fun h => ⟨⟨listed, hlisted⟩, h.1, h.2⟩,
      fun h => ⟨h.active, h.latest⟩⟩

theorem updateWithLocalInfo_error_iff {listing : StoreListing} :
    (∃ x, updateWithLocalInfo parse env r listing = .error x) ↔
      ¬ Comparable parse env r listing := by
  rw [← updateWithLocalInfo_ok_iff]
  cases updateWithLocalInfo parse env r listing with
  | error x => exact iff_of_true ⟨x, rfl⟩ not_exists_error_eq_ok
  | ok marked => exact iff_of_false (fun h => of_error_eq_ok h.choose_spec.symm) fun h => h ⟨marked, rfl⟩

/-- A search that is answered with listings. -/
theorem offers_of_queryAppStore {sessions : String → Option Account} {apiKey : String}
    {search : Except Exn (List StoreListing)} {marked : List StoreListing}
    (h : queryAppStore parse env r sessions apiKey search = .ok (.ok marked)) :
    (sessions apiKey).isSome = true ∧ ∃ results, search = .ok results ∧
      List.Forall₂ (fun listing m => ∃ listed, parse listing.version = .ok listed ∧
        Offers parse r listing m listed) results marked := by
  unfold queryAppStore at h
  cases hsession : sessions apiKey with
  | none => simp [hsession, pure, Except.pure] at h
  | some account =>
    refine ⟨rfl, ?_⟩
    rw [hsession] at h
    match search, h with
    | .error _, h => simp [pure, Except.pure] at h
    | .ok [], h => simp [pure, Except.pure] at h
    | .ok (l :: ls), h =>
      obtain ⟨ms, hms, hok⟩ := exists_of_bind_eq_ok h
      obtain rfl : ms = marked := StoreResponse.ok.inj (Except.ok.inj hok)
      exact ⟨_, rfl, (mapM_ok_iff.1 hms).imp fun _ _ hupdate => offers_of_update hupdate⟩

/-- A search ends with an exception exactly when a listing that was found cannot be marked. -/
theorem queryAppStore_error_iff {sessions : String → Option Account} {apiKey : String}
    {search : Except Exn (List StoreListing)} :
    (∃ x, queryAppStore parse env r sessions apiKey search = .error x) ↔
      (sessions apiKey).isSome = true ∧ ∃ results, search = .ok results ∧
        ∃ listing ∈ results, ¬ Comparable parse env r listing := by
  have hnot : ∀ {α : Type} {a : α}, ¬ ∃ x : Exn, (.ok a : Except Exn α) = .error x :=
    fun h => of_error_eq_ok h.choose_spec.symm
  unfold queryAppStore
  cases hsession : sessions apiKey with
  | none => exact iff_of_false hnot fun h => Bool.false_ne_true h.1
  | some account =>
    rw [Option.isSome_some, and_iff_right rfl]
    match search with
    | .error e => exact iff_of_false hnot fun h => of_error_eq_ok h.choose_spec.1
    | .ok [] =>
      refine iff_of_false hnot ?_
      rintro ⟨results, hresults, listing, hlisting, -⟩
      obtain rfl := Except.ok.inj hresults
      exact absurd hlisting List.not_mem_nil
    | .ok (l :: ls) =>
      have hmap : (∃ x, StoreResponse.ok <$> (l :: ls).mapM (updateWithLocalInfo parse env r)
          = .error x) ↔ ∃ x, (l :: ls).mapM (updateWithLocalInfo parse env r) = .error x := by
        cases (l :: ls).mapM (updateWithLocalInfo parse env r) with
        | error e => exact iff_of_true ⟨e, rfl⟩ ⟨e, rfl⟩
        | ok marked => exact iff_of_false hnot hnot
      refine hmap.trans (mapM_error_iff.trans ?_)
      simp only [updateWithLocalInfo_error_iff, Except.ok.injEq, exists_eq_left']

/-- **What a search is answered with**: every listing of the store, in its order, marked so that the
client offers what can be done with it.  One listing that cannot be marked leaves the whole search
without an answer. -/
theorem queryAppStore_offers (parse : String → Except Exn V) (env : AppEnv) (r : AppRepository)
    (sessions : String → Option Account) (apiKey : String)
    (search : Except Exn (List StoreListing)) :
    (∀ marked, queryAppStore parse env r sessions apiKey search = .ok (.ok marked) →
      (sessions apiKey).isSome = true ∧ ∃ results, search = .ok results ∧
        List.Forall₂ (fun listing m => ∃ listed, parse listing.version = .ok listed ∧
          Offers parse r listing m listed) results marked) ∧
      ((∃ x, queryAppStore parse env r sessions apiKey search = .error x) ↔
        (sessions apiKey).isSome = true ∧ ∃ results, search = .ok results ∧
          ∃ listing ∈ results, ¬ Comparable parse env r listing) :=
  ⟨fun _ => offers_of_queryAppStore, queryAppStore_error_iff⟩

/-- The details of one app are marked in the same way; what a listing throws is caught. -/
theorem viewAppDetails_offers {sessions : String → Option Account} {apiKey : String}
    {found : Except Exn StoreListing} {account : Account} (hsession : sessions apiKey = some account) :
    (∀ marked, viewAppDetails parse env r sessions apiKey found = .ok marked →
      ∃ listing listed, found = .ok listing ∧ parse listing.version = .ok listed ∧
        Offers parse r listing marked listed) ∧
      (viewAppDetails parse env r sessions apiKey found = .serverError ↔
        ∀ listing, found = .ok listing → ¬ Comparable parse env r listing) := by
  have hmarked : viewAppDetails parse env r sessions apiKey found
      = match found.bind (updateWithLocalInfo parse env r) with
        | .error _ => .serverError
        | .ok listing => .ok listing := by
    unfold viewAppDetails
    rw [hsession]
    cases found.bind (updateWithLocalInfo parse env r) <;> rfl
  rw [hmarked]
  cases found with
  | error x =>
    simp only [Except.bind]
    exact ⟨fun marked h => absurd h (by simp), iff_of_true trivial fun _ h => of_error_eq_ok h⟩
  | ok listing =>
    have hlisting : (∀ l, (.ok listing : Except Exn StoreListing) = .ok l → ¬ Comparable parse env r l) ↔
        ¬ Comparable parse env r listing :=
      ⟨fun h => h listing rfl, fun h l hl => Except.ok.inj hl ▸ h⟩
    rw [hlisting, ← updateWithLocalInfo_error_iff]
    simp only [Except.bind]
    cases hupdate : updateWithLocalInfo parse env r listing with
    | error x => exact ⟨fun marked h => absurd h (by simp), iff_of_true rfl ⟨x, rfl⟩⟩
    | ok marked =>
      refine ⟨fun marked' h => ?_, iff_of_false (by simp)
        fun h => of_error_eq_ok h.choose_spec.symm⟩
      obtain rfl := StoreResponse.ok.inj h
      obtain ⟨listed, hlisted, hoffers⟩ := offers_of_update hupdate
      exact ⟨listing, listed, rfl, hlisted, hoffers⟩

/-- Versions that are compared as texts; an empty one cannot be read. -/
def asText (version : String) : Except Exn String :=
  if version = "" then .error (.illegalArgument version) else .ok version

/-- The store lists version `3.0.0` of the blog, which is upgraded; and it lists a wiki without a
version beside it. -/
theorem queryAppStore_offers_blog :
    (∃ listed, asText "3.0.0" = .ok listed ∧ Offers asText upgradedBlog ⟨"blog", "3.0.0", none⟩
      ⟨"blog", "3.0.0", some .upgrade_available_installed⟩ listed) ∧
      ∃ x, queryAppStore asText .mock upgradedBlog (fun _ => some (.new "alice")) "key"
        (.ok [⟨"blog", "3.0.0", none⟩, ⟨"wiki", "", none⟩]) = .error x := by
  have hone := (queryAppStore_offers asText .mock upgradedBlog (fun _ => some (.new "alice")) "key"
    (.ok [⟨"blog", "3.0.0", none⟩])).1 [⟨"blog", "3.0.0", some .upgrade_available_installed⟩] rfl
  obtain ⟨-, results, hresults, hmarked⟩ := hone
  obtain rfl := Except.ok.inj hresults
  have hboth := (queryAppStore_offers asText .mock upgradedBlog (fun _ => some (.new "alice")) "key"
    (.ok [⟨"blog", "3.0.0", none⟩, ⟨"wiki", "", none⟩])).2
  refine ⟨(List.forall₂_cons.1 hmarked).1, hboth.2 ⟨rfl, _, rfl, ⟨"wiki", "", none⟩, by simp, ?_⟩⟩
  intro hcomparable
  obtain ⟨v, hv⟩ := hcomparable.listed
  exact of_error_eq_ok hv

/-! ### The status after the tasks -/

section Tasks

open AppInstallTask Apps

variable {account : String} {s : TaskServer} {events : List TaskEvent} (env' : AppEnv)

/-- An install that succeeds records the version of the request. -/
theorem activeVersion_of_installs {env : AppEnv} {request : AppInstallRequest} {s t : AppServer}
    {x : Except Exit TaskResult} (h : Installs env account request s x t) (hsuccess : Succeeds x) :
    t.repository.activeVersion request.name = request.version := by
  cases h with
  | unfound _ hfails => exact absurd hsuccess hfails
  | unread _ _ hfails => exact absurd hsuccess hfails
  | stops _ _ _ hfails => exact absurd hsuccess hfails
  | records _ _ _ hsucceeds _ hwritten =>
    rw [AppRepository.activeVersion, hwritten, AppRepository.metadata_putMetadata_self,
      writtenMetadata, if_neg (by rw [hsucceeds.1 hsuccess]; exact Bool.false_ne_true)]
    rfl

/-- **After an install** that succeeds and names the version it deploys, and after every run of
tasks for other apps that follows, the app is listed as installed, or, where the store lists a newer
version, with an upgrade. -/
theorem status_after_install {request : AppInstallRequest} {v : String} {active : V}
    (hsuccess : Succeeds (exec (execute env account request) (fresh s.toAppServer)).1)
    (hnames : NamesVersion env request s.repository) (hversion : request.version = some v)
    (hactive : parse v = .ok active) (hothers : ∀ e ∈ events, NamesOther request.name e)
    (listed : V) : statusOf parse env'
        (Runs.run TaskServer.step (s.step (.install env account request)) events).repository
        request.name listed
      = .ok (if active < listed then .upgrade_available_installed else .installed) := by
  have hinstalls : Installs env account request (fresh s.toAppServer) _ _ :=
    execute_installs account request rfl
  obtain ⟨-, -, manifest, -, -, hnamed, hfound⟩ :=
    (activates_of_installs hinstalls hsuccess).2 hnames
  have hrecorded := (activeVersion_of_installs hinstalls hsuccess).trans hversion
  obtain ⟨app, happ, -⟩ := Option.map_eq_some_iff.1 hfound
  have hafter := sameApp_run (s := s.step (.install env account request)) hothers
  have hkept := hafter.findInstalledByName.trans happ
  have hactiveOf : activeOf parse app = .ok active :=
    (activeOf_of_found happ hrecorded).trans hactive
  simp only [statusOf, hkept]
  change (activeOf parse app >>= _) = _
  rw [hactiveOf]
  rfl

/-- The blog is installed, and then the wiki is uninstalled. -/
theorem status_after_install_blog : statusOf asText .mock
    (Runs.run TaskServer.step
      (TaskServer.step { toAppServer := blogServer }
        (.install .mock "root" (AppDAO.install "blog" (some "1.0.0") false)))
      [.uninstall goodbye ⟨"wiki", none⟩]).repository "blog" "2.0.0"
    = .ok (if "1.0.0" < "2.0.0" then .upgrade_available_installed else .installed) := by
  have hnames : NamesVersion .mock (AppDAO.install "blog" (some "1.0.0") false)
      blogServer.repository :=
    (@namesVersion_iff .mock _ _ "1.0.0" blogManifest rfl rfl rfl rfl).2 rfl
  have hsuccess : Succeeds (exec (execute .mock "root"
      (AppDAO.install "blog" (some "1.0.0") false)) (fresh blogServer)).1 :=
    succeeds_iff.2 (by decide +kernel)
  have hactive : asText "1.0.0" = .ok "1.0.0" := rfl
  refine status_after_install (s := { toAppServer := blogServer }) .mock hsuccess hnames rfl hactive
    (fun e he => ?_) "2.0.0"
  obtain rfl := List.mem_singleton.1 he
  exact fun h => absurd h (by decide)

/-- **After an uninstall** that chef lets through and that deletes the directory of the app, and after
every run of tasks for other apps that follows, the app is listed as available in the store. -/
theorem status_after_uninstall {env : UninstallEnv} {request : AppUninstallRequest}
    (hremoved : IsRemoved env request.name s.repository)
    (hdeletes : env.deleteQuietly (s.repository request.name) = none)
    (hothers : ∀ e ∈ events, NamesOther request.name e) (listed : V) : statusOf parse env'
        (Runs.run TaskServer.step (s.step (.uninstall env request)) events).repository
        request.name listed
      = .ok .available_appstore := by
  have hafter := sameApp_run (s := s.step (.uninstall env request)) hothers
  have hdeleted : (s.step (.uninstall env request)).repository request.name = {} := by
    obtain ⟨x, hends⟩ := uninstalls_step env request s
    cases hends with
    | stops hstops =>
      obtain ⟨version, manifest, hremoves⟩ := hremoved
      exact absurd hremoves (hstops version manifest)
    | removes _ hdeleted =>
      refine (congrFun hdeleted request.name).trans ?_
      rw [AppUninstallTask.deleted, Function.update_self, AppUninstallTask.left]
      exact congrArg (·.getD {}) hdeletes
  have hnothing : findInstalledByName
      (Runs.run TaskServer.step (s.step (.uninstall env request)) events).repository request.name
        = none := by
    rw [hafter.findInstalledByName, findInstalledByName, AppRepository.activeVersion, hdeleted]
    rfl
  have hempty : ∀ v, (AppManifest.load ((Runs.run TaskServer.step
      (s.step (.uninstall env request)) events).repository.version request.name v)).toOption
        = none := by
    intro v
    rw [AppManifest.load, ← hafter.files v AppLayout.manifestFile, AppRepository.version, hdeleted]
    rfl
  have hlatest : findLatestVersionByName
      (Runs.run TaskServer.step (s.step (.uninstall env request)) events).repository env'
        request.name = none := by
    rw [findLatestVersionByName, Option.bind_eq_none_iff]
    exact fun v _ => hempty v
  simp only [statusOf, hnothing, hlatest]
  rfl

/-- The blog is uninstalled, and then the wiki is. -/
theorem status_after_uninstall_blog : statusOf asText .mock
    (Runs.run TaskServer.step
      (TaskServer.step { toAppServer := runningBlog } (.uninstall goodbye ⟨"blog", none⟩))
      [.uninstall goodbye ⟨"wiki", none⟩]).repository "blog" "1.0.0" = .ok .available_appstore := by
  have hremoved : IsRemoved goodbye "blog" runningBlog.repository :=
    ⟨"1.0.0", blogManifest, rfl, rfl, _, rfl, rfl⟩
  refine status_after_uninstall (s := { toAppServer := runningBlog }) .mock hremoved rfl
    (fun e he => ?_) "1.0.0"
  obtain rfl := List.mem_singleton.1 he
  exact fun h => absurd h (by decide)

end Tasks

end AppStoreResource

end CloudOs

/-
# A successful install activates what it deployed

After a successful install the metadata of the app are meant to name the version whose cookbooks
chef has run, and to stay as they are when the install fails.

The version is resolved from the request, or from the app store, and its manifest is what is
deployed.  What is recorded is the version of the request.

| request | what is recorded |
| --- | --- |
| with a version | the version of the request, whatever the manifest says |
| without a version | no version, so that no version is active |

A failed install leaves the metadata as they were, unless it fails at the write of the metadata.
-/

import CloudOs.Dao.AppDAO
import CloudOs.Apps.Downloads

namespace CloudOs

open Prog AppTask AppInstallTask

namespace Apps

variable {env : AppEnv}

/-- A new task has nothing to report. -/
def newTask (s : AppServer) : AppServer := { s with task := {} }

/-- The metadata name the version of the manifest that was sent to chef, and that version is
what is found as installed. -/
def Activates (request : AppInstallRequest) (t : AppServer) : Prop :=
  ∃ message rest manifest, t.messages = message :: rest ∧
    AppManifest.load (t.repository.version message.app message.version) = .ok manifest ∧
    t.repository.activeVersion request.name = some manifest.version ∧
    (AppDAO.findInstalledByName t.repository request.name).map (fun app => app.manifest.version)
      = some manifest.version

/-- The request names the version that the manifest of the version found states, and the
directory of that name holds a manifest of that version. -/
def NamesVersion (env : AppEnv) (request : AppInstallRequest) (r : AppRepository) : Prop :=
  ∃ version found manifest manifest', Finds env request r (some version) found ∧
    AppManifest.load (found.version request.name version) = .ok manifest ∧
    request.version = some manifest.version ∧
    AppManifest.load (found.version request.name manifest.version) = .ok manifest' ∧
    manifest'.version = manifest.version

/-- A write of the metadata that fails leaves them as they were. -/
def KeepsMetadata (env : AppEnv) (request : AppInstallRequest) (r : AppRepository) : Prop :=
  ∀ version found p, Finds env request r (some version) found →
    plan env found request.name version = .ok p → Records env request found version p →
      ∀ torn, env.tornMetadata = some torn → torn = (r request.name).metadata

/-- What an install that is recorded leaves. -/
theorem activates_iff {account : String} {request : AppInstallRequest} {r : AppRepository}
    {t : AppServer} {version : String} {found : AppRepository} {p : Plan env} {old : MetadataFile}
    (hfinds : Finds env request r (some version) found)
    (hplanned : plan env found request.name version = .ok p)
    (hgoes : env.fails .writeMetadata = false)
    (hsent : ∃ rest, t.messages = chefMessage request version p.manifest :: rest)
    (hwritten : t.repository = (putDatabags found request.name version
      (deployed env found request.name version p)).putMetadata request.name
        (writtenMetadata env (recorded account request p.manifest) old)) :
    Activates request t ↔ NamesVersion env request r := by
  have hload : ∀ w, AppManifest.load (t.repository.version request.name w)
      = AppManifest.load (found.version request.name w) := by
    intro w
    rw [hwritten, AppRepository.version_putMetadata, load_putDatabags]
  have hactive : t.repository.activeVersion request.name = request.version := by
    rw [AppRepository.activeVersion, hwritten, AppRepository.metadata_putMetadata_self,
      writtenMetadata, if_neg (by rw [hgoes]; exact Bool.false_ne_true)]
    rfl
  have hplan := load_of_plan hplanned
  constructor
  · rintro ⟨message, rest, manifest, hmessages, hmanifest, hversion, hfound⟩
    obtain ⟨rest', hrest⟩ := hsent
    obtain rfl : message = chefMessage request version p.manifest :=
      (List.cons.inj (hmessages.symm.trans hrest)).1
    change AppManifest.load (t.repository.version request.name version) = .ok manifest at hmanifest
    rw [hload] at hmanifest
    rw [AppDAO.findInstalledByName, hversion, Option.bind_some, AppDAO.loadApp, hload] at hfound
    rw [hactive] at hversion
    cases hmanifest' : AppManifest.load (found.version request.name manifest.version) with
    | error x =>
      rw [hmanifest'] at hfound
      exact absurd hfound (Option.some_ne_none _).symm
    | ok manifest' =>
      rw [hmanifest'] at hfound
      exact ⟨version, found, manifest, manifest', hfinds, hmanifest, hversion, hmanifest',
        Option.some.inj hfound⟩
  · rintro ⟨v, found', manifest, manifest', hfinds', hmanifest, hversion, hmanifest', heq⟩
    obtain ⟨rfl, rfl⟩ := hfinds'.unique_some hfinds
    obtain rfl := Except.ok.inj (hmanifest.symm.trans hplan)
    obtain ⟨rest, hrest⟩ := hsent
    refine ⟨_, rest, p.manifest, hrest, (hload v).trans hplan, hactive.trans hversion, ?_⟩
    rw [AppDAO.findInstalledByName, hactive, hversion, Option.bind_some, AppDAO.loadApp, hload,
      hmanifest']
    exact congrArg some heq

/-- What an install that fails leaves of the metadata. -/
theorem metadata_kept_iff {account : String} {request : AppInstallRequest} {s t : AppServer}
    {r : Except Exit TaskResult} (h : Installs env account request s r t) (hno : ¬ Succeeds r) :
    (t.repository request.name).metadata = (s.repository request.name).metadata ↔
      KeepsMetadata env request s.repository := by
  cases h with
  | unfound hfinds =>
    refine iff_of_true (hfinds.metadata _) ?_
    intro v found p hfinds' _ _
    exact absurd (hfinds'.unique hfinds).1 (Option.some_ne_none v)
  | unread hfinds hunread =>
    refine iff_of_true (hfinds.metadata _) ?_
    intro v found p hfinds' hplanned _
    obtain ⟨rfl, rfl⟩ := hfinds'.unique_some hfinds
    exact of_error_eq_ok (hunread.symm.trans hplanned)
  | stops hfinds hplanned hstops _ hwritten =>
    refine iff_of_true ?_ ?_
    · rw [hwritten, metadata_putDatabags]
      exact hfinds.metadata _
    · intro v found p hfinds' hplanned' hrecords
      obtain ⟨rfl, rfl⟩ := hfinds'.unique_some hfinds
      obtain rfl := Except.ok.inj (hplanned.symm.trans hplanned')
      exact absurd hrecords hstops
  | records hfinds hplanned hrecords hsucceeds _ hwritten =>
    have hfails : env.fails .writeMetadata = true := by
      rw [hsucceeds, Bool.not_eq_false] at hno
      exact hno
    rw [hwritten, AppRepository.metadata_putMetadata_self, writtenMetadata, if_pos hfails]
    constructor
    · intro hsame v _ _ _ _ _ torn htorn
      rw [htorn] at hsame
      exact hsame
    · intro hkeeps
      cases htorn : env.tornMetadata with
      | none => rfl
      | some torn => exact hkeeps _ _ _ hfinds hplanned hrecords torn htorn

/-- What an install that succeeds activates. -/
theorem activates_of_installs {account : String} {request : AppInstallRequest} {s t : AppServer}
    {r : Except Exit TaskResult} (h : Installs env account request s r t) (hsuccess : Succeeds r) :
    Activates request t ↔ NamesVersion env request s.repository := by
  cases h with
  | unfound _ hfails => exact absurd hsuccess hfails
  | unread _ _ hfails => exact absurd hsuccess hfails
  | stops _ _ _ hfails => exact absurd hsuccess hfails
  | records hfinds hplanned _ hsucceeds hsent hwritten =>
    exact activates_iff hfinds hplanned (hsucceeds.1 hsuccess) hsent hwritten

/-- **A successful install activates what it deployed** exactly when the request names the
version of the manifest, and **a failed one keeps the metadata** exactly when a write of the
metadata that fails does. -/
theorem install_activates_iff (env : AppEnv) (account : String) (request : AppInstallRequest)
    (s : AppServer) : Ends (execute env account request) (newTask s) fun r t =>
      (Succeeds r → (Activates request t ↔ NamesVersion env request s.repository)) ∧
      (¬ Succeeds r → ((t.repository request.name).metadata = (s.repository request.name).metadata ↔
        KeepsMetadata env request s.repository)) := by
  refine (execute_installs account request (s := newTask s) rfl).mono fun r t ht => ?_
  have hactivates := activates_of_installs ht
  have hkept := metadata_kept_iff ht
  exact ⟨hactivates, hkept⟩

/-! ### Requests without a version -/

/-- A request without a version names none. -/
theorem not_namesVersion {request : AppInstallRequest} (h : request.version = none)
    (r : AppRepository) : ¬ NamesVersion env request r := by
  rintro ⟨_, _, manifest, _, -, -, hversion, -⟩
  exact absurd (h.symm.trans hversion) (Option.some_ne_none _).symm

/-- An admin who asks for the latest version sends a request without one. -/
theorem version_installApp {sessions : String → Option Account} {apiKey app : String}
    {force : Option Bool} {request : AppInstallRequest}
    (h : AppsResource.installApp sessions apiKey app "latest" force = .ok request) :
    request.version = none := by
  unfold AppsResource.installApp at h
  split at h
  · exact of_error_eq_ok h
  · rw [if_pos rfl] at h
    split_ifs at h
    obtain rfl := Except.ok.inj h
    rfl

/-- **The latest version is never activated**, whatever is installed. -/
theorem latest_never_activated {sessions : String → Option Account} {apiKey app : String}
    {force : Option Bool} {request : AppInstallRequest}
    (h : AppsResource.installApp sessions apiKey app "latest" force = .ok request)
    (account : String) (s : AppServer) :
    Ends (execute env account request) (newTask s) fun r t => Succeeds r → ¬ Activates request t := by
  refine (execute_installs account request (s := newTask s) rfl).mono fun r t ht hsuccess => ?_
  rw [activates_of_installs ht hsuccess]
  exact not_namesVersion (version_installApp h) _

/-- A version in the repository whose directory is named by its manifest is activated exactly
when the request names it. -/
theorem namesVersion_iff {request : AppInstallRequest} {r : AppRepository} {version : String}
    {manifest : AppManifest} (hrequested : requestedVersion env r request = some version)
    (hthere : r.hasVersion request.name version = true)
    (hload : AppManifest.load (r.version request.name version) = .ok manifest)
    (hnamed : manifest.version = version) :
    NamesVersion env request r ↔ request.version = some version := by
  have hfinds : Finds env request r (some version) r := .present hrequested hthere
  constructor
  · rintro ⟨v, found, manifest', _, hfinds', hload', hversion, -⟩
    obtain ⟨rfl, rfl⟩ := hfinds'.unique_some hfinds
    obtain rfl := Except.ok.inj (hload'.symm.trans hload)
    rw [hversion, hnamed]
  · intro hversion
    exact ⟨version, r, manifest, manifest, hfinds, hload, by rw [hnamed, hversion],
      by rw [hnamed, hload], rfl⟩

/-- The install of the latest version of the blog. -/
def latestBlog : AppInstallRequest := AppDAO.install "blog" none false

/-- **The latest version is installed, and none is active.**  Chef has run the cookbooks of
version `1.0.0`, and the metadata name no version. -/
theorem latest_not_activated : ¬ Ends (execute .mock "root" latestBlog) (newTask blogServer)
    fun r t => (Succeeds r → Activates latestBlog t) ∧
      (¬ Succeeds r → (t.repository "blog").metadata = (blogServer.repository "blog").metadata) := by
  rintro ⟨hactivates, -⟩
  have hsucceeds : Succeeds (exec (execute .mock "root" latestBlog) (newTask blogServer)).1 :=
    succeeds_iff.2 (by decide +kernel)
  have hactive : (exec (execute .mock "root" latestBlog) (newTask blogServer)).2.repository.activeVersion
      "blog" = none := by decide +kernel
  obtain ⟨_, _, manifest, -, -, hversion, -⟩ := hactivates hsucceeds
  exact absurd (hactive.symm.trans hversion) (Option.some_ne_none _).symm

end Apps

end CloudOs

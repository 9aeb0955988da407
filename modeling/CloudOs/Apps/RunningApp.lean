/-
# Failed installs and the running app

A failed install is meant to leave the running version of the app alone: its metadata, its
configuration and its ports, so that the requests for the app are proxied as before.

`AppInstallTask` writes the databags of the version that it installs before it asks chef, and
does not write them back.

| the version installed is | what becomes of the databags of the active version |
| --- | --- |
| another one, in the repository | they stay as they are |
| the active one | they are overwritten, with the configuration and newly picked ports |
| downloaded | what the download leaves of them, if its bundle is one of the active version |
-/

import CloudOs.Apps.Activation

namespace CloudOs

open Prog AppTask AppInstallTask

namespace Apps

variable {env : AppEnv} {request : AppInstallRequest} {r : AppRepository} {a : String}

/-- The metadata of the app, and the configuration and the ports of the version `a` of it, are
the same.

The databag of the manifest is neither. -/
structure Undisturbed (app a : String) (r r' : AppRepository) : Prop where
  metadata : (r' app).metadata = (r app).metadata
  databags : ∀ id, id ≠ AppLayout.cloudosManifest → r'.databag app a id = r.databag app a id

/-- The databags of the version `a` that are written when the version `version` is installed. -/
def writesTo (env : AppEnv) (request : AppInstallRequest) (a : String) (found : AppRepository)
    (version : Option String) : List (String × Content) :=
  match version with
  | none => []
  | some version =>
    match plan env found request.name version with
    | .error _ => []
    | .ok p => if version = a then deployed env found request.name version p else []

/-- No configuration and no ports of the version `a` are written: there is nothing to install, the
version installed is another one, or the install stops before. -/
def StopsBefore (env : AppEnv) (request : AppInstallRequest) (a : String) (found : AppRepository)
    (version : Option String) : Prop :=
  ∀ p, version = some a → plan env found request.name a = .ok p →
    configurationWritten env p.databags = [] ∧ reachesPorts env found request.name a p = false

/-- When a failed install spares the version `a`.

* A write of the metadata that fails leaves them as they were.
* When the install stops before, a download has left every databag as it was.
* When it writes databags, what is written last to each of them, or left by a download, is what
  stands there. -/
structure Spares (env : AppEnv) (request : AppInstallRequest) (r : AppRepository) (a : String) :
    Prop where
  metadata : KeepsMetadata env request r
  stops : ∀ version found, Finds env request r version found →
    StopsBefore env request a found version →
      ∀ id, id ≠ AppLayout.cloudosManifest →
        found.databag request.name a id = r.databag request.name a id
  databags : ∀ version found, Finds env request r version found →
    ¬ StopsBefore env request a found version →
      ∀ id, id ≠ AppLayout.cloudosManifest →
        ((writesTo env request a found version).reverse.lookup id).or
          (found.databag request.name a id) = r.databag request.name a id

/-- A download, if there is one, keeps the manifest of the version `a`. -/
def KeepsManifest (env : AppEnv) (request : AppInstallRequest) (r : AppRepository) (a : String) :
    Prop :=
  ∀ version found, Finds env request r version found →
    AppManifest.load (found.version request.name a) = AppManifest.load (r.version request.name a)

/-- The directory of the version `a` is named by its manifest. -/
def IsNamed (r : AppRepository) (app a : String) : Prop :=
  ∀ manifest, AppManifest.load (r.version app a) = .ok manifest →
    manifest.scrubbedName = app ∧ manifest.version = a

/-! ### What an install leaves of a version -/

theorem databag_putDatabags_at (found : AppRepository) (app version id : String)
    (ws : List (String × Content)) : (putDatabags found app version ws).databag app a id
      = ((if version = a then ws else []).reverse.lookup id).or (found.databag app a id) := by
  split_ifs with hversion
  · rw [← hversion, databag_putDatabags]
  · rw [AppRepository.databag, (putDatabags_leaves found ws).others app a fun h =>
      hversion (Prod.mk.inj h).2.symm]
    rfl

/-- What an install leaves of the version `a`: its databags, and its manifest. -/
theorem installs_left {account : String} {s t : AppServer} {x : Except Exit TaskResult}
    (h : Installs env account request s x t) (a : String) : ∃ version found,
      Finds env request s.repository version found ∧
      (∀ id, t.repository.databag request.name a id =
        ((writesTo env request a found version).reverse.lookup id).or
          (found.databag request.name a id)) ∧
      AppManifest.load (t.repository.version request.name a)
        = AppManifest.load (found.version request.name a) := by
  cases h with
  | unfound hfinds => exact ⟨_, _, hfinds, fun _ => rfl, rfl⟩
  | unread hfinds hunread =>
    refine ⟨_, _, hfinds, fun _ => ?_, rfl⟩
    simp only [writesTo, hunread]
    rfl
  | stops hfinds hplanned _ _ hwritten =>
    refine ⟨_, _, hfinds, fun id => ?_, ?_⟩
    · simp only [writesTo, hplanned, hwritten, databag_putDatabags_at]
    · rw [hwritten, load_putDatabags]
  | records hfinds hplanned _ _ _ hwritten =>
    refine ⟨_, _, hfinds, fun id => ?_, ?_⟩
    · rw [hwritten, AppRepository.databag, AppRepository.version_putMetadata,
        ← AppRepository.databag, databag_putDatabags_at]
      simp only [writesTo, hplanned]
    · rw [hwritten, AppRepository.version_putMetadata, load_putDatabags]

/-- A write to one databag is none to another. -/
theorem lookup_written_of_ne {step : AppStep} {id other : String} {content : Content}
    (hne : id ≠ other) : (written env step other content).reverse.lookup id = none := by
  have hbeq : (id == other) = false := beq_eq_false_iff_ne.2 hne
  have hone : ∀ c : Content, [(other, c)].reverse.lookup id = none := by
    intro c
    rw [List.reverse_singleton, List.lookup_cons, hbeq]
    rfl
  unfold written
  split_ifs
  · cases env.torn step with
    | none => rfl
    | some torn => exact hone torn
  · exact hone content

/-- An install that stops before writes to no databag but that of the manifest. -/
theorem lookup_writesTo_of_stops {found : AppRepository} {version : Option String}
    (h : StopsBefore env request a found version) {id : String}
    (hid : id ≠ AppLayout.cloudosManifest) :
    (writesTo env request a found version).reverse.lookup id = none := by
  cases version with
  | none => rfl
  | some version =>
    unfold writesTo
    dsimp only
    split
    · rfl
    next p hplanned =>
    split_ifs with hversion
    · subst hversion
      obtain ⟨hconfig, hports⟩ := h p rfl hplanned
      rw [deployed, hconfig, hports]
      simp only [List.nil_append, Bool.false_eq_true, if_false, List.append_nil]
      split_ifs
      · exact lookup_written_of_ne hid
      · rfl
    · rfl

/-- What the install writes to the databags is as the condition asks, whether it stops before or
not. -/
theorem Spares.left {version : Option String} {found : AppRepository}
    (h : Spares env request r a) (hfinds : Finds env request r version found) (id : String)
    (hid : id ≠ AppLayout.cloudosManifest) :
    ((writesTo env request a found version).reverse.lookup id).or (found.databag request.name a id)
      = r.databag request.name a id := by
  by_cases hstops : StopsBefore env request a found version
  · rw [lookup_writesTo_of_stops hstops hid, Option.none_or]
    exact h.stops _ _ hfinds hstops id hid
  · exact h.databags _ _ hfinds hstops id hid

theorem Spares.of_left (hmetadata : KeepsMetadata env request r)
    (h : ∀ version found, Finds env request r version found → ∀ id, id ≠ AppLayout.cloudosManifest →
      ((writesTo env request a found version).reverse.lookup id).or
        (found.databag request.name a id) = r.databag request.name a id) :
    Spares env request r a where
  metadata := hmetadata
  stops version found hfinds hstops id hid := by
    have hleft := h version found hfinds id hid
    rwa [lookup_writesTo_of_stops hstops hid, Option.none_or] at hleft
  databags version found hfinds _ := h version found hfinds

/-- The databags that are left are determined. -/
theorem left_unique {version version' : Option String} {found found' : AppRepository}
    (h : Finds env request r version found) (h' : Finds env request r version' found')
    (id : String) : ((writesTo env request a found version).reverse.lookup id).or
      (found.databag request.name a id) =
        ((writesTo env request a found' version').reverse.lookup id).or
          (found'.databag request.name a id) := by
  obtain ⟨rfl, hfiles, hsame⟩ := h.unique h'
  cases version with
  | none => exact hfiles.databag _ _ _
  | some v => rw [hsame (Option.some_ne_none v)]

/-- The URI is read from the metadata of the app, and from the manifest and the ports of its
active version. -/
theorem appUri_congr {app : String} {r r' : AppRepository}
    (hactive : r.activeVersion app = some a) (hnamed : IsNamed r app a)
    (hload : AppManifest.load (r'.version app a) = AppManifest.load (r.version app a))
    (h : Undisturbed app a r r') : AppAdapter.appUri r' app = AppAdapter.appUri r app := by
  have hactive' : r'.activeVersion app = some a := by
    rw [AppRepository.activeVersion, h.metadata]
    exact hactive
  have hports := h.databags AppLayout.portsId (by decide)
  simp only [AppAdapter.appUri, AppDAO.findInstalledByName, hactive, hactive', Option.bind_some,
    AppDAO.loadApp, hload]
  cases hmanifest : AppManifest.load (r.version app a) with
  | error x => rfl
  | ok manifest =>
    obtain ⟨hname, hversion⟩ := hnamed manifest hmanifest
    simp only [Option.bind_eq_bind, Option.bind_some, AppAdapter.getPortsDatabag, hname, hversion,
      hports]

/-- **A failed install does not disturb the running app** exactly when what it has written is
what stood there.  The app is then proxied as before. -/
theorem failed_install_spares_iff (env : AppEnv) (account : String) (request : AppInstallRequest)
    (s : AppServer) (a : String) (hactive : s.repository.activeVersion request.name = some a) :
    Ends (execute env account request) (newTask s) fun x t => ¬ Succeeds x →
      (Undisturbed request.name a s.repository t.repository ↔ Spares env request s.repository a) ∧
      (Undisturbed request.name a s.repository t.repository →
        IsNamed s.repository request.name a → KeepsManifest env request s.repository a →
          AppAdapter.appUri t.repository request.name
            = AppAdapter.appUri s.repository request.name) := by
  refine (execute_installs account request (s := newTask s) rfl).mono fun x t ht hno => ?_
  obtain ⟨version, found, hfinds, hdatabags, hload⟩ := installs_left ht a
  have hmetadata := metadata_kept_iff ht hno
  refine ⟨⟨fun h => .of_left (hmetadata.1 h.metadata) fun v f hf id hid => ?_, fun h =>
    ⟨hmetadata.2 h.metadata, fun id hid => ?_⟩⟩, fun h hnamed hkeeps => ?_⟩
  · rw [left_unique hf hfinds, ← hdatabags, h.databags id hid]
  · rw [hdatabags]
    exact h.left hfinds id hid
  · exact appUri_congr hactive hnamed (hload.trans (hkeeps _ _ hfinds)) h

/-! ### The version that is installed -/

/-- There is no download when the version is in the repository. -/
theorem keepsManifest_of_present {version : String}
    (hrequested : requestedVersion env r request = some version)
    (hthere : r.hasVersion request.name version = true) : KeepsManifest env request r a := by
  intro v found hfinds
  obtain ⟨-, hfiles, -⟩ := hfinds.unique (.present hrequested hthere)
  rw [AppManifest.load, hfiles request.name a AppLayout.manifestFile, AppManifest.load]

/-- An install of another version, which is in the repository, spares the active one when a
write of the metadata that fails does. -/
theorem spares_of_ne {version : String} (hrequested : requestedVersion env r request = some version)
    (hthere : r.hasVersion request.name version = true) (hne : version ≠ a) :
    Spares env request r a ↔ KeepsMetadata env request r := by
  refine ⟨Spares.metadata, fun hkeeps => .of_left hkeeps fun v found hfinds id _ => ?_⟩
  rw [left_unique hfinds (.present hrequested hthere)]
  simp only [writesTo]
  split
  · rfl
  · rw [if_neg hne]
    rfl

/-- An install of the active version spares it only when the ports that are picked are the
ports that it has, once the ports are written. -/
theorem ports_of_spares {p : Plan env} (hrequested : requestedVersion env r request = some a)
    (hthere : r.hasVersion request.name a = true) (hplanned : plan env r request.name a = .ok p)
    (hreaches : reachesPorts env r request.name a p = true) (hgoes : env.fails .writePorts = false)
    (h : Spares env request r a) :
    r.databag request.name a AppLayout.portsId = some (.ports env.pick) := by
  have hports := h.left (.present hrequested hthere) AppLayout.portsId (by decide)
  have hwritten : (writesTo env request a r (some a)).reverse.lookup AppLayout.portsId
      = some (.ports env.pick) := by
    simp only [writesTo, hplanned, if_pos, deployed, hreaches, written, hgoes]
    simp
  rw [hwritten] at hports
  exact hports.symm

/-! ### The blog -/

/-- The blog is active, with the port `9090`. -/
def runningBlog : AppServer where
  repository := fun app => if app = "blog" then
    { metadata := .json { activeVersion := some "1.0.0" }
      versions := fun v => if v = "1.0.0" then
          (FileTree.ofEntries blogEntries).write (AppLayout.databagFile "blog" AppLayout.portsId)
            (.ports ⟨9090⟩)
        else .empty }
    else {}

/-- Chef does not succeed. -/
def brokenChef : AppEnv := { AppEnv.mock with
  request := fun _ => ⟨false, false, some "chef failed"⟩ }

/-- A newer version of the blog is in the repository too. -/
def upgradableBlog : AppServer where
  repository := runningBlog.repository.onVersion "blog" "2.0.0" fun _ =>
    .ofEntries [("cloudos-manifest.json", .single (.manifest { blogManifest with version := "2.0.0" })),
      ("chef", .ofEntries [])]

def newBlog : AppInstallRequest := AppDAO.install "blog" (some "2.0.0") true

/-- Chef fails at the newer version, and the active one keeps its port. -/
theorem failed_install_spares_iff_blog :
    ¬ Succeeds (exec (execute brokenChef "root" newBlog) (newTask upgradableBlog)).1 ∧
    Spares brokenChef newBlog upgradableBlog.repository "1.0.0" ∧
    Ends (execute brokenChef "root" newBlog) (newTask upgradableBlog) fun _ t =>
      Undisturbed "blog" "1.0.0" upgradableBlog.repository t.repository ∧
        AppAdapter.appUri t.repository "blog" = AppAdapter.appUri upgradableBlog.repository "blog" := by
  have hfails : ¬ Succeeds (exec (execute brokenChef "root" newBlog) (newTask upgradableBlog)).1 :=
    mt succeeds_iff.1 (by decide +kernel)
  have hmetadata : KeepsMetadata brokenChef newBlog upgradableBlog.repository :=
    fun _ _ _ _ _ _ _ h => absurd h (by simp [brokenChef, AppEnv.mock])
  have hrequested : requestedVersion brokenChef upgradableBlog.repository newBlog = some "2.0.0" :=
    rfl
  have hthere : upgradableBlog.repository.hasVersion newBlog.name "2.0.0" = true := by
    decide +kernel
  have hspares : Spares brokenChef newBlog upgradableBlog.repository "1.0.0" :=
    (spares_of_ne hrequested hthere (by decide)).2 hmetadata
  have hnamed : IsNamed upgradableBlog.repository "blog" "1.0.0" := by
    intro manifest hmanifest
    have hload : AppManifest.load (upgradableBlog.repository.version "blog" "1.0.0")
        = .ok blogManifest := by decide +kernel
    obtain rfl := Except.ok.inj (hmanifest.symm.trans hload)
    exact ⟨by decide +kernel, rfl⟩
  have hspared := failed_install_spares_iff brokenChef "root" newBlog upgradableBlog "1.0.0"
    (by decide +kernel) hfails
  have hundisturbed := hspared.1.2 hspares
  exact ⟨hfails, hspares, hundisturbed, hspared.2 hundisturbed hnamed
    (keepsManifest_of_present hrequested hthere)⟩

/-- The install of the version of the blog that is active. -/
def blogAgain : AppInstallRequest := AppDAO.install "blog" (some "1.0.0") true

/-- **The running app loses its port.**  The blog is installed again, and chef fails; the blog is
proxied to the ports that were picked, and not to those it was deployed with. -/
theorem ports_overwritten : ¬ Ends (execute brokenChef "root" blogAgain) (newTask runningBlog)
    fun x t => ¬ Succeeds x →
      Undisturbed "blog" "1.0.0" runningBlog.repository t.repository ∧
        AppAdapter.appUri t.repository "blog" = AppAdapter.appUri runningBlog.repository "blog" := by
  intro h
  have hfails : ¬ Succeeds (exec (execute brokenChef "root" blogAgain) (newTask runningBlog)).1 :=
    mt succeeds_iff.1 (by decide +kernel)
  have hbefore : AppAdapter.appUri runningBlog.repository "blog"
      = some "http://127.0.0.1:9090/blog/" := by decide +kernel
  have hafter : AppAdapter.appUri (exec (execute brokenChef "root" blogAgain)
      (newTask runningBlog)).2.repository "blog" = some "http://127.0.0.1:8080/blog/" := by
    decide +kernel
  have huri := (h hfails).2
  rw [hbefore, hafter] at huri
  exact absurd huri (by decide)

end Apps

end CloudOs

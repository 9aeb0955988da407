/-
# Failed downloads

A download that fails is meant to leave the repository as it was.  `AppDownloadTask` removes its
temporary files when it fails, and nothing else.

| the download fails | what it leaves |
| --- | --- |
| before the bundle is moved | the files as they were |
| at an entry | the bundle, the entries before, and what a deletion has left |
| at the assets | the bundle, every entry, and the assets that have been written |

Without `overwrite` it leaves the files as they were in the first case alone: the bundle was not
there before (`keepsFiles_iff_of_not_overwrite`).
-/

import CloudOs.Service.AppDownloadTask
import Mathlib.Data.List.TakeWhile

namespace CloudOs

open Prog AppDownloadTask

namespace Apps

variable {env : AppEnv}

/-- The download fails before the bundle is moved: no bundle is brought, or there is no room for
it. -/
def FailsBeforeMove (env : AppEnv) (request : AppDownloadRequest) (r : AppRepository) : Prop :=
  ∀ b, Brings env request b → ¬ MakesRoom env request b r

/-- The failing download leaves the files as they were.

* It fails before the bundle is moved.
* Or the bundle is moved, and whatever the download has put into the directory of the version by
  then was there before. -/
def KeepsFiles (env : AppEnv) (request : AppDownloadRequest) (r : AppRepository) : Prop :=
  FailsBeforeMove env request r ∨ ∃ b, Brings env request b ∧ MakesRoom env request b r ∧
    FileTree.SameFiles (dirOf r b.manifest) (leftBy env request b (dirOf r b.manifest))

/-- **A failed download leaves the repository as it was** exactly when it fails before the bundle is
moved, or all that it has put in place by then was there before. -/
theorem failed_download_keeps_iff (env : AppEnv) (install : AppInstallRequest → AppTask TaskResult)
    (request : AppDownloadRequest) (s : AppServer) (hfails : ¬ Completes env request s.repository) :
    Ends (execute env install request) s fun r t => (∀ result, r ≠ .ok result) ∧
      (s.repository.SameFiles t.repository ↔ KeepsFiles env request s.repository) := by
  rw [execute, ends_bind]
  refine (add_ends request).mono fun r t ht => ?_
  obtain ⟨hcompletes, hfiles⟩ := ht
  cases r with
  | ok m => exact absurd (hcompletes.1 ⟨m, rfl⟩) hfails
  | error e =>
    refine ⟨fun result h => of_error_eq_ok h, ?_⟩
    rcases hfiles with ⟨b, hb, hroom, hleaves⟩ | ⟨hnone, hsame, -⟩
    · rw [hleaves.sameFiles_iff]
      constructor
      · exact fun hkeeps => Or.inr ⟨b, hb, hroom, hkeeps⟩
      · rintro (hbefore | ⟨c, hc, -, hkeeps⟩)
        · exact absurd hroom (hbefore b hb)
        · obtain rfl := hc.unique hb
          exact hkeeps
    · exact iff_of_true hsame (Or.inl hnone)

/-! ### Without `overwrite` -/

theorem foldl_graft_of_ne {n : String} : ∀ {entries : List (String × FileTree Content)}
    (t : FileTree Content), (∀ e ∈ entries, e.1 ≠ n) →
      entries.foldl (fun t e => t.graft e.1 e.2) t [n] = t [n]
  | [], _, _ => rfl
  | e :: es, t, h => by
    rw [List.foldl_cons, foldl_graft_of_ne _ fun x hx => h x (List.mem_cons_of_mem e hx),
      FileTree.graft_of_ne _ (h e List.mem_cons_self).symm]

/-- Without `overwrite` what is there stays there. -/
theorem placed_of_hasPath {t : FileTree Content} {n : String} (h : t.hasPath [n] = true)
    (entries : List (String × FileTree Content)) : placed env false t entries [n] = t [n] := by
  have hmoving : ∀ e ∈ moving env false t entries, e.1 ≠ n := by
    intro e he hen
    have hfree := List.mem_takeWhile_imp he
    simp [blocks, standsInWay, hen, h] at hfree
  have hmoved := foldl_graft_of_ne t hmoving
  unfold placed
  cases hstuck : stuck env false t entries with
  | none => exact hmoved
  | some e =>
    dsimp only
    by_cases hen : n = e.1
    · rw [hen, FileTree.graft_self, remains, Bool.not_false, Bool.or_true, if_pos rfl]
      rfl
    · rw [FileTree.graft_of_ne _ hen, hmoved]

/-- Without `overwrite` a bundle that has been moved stays. -/
theorem exists_bundle_leftBy {request : AppDownloadRequest} (hoverwrite : request.overwrite = false)
    (b : Bundle) (t : FileTree Content) :
    ∃ c, (leftBy env request b t).fileAt [env.bundleFile] = some c := by
  have hnode : withBundle env b.tarball t [env.bundleFile] = some (.file b.tarball.content) :=
    FileTree.graft_self _ _ _ _
  have hfile : (withBundle env b.tarball t).fileAt [env.bundleFile] = some b.tarball.content := by
    rw [FileTree.fileAt, hnode]
  have hplaced : (placed env request.overwrite (withBundle env b.tarball t)
      b.unrolled.entries).fileAt [env.bundleFile] = some b.tarball.content := by
    rw [hoverwrite, ← hfile]
    exact FileTree.fileAt_congr (placed_of_hasPath (by rw [FileTree.hasPath, hnode]; rfl) _)
  simp only [leftBy]
  split_ifs
  · exact ⟨_, hfile⟩
  · exact ⟨_, hplaced⟩
  · rw [FileTree.fileAt_writeAll, hplaced]
    exact Option.isSome_iff_exists.1 (by simp)

/-- **Without `overwrite`** a failed download leaves the files as they were exactly when it fails
before the bundle is moved. -/
theorem keepsFiles_iff_of_not_overwrite {request : AppDownloadRequest} {r : AppRepository}
    (hoverwrite : request.overwrite = false) :
    KeepsFiles env request r ↔ FailsBeforeMove env request r := by
  refine ⟨?_, Or.inl⟩
  rintro (hbefore | ⟨b, hb, hroom, hkeeps⟩)
  · exact hbefore
  · obtain ⟨c, hc⟩ := exists_bundle_leftBy hoverwrite b (dirOf r b.manifest)
    have hbefore : (dirOf r b.manifest).fileAt [env.bundleFile] = none := by
      have hno : ¬ (dirOf r b.manifest).hasPath [env.bundleFile] = true := fun h =>
        Bool.noConfusion (hoverwrite.symm.trans (hroom.overwrite h))
      rw [FileTree.hasPath, Option.not_isSome_iff_eq_none] at hno
      rw [FileTree.fileAt, hno]
    have hsame := hkeeps [env.bundleFile]
    rw [hbefore, hc] at hsame
    exact absurd hsame.symm (Option.some_ne_none c)

/-! ### The blog -/

/-- The manifest of the blog. -/
def blogManifest : AppManifest where
  name := "blog"
  scrubbedName := "blog"
  version := "1.0.0"
  hasConfig := false
  interactive := true
  normalizedLocalMount := "/blog/"

/-- The entries of the blog's bundle. -/
def blogEntries : List (String × FileTree Content) :=
  [("cloudos-manifest.json", .single (.manifest blogManifest)), ("chef", .ofEntries [])]

/-- The app store has the bundle of the blog. -/
def blogEnv : AppEnv := { AppEnv.mock with
  download := fun _ => .ok ⟨.bytes "tarball", .ok "sum", .ok ⟨blogEntries, by decide⟩⟩ }

/-- The blog is in the repository without its bundle. -/
def blogServer : AppServer where
  repository := fun app => if app = "blog" then
    { versions := fun v => if v = "1.0.0" then .ofEntries blogEntries else .empty }
    else {}

/-- The blog is in the repository with its bundle. -/
def bundledBlog : AppServer where
  repository := fun app => if app = "blog" then
    { versions := fun v => if v = "1.0.0" then
        .ofEntries (("bundle.tar.gz", .single (.bytes "tarball")) :: blogEntries) else .empty }
    else {}

/-- The entries of the bundle cannot be listed. -/
def unlistableEnv : AppEnv := { blogEnv with fails := fun step => decide (step = .listFiles) }

/-- A download over the version that is there. -/
def downloadAgain : AppDownloadRequest :=
  { url := some "http://store/blog.tar.gz", overwrite := true }

/-- The bundle of the blog, as it is brought. -/
def blogBundle : Bundle :=
  ⟨⟨.bytes "tarball", .ok "sum", .ok ⟨blogEntries, by decide⟩⟩, ⟨blogEntries, by decide⟩, blogManifest⟩

/-- The bundle is moved over the same bundle, and the task fails then. -/
theorem failed_download_keeps_iff_again :
    ¬ FailsBeforeMove unlistableEnv downloadAgain bundledBlog.repository ∧
    Ends (execute unlistableEnv (fun _ => throw .null) downloadAgain) bundledBlog fun r t =>
      (∀ result, r ≠ .ok result) ∧ bundledBlog.repository.SameFiles t.repository := by
  have hbrings : Brings unlistableEnv downloadAgain blogBundle :=
    ⟨rfl, rfl, rfl, (fun h => absurd h (by decide)), rfl, rfl⟩
  have hroom : MakesRoom unlistableEnv downloadAgain blogBundle bundledBlog.repository :=
    ⟨rfl, rfl, fun _ => rfl, rfl⟩
  have hfails : ¬ Completes unlistableEnv downloadAgain bundledBlog.repository := by
    rintro ⟨b, -, -, hlist, -⟩
    exact Bool.noConfusion hlist
  -- what stands under the bundle's name is the bundle
  have hthere : (ensureDir (dirOf bundledBlog.repository blogManifest)).below ["bundle.tar.gz"]
      = .single (.bytes "tarball") := rfl
  have hmoved : withBundle unlistableEnv blogBundle.tarball
      (dirOf bundledBlog.repository blogManifest)
        = ensureDir (dirOf bundledBlog.repository blogManifest) :=
    (congrArg _ hthere.symm).trans (FileTree.graft_below _ _)
  have hleft : leftBy unlistableEnv downloadAgain blogBundle
      (dirOf bundledBlog.repository blogManifest)
        = ensureDir (dirOf bundledBlog.repository blogManifest) := by
    have hlist : unlistableEnv.fails .listFiles = true := rfl
    rw [leftBy, if_pos hlist, hmoved]
  have hkeeps : KeepsFiles unlistableEnv downloadAgain bundledBlog.repository :=
    Or.inr ⟨blogBundle, hbrings, hroom, hleft ▸ sameFiles_ensureDir _⟩
  have hdownload := failed_download_keeps_iff unlistableEnv (fun _ => throw .null) downloadAgain
    bundledBlog hfails
  exact ⟨fun hbefore => hbefore _ hbrings hroom, hdownload.1, hdownload.2.2 hkeeps⟩

/-- **A file is added to a version that is there.**  The blog is in the repository, without its
bundle; a download without `overwrite` fails at the first entry and leaves the bundle. -/
theorem bundle_left_behind : ¬ Ends (execute blogEnv (fun _ => throw .null)
    { url := some "http://store/blog.tar.gz", overwrite := false }) blogServer fun r t =>
      (∀ result, r ≠ .ok result) → blogServer.repository.SameFiles t.repository := by
  intro h
  have hfails : (exec (execute blogEnv (fun _ => throw .null)
      { url := some "http://store/blog.tar.gz", overwrite := false }) blogServer).1.toOption.isSome
        = false := by decide +kernel
  have hleft : ((exec (execute blogEnv (fun _ => throw .null)
      { url := some "http://store/blog.tar.gz", overwrite := false }) blogServer).2.repository.version
        "blog" "1.0.0").fileAt ["bundle.tar.gz"] = some (.bytes "tarball") := by decide +kernel
  have hsame := h (fun result hr => by rw [hr] at hfails; exact Bool.noConfusion hfails)
    "blog" "1.0.0" ["bundle.tar.gz"]
  rw [hleft] at hsame
  exact absurd hsame (by decide +kernel)

end Apps

end CloudOs

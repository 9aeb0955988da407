/-
# The authentication of apps with parents

An app is to have the authentication of its topmost ancestor among the active apps.  The loop
copies from the parent what the parent has at that time, so that the order of the visits counts.

| the parent | the app gets | is that of the topmost ancestor |
| --- | --- | --- |
| is visited before the app | what the parent has at the end | yes |
| is visited after the app | what the parent's own manifest has | when that is the same |
| is not active | nothing: `NullPointerException` | no |

`mergesParents_iff` says for one order of the visits, and for all of them, when every app ends up
with the authentication of its topmost ancestor.
-/

import CloudOs.Lib.Digraph
import CloudOs.Dao.AvailableRuntimes

namespace CloudOs

open Digraph Relation AvailableRuntimes

namespace Parents

variable {Auth Details : Type} (env : RuntimesEnv Auth Details)
  (appDirs : List (AppDirectory Auth Details))

/-- Of two active apps the second one is the parent of the first one. -/
def HasParent (app parent : Manifest Auth Details) : Prop :=
  app ∈ findActive appDirs ∧ parent ∈ findActive appDirs ∧ app.parentName = some parent.name

/-- The topmost active ancestor. -/
def IsTopmost (app top : Manifest Auth Details) : Prop := IsEnd (HasParent appDirs) app top

/-- `initAvailableRuntimes` completes with one runtime for every active app, which has the
authentication of the topmost active ancestor. -/
def MergesParents (order : IterationOrder Auth Details) : Prop :=
  ∃ apps, initAvailableRuntimes env order appDirs = .ok apps ∧
    (apps.map Prod.fst).Perm ((findActive appDirs).map Manifest.name) ∧
    ∀ app ∈ findActive appDirs, ∃ top runtime, IsTopmost appDirs app top ∧
      (app.name, runtime) ∈ apps ∧ runtime.authentication = top.auth

/-- Every active app can be loaded, has a name of its own, and a parent that is active, if any. -/
structure IsComplete : Prop where
  loads : ∀ app ∈ findActive appDirs, newRuntime env app = .ok ⟨⟩
  names : ((findActive appDirs).map Manifest.name).Nodup
  parents : ∀ app ∈ findActive appDirs, ∀ parent ∈ app.parentName,
    parent ∈ (findActive appDirs).map Manifest.name

/-- The parent has the authentication of its topmost ancestor by itself. -/
def HasOwn (parent : Manifest Auth Details) : Prop :=
  ∀ top, IsTopmost appDirs parent top → parent.auth = top.auth

/-- A parent that is visited after its child has the authentication by itself. -/
def InOrder (visits : List (Manifest Auth Details)) : Prop :=
  ∀ front app back, visits = front ++ app :: back →
    ∀ parent ∈ back, HasParent appDirs app parent → HasOwn appDirs parent

variable {env appDirs}

/-- The apps whose names are in a list without duplicates are told apart by them. -/
theorem eq_of_name_eq (hnames : ((findActive appDirs).map Manifest.name).Nodup)
    {a b : Manifest Auth Details} (ha : a ∈ findActive appDirs) (hb : b ∈ findActive appDirs)
    (h : a.name = b.name) : a = b := List.inj_on_of_nodup_map hnames ha hb h

/-- No app has two parents. -/
theorem hasParent_unique (hnames : ((findActive appDirs).map Manifest.name).Nodup) :
    Relator.RightUnique (HasParent appDirs) := fun _ _ _ hab hac =>
  eq_of_name_eq hnames hab.2.1 hac.2.1 (Option.some.inj (hab.2.2.symm.trans hac.2.2))

/-- An app without parent is its own topmost ancestor. -/
theorem isTopmost_self {app : Manifest Auth Details} (h : app.parentName = none) :
    IsTopmost appDirs app app :=
  ⟨.refl, fun _ hparent => Option.some_ne_none _ (hparent.2.2.symm.trans h)⟩

/-- The parents of parents come to an end. -/
theorem acc_hasParent (hacyclic : Acyclic (HasParent appDirs)) (app : Manifest Auth Details) :
    Acc (Function.swap (HasParent appDirs)) app := by
  refine hacyclic.acc ((List.finite_toSet (findActive appDirs)).subset ?_) app
  rintro a ⟨b, hab⟩
  exact hab.1

/-- An active parent has an active app under its name. -/
theorem exists_hasParent (hcomplete : IsComplete env appDirs) {app : Manifest Auth Details}
    (happ : app ∈ findActive appDirs) {name : String} (h : app.parentName = some name) :
    ∃ parent, HasParent appDirs app parent := by
  obtain ⟨parent, hparent, rfl⟩ := List.mem_map.1 (hcomplete.parents app happ name h)
  exact ⟨parent, happ, hparent, h⟩

/-! ### The runtimes that are listed -/

/-- The apps in the order of the visits. -/
def visitsOf (order : IterationOrder Auth Details) (apps : List (Manifest Auth Details)) :
    List (Manifest Auth Details) := order.values (cacheOf apps)

/-- The runtimes of the visited apps. -/
def listed (visits : List (Manifest Auth Details)) (runtimes : Runtimes Auth Details) :
    List (String × Runtime Auth Details) :=
  visits.filterMap fun app => (runtimes app.name).map (Prod.mk app.name)

/-- The list is made when both loops end. -/
theorem initAvailableRuntimes_eq_ok_iff (order : IterationOrder Auth Details)
    (apps : List (String × Runtime Auth Details)) :
    initAvailableRuntimes env order appDirs = .ok apps ↔
      (∀ app ∈ findActive appDirs, newRuntime env app = .ok ⟨⟩) ∧
        ∃ runtimes, mergeLoop env (runtimesOf (cacheOf (findActive appDirs)))
          (visitsOf order (findActive appDirs)) = .ok runtimes ∧
            listed (visitsOf order (findActive appDirs)) runtimes = apps := by
  constructor
  · intro h
    obtain ⟨loaded, hloaded, hrest⟩ := Prog.exists_of_bind_eq_ok h
    have hloads := forall_of_loadRuntimes env hloaded
    obtain rfl := Except.ok.inj ((loadRuntimes_of_forall env hloads .empty).symm.trans hloaded)
    obtain ⟨runtimes, hmerge, heq⟩ := Prog.exists_of_bind_eq_ok hrest
    exact ⟨hloads, runtimes, hmerge, Except.ok.inj heq⟩
  · rintro ⟨hloads, runtimes, hmerge, rfl⟩
    have hload : loadRuntimes env .empty (fun _ => none) (findActive appDirs) =
        .ok (cacheOf (findActive appDirs), runtimesOf (cacheOf (findActive appDirs))) :=
      loadRuntimes_of_forall env hloads .empty
    rw [initAvailableRuntimes, hload]
    exact congrArg (Except.map (listed (visitsOf order (findActive appDirs)))) hmerge

/-- Apps with names of their own are all in the cache. -/
theorem cacheOf_perm {apps : List (Manifest Auth Details)}
    (hnames : (apps.map Manifest.name).Nodup) : (cacheOf apps).values.Perm apps := by
  have hcache := KeyedMap.perm_foldl_put .empty hnames fun _ _ => rfl
  rwa [show (KeyedMap.empty : AppCache Auth Details).values = [] from rfl, List.append_nil]
    at hcache

theorem visitsOf_perm (order : IterationOrder Auth Details)
    {apps : List (Manifest Auth Details)} (hnames : (apps.map Manifest.name).Nodup) :
    (visitsOf order apps).Perm apps := (order.perm _).trans (cacheOf_perm hnames)

theorem nodup_visitsOf (order : IterationOrder Auth Details) (apps : List (Manifest Auth Details)) :
    ((visitsOf order apps).map Manifest.name).Nodup :=
  ((order.perm _).map _).nodup_iff.2 (cacheOf apps).nodup

/-- A visited app starts with what its manifest has. -/
theorem runtimesOf_of_mem {order : IterationOrder Auth Details}
    {apps : List (Manifest Auth Details)} {app : Manifest Auth Details}
    (h : app ∈ visitsOf order apps) : runtimesOf (cacheOf apps) app.name = some app.runtime := by
  have hlookup := (cacheOf apps).mem_values.1 ((order.perm _).mem_iff.1 h)
  exact congrArg (Option.map Manifest.runtime) hlookup

theorem isSome_runtimesOf (order : IterationOrder Auth Details)
    (apps : List (Manifest Auth Details)) (app : Manifest Auth Details)
    (h : app ∈ visitsOf order apps) : (runtimesOf (cacheOf apps) app.name).isSome := by
  rw [runtimesOf_of_mem h]
  rfl

/-- A name without a visited app has no runtime. -/
theorem mem_map_of_isSome {order : IterationOrder Auth Details}
    {apps : List (Manifest Auth Details)} {name : String}
    (h : (runtimesOf (cacheOf apps) name).isSome) : name ∈ (visitsOf order apps).map Manifest.name := by
  rw [runtimesOf, Option.isSome_map, Option.isSome_iff_exists] at h
  obtain ⟨app, happ⟩ := h
  have hmem := (cacheOf apps).mem_values_of_lookup happ
  exact List.mem_map.2 ⟨app, (order.perm _).mem_iff.2 hmem, (cacheOf apps).key_of_lookup happ⟩

/-- The visited apps are listed, in order. -/
theorem map_fst_listed {visits : List (Manifest Auth Details)} {runtimes : Runtimes Auth Details}
    (h : ∀ app ∈ visits, (runtimes app.name).isSome) :
    (listed visits runtimes).map Prod.fst = visits.map Manifest.name := by
  induction visits with
  | nil => rfl
  | cons app visits ih =>
    obtain ⟨runtime, hruntime⟩ := Option.isSome_iff_exists.1 (h app List.mem_cons_self)
    have hcons : listed (app :: visits) runtimes = (app.name, runtime) :: listed visits runtimes :=
      List.filterMap_cons_some (by rw [hruntime]; rfl)
    rw [hcons, List.map_cons, List.map_cons, ih fun other hother =>
      h other (List.mem_cons_of_mem app hother)]

theorem mem_listed {visits : List (Manifest Auth Details)} {runtimes : Runtimes Auth Details}
    {name : String} {runtime : Runtime Auth Details} : (name, runtime) ∈ listed visits runtimes ↔
      name ∈ visits.map Manifest.name ∧ runtimes name = some runtime := by
  rw [listed, List.mem_filterMap, List.mem_map]
  constructor
  · rintro ⟨app, happ, h⟩
    obtain ⟨runtime', hruntime, heq⟩ := Option.map_eq_some_iff.1 h
    obtain ⟨rfl, rfl⟩ := Prod.mk.inj heq
    exact ⟨⟨app, happ, rfl⟩, hruntime⟩
  · rintro ⟨⟨app, happ, rfl⟩, hruntime⟩
    exact ⟨app, happ, by rw [hruntime]; rfl⟩

/-! ### What the apps end up with -/

section Merged

variable {order : IterationOrder Auth Details} {runtimes : Runtimes Auth Details}
  (hmerge : mergeLoop env (runtimesOf (cacheOf (findActive appDirs)))
    (visitsOf order (findActive appDirs)) = .ok runtimes)

include hmerge

/-- An app without parent keeps its authentication. -/
theorem authOf_of_none {app : Manifest Auth Details}
    (happ : app ∈ visitsOf order (findActive appDirs)) (h : app.parentName = none) :
    authOf runtimes app.name = some app.auth := by
  have hstart := runtimesOf_of_mem happ
  have hnames := nodup_visitsOf order (findActive appDirs)
  obtain ⟨front, back, hvisits⟩ := List.append_of_mem happ
  rw [hvisits] at hmerge hnames
  rw [authOf_mergeLoop_of_none env hnames hmerge h, authOf, hstart]
  rfl

/-- An app with a parent gets what the parent has at the end, or what it has by itself. -/
theorem authOf_of_parent {front back : List (Manifest Auth Details)}
    {app parent : Manifest Auth Details}
    (hvisits : visitsOf order (findActive appDirs) = front ++ app :: back)
    (h : app.parentName = some parent.name) :
    (parent ∈ front → authOf runtimes app.name = authOf runtimes parent.name) ∧
    (parent ∈ back → authOf runtimes app.name = some parent.auth) := by
  have hnames := nodup_visitsOf order (findActive appDirs)
  have hstart : parent ∈ back →
      runtimesOf (cacheOf (findActive appDirs)) parent.name = some parent.runtime := by
    intro hback
    have hmem : parent ∈ visitsOf order (findActive appDirs) := by
      rw [hvisits]
      exact List.mem_append_right front (List.mem_cons_of_mem app hback)
    exact runtimesOf_of_mem hmem
  rw [hvisits] at hmerge hnames
  obtain ⟨hfirst, hlater⟩ := authOf_mergeLoop_of_some env hnames hmerge h
  refine ⟨fun hfront => hfirst (List.mem_map_of_mem hfront), fun hback => ?_⟩
  rw [List.map_append, List.map_cons, List.nodup_append] at hnames
  rw [hlater fun hfront => hnames.2.2 _ hfront _
    (List.mem_cons_of_mem _ (List.mem_map_of_mem hback)) rfl, authOf, hstart hback]
  rfl

variable (hcomplete : IsComplete env appDirs)

include hcomplete

/-- If every app does, a parent that is visited after its child has it by itself. -/
theorem inOrder_of_authOf (h : ∀ app ∈ findActive appDirs, ∀ top, IsTopmost appDirs app top →
    authOf runtimes app.name = some top.auth) :
    InOrder appDirs (visitsOf order (findActive appDirs)) := by
  intro front app back hvisits parent hback hparent top htop
  have happ : authOf runtimes app.name = some top.auth := h app hparent.1 top
    ((isEnd_iff_of_edge (hasParent_unique hcomplete.names) hparent).2 htop)
  rw [(authOf_of_parent hmerge hvisits hparent.2.2).2 hback] at happ
  exact Option.some.inj happ

variable (hacyclic : Acyclic (HasParent appDirs))

include hacyclic

/-- **In order.**  Every app ends up with the authentication of its topmost ancestor. -/
theorem authOf_topmost (horder : InOrder appDirs (visitsOf order (findActive appDirs)))
    {app top : Manifest Auth Details} (happ : app ∈ findActive appDirs)
    (htop : IsTopmost appDirs app top) : authOf runtimes app.name = some top.auth := by
  have hmem := fun {a} => (visitsOf_perm order hcomplete.names).mem_iff (a := a)
  -- on the chain of parents, which ends
  induction acc_hasParent hacyclic app with
  | intro app _ ih =>
    cases hname : app.parentName with
    | none =>
      have hsink : ∀ b, ¬ HasParent appDirs app b := fun b hb =>
        Option.some_ne_none _ (hb.2.2.symm.trans hname)
      rw [htop.eq_of_sink hsink]
      exact authOf_of_none hmerge (hmem.2 happ) hname
    | some name =>
      obtain ⟨parent, hparent⟩ := exists_hasParent hcomplete happ hname
      have htop' : IsTopmost appDirs parent top :=
        (isEnd_iff_of_edge (hasParent_unique hcomplete.names) hparent).1 htop
      obtain ⟨front, back, hvisits⟩ := List.append_of_mem (hmem.2 happ)
      obtain ⟨hfirst, hlater⟩ := authOf_of_parent hmerge hvisits hparent.2.2
      have hwhere := hmem.2 hparent.2.1
      rw [hvisits, List.mem_append, List.mem_cons] at hwhere
      rcases hwhere with hfront | rfl | hback
      · exact (hfirst hfront).trans (ih parent hparent hparent.2.1 htop')
      · exact absurd (.single hparent) (hacyclic parent)
      · rw [hlater hback, horder front app back hvisits parent hback hparent top htop']

end Merged

/-- The apps are complete when the runtimes are made, one for every app. -/
theorem isComplete_of_ok {order : IterationOrder Auth Details}
    {apps : List (String × Runtime Auth Details)}
    (h : initAvailableRuntimes env order appDirs = .ok apps)
    (hone : (apps.map Prod.fst).Perm ((findActive appDirs).map Manifest.name)) :
    IsComplete env appDirs := by
  obtain ⟨hloads, runtimes, hmerge, rfl⟩ := (initAvailableRuntimes_eq_ok_iff order apps).1 h
  have hstart := isSome_runtimesOf order (findActive appDirs)
  rw [map_fst_listed fun app happ => (isSome_mergeLoop env hmerge _).trans (hstart app happ)] at hone
  have hnames := hone.nodup_iff.1 (nodup_visitsOf order (findActive appDirs))
  refine ⟨hloads, hnames, fun app happ parent hparent => ?_⟩
  have hvisit := (visitsOf_perm order hnames).mem_iff.2 happ
  have hsome := (mergeLoop_ends_iff env hstart).1 ⟨runtimes, hmerge⟩ app hvisit parent hparent
  exact hone.mem_iff.1 (mem_map_of_isSome hsome)

/-- For one order of the visits. -/
theorem mergesParents_iff_inOrder (hacyclic : Acyclic (HasParent appDirs))
    (order : IterationOrder Auth Details) : MergesParents env appDirs order ↔
      IsComplete env appDirs ∧ InOrder appDirs (visitsOf order (findActive appDirs)) := by
  constructor
  · rintro ⟨apps, hok, hone, hauth⟩
    have hcomplete := isComplete_of_ok hok hone
    obtain ⟨-, runtimes, hmerge, rfl⟩ := (initAvailableRuntimes_eq_ok_iff order apps).1 hok
    refine ⟨hcomplete, inOrder_of_authOf hmerge hcomplete fun app happ top htop => ?_⟩
    obtain ⟨top', runtime, htop', hmem, hruntime⟩ := hauth app happ
    rw [htop.unique (hasParent_unique hcomplete.names) htop', authOf, (mem_listed.1 hmem).2,
      Option.map_some, hruntime]
  · rintro ⟨hcomplete, horder⟩
    have hperm := visitsOf_perm order hcomplete.names
    have hstart := isSome_runtimesOf order (findActive appDirs)
    have hends : ∃ runtimes, mergeLoop env (runtimesOf (cacheOf (findActive appDirs)))
        (visitsOf order (findActive appDirs)) = .ok runtimes := by
      refine (mergeLoop_ends_iff env hstart).2 fun app happ name hname => ?_
      obtain ⟨parent, hparent⟩ := exists_hasParent hcomplete (hperm.mem_iff.1 happ) hname
      obtain rfl : parent.name = name := Option.some.inj (hparent.2.2.symm.trans hname)
      exact hstart parent (hperm.mem_iff.2 hparent.2.1)
    obtain ⟨runtimes, hmerge⟩ := hends
    refine ⟨_, (initAvailableRuntimes_eq_ok_iff order _).2 ⟨hcomplete.loads, runtimes, hmerge, rfl⟩,
      ?_, fun app happ => ?_⟩
    · rw [map_fst_listed fun app happ => (isSome_mergeLoop env hmerge _).trans (hstart app happ)]
      exact hperm.map _
    · obtain ⟨top, htop⟩ := exists_isEnd_of_acc (acc_hasParent hacyclic app)
      have hauth := authOf_topmost hmerge hcomplete hacyclic horder happ htop
      obtain ⟨runtime, hruntime, hgot⟩ := Option.map_eq_some_iff.1 hauth
      exact ⟨top, runtime, htop, mem_listed.2
        ⟨List.mem_map_of_mem (hperm.mem_iff.2 happ), hruntime⟩, hgot⟩

/-- The order that visits the apps of a name first. -/
def visitFirst (name : String) : IterationOrder Auth Details where
  values m := m.values.filter (fun app => decide (app.name = name)) ++
    m.values.filter fun app => !decide (app.name = name)
  perm _ := List.filter_append_perm _ _

/-- The others are visited later. -/
theorem visitsOf_visitFirst {apps : List (Manifest Auth Details)}
    (hnames : (apps.map Manifest.name).Nodup) {app other : Manifest Auth Details}
    (happ : app ∈ apps) (hother : other ∈ apps) (hne : other.name ≠ app.name) :
    ∃ front back, visitsOf (visitFirst app.name) apps = front ++ app :: back ∧ other ∈ back := by
  have hmem := fun {a} => (cacheOf_perm hnames).mem_iff (a := a)
  have hfirst : app ∈ (cacheOf apps).values.filter fun a => decide (a.name = app.name) :=
    List.mem_filter.2 ⟨hmem.2 happ, decide_eq_true rfl⟩
  have hlater : other ∈ (cacheOf apps).values.filter fun a => !decide (a.name = app.name) :=
    List.mem_filter.2 ⟨hmem.2 hother, by simpa using hne⟩
  obtain ⟨front, back, hsplit⟩ := List.append_of_mem hfirst
  refine ⟨front, back ++ (cacheOf apps).values.filter fun a => !decide (a.name = app.name), ?_,
    List.mem_append_right back hlater⟩
  exact (congrArg (· ++ _) hsplit).trans (List.append_assoc _ _ _)

/-- **Parents are merged in every order** exactly when the apps are complete and every parent has
the authentication of its topmost ancestor by itself; in one order, when the parents that are
visited after a child of theirs have. -/
theorem mergesParents_iff (hacyclic : Acyclic (HasParent appDirs)) :
    (∀ order, MergesParents env appDirs order ↔
      IsComplete env appDirs ∧ InOrder appDirs (visitsOf order (findActive appDirs))) ∧
    ((∀ order, MergesParents env appDirs order) ↔
      IsComplete env appDirs ∧ ∀ app parent, HasParent appDirs app parent →
        HasOwn appDirs parent) := by
  refine ⟨mergesParents_iff_inOrder hacyclic, fun h => ?_, fun h order => ?_⟩
  · refine ⟨((mergesParents_iff_inOrder hacyclic (visitFirst "")).1 (h _)).1,
      fun app parent hparent => ?_⟩
    -- in a run that visits the child first
    obtain ⟨hcomplete, horder⟩ :=
      (mergesParents_iff_inOrder hacyclic (visitFirst app.name)).1 (h _)
    have hne : parent.name ≠ app.name := by
      intro hname
      have heq := eq_of_name_eq hcomplete.names hparent.2.1 hparent.1 hname
      exact hacyclic app (.single (heq ▸ hparent))
    obtain ⟨front, back, hvisits, hback⟩ :=
      visitsOf_visitFirst hcomplete.names hparent.1 hparent.2.1 hne
    exact horder front app back hvisits parent hback hparent
  · exact (mergesParents_iff_inOrder hacyclic order).2
      ⟨h.1, fun _ app _ _ parent _ hparent => h.2 app parent hparent⟩

/-! ### A chain of three apps -/

/-- Plugins that can be loaded; the authentications are names. -/
def pluginsLoad : RuntimesEnv String String where
  hasPluginJar := fun _ => false
  loadPluginClass := fun _ _ => .ok ⟨⟩
  loadClass := fun _ => .ok ⟨⟩
  newInstance := fun _ => .ok ⟨⟩
  mergeDetails := fun details parentDetails => details ++ ", " ++ parentDetails

def mail : Manifest String String := ⟨"mail", none, "cloudos.Mail", some "imap", "mail"⟩

def webmail : Manifest String String :=
  ⟨"webmail", some "mail", "cloudos.Webmail", some "form", "webmail"⟩

def calendar : Manifest String String :=
  ⟨"calendar", some "webmail", "cloudos.Calendar", some "basic", "calendar"⟩

/-- The directory of an active app. -/
def activeDir (app : Manifest String String) : AppDirectory String String :=
  ⟨{ activeVersion := some "1.0.0" }, some app⟩

def chain : List (AppDirectory String String) := [mail, webmail, calendar].map activeDir

/-- Children here have longer names than their parents. -/
theorem acyclic_of_lengths {dirs : List (AppDirectory String String)}
    (h : ((findActive dirs).all fun app => (findActive dirs).all fun parent =>
      app.parentName != some parent.name || decide (parent.name.length < app.name.length)) = true) :
    Acyclic (HasParent dirs) := by
  refine Acyclic.of_rank (fun app => app.name.length) ?_
  rintro app parent ⟨happ, hparent, hname⟩
  have hlength := List.all_eq_true.1 (List.all_eq_true.1 h app happ) parent hparent
  rw [hname, bne_self_eq_false, Bool.false_or] at hlength
  exact of_decide_eq_true hlength

/-- A parent without parent has the authentication by itself. -/
theorem hasOwn_of_none {parent : Manifest Auth Details} (h : parent.parentName = none) :
    HasOwn appDirs parent := fun top htop => by
  rw [htop.eq_of_sink fun b hb => Option.some_ne_none _ (hb.2.2.symm.trans h)]

/-- Two apps are merged in any order. -/
theorem webmail_merges : MergesParents pluginsLoad (chain.take 2) (visitFirst "webmail") := by
  refine (mergesParents_iff (acyclic_of_lengths (by decide +kernel))).2.2
    ⟨⟨fun app _ => rfl, by decide +kernel, ?_⟩, ?_⟩ _
  · have hnames : ((findActive (chain.take 2)).all fun app => app.parentName.all fun parent =>
        ((findActive (chain.take 2)).map Manifest.name).contains parent) = true := by decide +kernel
    intro app happ parent hparent
    have hall := List.all_eq_true.1 hnames app happ
    rw [Option.mem_def.1 hparent] at hall
    exact List.contains_iff_mem.1 hall
  · have hnone : ((findActive (chain.take 2)).all fun app => (findActive (chain.take 2)).all
        fun parent => app.parentName != some parent.name || parent.parentName.isNone) = true := by
      decide +kernel
    rintro app parent ⟨happ, hparent, hname⟩
    have hall := List.all_eq_true.1 (List.all_eq_true.1 hnone app happ) parent hparent
    rw [hname, bne_self_eq_false, Bool.false_or] at hall
    exact hasOwn_of_none (Option.isNone_iff_eq_none.1 hall)

/-- When `calendar` is visited first it gets what `webmail` has by itself; and without `mail` there
are no runtimes. -/
theorem chain_order_counts : Acyclic (HasParent chain) ∧
    (IsTopmost chain calendar mail ∧ initAvailableRuntimes pluginsLoad (visitFirst "calendar") chain =
      .ok [("calendar", ⟨"calendar, webmail", some "form"⟩),
        ("webmail", ⟨"webmail, mail", some "imap"⟩), ("mail", ⟨"mail", some "imap"⟩)]) ∧
    ¬ MergesParents pluginsLoad chain (visitFirst "calendar") ∧
    initAvailableRuntimes pluginsLoad (visitFirst "calendar") (chain.drop 1) =
      .error .nullPointer := by
  have hacyclic : Acyclic (HasParent chain) := acyclic_of_lengths (by decide +kernel)
  have hmail : mail ∈ findActive chain := List.mem_cons_self
  have hwebmail : webmail ∈ findActive chain := List.mem_cons_of_mem _ List.mem_cons_self
  have hcalendar : calendar ∈ findActive chain :=
    List.mem_cons_of_mem _ (List.mem_cons_of_mem _ List.mem_cons_self)
  have htop : IsTopmost chain webmail mail :=
    ⟨.single ⟨hwebmail, hmail, rfl⟩, (isTopmost_self rfl).2⟩
  refine ⟨hacyclic, ⟨⟨htop.1.head ⟨hcalendar, hwebmail, rfl⟩, htop.2⟩, rfl⟩, ?_, rfl⟩
  rw [mergesParents_iff_inOrder hacyclic]
  rintro ⟨-, horder⟩
  have hown := horder [] calendar [webmail, mail] rfl webmail List.mem_cons_self
    ⟨hcalendar, hwebmail, rfl⟩ mail htop
  exact absurd hown (by decide)

end Parents

end CloudOs

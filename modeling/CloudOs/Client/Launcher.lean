/-
# The launcher: `CloudOs.account`

The stored account lists the apps that are available.  `account` puts those that are interactive in
the order in which the launcher shows them.

| list | which apps | order | `addSeparator` |
| --- | --- | --- | --- |
| `preferredApps` | those that `excludeApps` names | as it names them | at the last one |
| the others | all the rest | by `sortingKey` | nowhere |

An app with a name that is taken would be put in the place of the other one, and an app without
assets would throw; `account_launches` is about lists without either.

Texts are lists of code units, and are sorted by them.
-/

import CloudOs.Client.DeviceCookies
import CloudOs.Client.Underscore
import Mathlib.Data.List.Lex

namespace CloudOs

open Cookies (Text)
open DeviceCookies (js)
open Underscore

namespace Launcher

/-- Code units are compared as numbers. -/
instance linearOrderUnit : LinearOrder UInt16 :=
  LinearOrder.lift' UInt16.toNat fun _ _ h => UInt16.toNat_inj.1 h

structure Assets where
  taskbarIconAltText : Option Text

/-- An app of the list; `interactive` says whether the property is `true`, and `rest` is what the
launcher does not look at. -/
structure AvailableApp (δ : Type) where
  name : Text
  interactive : Bool
  assets : Option Assets
  addSeparator : Option Bool := none
  sortingKey : Option Text := none
  rest : δ

structure StoredAccount (δ ε : Type) where
  availableApps : Option (List (AvailableApp δ))
  rest : ε

inductive JsError
  | typeError
  deriving DecidableEq, Repr

def excludeApps : List Text := [js "roundcube", js "roundcube-calendar", js "owncloud"]

variable {δ ε : Type}

structure InitialApps (δ : Type) where
  standardApps : List (Option (AvailableApp δ)) := []
  additionalApps : List (AvailableApp δ) := []

/-- The sorting key: the alternative text of the icon, or else the name. -/
def keyOf (app : AvailableApp δ) : Except JsError Text :=
  match app.assets with
  | none => .error .typeError
  | some assets => .ok (assets.taskbarIconAltText.getD app.name)

/-- The function that `account` reduces the apps with. -/
def place (acc : InitialApps δ) (app : AvailableApp δ) : Except JsError (InitialApps δ) :=
  let app := { app with addSeparator := some false }
  if app.name ∉ excludeApps then do
    let key ← keyOf app
    return { acc with
      additionalApps := acc.additionalApps ++ [{ app with sortingKey := some key }] }
  else
    return { acc with
      standardApps := assign acc.standardApps (excludeApps.idxOf app.name) app }

/-- The divider after the last preferred app. -/
def addDivider (preferredApps : List (AvailableApp δ)) : List (AvailableApp δ) :=
  if 0 < preferredApps.length then
    preferredApps.modify (preferredApps.length - 1) fun app =>
      { app with addSeparator := some true }
  else preferredApps

/-- `CloudOs.account`, of the account that is stored. -/
def account (cs_acct : Option (StoredAccount δ ε)) :
    Except JsError (Option (StoredAccount δ ε)) :=
  match cs_acct with
  | none => return none
  | some acct => do
    let availableApps := (acct.availableApps.getD []).filter (·.interactive)
    let initialApps ← availableApps.foldlM place {}
    let preferredApps := addDivider (compact initialApps.standardApps)
    return some { acct with
      availableApps := some (preferredApps ++ sortBy initialApps.additionalApps (·.sortingKey)) }

/-! ### The loop -/

/-- An app as it stands among the preferred ones, before the divider. -/
def AvailableApp.reset (app : AvailableApp δ) : AvailableApp δ :=
  { app with addSeparator := some false }

/-- The sorting key of an app with assets. -/
def AvailableApp.key (app : AvailableApp δ) : Text :=
  (app.assets.bind Assets.taskbarIconAltText).getD app.name

/-- An app as it stands among the others. -/
def AvailableApp.keyed (app : AvailableApp δ) : AvailableApp δ :=
  { app.reset with sortingKey := some app.key }

/-- An app without what the launcher sets. -/
def AvailableApp.plain (app : AvailableApp δ) : AvailableApp δ :=
  { app with addSeparator := none, sortingKey := none }

theorem excludeApps_nodup : excludeApps.Nodup := by decide

theorem place_of_notMem (acc : InitialApps δ) {app : AvailableApp δ} (hassets : app.assets.isSome)
    (h : app.name ∉ excludeApps) : place acc app =
      .ok { acc with additionalApps := acc.additionalApps ++ [app.keyed] } := by
  obtain ⟨assets, hassets⟩ := Option.isSome_iff_exists.1 hassets
  have hkey : keyOf { app with addSeparator := some false } = .ok app.key := by
    rw [keyOf, AvailableApp.key, hassets]
    rfl
  rw [place]
  dsimp only
  rw [if_pos h, hkey]
  rfl

theorem place_of_mem (acc : InitialApps δ) {app : AvailableApp δ} (h : app.name ∈ excludeApps) :
    place acc app = .ok { acc with
      standardApps := assign acc.standardApps (excludeApps.idxOf app.name) app.reset } :=
  if_neg (not_not.2 h)

/-- The app with a name. -/
def appNamed (apps : List (AvailableApp δ)) (name : Text) : Option (AvailableApp δ) :=
  apps.find? fun app => decide (app.name = name)

theorem appNamed_eq_some {apps : List (AvailableApp δ)}
    (hnames : (apps.map AvailableApp.name).Nodup) {name : Text} {app : AvailableApp δ} :
    appNamed apps name = some app ↔ app ∈ apps ∧ app.name = name := by
  induction apps with
  | nil => simp [appNamed]
  | cons first apps ih =>
    obtain ⟨hnot, hnames⟩ := List.nodup_cons.1 hnames
    rw [appNamed, List.find?_cons, List.mem_cons]
    by_cases h : first.name = name
    · simp only [h, decide_true, Option.some.injEq]
      constructor
      · rintro rfl
        exact ⟨Or.inl rfl, h⟩
      · rintro ⟨rfl | hmem, hname⟩
        · rfl
        · exact absurd (List.mem_map.2 ⟨app, hmem, hname.trans h.symm⟩) hnot
    · simp only [h, decide_false]
      rw [← appNamed, ih hnames]
      constructor
      · rintro ⟨hmem, hname⟩
        exact ⟨Or.inr hmem, hname⟩
      · rintro ⟨rfl | hmem, hname⟩
        · exact absurd hname h
        · exact ⟨hmem, hname⟩

theorem appNamed_eq_none {apps : List (AvailableApp δ)} {name : Text}
    (h : name ∉ apps.map AvailableApp.name) : appNamed apps name = none := by
  rw [appNamed, List.find?_eq_none]
  intro app hmem happ
  exact h (List.mem_map.2 ⟨app, hmem, of_decide_eq_true happ⟩)

/-- A slot that an app is put in is the one of its name. -/
theorem idxOf_eq_iff {name : Text} (h : name ∈ excludeApps) (i : ℕ) :
    i = excludeApps.idxOf name ↔ excludeApps[i]? = some name := by
  constructor
  · rintro rfl
    rw [List.getElem?_eq_getElem (List.idxOf_lt_length_of_mem h), List.getElem_idxOf]
  · intro hi
    obtain ⟨hlt, hget⟩ := List.getElem?_eq_some_iff.1 hi
    rw [← hget]
    exact (excludeApps_nodup.idxOf_getElem i hlt).symm

/-- What the loop leaves, from what there was when it began. -/
structure Placed (acc : InitialApps δ) (apps : List (AvailableApp δ)) (last : InitialApps δ) :
    Prop where
  additional : last.additionalApps =
    acc.additionalApps ++ (apps.filter (·.name ∉ excludeApps)).map AvailableApp.keyed
  standard : ∀ i, slot last.standardApps i =
    ((excludeApps[i]?.bind (appNamed apps)).map AvailableApp.reset).or (slot acc.standardApps i)

/-- **The loop.**  Every app is put where its name says; the names being distinct, none is put in
the place of another one. -/
theorem foldlM_place {apps : List (AvailableApp δ)} (hnames : (apps.map AvailableApp.name).Nodup)
    (hassets : ∀ app ∈ apps, app.assets.isSome) (acc : InitialApps δ) :
    ∃ last, apps.foldlM place acc = .ok last ∧ Placed acc apps last := by
  induction apps generalizing acc with
  | nil =>
    refine ⟨acc, rfl, (List.append_nil _).symm, fun i => ?_⟩
    cases excludeApps[i]? <;> rfl
  | cons app apps ih =>
    obtain ⟨hnot, hnames⟩ := List.nodup_cons.1 hnames
    have hrest := ih hnames fun app' h => hassets app' (List.mem_cons_of_mem app h)
    rw [List.foldlM_cons]
    have hcons : ∀ name, appNamed (app :: apps) name =
        if app.name = name then some app else appNamed apps name := by
      intro name
      rw [appNamed, List.find?_cons]
      by_cases h : app.name = name <;> simp [h, appNamed]
    by_cases hmem : app.name ∈ excludeApps
    · rw [place_of_mem acc hmem]
      obtain ⟨last, hlast, hadditional, hstandard⟩ := hrest { acc with
        standardApps := assign acc.standardApps (excludeApps.idxOf app.name) app.reset }
      refine ⟨last, hlast, ?_, fun i => ?_⟩
      · rw [hadditional, List.filter_cons_of_neg (by simpa using hmem)]
      · rw [hstandard, slot_assign]
        by_cases hi : i = excludeApps.idxOf app.name
        · -- no later app has this name
          rw [if_pos hi, (idxOf_eq_iff hmem i).1 hi, Option.bind_some, Option.bind_some,
            appNamed_eq_none hnot, hcons, if_pos rfl]
          rfl
        · rw [if_neg hi]
          cases hname : excludeApps[i]? with
          | none => rfl
          | some name =>
            have hne : app.name ≠ name := fun h => hi ((idxOf_eq_iff hmem i).2 (h ▸ hname))
            rw [Option.bind_some, Option.bind_some, hcons, if_neg hne]
    · rw [place_of_notMem acc (hassets app List.mem_cons_self) hmem]
      obtain ⟨last, hlast, hadditional, hstandard⟩ := hrest { acc with
        additionalApps := acc.additionalApps ++ [app.keyed] }
      refine ⟨last, hlast, ?_, fun i => ?_⟩
      · rw [hadditional, List.filter_cons_of_pos (by simpa using hmem), List.map_cons,
          List.append_assoc]
        rfl
      · rw [hstandard]
        cases hname : excludeApps[i]? with
        | none => rfl
        | some name =>
          have hne : app.name ≠ name := fun h => hmem (h ▸ List.mem_of_getElem? hname)
          rw [Option.bind_some, Option.bind_some, hcons, if_neg hne]

/-- The preferred apps, before the divider. -/
def preferredApps (apps : List (AvailableApp δ)) : List (AvailableApp δ) :=
  excludeApps.filterMap fun name => (appNamed apps name).map AvailableApp.reset

theorem compact_placed {apps : List (AvailableApp δ)} {last : InitialApps δ}
    (h : Placed {} apps last) : compact last.standardApps = preferredApps apps := by
  have hslot : ∀ i, slot last.standardApps i = slot
      (excludeApps.map fun name => (appNamed apps name).map AvailableApp.reset) i := by
    intro i
    rw [h.standard, slot, slot, List.getElem?_map]
    cases excludeApps[i]? with
    | none => rfl
    | some name =>
      cases hname : appNamed apps name <;> simp [hname]
  rw [compact_congr hslot, compact, List.filterMap_map]
  rfl

/-! ### What is shown -/

/-- The apps are shown once each: the preferred ones in their order, with the divider behind the
last one, and the others by their sorting keys. -/
structure IsLaunched (apps preferred others : List (AvailableApp δ)) : Prop where
  perm : ((preferred ++ others).map AvailableApp.plain).Perm (apps.map AvailableApp.plain)
  inOrder : preferred.map AvailableApp.name =
    excludeApps.filter (· ∈ apps.map AvailableApp.name)
  notPreferred : ∀ app ∈ others, app.name ∉ excludeApps
  keyed : ∀ app ∈ others, app.sortingKey = some app.key
  sorted : others.Pairwise fun a b => a.key ≤ b.key
  divider : ∀ app ∈ preferred.getLast?, app.addSeparator = some true
  noDivider : ∀ app ∈ preferred.dropLast ++ others, app.addSeparator = some false

theorem addDivider_concat (apps : List (AvailableApp δ)) (app : AvailableApp δ) :
    addDivider (apps ++ [app]) = apps ++ [{ app with addSeparator := some true }] := by
  have hlength : (apps ++ [app]).length - 1 = apps.length := by simp
  rw [addDivider, if_pos (by simp), hlength, List.modify_eq_take_cons_drop (by simp)]
  simp

/-- The divider changes neither the apps nor their order. -/
theorem map_addDivider {β : Type} {f : AvailableApp δ → β}
    (hf : ∀ app b, f { app with addSeparator := b } = f app) (apps : List (AvailableApp δ)) :
    (addDivider apps).map f = apps.map f := by
  rcases List.eq_nil_or_concat apps with rfl | ⟨front, app, rfl⟩
  · rfl
  · rw [List.concat_eq_append, addDivider_concat, List.map_append, List.map_append,
      List.map_singleton, List.map_singleton, hf]

theorem divider_addDivider (apps : List (AvailableApp δ)) :
    ∀ app ∈ (addDivider apps).getLast?, app.addSeparator = some true := by
  rcases List.eq_nil_or_concat apps with rfl | ⟨front, app, rfl⟩
  · simp [addDivider]
  · rw [List.concat_eq_append, addDivider_concat, List.getLast?_concat]
    intro last hlast
    rw [← Option.some.inj hlast]

theorem dropLast_addDivider (apps : List (AvailableApp δ)) :
    (addDivider apps).dropLast = apps.dropLast := by
  rcases List.eq_nil_or_concat apps with rfl | ⟨front, app, rfl⟩
  · rfl
  · rw [List.concat_eq_append, addDivider_concat, List.dropLast_concat, List.dropLast_concat]

/-- The preferred apps are those that are found under the names. -/
theorem mem_preferredApps {apps : List (AvailableApp δ)}
    (hnames : (apps.map AvailableApp.name).Nodup) {app : AvailableApp δ} :
    app ∈ preferredApps apps ↔ ∃ app' ∈ apps, app'.name ∈ excludeApps ∧ app'.reset = app := by
  rw [preferredApps, List.mem_filterMap]
  constructor
  · rintro ⟨name, hname, happ⟩
    obtain ⟨app', happ', rfl⟩ := Option.map_eq_some_iff.1 happ
    obtain ⟨hmem, rfl⟩ := (appNamed_eq_some hnames).1 happ'
    exact ⟨app', hmem, hname, rfl⟩
  · rintro ⟨app', hmem, hname, rfl⟩
    refine ⟨app'.name, hname, ?_⟩
    rw [(appNamed_eq_some hnames).2 ⟨hmem, rfl⟩]
    rfl

theorem names_preferredApps {apps : List (AvailableApp δ)}
    (hnames : (apps.map AvailableApp.name).Nodup) :
    (preferredApps apps).map AvailableApp.name =
      excludeApps.filter (· ∈ apps.map AvailableApp.name) := by
  rw [preferredApps, List.map_filterMap, ← List.filterMap_eq_filter]
  refine List.filterMap_congr fun name _ => ?_
  cases happ : appNamed apps name with
  | none =>
    have hnot : name ∉ apps.map AvailableApp.name := by
      intro hin
      obtain ⟨app, hmem, hname⟩ := List.mem_map.1 hin
      exact Option.some_ne_none app
        (((appNamed_eq_some hnames).2 ⟨hmem, hname⟩).symm.trans happ)
    simp [Option.guard, hnot]
  | some app =>
    obtain ⟨hmem, rfl⟩ := (appNamed_eq_some hnames).1 happ
    have hin : app.name ∈ apps.map AvailableApp.name := List.mem_map_of_mem hmem
    simp [Option.guard, hin, AvailableApp.reset]

/-- The preferred apps are, in some order, the apps with these names. -/
theorem preferredApps_perm {apps : List (AvailableApp δ)}
    (hnames : (apps.map AvailableApp.name).Nodup) :
    (preferredApps apps).Perm
      ((apps.filter (·.name ∈ excludeApps)).map AvailableApp.reset) := by
  have hnodup : (preferredApps apps).Nodup := by
    refine List.Nodup.of_map AvailableApp.name ?_
    rw [names_preferredApps hnames]
    exact excludeApps_nodup.filter _
  have hnodup' : ((apps.filter (·.name ∈ excludeApps)).map AvailableApp.reset).Nodup := by
    refine List.Nodup.of_map AvailableApp.name ?_
    rw [List.map_map]
    exact hnames.sublist ((List.filter_sublist).map _)
  refine (List.perm_ext_iff_of_nodup hnodup hnodup').2 fun app => ?_
  rw [mem_preferredApps hnames, List.mem_map]
  refine exists_congr fun app' => ?_
  rw [List.mem_filter, decide_eq_true_iff, and_assoc]

/-- No app is lost or repeated, whatever the order of the others. -/
theorem plain_perm {apps others : List (AvailableApp δ)}
    (hnames : (apps.map AvailableApp.name).Nodup)
    (hothers : others.Perm ((apps.filter (·.name ∉ excludeApps)).map AvailableApp.keyed)) :
    ((addDivider (preferredApps apps) ++ others).map AvailableApp.plain).Perm
      (apps.map AvailableApp.plain) := by
  have hpreferred : ((preferredApps apps).map AvailableApp.plain).Perm
      ((apps.filter (·.name ∈ excludeApps)).map AvailableApp.plain) := by
    refine ((preferredApps_perm hnames).map AvailableApp.plain).trans ?_
    rw [List.map_map]
    rfl
  have hrest : (others.map AvailableApp.plain).Perm
      ((apps.filter (·.name ∉ excludeApps)).map AvailableApp.plain) := by
    refine (hothers.map AvailableApp.plain).trans ?_
    rw [List.map_map]
    rfl
  rw [List.map_append, map_addDivider fun _ _ => rfl]
  refine (hpreferred.append hrest).trans ?_
  rw [← List.map_append]
  refine List.Perm.map _ ?_
  simpa using List.filter_append_perm (fun app => decide (app.name ∈ excludeApps)) apps

/-- **The launcher shows every app exactly once.**  With distinct names and with assets, the apps
that are interactive are launched. -/
theorem account_launches (acct : StoredAccount δ ε)
    (hnames : ((acct.availableApps.getD []).map AvailableApp.name).Nodup)
    (hassets : ∀ app ∈ acct.availableApps.getD [], app.assets.isSome) :
    ∃ preferred others : List (AvailableApp δ),
      account (some acct) =
        .ok (some { acct with availableApps := some (preferred ++ others) }) ∧
      IsLaunched ((acct.availableApps.getD []).filter (·.interactive)) preferred others := by
  set apps := (acct.availableApps.getD []).filter (·.interactive) with happs
  have hdistinct : (apps.map AvailableApp.name).Nodup :=
    hnames.sublist (List.filter_sublist.map _)
  obtain ⟨last, hlast, hplaced⟩ := foldlM_place hdistinct
    (fun app happ => hassets app (List.mem_of_mem_filter happ)) {}
  have hadditional : last.additionalApps =
      (apps.filter (·.name ∉ excludeApps)).map AvailableApp.keyed := hplaced.additional
  have hothers := sortBy_perm last.additionalApps (·.sortingKey)
  have hkeyed : ∀ app ∈ last.additionalApps, app.name ∉ excludeApps ∧
      app.sortingKey = some app.key ∧ app.addSeparator = some false := by
    intro app happ
    rw [hadditional] at happ
    obtain ⟨app', happ', rfl⟩ := List.mem_map.1 happ
    exact ⟨of_decide_eq_true (List.mem_filter.1 happ').2, rfl, rfl⟩
  refine ⟨addDivider (preferredApps apps), sortBy last.additionalApps (·.sortingKey), ?_, ?_⟩
  · rw [account, ← happs, hlast]
    dsimp only [Except.bind, bind]
    rw [compact_placed hplaced]
    rfl
  · constructor
    · exact plain_perm hdistinct (hadditional ▸ hothers)
    · rw [map_addDivider fun _ _ => rfl, names_preferredApps hdistinct]
    · exact fun app happ => (hkeyed app (hothers.mem_iff.1 happ)).1
    · exact fun app happ => (hkeyed app (hothers.mem_iff.1 happ)).2.1
    · refine (pairwise_sortBy last.additionalApps (·.sortingKey)).imp_of_mem ?_
      intro a b ha hb hab
      rw [(hkeyed a (hothers.mem_iff.1 ha)).2.1, (hkeyed b (hothers.mem_iff.1 hb)).2.1] at hab
      exact WithTop.coe_le_coe.1 hab
    · exact divider_addDivider _
    · intro app happ
      rcases List.mem_append.1 happ with happ | happ
      · rw [dropLast_addDivider] at happ
        obtain ⟨app', -, -, rfl⟩ := (mem_preferredApps hdistinct).1 (List.mem_of_mem_dropLast happ)
        rfl
      · exact (hkeyed app (hothers.mem_iff.1 happ)).2.2

/-- Two preferred apps and two others, one of which is not shown. -/
def fourApps : StoredAccount Unit Unit where
  availableApps := some
    [⟨js "owncloud", true, some ⟨none⟩, none, none, ()⟩,
      ⟨js "blog", true, some ⟨some (js "Our blog")⟩, none, none, ()⟩,
      ⟨js "mailer", false, some ⟨none⟩, none, none, ()⟩,
      ⟨js "roundcube", true, some ⟨none⟩, none, none, ()⟩]
  rest := ()

theorem account_launches_fourApps : ∃ preferred others : List (AvailableApp Unit),
    account (some fourApps) =
      .ok (some { fourApps with availableApps := some (preferred ++ others) }) ∧
    IsLaunched ((fourApps.availableApps.getD []).filter (·.interactive)) preferred others :=
  account_launches fourApps (by decide +kernel) (by decide +kernel)

end Launcher

end CloudOs

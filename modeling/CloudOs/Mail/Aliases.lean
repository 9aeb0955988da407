/-
# Mail aliases and groups

Each group that was created through the API is meant to be a mail alias for its direct members,
and no other name is an alias.  Whoever delivers mail learns it from the events
(`AliasesMirror`): after every request the aliases that the events make are those of the groups.

| request | what is out of step |
| --- | --- |
| `create`, `remove` | the directory has taken the write and the event is not sent |
| `update` | as above; or the group was deleted, and is announced as an alias |

Names are compared as the directory does, ignoring case: a recipient names a member when the
member's DN is that of the name.
-/

import CloudOs.Lib.Replay
import CloudOs.Lib.Runs
import CloudOs.Resources.AccountGroupsResource

namespace CloudOs

open Prog Replay AccountGroupsResource

namespace Mail

/-- What a listener makes of an event. -/
def hearAlias (view : String → Option (List String)) : EmailAliasEvent → String → Option (List String)
  | .newEmailAlias name recipients => Function.update view name (some recipients)
  | .removeEmailAlias name => Function.update view name none

variable {env : Env}

/-- The aliases that the events make. -/
def aliases (s : State env.ctx) : String → Option (List String) :=
  replay hearAlias (fun _ => none) s.announced

/-- The recipients are the names of the members. -/
structure NamesMembers (ctx : LdapContext) (recipients members : List String) : Prop where
  named : ∀ dn ∈ members, ∃ r ∈ recipients, dn = ctx.userDN r ∨ dn = ctx.groupDN r
  member : ∀ r ∈ recipients, ∃ dn ∈ members, dn = ctx.userDN r ∨ dn = ctx.groupDN r

/-- The aliases mirror the groups: one for each that was created through the API and none for
what is no group.  As their names are in lower case, no group has two. -/
structure AliasesMirror (s : State env.ctx) : Prop where
  created : ∀ name ∈ s.created, (aliases s name).isSome = true
  stored : ∀ name recipients, aliases s name = some recipients →
    ∃ g, s.world.directory.findGroup name = some g ∧ NamesMembers env.ctx recipients g.getMembers
  lower : ∀ name, (aliases s name).isSome = true → env.ctx.toLowerCase name = name

/-- When the body answers, the next call to rooty goes through. -/
def RootyTakes {α : Type} (m : Server env α) (w : World env.ctx) : Prop :=
  ∀ a, (exec m w).1 = .ok a → env.fails .rooty (after m w).calls = false

theorem RootyTakes.taken {α : Type} {m : Server env α} {w t : World env.ctx} {a : α}
    (h : RootyTakes m w) (hexec : exec m w = (.ok a, t)) : env.fails .rooty t.calls = false := by
  have htakes := h a (congrArg Prod.fst hexec)
  rwa [after, hexec] at htakes

/-- The update deletes the group: it has no recipients, and nothing keeps the group from being
deleted. -/
def EmptiesGroup (env : Env) (w : World env.ctx) (request : AccountGroupRequest) : Prop :=
  request.recipients = [] ∧
    (∃ g, AccountGroupDAO.Deletes w.directory (env.ctx.getName request) g) ∧
    env.fails .ldap w.calls = false

/-- Every write to a group is announced as what it is.

* Rooty takes the event that follows the write.
* An update does not delete the group. -/
def Announced (env : Env) (s : State env.ctx) : Request → Prop
  | .create apiKey groupName groupRequest => ∀ admin, s.world.sessions apiKey = some admin →
      admin.isAdmin = true → env.ctx.toLowerCase groupName = env.ctx.getName groupRequest →
        RootyTakes (AccountGroupDAO.create env groupRequest (recipientsOf env admin groupRequest))
          s.world
  | .update apiKey groupName groupRequest => IsAdminSession s.world.sessions apiKey →
      env.ctx.toLowerCase groupName = env.ctx.getName groupRequest →
        ¬ EmptiesGroup env s.world groupRequest ∧
          RootyTakes (AccountGroupDAO.update env groupRequest) s.world
  | .remove apiKey groupName => IsAdminSession s.world.sessions apiKey →
      ∀ g, s.world.directory.findGroup groupName = some g →
        RootyTakes (AccountGroupDAO.delete env g.name) s.world

variable {s t : State env.ctx}

/-! ### What keeps the aliases in step -/

/-- Nothing is announced, and the groups that have an alias stay. -/
theorem AliasesMirror.keep (hs : AliasesMirror s) (hannounced : t.announced = s.announced)
    (hcreated : t.created = s.created)
    (hgroups : ∀ name g, s.world.directory.findGroup name = some g →
      t.world.directory.findGroup name = some g) : AliasesMirror t := by
  have haliases : aliases t = aliases s := by rw [aliases, hannounced, aliases]
  refine ⟨?_, ?_, ?_⟩
  · rw [haliases, hcreated]
    exact hs.created
  · intro name recipients h
    rw [haliases] at h
    obtain ⟨g, hg, hnames⟩ := hs.stored name recipients h
    exact ⟨g, hgroups name g hg, hnames⟩
  · rw [haliases]
    exact hs.lower

/-- A group is written and announced. -/
theorem AliasesMirror.announce (hs : AliasesMirror s) {name : String} {recipients : List String}
    {g : AccountGroup} (hlower : env.ctx.toLowerCase name = name)
    (hannounced : t.announced = s.announced ++ [.newEmailAlias name recipients])
    (hcreated : ∀ n ∈ t.created, n = name ∨ n ∈ s.created)
    (hgroup : t.world.directory.findGroup name = some g)
    (hnames : NamesMembers env.ctx recipients g.getMembers)
    (hgroups : ∀ n, env.ctx.groupDN n ≠ env.ctx.groupDN name → ∀ g,
      s.world.directory.findGroup n = some g → t.world.directory.findGroup n = some g) :
    AliasesMirror t := by
  have haliases : aliases t = Function.update (aliases s) name (some recipients) := by
    rw [aliases, hannounced, replay_append]
    rfl
  refine ⟨fun n hn => ?_, fun n rs h => ?_, fun n h => ?_⟩
  · rw [haliases]
    by_cases hname : n = name
    · rw [hname, Function.update_self]
      rfl
    · rw [Function.update_of_ne hname]
      exact hs.created n ((hcreated n hn).resolve_left hname)
  · rw [haliases] at h
    by_cases hname : n = name
    · subst hname
      rw [Function.update_self] at h
      exact ⟨g, hgroup, Option.some.inj h ▸ hnames⟩
    · rw [Function.update_of_ne hname] at h
      obtain ⟨g', hg', hnames'⟩ := hs.stored n rs h
      refine ⟨g', hgroups n ?_ g' hg', hnames'⟩
      -- two names in lower case with one DN are one
      rw [Ne, env.ctx.groupDN_eq_iff, hlower, hs.lower n (by rw [h]; rfl)]
      exact hname
  · rw [haliases] at h
    by_cases hname : n = name
    · rw [hname, hlower]
    · rw [Function.update_of_ne hname] at h
      exact hs.lower n h

/-- A group is removed, and the removal announced. -/
theorem AliasesMirror.forget (hs : AliasesMirror s) {name : String}
    (hlower : env.ctx.toLowerCase name = name)
    (hannounced : t.announced = s.announced ++ [.removeEmailAlias name])
    (hcreated : ∀ n ∈ t.created, n ≠ name ∧ n ∈ s.created)
    (hgroups : ∀ n, env.ctx.groupDN n ≠ env.ctx.groupDN name → ∀ g,
      s.world.directory.findGroup n = some g → t.world.directory.findGroup n = some g) :
    AliasesMirror t := by
  have haliases : aliases t = Function.update (aliases s) name none := by
    rw [aliases, hannounced, replay_append]
    rfl
  have hother : ∀ n, (aliases t n).isSome = true → n ≠ name ∧ aliases t n = aliases s n := by
    intro n h
    rw [haliases] at h ⊢
    by_cases hname : n = name
    · rw [hname, Function.update_self] at h
      exact absurd h Bool.false_ne_true
    · exact ⟨hname, Function.update_of_ne hname ..⟩
  refine ⟨fun n hn => ?_, fun n rs h => ?_, fun n h => ?_⟩
  · rw [haliases, Function.update_of_ne (hcreated n hn).1]
    exact hs.created n (hcreated n hn).2
  · obtain ⟨hname, hsame⟩ := hother n (by rw [h]; rfl)
    rw [hsame] at h
    obtain ⟨g, hg, hnames⟩ := hs.stored n rs h
    refine ⟨g, hgroups n ?_ g hg, hnames⟩
    rw [Ne, env.ctx.groupDN_eq_iff, hlower, hs.lower n (by rw [h]; rfl)]
    exact hname
  · obtain ⟨-, hsame⟩ := hother n h
    rw [hsame] at h
    exact hs.lower n h

/-- A group of another name stays what it is when `g` is written. -/
theorem findGroup_of_ne {dir : Directory env.ctx} {g g' : AccountGroup} {n : String}
    (hne : env.ctx.groupDN n ≠ env.ctx.groupDN g.name) (h : dir.findGroup n = some g') :
    (dir.putGroup g).findGroup n = some g' := by
  rw [Directory.findGroup, Directory.groupAt_putGroup, if_neg hne]
  exact h

/-- The DNs that the recipients are resolved to are theirs. -/
theorem namesMembers_of_resolved {dir : Directory env.ctx} {recipients dns members : List String}
    (hdns : recipients.mapM (AccountGroupDAO.findAccountOrGroupDN dir) = .ok dns)
    (hmembers : ∀ dn, dn ∈ members ↔ dn ∈ dns) : NamesMembers env.ctx recipients members := by
  constructor
  · intro dn hdn
    obtain ⟨r, hr, hfound⟩ := mem_of_mapM_ok hdns ((hmembers dn).1 hdn)
    exact ⟨r, hr, AccountGroupDAO.findAccountOrGroupDN_ok hfound⟩
  · intro r hr
    obtain ⟨dn, hdn, hfound⟩ := exists_of_mapM_ok hdns hr
    exact ⟨dn, (hmembers dn).2 hdn, AccountGroupDAO.findAccountOrGroupDN_ok hfound⟩

/-! ### One request -/

variable {getFirstDnValue : String → String}

theorem isAdmin_of_session {sessions : String → Option Account} {apiKey : String} {admin : Account}
    (hsession : sessions apiKey = some admin) (h : IsAdminSession sessions apiKey) :
    admin.isAdmin = true := by
  simpa [IsAdminSession, hsession] using h

/-- The name in the path and the one in the request are the same, or the request is refused. -/
theorem ends_checkName {α : Type} {groupName : String} {groupRequest : AccountGroupRequest}
    {rest : Method env α} {Q : Except Exn α → State env.ctx → Prop}
    (hrefused : ∀ e, Q (.error e) s)
    (hrest : env.ctx.toLowerCase groupName = env.ctx.getName groupRequest → Ends rest s Q) :
    Ends (checkName env (env.ctx.toLowerCase groupName) groupRequest rest) s Q := by
  unfold checkName
  split_ifs with h
  · exact hrefused _
  · refine hrest ?_
    simpa [LdapContext.equalsIgnoreCase, LdapContext.getName, env.ctx.toLowerCase_toLowerCase]
      using h

/-- **One `create`.** -/
theorem create_mirrors (hs : AliasesMirror s) (apiKey groupName : String)
    (groupRequest : AccountGroupRequest)
    (h : Announced env s (.create apiKey groupName groupRequest)) :
    AliasesMirror (step env getFirstDnValue s (.create apiKey groupName groupRequest)) := by
  refine Ends.after (P := fun t => AliasesMirror t) ?_
  unfold create withAdmin
  rw [ends_bind, ends_get]
  refine ends_asAdmin (fun _ _ _ => hs) fun admin hsession hcaller => ?_
  refine ends_checkName (fun _ => hs) fun hname => ?_
  have hrooty := h admin hsession (isAdmin_of_session hsession hcaller) hname
  rw [ends_bind, ends_onWorld]
  refine ((AccountGroupDAO.create_returns groupRequest _).and (ends_exec _ _)).mono ?_
  rintro r w ⟨hends, hexec⟩
  cases r with
  | error e =>
    obtain ⟨dir, hadds, hleaves⟩ := hends
    refine hs.keep rfl rfl fun name g hg => ?_
    rw [show w.directory = dir from hleaves.directory]
    exact AccountGroupDAO.findGroup_of_addsBuiltIn hadds hg
  | ok g =>
    obtain ⟨dir, hadds, -, hcreates, hleaves⟩ := hends
    obtain ⟨dns, hdns, hg⟩ := hcreates.written
    have hmembers : ∀ dn, dn ∈ g.getMembers ↔ dn ∈ dns := by simp [hg]
    have hnames := namesMembers_of_resolved hdns hmembers
    have hgname : g.name = env.ctx.toLowerCase groupName := by
      rw [hname, hg]
      simp [AccountGroupDAO.newGroup]
    obtain ⟨view, hview⟩ : ∃ view,
        buildAccountGroupView env getFirstDnValue g g.getMembers = .ok view := by
      refine buildAccountGroupView_ok g fun dn hdn => ?_
      obtain ⟨r, -, hr⟩ := hnames.named dn hdn
      exact ⟨r, hr⟩
    have htakes := hrooty.taken hexec
    simp only [ends_bind, ends_modify, ends_reads, hview, ends_announce, htakes]
    refine hs.announce (g := g) (env.ctx.toLowerCase_toLowerCase groupName) rfl
      (fun n hn => List.mem_cons.1 hn) ?_ hnames ?_
    · have hfound := Directory.findGroup_putGroup dir g
      rw [← hleaves.directory, hgname] at hfound
      exact hfound
    · intro n hne g' hg'
      have hkept := @findGroup_of_ne env dir g g' n (hgname ▸ hne)
        (AccountGroupDAO.findGroup_of_addsBuiltIn hadds hg')
      rw [← hleaves.directory] at hkept
      exact hkept

/-- **One `update`.** -/
theorem update_mirrors (hs : AliasesMirror s) (apiKey groupName : String)
    (groupRequest : AccountGroupRequest)
    (h : Announced env s (.update apiKey groupName groupRequest)) :
    AliasesMirror (step env getFirstDnValue s (.update apiKey groupName groupRequest)) := by
  refine Ends.after (P := fun t => AliasesMirror t) ?_
  unfold update withAdmin
  rw [ends_bind, ends_get]
  refine ends_asAdmin (fun _ _ _ => hs) fun admin hsession hcaller => ?_
  refine ends_checkName (fun _ => hs) fun hname => ?_
  obtain ⟨hstays, hrooty⟩ := h hcaller hname
  simp only [ends_bind, ends_get]
  cases s.world.directory.findGroup (env.ctx.toLowerCase groupName) with
  | none => exact hs
  | some old =>
    dsimp only
    rw [ends_bind, ends_onWorld]
    refine ((AccountGroupDAO.update_returns groupRequest).and (ends_exec _ _)).mono ?_
    rintro (e | _ | g) w ⟨hends, hexec⟩
    · refine hs.keep rfl rfl fun name g hg => ?_
      rw [show w.directory = s.world.directory from hends.directory]
      exact hg
    · obtain ⟨hempty, hldap, g, hdeletes, -⟩ := hends
      exact absurd ⟨hempty, ⟨g, hdeletes⟩, hldap⟩ hstays
    · obtain ⟨-, old', hupdates, hleaves⟩ := hends
      obtain ⟨dns, hdns, hg⟩ := hupdates.written
      have hmembers : ∀ dn, dn ∈ g.getMembers ↔ dn ∈ dns := by
        simp [hg, AccountGroupDAO.updatedGroup]
      have hnames := namesMembers_of_resolved hdns hmembers
      have hdn : env.ctx.groupDN g.name = env.ctx.groupDN (env.ctx.toLowerCase groupName) := by
        rw [hname, ← Directory.groupDN_of_groupAt hupdates.stored, hg]
        simp [AccountGroupDAO.updatedGroup]
      have htakes := hrooty.taken hexec
      simp only [Option.isNone_some, Bool.false_eq_true, if_false, ends_bind, ends_announce, htakes]
      refine hs.announce (g := g) (env.ctx.toLowerCase_toLowerCase groupName) rfl
        (fun n hn => Or.inr hn) ?_ hnames ?_
      · have hfound := Directory.findGroup_putGroup s.world.directory g
        rw [← hleaves.directory, Directory.findGroup, hdn] at hfound
        exact hfound
      · intro n hne g' hg'
        have hkept := findGroup_of_ne (g := g) (hdn ▸ hne) hg'
        rw [← hleaves.directory] at hkept
        exact hkept

/-- **One `remove`.** -/
theorem remove_mirrors (hs : AliasesMirror s) (apiKey groupName : String)
    (h : Announced env s (.remove apiKey groupName)) :
    AliasesMirror (step env getFirstDnValue s (.remove apiKey groupName)) := by
  refine Ends.after (P := fun t => AliasesMirror t) ?_
  unfold remove withAdmin
  rw [ends_bind, ends_get]
  refine ends_asAdmin (fun _ _ _ => hs) fun admin hsession hcaller => ?_
  simp only [ends_bind, ends_get]
  cases hg : s.world.directory.findGroup (env.ctx.toLowerCase groupName) with
  | none => exact hs
  | some g =>
    have hdn : env.ctx.groupDN g.name = env.ctx.groupDN (env.ctx.toLowerCase groupName) :=
      Directory.groupDN_of_groupAt hg
    have hrooty := h hcaller g (by rw [← Directory.findGroup_toLowerCase, hg])
    dsimp only
    rw [ends_bind, ends_onWorld]
    refine ((AccountGroupDAO.delete_returns g.name).and (ends_exec _ _)).mono ?_
    rintro (e | _) w ⟨hends, hexec⟩
    · refine hs.keep rfl rfl fun name g' hg' => ?_
      rw [show w.directory = s.world.directory from hends.directory]
      exact hg'
    · have htakes := hrooty.taken hexec
      simp only [ends_bind, ends_modify, ends_announce, htakes]
      refine hs.forget (env.ctx.toLowerCase_toLowerCase groupName) rfl (fun n hn => ?_) ?_
      · obtain ⟨hn, hne⟩ := List.mem_filter.1 hn
        exact ⟨by simpa using hne, hn⟩
      · intro n hne g' hg'
        change w.directory.findGroup n = some g'
        rcases hends with ⟨-, hsame⟩ | ⟨-, -, -, hleaves⟩
        · rw [hsame.directory]
          exact hg'
        · rw [hleaves.directory, Directory.findGroup, Directory.groupAt_eraseGroup,
            if_neg (hdn ▸ hne)]
          exact hg'

/-! ### Runs -/

/-- **Mail aliases mirror the groups** in every state of a run whose writes are announced as what
they are, whatever stands in the directory before the first request. -/
theorem aliases_mirror (env : Env) (getFirstDnValue : String → String) (w : World env.ctx)
    (requests : List Request)
    (h : Runs.Meets (step env getFirstDnValue) (Announced env) { world := w } requests) :
    ∀ before, before <+: requests →
      AliasesMirror (Runs.run (step env getFirstDnValue) { world := w } before) := by
  intro before hprefix
  have hstart : AliasesMirror ({ world := w } : State env.ctx) := by
    refine ⟨fun name hname => absurd hname List.not_mem_nil, fun name recipients halias => ?_,
      fun name halias => ?_⟩
    · exact absurd halias (Option.some_ne_none recipients).symm
    · exact absurd halias Bool.false_ne_true
  refine Runs.run_invariant (C := Announced env) (fun s r hs hannounced => ?_) hstart
    (h.of_prefix hprefix)
  cases r with
  | create apiKey groupName groupRequest =>
    exact create_mirrors hs apiKey groupName groupRequest hannounced
  | update apiKey groupName groupRequest =>
    exact update_mirrors hs apiKey groupName groupRequest hannounced
  | remove apiKey groupName => exact remove_mirrors hs apiKey groupName hannounced

/-- A server with the account `alice`, and a session of an admin. -/
def aliceOnly : World Env.mock.ctx where
  directory := Directory.empty.putAccount (Account.new "alice")
  sessions := fun apiKey =>
    if apiKey = "admin" then some ((Account.new "root").setAdmin true) else none

/-- A group is created, then described. -/
def describeStaff : List Request :=
  [.create "admin" "Staff" { name := "staff", recipients := ["Alice"] },
    .update "admin" "staff" { name := "staff", recipients := ["alice"], description := some "all" }]

theorem aliases_mirror_described :
    AliasesMirror (Runs.run (step .mock firstDnValue) { world := aliceOnly } describeStaff) :=
  aliases_mirror .mock firstDnValue aliceOnly describeStaff
    ⟨fun _ _ _ _ _ _ => rfl,
      fun _ _ => ⟨fun h => absurd h.1 (List.cons_ne_nil _ _), fun _ _ => rfl⟩, trivial⟩
    describeStaff (List.prefix_refl _)

/-- **An alias of a group that is no more.**  An update without recipients deletes the group and
announces an empty alias. -/
theorem alias_of_deleted : ¬ AliasesMirror (Runs.run (step .mock firstDnValue)
    { world := aliceOnly } [.create "admin" "staff" { name := "staff", recipients := ["alice"] },
      .update "admin" "staff" { name := "staff" }]) := by
  intro h
  have halias : aliases (Runs.run (step .mock firstDnValue) { world := aliceOnly }
      [.create "admin" "staff" { name := "staff", recipients := ["alice"] },
        .update "admin" "staff" { name := "staff" }]) "staff" = some [] := by
    decide +kernel
  have hgone : (Runs.run (step .mock firstDnValue) { world := aliceOnly }
      [.create "admin" "staff" { name := "staff", recipients := ["alice"] },
        .update "admin" "staff" { name := "staff" }]).world.directory.findGroup "staff" = none := by
    decide +kernel
  obtain ⟨g, hg, -⟩ := h.stored "staff" [] halias
  exact absurd (hgone.symm.trans hg) (Option.some_ne_none g).symm

end Mail

end CloudOs

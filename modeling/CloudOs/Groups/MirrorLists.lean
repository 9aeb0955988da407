/-
# Two member lists of a mirror

The members of a mirror are listed in two ways.

| what a source of the group has | `buildGroupMemberList(group)` | with its recipients |
| --- | --- | --- |
| an account | is listed | is listed |
| a group as a member | its list is added | the DN of the group is added |
| a mirror | is left out | what the mirror brings is added |

The group view reads the first list, and `create` asks the second one whether a group has
members.  `Lists` is the first list as a relation (`mem_buildGroupMemberList`).  The accounts
of the two are the same exactly when the groups nested in the sources and the mirrors of the
sources bring the same accounts beside those that both lists have anyway
(`memberLists_agree_iff`).
-/

import CloudOs.Groups.Acyclicity
import CloudOs.Groups.Expansion
import CloudOs.Groups.References

namespace CloudOs

open AccountGroupDAO Digraph

namespace Groups

variable {env : Env} {dir : Directory env.ctx}

/-! ### What the first list has -/

/-- `buildGroupMemberList` of the group under the first DN lists the second DN. -/
inductive Lists (dir : Directory env.ctx) : String → String → Prop
  | own {dn m : String} (h : m ∈ membersAt dir dn) : Lists dir dn m
  | direct {dn mirror m : String} (hmirror : mirror ∈ mirrorsAt dir dn)
      (h : m ∈ membersAt dir (env.ctx.groupDN mirror)) (haccount : env.ctx.isGroupDn m = false) :
      Lists dir dn m
  | nested {dn g m : String} (hedge : Expands dir dn g) (h : Lists dir g m) : Lists dir dn m

/-- What a mirror brings into the first list. -/
def Brings (dir : Directory env.ctx) (mirror m : String) : Prop :=
  (m ∈ membersAt dir (env.ctx.groupDN mirror) ∧ env.ctx.isGroupDn m = false) ∨
    ∃ g ∈ membersAt dir (env.ctx.groupDN mirror), env.ctx.isGroupDn g = true ∧ Lists dir g m

/-- A list has the own members of the group and what its mirrors bring. -/
theorem lists_iff {dn m : String} :
    Lists dir dn m ↔ m ∈ membersAt dir dn ∨ ∃ mirror ∈ mirrorsAt dir dn, Brings dir mirror m := by
  constructor
  · intro h
    cases h with
    | own h => exact Or.inl h
    | direct hmirror h haccount => exact Or.inr ⟨_, hmirror, Or.inl ⟨h, haccount⟩⟩
    | nested hedge h =>
      obtain ⟨hgroup, mirror, hmirror, hg⟩ := hedge
      exact Or.inr ⟨mirror, hmirror, Or.inr ⟨_, hg, hgroup, h⟩⟩
  · rintro (h | ⟨mirror, hmirror, ⟨h, haccount⟩ | ⟨g, hg, hgroup, h⟩⟩)
    · exact .own h
    · exact .direct hmirror h haccount
    · exact .nested ⟨hgroup, mirror, hmirror, hg⟩ h

/-- A loop that collects: an element is in the result when it was there before or some
step adds it. -/
theorem mem_foldlM_ok {ε α β : Type} {f : List β → α → Except ε (List β)} {P : α → Prop} {x : β}
    (h : ∀ b a r, f b a = .ok r → (x ∈ r ↔ x ∈ b ∨ P a)) {l : List α} {b r : List β}
    (hr : l.foldlM f b = .ok r) : x ∈ r ↔ x ∈ b ∨ ∃ a ∈ l, P a := by
  induction l generalizing b with
  | nil =>
    obtain rfl := Except.ok.inj hr
    simp
  | cons a l ih =>
    rw [List.foldlM_cons] at hr
    obtain ⟨c, hc, hr⟩ := Prog.exists_of_bind_eq_ok hr
    rw [ih hr, h b a c hc]
    simp only [List.mem_cons, exists_eq_or_imp, or_assoc]

theorem groupDN_of_mirror {mirror : String} {source : AccountGroup}
    (h : dir.findGroup mirror = some source) :
    membersAt dir (env.ctx.groupDN mirror) = source.getMembers := by
  rw [Directory.findGroup] at h
  rw [membersAt, h]
  rfl

/-- **The first list.**  When it comes to an end, `buildGroupMemberList` lists what `Lists` says. -/
theorem mem_buildGroupMemberList {depth : ℕ} {dn : String} {g : AccountGroup} {members : List String}
    (hg : dir.groupAt dn = some g) (h : buildGroupMemberList dir depth g = .ok members) (m : String) :
    m ∈ members ↔ Lists dir dn m := by
  induction depth generalizing dn g members with
  | zero => exact Prog.of_error_eq_ok h
  | succ depth ih =>
    rw [lists_iff, membersAt, mirrorsAt, hg]
    unfold buildGroupMemberList at h
    have hloop := mem_foldlM_ok (x := m) (P := fun mirror => Brings dir mirror m)
      (fun b mirror r hr => ?_) h
    · simpa using hloop
    cases hsource : dir.findGroup mirror with
    | none =>
      rw [hsource] at hr
      have hnone : membersAt dir (env.ctx.groupDN mirror) = [] := by
        rw [membersAt, ← Directory.findGroup, hsource]
        rfl
      obtain rfl := Except.ok.inj hr
      simp [Brings, hnone]
    | some source =>
      rw [hsource] at hr
      have hmember := mem_foldlM_ok (x := m) (P := fun d =>
        (d = m ∧ env.ctx.isGroupDn d = false) ∨ (env.ctx.isGroupDn d = true ∧ Lists dir d m))
        (fun b d r hr => ?_) hr
      · rw [hmember, Brings, groupDN_of_mirror hsource]
        refine or_congr_right ?_
        constructor
        · rintro ⟨d, hd, ⟨rfl, haccount⟩ | ⟨hgroup, hlists⟩⟩
          · exact Or.inl ⟨hd, haccount⟩
          · exact Or.inr ⟨d, hd, hgroup, hlists⟩
        · rintro (⟨hd, haccount⟩ | ⟨d, hd, hgroup, hlists⟩)
          · exact ⟨m, hd, Or.inl ⟨rfl, haccount⟩⟩
          · exact ⟨d, hd, Or.inr ⟨hgroup, hlists⟩⟩
      · cases hd : env.ctx.isGroupDn d with
        | false =>
          rw [hd, if_neg Bool.false_ne_true] at hr
          obtain rfl := Except.ok.inj hr
          simp [List.mem_insert_iff, eq_comm, or_comm]
        | true =>
          rw [hd, if_pos rfl] at hr
          cases hat : dir.groupAt d with
          | none =>
            rw [hat] at hr
            exact Prog.of_error_eq_ok hr
          | some g' =>
            simp only [hat] at hr
            cases hbuild : buildGroupMemberList dir depth g' with
            | error e =>
              rw [hbuild] at hr
              exact Prog.of_error_eq_ok hr
            | ok nested =>
              rw [hbuild] at hr
              obtain rfl := Except.ok.inj hr
              simp [ih hat hbuild]

/-! ### The two lists -/

/-- A group refers to its members and to the groups that it mirrors. -/
def RefersTo (dir : Directory env.ctx) (a b : String) : Prop :=
  MemberEdge dir a b ∨ ∃ mirror ∈ mirrorsAt dir a, b = env.ctx.groupDN mirror

theorem mem_membersAt {dn m : String} : m ∈ membersAt dir dn ↔ MemberEdge dir dn m := by
  rw [membersAt, MemberEdge]
  cases dir.groupAt dn <;> simp

/-- **The first list comes to an end** from every stored group, when the references are acyclic and
resolve. -/
theorem finishes_of_references (hrefs : References dir) (hacyclic : Acyclic (RefersTo dir))
    {dn : String} (hdn : (dir.groupAt dn).isSome) : ∃ depth, FinishesWithin dir depth dn := by
  have hpath : ∀ a b, Expands dir a b → Relation.TransGen (RefersTo dir) a b := by
    rintro a b ⟨-, mirror, hmirror, hb⟩
    exact .tail (.single (Or.inr ⟨mirror, hmirror, rfl⟩)) (Or.inl (mem_membersAt.1 hb))
  refine (expansion_finishes_iff dir).2 ⟨fun a b hab => ?_, fun a ha => ?_⟩ dn hdn
  · obtain ⟨hgroup, mirror, -, hb⟩ := hab
    obtain ⟨source, hsource, hb⟩ := mem_membersAt.1 hb
    refine ((hrefs _ source hsource).members b hb).resolve_left fun haccount => ?_
    obtain ⟨account, haccount⟩ := Option.isSome_iff_exists.1 haccount
    rw [← Directory.userDN_of_accountAt haccount, LdapContext.isGroupDn_userDN] at hgroup
    exact Bool.false_ne_true hgroup
  · exact hacyclic a (Relation.TransGen.closed hpath a a ha)

/-- The accounts that both lists have: the own members of the group, and those of its sources. -/
def InBoth (dir : Directory env.ctx) (dn m : String) : Prop :=
  m ∈ membersAt dir dn ∨ ∃ source ∈ mirrorsAt dir dn, m ∈ membersAt dir (env.ctx.groupDN source)

/-- A group that is a member of a source lists the account. -/
def InNested (dir : Directory env.ctx) (dn m : String) : Prop :=
  ∃ g, Expands dir dn g ∧ Lists dir g m

/-- A mirror of a source brings the account. -/
def InFurther (dir : Directory env.ctx) (dn m : String) : Prop :=
  ∃ source ∈ mirrorsAt dir dn, ∃ mirror ∈ mirrorsAt dir (env.ctx.groupDN source),
    Brings dir mirror m

/-- The accounts of the first list. -/
theorem lists_account_iff {dn m : String} (haccount : env.ctx.isGroupDn m = false) :
    Lists dir dn m ↔ InBoth dir dn m ∨ InNested dir dn m := by
  constructor
  · intro h
    cases h with
    | own h => exact Or.inl (Or.inl h)
    | direct hmirror h _ => exact Or.inl (Or.inr ⟨_, hmirror, h⟩)
    | nested hedge h => exact Or.inr ⟨_, hedge, h⟩
  · rintro ((h | ⟨source, hsource, h⟩) | ⟨g, hedge, h⟩)
    · exact .own h
    · exact .direct hsource h haccount
    · exact .nested hedge h

/-- The accounts of the second list. -/
theorem lists_sources_iff {dn m : String} :
    (m ∈ membersAt dir dn ∨ ∃ source ∈ mirrorsAt dir dn, Lists dir (env.ctx.groupDN source) m) ↔
      InBoth dir dn m ∨ InFurther dir dn m := by
  simp only [lists_iff, InBoth, InFurther]
  constructor
  · rintro (h | ⟨source, hsource, h | h⟩)
    · exact Or.inl (Or.inl h)
    · exact Or.inl (Or.inr ⟨source, hsource, h⟩)
    · exact Or.inr ⟨source, hsource, h⟩
  · rintro ((h | ⟨source, hsource, h⟩) | ⟨source, hsource, h⟩)
    · exact Or.inl h
    · exact Or.inr ⟨source, hsource, Or.inl h⟩
    · exact Or.inr ⟨source, hsource, Or.inr h⟩

/-- The two lists come to an end on every call stack that is deep enough, and have the same
accounts. -/
def MemberListsAgree (dir : Directory env.ctx) (g : AccountGroup) (recipients : List String) :
    Prop :=
  ∃ enough, ∀ depth ≥ enough, ∃ viewed effective,
    buildGroupMemberList dir depth g = .ok viewed ∧
    buildRecipientList dir depth g recipients true = .ok effective ∧
    ∀ m, env.ctx.isGroupDn m = false → (m ∈ viewed ↔ m ∈ effective)

/-- A group that is not stored has an empty list. -/
theorem not_lists_of_none {dn m : String} (h : dir.groupAt dn = none) : ¬ Lists dir dn m := by
  rw [lists_iff, membersAt, mirrorsAt, h]
  simp

/-- The loop over the sources ends normally when each source is missing or its list comes to an
end. -/
theorem buildRecipientList_ok_iff {depth : ℕ} {g : AccountGroup} {recipients dns : List String}
    (hdns : recipients.mapM (findAccountOrGroupDN dir) = .ok dns) :
    (∃ effective, buildRecipientList dir depth g recipients true = .ok effective) ↔
      ∀ source ∈ g.getMirrors,
        dir.findGroup source = none ∨ FinishesWithin dir depth (env.ctx.groupDN source) := by
  rw [buildRecipientList, hdns]
  refine foldlM_ok_iff (fun b source => ?_) _ _
  rw [FinishesWithin, ← Directory.findGroup]
  cases dir.findGroup source with
  | none => simp
  | some group =>
    cases hbuild : buildGroupMemberList dir depth group <;>
      simp [hbuild, Functor.map, Except.map]

/-- **The second list.**  When the first list of every source comes to an end, so does the second
one, and it has the resolved recipients and what the sources list. -/
theorem buildRecipientList_mirrors {depth : ℕ} {g : AccountGroup} {recipients dns : List String}
    (hdns : recipients.mapM (findAccountOrGroupDN dir) = .ok dns)
    (hsources : ∀ source ∈ g.getMirrors, FinishesWithin dir depth (env.ctx.groupDN source)) :
    ∃ effective, buildRecipientList dir depth g recipients true = .ok effective ∧
      ∀ m, m ∈ effective ↔
        m ∈ dns ∨ ∃ source ∈ g.getMirrors, Lists dir (env.ctx.groupDN source) m := by
  have hloop := @buildRecipientList_ok_iff env dir depth g recipients dns hdns
  obtain ⟨effective, heffective⟩ := hloop.2 fun source hsource => Or.inr (hsources source hsource)
  refine ⟨effective, ?_, fun m => ?_⟩
  · exact heffective
  · rw [buildRecipientList, hdns] at heffective
    have hmem := mem_foldlM_ok (x := m)
      (P := fun source => Lists dir (env.ctx.groupDN source) m) (fun b source r hr => ?_) heffective
    · simpa using hmem
    cases hsource : dir.findGroup source with
    | none =>
      rw [hsource] at hr
      obtain rfl := Except.ok.inj hr
      exact (or_iff_left (not_lists_of_none hsource)).symm
    | some group =>
      simp only [hsource] at hr
      cases hbuild : buildGroupMemberList dir depth group with
      | error e =>
        rw [hbuild] at hr
        exact Prog.of_error_eq_ok hr
      | ok members =>
        rw [hbuild] at hr
        obtain rfl := Except.ok.inj hr
        simp [mem_buildGroupMemberList hsource hbuild]

/-- One depth is enough for the group and for its sources. -/
theorem exists_enough (hrefs : References dir) (hacyclic : Acyclic (RefersTo dir)) {g : AccountGroup}
    {dn : String} (hg : dir.groupAt dn = some g) : ∃ enough, ∀ depth ≥ enough,
      FinishesWithin dir depth dn ∧
        ∀ source ∈ g.getMirrors, FinishesWithin dir depth (env.ctx.groupDN source) := by
  have hfinite := List.finite_toSet (dn :: g.getMirrors.map env.ctx.groupDN)
  obtain ⟨enough, henough⟩ := depthBound_finishesWithin.common_depth hfinite fun d hd => by
    refine finishes_of_references hrefs hacyclic ?_
    rcases List.mem_cons.1 hd with rfl | hd
    · rw [hg]
      rfl
    · obtain ⟨source, hsource, rfl⟩ := List.mem_map.1 hd
      exact (hrefs dn g hg).mirrors source hsource
  refine ⟨enough, fun depth hdepth => ⟨?_, fun source hsource => ?_⟩⟩
  · exact depthBound_finishesWithin.mono hdepth (henough dn List.mem_cons_self)
  · exact depthBound_finishesWithin.mono hdepth
      (henough _ (List.mem_cons_of_mem _ (List.mem_map_of_mem hsource)))

/-- The accounts of the two lists, on every call stack that is deep enough. -/
theorem memberLists_have (hrefs : References dir) (hacyclic : Acyclic (RefersTo dir)) {dn : String}
    {g : AccountGroup} (hg : dir.groupAt dn = some g) {recipients dns : List String}
    (hdns : recipients.mapM (findAccountOrGroupDN dir) = .ok dns)
    (hown : ∀ m, m ∈ dns ↔ m ∈ g.getMembers) :
    ∃ enough, ∀ depth ≥ enough, ∃ viewed effective,
      buildGroupMemberList dir depth g = .ok viewed ∧
      buildRecipientList dir depth g recipients true = .ok effective ∧
      ∀ m, env.ctx.isGroupDn m = false →
        (m ∈ viewed ↔ InBoth dir dn m ∨ InNested dir dn m) ∧
        (m ∈ effective ↔ InBoth dir dn m ∨ InFurther dir dn m) := by
  have hmembers : membersAt dir dn = g.getMembers := by
    rw [membersAt, hg]
    rfl
  have hmirrors : mirrorsAt dir dn = g.getMirrors := by
    rw [mirrorsAt, hg]
    rfl
  obtain ⟨enough, henough⟩ := exists_enough hrefs hacyclic hg
  refine ⟨enough, fun depth hdepth => ?_⟩
  obtain ⟨⟨g', hg', viewed, hviewed⟩, hsources⟩ := henough depth hdepth
  obtain rfl := Option.some.inj (hg.symm.trans hg')
  obtain ⟨effective, heffective, hmem⟩ := buildRecipientList_mirrors hdns hsources
  refine ⟨viewed, effective, hviewed, heffective, fun m haccount => ⟨?_, ?_⟩⟩
  · rw [mem_buildGroupMemberList hg hviewed, lists_account_iff haccount]
  · rw [hmem, ← lists_sources_iff, hmembers, hmirrors, hown]

/-- The two lists agree when their accounts do; both have those that are in both anyway. -/
theorem memberLists_agree_iff_accounts (hrefs : References dir) (hacyclic : Acyclic (RefersTo dir))
    {dn : String} {g : AccountGroup} (hg : dir.groupAt dn = some g) {recipients dns : List String}
    (hdns : recipients.mapM (findAccountOrGroupDN dir) = .ok dns)
    (hown : ∀ m, m ∈ dns ↔ m ∈ g.getMembers) :
    MemberListsAgree dir g recipients ↔ ∀ m, env.ctx.isGroupDn m = false →
      (InBoth dir dn m ∨ InNested dir dn m ↔ InBoth dir dn m ∨ InFurther dir dn m) := by
  obtain ⟨enough, hlists⟩ := memberLists_have hrefs hacyclic hg hdns hown
  constructor
  · rintro ⟨deep, hagree⟩ m haccount
    obtain ⟨viewed, effective, hviewed, heffective, hsame⟩ :=
      hagree (max deep enough) (le_max_left _ _)
    obtain ⟨viewed', effective', hviewed', heffective', hmem⟩ :=
      hlists (max deep enough) (le_max_right _ _)
    obtain rfl := Except.ok.inj (hviewed.symm.trans hviewed')
    obtain rfl := Except.ok.inj (heffective.symm.trans heffective')
    rw [← (hmem m haccount).1, ← (hmem m haccount).2]
    exact hsame m haccount
  · intro h
    refine ⟨enough, fun depth hdepth => ?_⟩
    obtain ⟨viewed, effective, hviewed, heffective, hmem⟩ := hlists depth hdepth
    refine ⟨viewed, effective, hviewed, heffective, fun m haccount => ?_⟩
    rw [(hmem m haccount).1, (hmem m haccount).2]
    exact h m haccount

/-- **Where the two lists agree.**  The references being acyclic and resolving, both lists come to
an end; and they have the same accounts exactly when, beside the own members of the group and
those of its sources, the groups nested in the sources bring the accounts that the mirrors of
the sources bring. -/
theorem memberLists_agree_iff (env : Env) (dir : Directory env.ctx) (hrefs : References dir)
    (hacyclic : Acyclic (RefersTo dir)) (dn : String) (g : AccountGroup)
    (hg : dir.groupAt dn = some g) (recipients dns : List String)
    (hdns : recipients.mapM (findAccountOrGroupDN dir) = .ok dns)
    (hown : ∀ m, m ∈ dns ↔ m ∈ g.getMembers) :
    MemberListsAgree dir g recipients ↔ ∀ m, env.ctx.isGroupDn m = false →
      ¬ InBoth dir dn m → (InNested dir dn m ↔ InFurther dir dn m) := by
  rw [memberLists_agree_iff_accounts hrefs hacyclic hg hdns hown]
  refine forall₂_congr fun m _ => ?_
  by_cases hboth : InBoth dir dn m
  · exact iff_of_true (iff_of_true (Or.inl hboth) (Or.inl hboth)) fun hnot => absurd hboth hnot
  · rw [or_iff_right hboth, or_iff_right hboth]
    exact ⟨fun h _ => h, fun h => h hboth⟩

/-- Sources that contain no group and mirror none bring nothing apart. -/
theorem agree_of_plain_sources {dn : String}
    (hmembers : ∀ source ∈ mirrorsAt dir dn, ∀ m ∈ membersAt dir (env.ctx.groupDN source),
      env.ctx.isGroupDn m = false)
    (hmirrors : ∀ source ∈ mirrorsAt dir dn, mirrorsAt dir (env.ctx.groupDN source) = [])
    (m : String) : InNested dir dn m ↔ InFurther dir dn m := by
  refine iff_of_false ?_ ?_
  · rintro ⟨g, ⟨hgroup, source, hsource, hg⟩, -⟩
    rw [hmembers source hsource g hg] at hgroup
    exact Bool.false_ne_true hgroup
  · rintro ⟨source, hsource, mirror, hmirror, -⟩
    rw [hmirrors source hsource] at hmirror
    exact absurd hmirror List.not_mem_nil

theorem references_of_values (h : ∀ g ∈ dir.groups.values,
    (∀ m ∈ g.getMembers, (dir.accountAt m).isSome ∨ (dir.groupAt m).isSome) ∧
      ∀ m ∈ g.getMirrors, (dir.findGroup m).isSome) : References dir := fun _ g hg =>
  ⟨(h g (dir.groups.mem_values_of_lookup hg)).1, (h g (dir.groups.mem_values_of_lookup hg)).2⟩

theorem acyclic_of_values (rank : String → ℕ) (h : ∀ g ∈ dir.groups.values,
    (∀ m ∈ g.getMembers, rank m < rank (env.ctx.groupDN g.name)) ∧
      ∀ m ∈ g.getMirrors, rank (env.ctx.groupDN m) < rank (env.ctx.groupDN g.name)) :
    Acyclic (RefersTo dir) := by
  refine .of_rank rank fun a b hab => ?_
  rcases hab with ⟨g, hg, hb⟩ | ⟨mirror, hmirror, rfl⟩
  · rw [← Directory.groupDN_of_groupAt hg]
    exact (h g (dir.groups.mem_values_of_lookup hg)).1 b hb
  · rw [mirrorsAt] at hmirror
    cases hg : dir.groupAt a with
    | none =>
      rw [hg] at hmirror
      exact absurd hmirror List.not_mem_nil
    | some g =>
      rw [hg] at hmirror
      rw [← Directory.groupDN_of_groupAt hg]
      exact (h g (dir.groups.mem_values_of_lookup hg)).2 mirror hmirror

/-- A group of the mock directory. -/
def mockGroup (name : String) (members mirrors : List String) : AccountGroup :=
  ((AccountGroup.new name).setMembers members).setMirrors mirrors

/-- The group `staff` mirrors `team`. -/
def mirrorOfTeam : AccountGroup := mockGroup "staff" [Env.mock.ctx.userDN "alice"] ["team"]

/-- The group `dev` mirrors `ops`. -/
def mirrorOfOps : AccountGroup := mockGroup "dev" [Env.mock.ctx.userDN "alice"] ["ops"]

/-- `team` has bob, and `ops` has `team`. -/
def teamInOps : Directory Env.mock.ctx :=
  (((((Directory.empty.putAccount (Account.new "alice")).putAccount (Account.new "bob")).putGroup
    (mockGroup "team" [Env.mock.ctx.userDN "bob"] [])).putGroup
    (mockGroup "ops" [Env.mock.ctx.groupDN "team"] [])).putGroup mirrorOfTeam).putGroup mirrorOfOps

theorem references_teamInOps : References teamInOps := references_of_values (by decide +kernel)

theorem acyclic_teamInOps : Acyclic (RefersTo teamInOps) := by
  refine acyclic_of_values (fun dn =>
    if dn = Env.mock.ctx.groupDN "dev" ∨ dn = Env.mock.ctx.groupDN "staff" then 3
    else if dn = Env.mock.ctx.groupDN "ops" then 2
    else if dn = Env.mock.ctx.groupDN "team" then 1 else 0) ?_
  decide +kernel

theorem memberLists_agree_staff : MemberListsAgree teamInOps mirrorOfTeam ["alice"] := by
  have hg : teamInOps.groupAt (Env.mock.ctx.groupDN "staff") = some mirrorOfTeam := by
    rw [teamInOps, Directory.groupAt_putGroup, if_neg (by decide +kernel)]
    exact Directory.findGroup_putGroup _ mirrorOfTeam
  have hmembers : mirrorOfTeam.getMembers = [Env.mock.ctx.userDN "alice"] := by decide +kernel
  refine (memberLists_agree_iff .mock teamInOps references_teamInOps acyclic_teamInOps _ mirrorOfTeam hg
    ["alice"] [Env.mock.ctx.userDN "alice"] (by decide +kernel) fun m => by rw [hmembers]).2 ?_
  exact fun m _ _ => agree_of_plain_sources (by decide +kernel) (by decide +kernel) m

/-- **A list without bob.**  The view of `dev` shows bob, whose group `team` is in `ops`; the list
that `create` asks does not have him. -/
theorem memberLists_differ : References teamInOps ∧ Acyclic (RefersTo teamInOps) ∧
    ¬ MemberListsAgree teamInOps mirrorOfOps ["alice"] := by
  refine ⟨references_teamInOps, acyclic_teamInOps, ?_⟩
  intro hagree
  have hg : teamInOps.groupAt (Env.mock.ctx.groupDN "dev") = some mirrorOfOps :=
    Directory.findGroup_putGroup _ mirrorOfOps
  have hmembers : mirrorOfOps.getMembers = [Env.mock.ctx.userDN "alice"] := by decide +kernel
  have hdns : ["alice"].mapM (findAccountOrGroupDN teamInOps)
      = .ok [Env.mock.ctx.userDN "alice"] := by decide +kernel
  have haccount : Env.mock.ctx.isGroupDn (Env.mock.ctx.userDN "bob") = false := by decide +kernel
  have hboth := (memberLists_agree_iff_accounts references_teamInOps acyclic_teamInOps hg hdns
    fun m => by rw [hmembers]).1 hagree _ haccount
  have hnested : InNested teamInOps (Env.mock.ctx.groupDN "dev") (Env.mock.ctx.userDN "bob") :=
    ⟨Env.mock.ctx.groupDN "team", ⟨by decide +kernel, "ops", by decide +kernel, by decide +kernel⟩,
      .own (by decide +kernel)⟩
  rcases hboth.1 (Or.inr hnested) with (hown | hsource) | ⟨source, hsource, mirror, hmirror, -⟩
  · exact absurd hown (by decide +kernel)
  · exact absurd hsource (by decide +kernel)
  · have hnone : ∀ source ∈ mirrorsAt teamInOps (Env.mock.ctx.groupDN "dev"),
        mirrorsAt teamInOps (Env.mock.ctx.groupDN source) = [] := by decide +kernel
    rw [hnone source hsource] at hmirror
    exact absurd hmirror List.not_mem_nil

end Groups

end CloudOs

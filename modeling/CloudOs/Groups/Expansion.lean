/-
# The expansion of groups

`buildGroupMemberList` follows an edge from a group to the groups that are
members of a group it mirrors.  It finishes from every stored group exactly when
these edges lead to stored groups and close no cycle (`expansion_finishes_iff`).

Two kinds of reference make one edge, a mirror and then a membership.
`createsCircularReference` looks at memberships alone, so that a group can become
a member of a group that it mirrors.  `delete` refuses to remove a group that is
mirrored, and removes one that is a member of a mirrored group.  `KeepsExpansion`
is what the calls would have to ask; adding accounts to the built-in groups, and
every call that writes an account, needs nothing.
-/

import CloudOs.Dao.Operations

namespace CloudOs

open AccountGroupDAO Digraph

namespace Groups

variable {env : Env} {dir dir' : Directory env.ctx}

/-! ### The edges of the expansion -/

/-- The members of the group under a DN, none when it is not stored. -/
def membersAt (dir : Directory env.ctx) (dn : String) : List String :=
  (dir.groupAt dn).elim [] AccountGroup.getMembers

/-- The mirrors of the group under a DN. -/
def mirrorsAt (dir : Directory env.ctx) (dn : String) : List String :=
  (dir.groupAt dn).elim [] AccountGroup.getMirrors

/-- With these members and mirrors, `b` is a member group of a group that `a`
mirrors. -/
def ExpansionEdge (ctx : LdapContext) (members mirrors : String → List String) (a b : String) :
    Prop :=
  ctx.isGroupDn b = true ∧ ∃ mirror ∈ mirrors a, b ∈ members (ctx.groupDN mirror)

/-- The edges of a directory. -/
def Expands (dir : Directory env.ctx) : String → String → Prop :=
  ExpansionEdge env.ctx (membersAt dir) (mirrorsAt dir)

theorem ExpansionEdge.mono {ctx : LdapContext}
    {members members' mirrors mirrors' : String → List String}
    (hmembers : ∀ dn, ∀ m ∈ members dn, ctx.isGroupDn m = true → m ∈ members' dn)
    (hmirrors : ∀ dn, ∀ m ∈ mirrors dn, m ∈ mirrors' dn) {a b : String}
    (h : ExpansionEdge ctx members mirrors a b) : ExpansionEdge ctx members' mirrors' a b := by
  obtain ⟨hb, mirror, hmirror, hmem⟩ := h
  exact ⟨hb, mirror, hmirrors a mirror hmirror, hmembers _ b hmem hb⟩

theorem membersAt_putGroup (g : AccountGroup) :
    membersAt (dir.putGroup g)
      = Function.update (membersAt dir) (env.ctx.groupDN g.name) g.getMembers := by
  funext dn
  rw [membersAt, Directory.groupAt_putGroup, Function.update_apply]
  split_ifs <;> rfl

theorem mirrorsAt_putGroup (g : AccountGroup) :
    mirrorsAt (dir.putGroup g)
      = Function.update (mirrorsAt dir) (env.ctx.groupDN g.name) g.getMirrors := by
  funext dn
  rw [mirrorsAt, Directory.groupAt_putGroup, Function.update_apply]
  split_ifs <;> rfl

/-! ### The recursion and its edges -/

/-- `buildGroupMemberList` ends normally from the group under `dn` on a call stack
of this depth. -/
def FinishesWithin (dir : Directory env.ctx) (depth : ℕ) (dn : String) : Prop :=
  ∃ g, dir.groupAt dn = some g ∧ ∃ members, buildGroupMemberList dir depth g = .ok members

/-- The recursion ends normally from a group when it does from the groups that the
group expands to. -/
theorem buildGroupMemberList_ok_iff (depth : ℕ) (g : AccountGroup) :
    (∃ members, buildGroupMemberList dir (depth + 1) g = .ok members) ↔
      ∀ mirror ∈ g.getMirrors, ∀ m ∈ membersAt dir (env.ctx.groupDN mirror),
        env.ctx.isGroupDn m = true → FinishesWithin dir depth m := by
  unfold buildGroupMemberList
  refine foldlM_ok_iff (fun members mirror => ?_) _ _
  rw [membersAt, Directory.findGroup]
  cases dir.groupAt (env.ctx.groupDN mirror) with
  | none => simp
  | some source =>
    refine foldlM_ok_iff (fun members m => ?_) _ _
    by_cases hm : env.ctx.isGroupDn m = true
    · simp only [hm, if_true, FinishesWithin, true_imp_iff]
      cases dir.groupAt m with
      | none => simp
      | some g' =>
        cases hbuild : buildGroupMemberList dir depth g' <;>
          simp [hbuild, Functor.map, Except.map]
    · simp [hm]

/-- The recursion follows the edges of the expansion. -/
theorem depthBound_finishesWithin :
    DepthBound (Expands dir) (fun dn => (dir.groupAt dn).isSome) (FinishesWithin dir) where
  zero := by
    rintro dn ⟨g, -, members, h⟩
    simp [buildGroupMemberList] at h
  succ depth dn := by
    unfold FinishesWithin
    cases hg : dir.groupAt dn with
    | none => simp
    | some g =>
      simp only [Option.some.injEq, exists_eq_left', buildGroupMemberList_ok_iff, Option.isSome_some,
        true_and]
      constructor
      · rintro h b ⟨hb, mirror, hmirror, hmem⟩
        rw [mirrorsAt, hg] at hmirror
        exact h mirror hmirror b hmem hb
      · intro h mirror hmirror m hm hgroup
        exact h m ⟨hgroup, mirror, by rwa [mirrorsAt, hg], hm⟩
  finite dn := by
    refine (List.finite_toSet ((mirrorsAt dir dn).flatMap fun m =>
      membersAt dir (env.ctx.groupDN m))).subset ?_
    rintro b ⟨-, mirror, hmirror, hb⟩
    exact List.mem_flatMap.2 ⟨mirror, hmirror, hb⟩

/-- **Where the recursion finishes.**  `buildGroupMemberList` ends normally for
every stored group exactly when the groups that groups expand to are stored and
the expansion has no cycle. -/
theorem expansion_finishes_iff (dir : Directory env.ctx) :
    (∀ dn, (dir.groupAt dn).isSome → ∃ depth, FinishesWithin dir depth dn) ↔
      (∀ a b, Expands dir a b → (dir.groupAt b).isSome) ∧ Acyclic (Expands dir) := by
  refine depthBound_finishesWithin.forall_finishes_iff (fun a b hab => ?_) ?_
  · obtain ⟨-, mirror, hmirror, -⟩ := hab
    by_contra hnone
    rw [mirrorsAt, Option.not_isSome_iff_eq_none.1 hnone] at hmirror
    exact absurd hmirror List.not_mem_nil
  · exact dir.groups.finite_keys.subset fun dn h => Option.isSome_iff_exists.1 h

/-! ### Runs -/

/-- The DN a recipient resolves to, if it resolves. -/
def recipientDN (dir : Directory env.ctx) (recipient : String) : String :=
  if (dir.findAccount recipient).isSome then env.ctx.userDN recipient
  else env.ctx.groupDN recipient

/-- The expansion of the directory with the members and mirrors of the group `name`
replaced. -/
def ExpandsWith (dir : Directory env.ctx) (name : String) (recipients mirrors : List String) :
    String → String → Prop :=
  ExpansionEdge env.ctx
    (Function.update (membersAt dir) (env.ctx.groupDN name) (recipients.map (recipientDN dir)))
    (Function.update (mirrorsAt dir) (env.ctx.groupDN name) mirrors)

/-- The expansion of the directory can take the group `name` with these recipients and
mirrors: it leads to stored groups and has no cycle. -/
structure Admits (dir : Directory env.ctx) (name : String) (recipients mirrors : List String) :
    Prop where
  stored : ∀ a b, ExpandsWith dir name recipients mirrors a b →
    (dir.groupAt b).isSome ∨ b = env.ctx.groupDN name
  acyclic : Acyclic (ExpandsWith dir name recipients mirrors)

/-- The expansion of no other group needs the group under the DN. -/
def NotNeeded (dir : Directory env.ctx) (dn : String) : Prop := ∀ a, a ≠ dn → ¬ Expands dir a dn

/-- The call keeps the expansion finite, in the state it is made in: an accepted request
fits into it, and a group that is removed is not needed.  A `create` request meets
the directory with the built-in groups that it mirrors. -/
def KeepsExpansion (w : World env.ctx) : DaoOp → Prop
  | .createGroup request recipients =>
      let dir := request.getMirrorList.foldl addMirror w.directory
      (∃ g, Creates request recipients dir g) →
        Admits dir (env.ctx.getName request) recipients request.getMirrorList
  | .updateGroup request =>
      (request.recipients = [] → ∀ g, Deletes w.directory (env.ctx.getName request) g →
        NotNeeded w.directory (env.ctx.groupDN (env.ctx.getName request))) ∧
      (request.recipients ≠ [] → ∀ g g', Updates request w.directory g g' →
        Admits w.directory (env.ctx.getName request) request.recipients
          (g.getMirrors ++ request.getMirrorList))
  | .deleteGroup name => ∀ g, Deletes w.directory name g →
      NotNeeded w.directory (env.ctx.groupDN name)
  | _ => True

/-- The expansion leads to stored groups and has no cycle. -/
structure ExpansionIntact (dir : Directory env.ctx) : Prop where
  stored : ∀ a b, Expands dir a b → (dir.groupAt b).isSome
  acyclic : Acyclic (Expands dir)

/-- A recipient that resolves, resolves to its DN. -/
theorem eq_recipientDN {recipient dn : String}
    (h : findAccountOrGroupDN dir recipient = .ok dn) : dn = recipientDN dir recipient := by
  unfold findAccountOrGroupDN at h
  unfold recipientDN
  split at h
  · rename_i a ha
    rw [if_pos (by rw [ha]; rfl), ← Except.ok.inj h]
    exact Directory.userDN_of_accountAt ha
  · rename_i hnone
    rw [if_neg (by simp [hnone])]
    split at h
    · rename_i g hg
      rw [← Except.ok.inj h]
      exact Directory.groupDN_of_groupAt hg
    · exact absurd h (by simp)

theorem mem_resolved {recipients dns : List String}
    (h : recipients.mapM (findAccountOrGroupDN dir) = .ok dns) {m : String} (hm : m ∈ dns) :
    m ∈ recipients.map (recipientDN dir) := by
  obtain ⟨recipient, hrecipient, hdn⟩ := mem_of_mapM_ok h hm
  exact List.mem_map.2 ⟨recipient, hrecipient, (eq_recipientDN hdn).symm⟩

/-- Storing a group whose members are among the recipients. -/
theorem ExpansionIntact.putGroup {name : String} {recipients : List String} {g : AccountGroup}
    (hname : env.ctx.groupDN g.name = env.ctx.groupDN name)
    (hmembers : ∀ m ∈ g.getMembers, m ∈ recipients.map (recipientDN dir))
    (hadmits : Admits dir name recipients g.getMirrors) : ExpansionIntact (dir.putGroup g) := by
  have hexpands : ∀ a b, Expands (dir.putGroup g) a b →
      ExpandsWith dir name recipients g.getMirrors a b := by
    refine fun a b => ExpansionEdge.mono (fun dn m hm _ => ?_) fun dn m hm => ?_
    · rw [membersAt_putGroup, hname] at hm
      rw [Function.update_apply] at hm ⊢
      split_ifs at hm ⊢
      · exact hmembers m hm
      · exact hm
    · rwa [mirrorsAt_putGroup, hname] at hm
  refine ⟨fun a b hab => ?_, hadmits.acyclic.mono hexpands⟩
  rw [Directory.groupAt_putGroup, hname]
  split_ifs with hb
  · rfl
  · exact (hadmits.stored a b (hexpands a b hab)).resolve_right hb

/-- A write that keeps the stored groups and adds no edge. -/
theorem ExpansionIntact.mono (h : ExpansionIntact dir)
    (hstored : ∀ dn, (dir.groupAt dn).isSome → (dir'.groupAt dn).isSome)
    (hexpands : ∀ a b, Expands dir' a b → Expands dir a b) : ExpansionIntact dir' :=
  ⟨fun a b hab => hstored b (h.stored a b (hexpands a b hab)), h.acyclic.mono hexpands⟩

theorem isSome_putGroup {g : AccountGroup} {dn : String} (h : (dir.groupAt dn).isSome) :
    ((dir.putGroup g).groupAt dn).isSome := by
  rw [Directory.groupAt_putGroup]
  split_ifs
  · rfl
  · exact h

/-- A missing built-in group adds no members and no mirrors. -/
theorem reads_addsBuiltIn (h : AddsBuiltIn dir dir') :
    membersAt dir' = membersAt dir ∧ mirrorsAt dir' = mirrorsAt dir := by
  cases h with
  | @add n _ hnone =>
    rw [Directory.findGroup] at hnone
    rw [membersAt_putGroup, mirrorsAt_putGroup]
    constructor <;>
    · refine Function.update_eq_self_iff.2 ?_
      simp [membersAt, mirrorsAt, hnone]

theorem ExpansionIntact.addsBuiltIn (h : ExpansionIntact dir) (hadds : AddsBuiltIn dir dir') :
    ExpansionIntact dir' := by
  obtain ⟨hmembers, hmirrors⟩ := reads_addsBuiltIn hadds
  have hexpands : Expands dir' = Expands dir := by rw [Expands, Expands, hmembers, hmirrors]
  refine h.mono (fun dn hdn => ?_) fun a b hab => hexpands ▸ hab
  cases hadds with
  | add _ _ => exact isSome_putGroup hdn

/-- A new member of a built-in group is no group, and adds no edge. -/
theorem ExpansionIntact.enrolls {account : Account} (h : ExpansionIntact dir)
    (henrolls : Enrolls account dir dir') : ExpansionIntact dir' := by
  cases henrolls with
  | add hadds => exact h.addsBuiltIn hadds
  | @member n g _ hg =>
    have hat : dir.groupAt (env.ctx.groupDN g.name) = some g := Directory.findGroup_name hg
    refine h.mono (fun dn => isSome_putGroup) fun a b =>
      ExpansionEdge.mono (fun dn m hm hgroup => ?_) fun dn m hm => ?_
    · rw [membersAt_putGroup, Function.update_apply] at hm
      split_ifs at hm with hdn
      · rw [hdn, AccountGroup.addMember_name, membersAt, hat]
        refine ((AccountGroup.mem_addMember g).1 hm).resolve_right fun heq => ?_
        rw [heq, LdapContext.isGroupDn_userDN] at hgroup
        exact absurd hgroup (by decide)
      · exact hm
    · rw [mirrorsAt_putGroup, Function.update_apply] at hm
      split_ifs at hm with hdn
      · rw [hdn, AccountGroup.addMember_name, mirrorsAt, hat]
        simpa using hm
      · exact hm

/-- A group that no other expansion needs can be removed. -/
theorem ExpansionIntact.eraseGroup (h : ExpansionIntact dir) {dn : String}
    (hn : NotNeeded dir dn) : ExpansionIntact (dir.eraseGroup dn) := by
  have hexpands : ∀ a b, Expands (dir.eraseGroup dn) a b → Expands dir a b ∧ a ≠ dn := by
    rintro a b ⟨hb, mirror, hmirror, hmem⟩
    rw [mirrorsAt, Directory.groupAt_eraseGroup] at hmirror
    rw [membersAt, Directory.groupAt_eraseGroup] at hmem
    split_ifs at hmirror hmem with ha
    · exact absurd hmirror List.not_mem_nil
    · exact absurd hmirror List.not_mem_nil
    · exact absurd hmem List.not_mem_nil
    · exact ⟨⟨hb, mirror, hmirror, hmem⟩, ha⟩
  refine ⟨fun a b hab => ?_, h.acyclic.mono fun a b hab => (hexpands a b hab).1⟩
  obtain ⟨hold, ha⟩ := hexpands a b hab
  have hb : b ≠ dn := fun heq => hn a ha (heq ▸ hold)
  rw [Directory.groupAt_eraseGroup, if_neg hb]
  exact h.stored a b hold

theorem expansionIntact_step {w : World env.ctx} {op : DaoOp} (h : ExpansionIntact w.directory)
    (hop : KeepsExpansion w op) : ExpansionIntact (op.step env w).directory := by
  have hadds : ∀ {d d' : Directory env.ctx}, Relation.ReflTransGen AddsBuiltIn d d' →
      ExpansionIntact d → ExpansionIntact d' :=
    Runs.holds_of_reflTransGen fun _ _ hstep hd => hd.addsBuiltIn hstep
  have henrolls : ∀ {account : Account} {d d' : Directory env.ctx},
      Relation.ReflTransGen (Enrolls account) d d' → ExpansionIntact d → ExpansionIntact d' :=
    Runs.holds_of_reflTransGen fun _ _ hstep hd => hd.enrolls hstep
  have hwrites := op.step_writes w
  generalize (op.step env w).directory = dir' at hwrites
  cases hwrites with
  | nothing => exact h
  | addsAccount _ h' => exact henrolls h' ⟨h.stored, h.acyclic⟩
  | updatesAccount _ _ => exact ⟨h.stored, h.acyclic⟩
  | deletesAccount _ => exact ⟨h.stored, h.acyclic⟩
  | addsBuiltIns h' => exact hadds h' h
  | @createsGroup request _ _ _ _ h' hmirrors hcreates =>
    obtain ⟨dns, hdns, rfl⟩ := hcreates.written
    have hname : env.ctx.groupDN ((newGroup env request).setMembers dns.dedup).name
        = env.ctx.groupDN (env.ctx.getName request) := by simp [newGroup]
    have hadmits := hop ⟨_, hmirrors ▸ hcreates⟩
    rw [← hmirrors] at hadmits
    exact .putGroup hname (fun m hm => mem_resolved hdns (by simpa using hm))
      (by simpa [newGroup] using hadmits)
  | @updatesGroup request g _ _ hne hupdates =>
    have hadmits := hop.2 hne _ _ hupdates
    obtain ⟨dns, hdns, rfl⟩ := hupdates.written
    refine .putGroup ?_ (fun m hm => mem_resolved hdns (by simpa [updatedGroup] using hm))
      (by simpa [updatedGroup] using hadmits)
    simpa [updatedGroup] using Directory.groupDN_of_groupAt hupdates.stored
  | emptiesGroup hempty hdeletes => exact h.eraseGroup (hop.1 hempty _ hdeletes)
  | deletesGroup hdeletes => exact h.eraseGroup (hop _ hdeletes)
  | addsToDefaultGroup h' => exact henrolls h' h
  | addsToAdminGroup h' => exact henrolls h' h

/-- **Group expansion finishes** in every state that a run from the empty directory
reaches, as long as every accepted request fits into it and no group is removed that
another needs. -/
theorem expansion_finishes (env : Env) (w : World env.ctx) (hw : w.directory = .empty)
    (ops : List DaoOp) (hops : Runs.Meets (DaoOp.step env) KeepsExpansion w ops) (dn : String)
    (g : AccountGroup) (hg : (Runs.run (DaoOp.step env) w ops).directory.groupAt dn = some g) :
    ∃ depth members, buildGroupMemberList (Runs.run (DaoOp.step env) w ops).directory depth g
      = .ok members := by
  have hempty : ExpansionIntact w.directory := by
    rw [hw]
    have hnone : ∀ a b, ¬ Expands (.empty : Directory env.ctx) a b := by
      rintro a b ⟨-, mirror, hmirror, -⟩
      exact absurd hmirror List.not_mem_nil
    refine ⟨fun a b hab => absurd hab (hnone a b), fun a ha => ?_⟩
    obtain ⟨b, hab, -⟩ := Relation.TransGen.head'_iff.1 ha
    exact hnone a b hab
  have hintact := Runs.run_invariant (I := fun w : World env.ctx => ExpansionIntact w.directory)
    (fun _ _ => expansionIntact_step) hempty hops
  obtain ⟨depth, g', hg', members, hbuild⟩ :=
    (expansion_finishes_iff _).2 ⟨hintact.stored, hintact.acyclic⟩ dn (by rw [hg]; rfl)
  obtain rfl : g = g' := Option.some.inj (hg.symm.trans hg')
  exact ⟨depth, members, hbuild⟩

/-- While groups list accounts only, a request for accounts fits into the expansion,
whatever it mirrors. -/
theorem admits_of_accounts {name : String} {recipients mirrors : List String}
    (hgroups : ∀ g ∈ dir.groups.values, ∀ m ∈ g.getMembers, env.ctx.isGroupDn m = false)
    (hrecipients : ∀ r ∈ recipients, (dir.findAccount r).isSome) :
    Admits dir name recipients mirrors := by
  have hnone : ∀ a b, ¬ ExpandsWith dir name recipients mirrors a b := by
    rintro a b ⟨hb, mirror, -, hmem⟩
    have haccount : env.ctx.isGroupDn b = false := by
      rw [Function.update_apply] at hmem
      split_ifs at hmem
      · obtain ⟨r, hr, rfl⟩ := List.mem_map.1 hmem
        rw [recipientDN, if_pos (hrecipients r hr), LdapContext.isGroupDn_userDN]
      · rw [membersAt] at hmem
        cases hg : dir.groupAt (env.ctx.groupDN mirror) with
        | none => simp [hg] at hmem
        | some g =>
          rw [hg] at hmem
          exact hgroups g (dir.groups.mem_values_of_lookup hg) b hmem
    rw [haccount] at hb
    exact absurd hb (by decide)
  refine ⟨fun a b hab => absurd hab (hnone a b), fun a ha => ?_⟩
  obtain ⟨b, hab, -⟩ := Relation.TransGen.head'_iff.1 ha
  exact hnone a b hab

/-- `dev` mirrors `cloudos-users`. -/
def mirrorOfUsers : List DaoOp :=
  [.onAccount (.create (Account.new "alice")),
    .createGroup { name := "dev", mirrors := some "cloudos-users" } ["alice"]]

theorem expansion_finishes_mirrored :
    ∃ g depth members,
      (Runs.run (DaoOp.step .mock) {} mirrorOfUsers).directory.findGroup "dev" = some g ∧
        buildGroupMemberList (Runs.run (DaoOp.step .mock) {} mirrorOfUsers).directory depth g
          = .ok members := by
  have hstored : ((Runs.run (DaoOp.step .mock) {} mirrorOfUsers).directory.findGroup
      "dev").isSome := by decide +kernel
  obtain ⟨g, hg⟩ := Option.isSome_iff_exists.1 hstored
  have hadmits : Runs.Meets (DaoOp.step .mock) KeepsExpansion {} mirrorOfUsers := by
    refine ⟨trivial, fun _ => ?_, trivial⟩
    exact admits_of_accounts (by decide +kernel) (by decide +kernel)
  obtain ⟨depth, members, hbuild⟩ :=
    expansion_finishes .mock {} rfl mirrorOfUsers hadmits _ g hg
  exact ⟨g, depth, members, hg, hbuild⟩

/-- `dev` mirrors `ops`; then `ops` gets `dev` as a member. -/
def memberOfItsMirror : List DaoOp :=
  [.onAccount (.create (Account.new "alice")), .createGroup { name := "ops" } ["alice"],
    .createGroup { name := "dev", mirrors := some "ops" } ["alice"],
    .updateGroup { name := "ops", recipients := ["dev"] }]

/-- **A group in its own mirror.**  After these calls the group `dev` is stored, and
its expansion, which needs the expansion of `dev`, finishes at no depth. -/
theorem expansion_diverges :
    ∃ g, (Runs.run (DaoOp.step .mock) {} memberOfItsMirror).directory.findGroup "dev" = some g ∧
      ∀ depth members, buildGroupMemberList
        (Runs.run (DaoOp.step .mock) {} memberOfItsMirror).directory depth g ≠ .ok members := by
  have hstored : ((Runs.run (DaoOp.step .mock) {} memberOfItsMirror).directory.findGroup
      "dev").isSome := by decide +kernel
  obtain ⟨g, hg⟩ := Option.isSome_iff_exists.1 hstored
  refine ⟨g, hg, fun depth members hbuild => ?_⟩
  have hedge : Expands (Runs.run (DaoOp.step .mock) {} memberOfItsMirror).directory
      (Env.mock.ctx.groupDN "dev") (Env.mock.ctx.groupDN "dev") :=
    ⟨by decide +kernel, "ops", by decide +kernel, by decide +kernel⟩
  exact not_transGen_self_of_acc (depthBound_finishesWithin.acc_of_finishes ⟨g, hg, members, hbuild⟩)
    .refl (.single hedge)

end Groups

end CloudOs

/-
# Group membership stays acyclic

The graph of memberships leads from the DN of a stored group to the DNs of its
members: accounts, groups, and DNs whose entry is gone.

A write replaces the members of one group.  `createsCircularReference` searches
the graph that the write is about to make: the recipients are resolved by the
same lookups for the search and for the write, and a member that is not stored
has no successors in either.  Any cycle of the new graph passes through the
written group (`Digraph.Acyclic.of_replaced`), so that a search from it misses
none.  The other writes add a group without members, add an account to a group,
or remove a group.
-/

import CloudOs.Dao.Operations

namespace CloudOs

open AccountGroupDAO Digraph

namespace Groups

variable {env : Env} {dir dir' : Directory env.ctx}

/-- An edge of the membership graph. -/
def MemberEdge (dir : Directory env.ctx) (a b : String) : Prop :=
  ∃ g, dir.groupAt a = some g ∧ b ∈ g.getMembers

/-- Storing a group replaces the edges that leave its DN. -/
theorem memberEdge_putGroup {g : AccountGroup} {a b : String} :
    MemberEdge (dir.putGroup g) a b
      ↔ if a = env.ctx.groupDN g.name then b ∈ g.getMembers else MemberEdge dir a b := by
  simp only [MemberEdge, Directory.groupAt_putGroup]
  split_ifs <;> simp

/-- Removing a group adds no edge. -/
theorem memberEdge_eraseGroup {dn a b : String} (h : MemberEdge (dir.eraseGroup dn) a b) :
    MemberEdge dir a b := by
  obtain ⟨g, hg, hb⟩ := h
  rw [Directory.groupAt_eraseGroup] at hg
  split_ifs at hg
  exact ⟨g, hg, hb⟩

/-- An account has no members. -/
theorem not_memberEdge_userDN (n c : String) : ¬ MemberEdge dir (env.ctx.userDN n) c := by
  rintro ⟨g, hg, -⟩
  exact env.ctx.userDN_ne_groupDN n g.name (Directory.groupDN_of_groupAt hg).symm

theorem acyclic_addsBuiltIn (h : AddsBuiltIn dir dir') (hdir : Acyclic (MemberEdge dir)) :
    Acyclic (MemberEdge dir') := by
  cases h with
  | add _ _ =>
    refine hdir.mono fun a b hab => ?_
    rw [memberEdge_putGroup] at hab
    split_ifs at hab
    · simp at hab
    · exact hab

/-- A new member of a built-in group is an account, which leads nowhere. -/
theorem acyclic_enrolls {account : Account} (h : Enrolls account dir dir')
    (hdir : Acyclic (MemberEdge dir)) : Acyclic (MemberEdge dir') := by
  cases h with
  | add hadds => exact acyclic_addsBuiltIn hadds hdir
  | @member n g _ hg =>
    refine hdir.of_sinks fun a b hab => ?_
    rw [memberEdge_putGroup] at hab
    split_ifs at hab with ha
    · rw [AccountGroup.mem_addMember] at hab
      rcases hab with hb | rfl
      · refine Or.inl ⟨g, ?_, hb⟩
        rw [ha, AccountGroup.addMember_name]
        exact Directory.findGroup_name hg
      · exact Or.inr (not_memberEdge_userDN account.name)
    · exact Or.inl hab

/-- **A checked group.**  A group whose members are the resolved recipients can be
stored once the search has answered that it closes no cycle. -/
theorem acyclic_putGroup (hsearch : ReportsEveryCycle env.containsCircularReference)
    (hdir : Acyclic (MemberEdge dir)) {name : String} {recipients dns : List String}
    (hcheck : createsCircularReference dir env.containsCircularReference name recipients = .ok false)
    (hdns : recipients.mapM (findAccountOrGroupDN dir) = .ok dns) {g : AccountGroup}
    (hname : env.ctx.groupDN g.name = env.ctx.groupDN name)
    (hmembers : ∀ m, m ∈ g.getMembers ↔ m ∈ dns) : Acyclic (MemberEdge (dir.putGroup g)) := by
  obtain ⟨dns', map, hdns', hfalse, hedges⟩ := createsCircularReference_ok hcheck
  obtain rfl : dns = dns' := Except.ok.inj (hdns.symm.trans hdns')
  -- the search has seen exactly the graph that the write makes
  have hsame : Edge map = MemberEdge (dir.putGroup g) := by
    funext a b
    rw [eq_iff_iff, hedges, memberEdge_putGroup, hname, hmembers]
    rfl
  refine hdir.of_replaced (g := env.ctx.groupDN name) (fun a b ha hab => ?_) fun n hn hcycle => ?_
  · rw [memberEdge_putGroup, hname, if_neg ha] at hab
    exact hab
  · rw [← hsame] at hn hcycle
    rw [hsearch _ map n hn hcycle] at hfalse
    exact absurd hfalse (by decide)

theorem acyclic_writes (hsearch : ReportsEveryCycle env.containsCircularReference) {op : DaoOp}
    (h : Writes op dir dir') (hdir : Acyclic (MemberEdge dir)) : Acyclic (MemberEdge dir') := by
  have hadds : ∀ {d d' : Directory env.ctx}, Relation.ReflTransGen AddsBuiltIn d d' →
      Acyclic (MemberEdge d) → Acyclic (MemberEdge d') :=
    Runs.holds_of_reflTransGen (I := fun d => Acyclic (MemberEdge d))
      fun _ _ hstep => acyclic_addsBuiltIn hstep
  have henrolls : ∀ {account : Account} {d d' : Directory env.ctx},
      Relation.ReflTransGen (Enrolls account) d d' →
      Acyclic (MemberEdge d) → Acyclic (MemberEdge d') :=
    Runs.holds_of_reflTransGen (I := fun d => Acyclic (MemberEdge d))
      fun _ _ hstep => acyclic_enrolls hstep
  cases h with
  | nothing => exact hdir
  | addsAccount _ h => exact henrolls h hdir
  | updatesAccount _ _ => exact hdir
  | deletesAccount _ => exact hdir
  | addsBuiltIns h => exact hadds h hdir
  | createsGroup h _ hcreates =>
    obtain ⟨dns, hdns, rfl⟩ := hcreates.written
    exact acyclic_putGroup hsearch (hadds h hdir) hcreates.noCycle hdns (by simp [newGroup])
      (by simp)
  | updatesGroup _ hupdates =>
    obtain ⟨dns, hdns, rfl⟩ := hupdates.written
    refine acyclic_putGroup hsearch hdir hupdates.noCycle hdns ?_ (by simp [updatedGroup])
    simpa [updatedGroup] using Directory.groupDN_of_groupAt hupdates.stored
  | emptiesGroup _ _ => exact hdir.mono fun _ _ => memberEdge_eraseGroup
  | deletesGroup _ => exact hdir.mono fun _ _ => memberEdge_eraseGroup
  | addsToDefaultGroup h => exact henrolls h hdir
  | addsToAdminGroup h => exact henrolls h hdir

/-- **Group membership stays acyclic.**  After every run from the empty directory,
whatever calls fail, no group reaches itself through members. -/
theorem members_acyclic (env : Env)
    (hsearch : ReportsEveryCycle env.containsCircularReference) (w : World env.ctx)
    (hw : w.directory = .empty) (ops : List DaoOp) :
    Acyclic (MemberEdge (Runs.run (DaoOp.step env) w ops).directory) := by
  have hempty : Acyclic (MemberEdge w.directory) := by
    rw [hw]
    refine fun a ha => ?_
    obtain ⟨b, ⟨g, hg, -⟩, -⟩ := Relation.TransGen.head'_iff.1 ha
    exact absurd hg (by simp)
  refine Runs.run_invariant (I := fun w : World env.ctx => Acyclic (MemberEdge w.directory))
    (C := fun _ _ => True) (fun w op hI _ => ?_) hempty (Runs.meets_of_forall (fun _ _ => trivial) w ops)
  exact acyclic_writes hsearch (op.step_writes w) hI

/-- Two groups, the first deleted while the second lists it, and created again with
the second as its member. -/
theorem members_acyclic_recreated :
    Acyclic (MemberEdge (Runs.run (DaoOp.step .mock) {}
      [.onAccount (.create (Account.new "alice")), .createGroup { name := "dev" } ["alice"],
        .createGroup { name := "staff" } ["dev"], .deleteGroup "dev",
        .createGroup { name := "dev" } ["staff"]]).directory) :=
  members_acyclic .mock containsCircularReference_of_cycle {} rfl _

end Groups

end CloudOs

/-
# References between groups and accounts

A group refers to its members by DN and to its mirror sources by name.
`References dir` says that each of them is stored.

Creating a group checks both kinds, and an account is a member of the built-in
groups only after it was added.  Three calls do not look at the references that
they break:

| call | what it leaves behind |
| --- | --- |
| `AccountDAO.delete` | the account's DN in every group that lists it |
| `AccountGroupDAO.delete` | the group's DN in every group that lists it |
| `AccountGroupDAO.update` | the mirrors of the request, which it does not look up |

`KeepsReferences` is what these calls would have to ask.
-/

import CloudOs.Dao.Operations

namespace CloudOs

open AccountGroupDAO

namespace Groups

variable {env : Env} {dir dir' : Directory env.ctx}

/-- The DN of a stored account or group. -/
def Stored (dir : Directory env.ctx) (dn : String) : Prop :=
  (dir.accountAt dn).isSome ∨ (dir.groupAt dn).isSome

/-- What a group refers to is stored. -/
structure RefersToStored (dir : Directory env.ctx) (g : AccountGroup) : Prop where
  members : ∀ m ∈ g.getMembers, Stored dir m
  mirrors : ∀ m ∈ g.getMirrors, (dir.findGroup m).isSome

/-- **Referential integrity of groups.** -/
def References (dir : Directory env.ctx) : Prop :=
  ∀ dn g, dir.groupAt dn = some g → RefersToStored dir g

/-- No other group lists the DN as a member. -/
def NotListed (dir : Directory env.ctx) (dn : String) : Prop :=
  ∀ d g, dir.groupAt d = some g → d ≠ dn → dn ∉ g.getMembers

/-- The call breaks no reference, in the state it is made in. -/
def KeepsReferences (w : World env.ctx) : DaoOp → Prop
  | .onAccount (.delete accountName) => (w.directory.findAccount accountName).isSome →
      NotListed w.directory (env.ctx.userDN accountName)
  | .deleteGroup name => ∀ g, Deletes w.directory name g →
      NotListed w.directory (env.ctx.groupDN name)
  | .updateGroup request =>
      (request.recipients = [] → ∀ g, Deletes w.directory (env.ctx.getName request) g →
        NotListed w.directory (env.ctx.groupDN (env.ctx.getName request))) ∧
      (request.recipients ≠ [] → ∀ g g', Updates request w.directory g g' →
        ∀ m ∈ request.getMirrorList, (w.directory.findGroup m).isSome)
  | .addToDefaultGroup account => (w.directory.findAccount account.name).isSome
  | .addToAdminGroup account => (w.directory.findAccount account.name).isSome
  | _ => True

/-! ### Adding entries -/

theorem Stored.putGroup {dn : String} (h : Stored dir dn) (g : AccountGroup) :
    Stored (dir.putGroup g) dn := by
  refine h.imp id fun hg => ?_
  rw [Directory.groupAt_putGroup]
  split_ifs
  · rfl
  · exact hg

theorem Stored.putAccount {dn : String} (h : Stored dir dn) (a : Account) :
    Stored (dir.putAccount a) dn := by
  refine h.imp (fun ha => ?_) id
  rw [Directory.accountAt_putAccount]
  split_ifs
  · rfl
  · exact ha

theorem RefersToStored.putGroup {g : AccountGroup} (h : RefersToStored dir g) (g' : AccountGroup) :
    RefersToStored (dir.putGroup g') g := by
  refine ⟨fun m hm => (h.members m hm).putGroup g', fun m hm => ?_⟩
  rw [Directory.findGroup, Directory.groupAt_putGroup]
  split_ifs
  · rfl
  · exact h.mirrors m hm

/-- A group that refers to stored entries can be stored. -/
theorem References.putGroup (h : References dir) {g : AccountGroup} (hg : RefersToStored dir g) :
    References (dir.putGroup g) := by
  intro dn g' hg'
  rw [Directory.groupAt_putGroup] at hg'
  split_ifs at hg'
  · obtain rfl := Option.some.inj hg'
    exact hg.putGroup g
  · exact (h dn g' hg').putGroup g

theorem References.putAccount (h : References dir) (a : Account) : References (dir.putAccount a) :=
  fun dn g hg => ⟨fun m hm => ((h dn g hg).members m hm).putAccount a, (h dn g hg).mirrors⟩

theorem References.addsBuiltIn (h : References dir) (hadds : AddsBuiltIn dir dir') :
    References dir' := by
  cases hadds with
  | add _ _ => exact h.putGroup ⟨by simp, by simp⟩

/-- Enrolling a stored account; it stays stored. -/
theorem References.enrolls {account : Account} (h : References dir)
    (haccount : (dir.findAccount account.name).isSome) (henrolls : Enrolls account dir dir') :
    References dir' ∧ (dir'.findAccount account.name).isSome := by
  cases henrolls with
  | add hadds =>
    refine ⟨h.addsBuiltIn hadds, ?_⟩
    cases hadds with
    | add _ _ => exact haccount
  | member _ hg =>
    refine ⟨h.putGroup ⟨fun m hm => ?_, fun m hm => ?_⟩, haccount⟩
    · rcases (AccountGroup.mem_addMember _).1 hm with hm | rfl
      · exact (h _ _ hg).members m hm
      · exact Or.inl haccount
    · rw [AccountGroup.addMember_getMirrors] at hm
      exact (h _ _ hg).mirrors m hm

theorem References.enrollsAll {account : Account} (h : References dir)
    (haccount : (dir.findAccount account.name).isSome)
    (henrolls : Relation.ReflTransGen (Enrolls account) dir dir') :
    References dir' ∧ (dir'.findAccount account.name).isSome :=
  Runs.holds_of_reflTransGen
    (I := fun d : Directory env.ctx => References d ∧ (d.findAccount account.name).isSome)
    (fun _ _ hstep hd => hd.1.enrolls hd.2 hstep) henrolls ⟨h, haccount⟩

/-! ### Removing entries -/

/-- An account that no group lists can be removed. -/
theorem References.eraseAccount (h : References dir) {n : String}
    (hn : NotListed dir (env.ctx.userDN n)) : References (dir.eraseAccount (env.ctx.userDN n)) := by
  intro dn g hg
  refine ⟨fun m hm => ?_, (h dn g hg).mirrors⟩
  have hdn : dn ≠ env.ctx.userDN n := fun heq =>
    env.ctx.userDN_ne_groupDN n g.name (heq ▸ (Directory.groupDN_of_groupAt hg).symm)
  have hne : m ≠ env.ctx.userDN n := fun heq => hn dn g hg hdn (heq ▸ hm)
  simpa [Stored, Directory.accountAt_eraseAccount, hne] using (h dn g hg).members m hm

/-- A group that no group mirrors or lists can be removed. -/
theorem References.eraseGroup (h : References dir) {name : String} {g : AccountGroup}
    (hdeletes : Deletes dir name g) (hn : NotListed dir (env.ctx.groupDN name)) :
    References (dir.eraseGroup (env.ctx.groupDN name)) := by
  intro dn g' hg'
  rw [Directory.groupAt_eraseGroup] at hg'
  split_ifs at hg' with hdn
  refine ⟨fun m hm => ?_, fun m hm => ?_⟩
  · have hne : m ≠ env.ctx.groupDN name := fun heq => hn dn g' hg' hdn (heq ▸ hm)
    simpa [Stored, Directory.groupAt_eraseGroup, hne] using (h dn g' hg').members m hm
  · rw [Directory.findGroup, Directory.groupAt_eraseGroup]
    split_ifs with hmirror
    · -- a group that mirrors it would have been found by `delete`
      have hmem : g' ∈ findMirrors dir g.name := mem_findMirrors.2
        ⟨(Directory.groupDN_of_groupAt hg').symm ▸ hg', m, hm,
          hmirror.trans (Directory.groupDN_of_groupAt hdeletes.stored).symm⟩
      rw [hdeletes.notMirrored] at hmem
      exact absurd hmem List.not_mem_nil
    · exact (h dn g' hg').mirrors m hm

/-! ### Runs -/

/-- Resolved recipients are stored. -/
theorem stored_of_resolved {recipients dns : List String}
    (h : recipients.mapM (findAccountOrGroupDN dir) = .ok dns) : ∀ m ∈ dns, Stored dir m := by
  intro m hm
  obtain ⟨recipient, -, hrecipient⟩ := mem_of_mapM_ok h hm
  exact (stored_of_findAccountOrGroupDN hrecipient).imp Option.isSome_iff_exists.2
    Option.isSome_iff_exists.2

theorem references_step {w : World env.ctx} {op : DaoOp} (h : References w.directory)
    (hop : KeepsReferences w op) : References (op.step env w).directory := by
  have hadds : ∀ {d d' : Directory env.ctx}, Relation.ReflTransGen AddsBuiltIn d d' →
      References d → References d' :=
    Runs.holds_of_reflTransGen fun _ _ hstep hd => hd.addsBuiltIn hstep
  have hwrites := op.step_writes w
  generalize (op.step env w).directory = dir' at hwrites
  cases hwrites with
  | nothing => exact h
  | addsAccount _ henrolls =>
    exact ((h.putAccount _).enrollsAll
      (by rw [Directory.findAccount_putAccount]; rfl) henrolls).1
  | updatesAccount _ _ => exact h.putAccount _
  | deletesAccount hstored => exact h.eraseAccount (hop hstored)
  | addsBuiltIns h' => exact hadds h' h
  | createsGroup h' _ hcreates =>
    obtain ⟨dns, hdns, rfl⟩ := hcreates.written
    refine (hadds h' h).putGroup ⟨fun m hm => ?_, fun m hm => ?_⟩
    · exact stored_of_resolved hdns m (by simpa using hm)
    · exact hcreates.mirrors m (by simpa [newGroup] using hm)
  | @updatesGroup request g _ _ hne hupdates =>
    have hmirrors := hop.2 hne _ _ hupdates
    obtain ⟨dns, hdns, rfl⟩ := hupdates.written
    refine h.putGroup ⟨fun m hm => ?_, fun m hm => ?_⟩
    · exact stored_of_resolved hdns m (by simpa [updatedGroup] using hm)
    · have hm : m ∈ g.getMirrors ∨ m ∈ request.getMirrorList := by simpa [updatedGroup] using hm
      exact hm.elim ((h _ _ hupdates.stored).mirrors m) (hmirrors m)
  | emptiesGroup hempty hdeletes => exact h.eraseGroup hdeletes (hop.1 hempty _ hdeletes)
  | deletesGroup hdeletes => exact h.eraseGroup hdeletes (hop _ hdeletes)
  | addsToDefaultGroup henrolls => exact (h.enrollsAll hop henrolls).1
  | addsToAdminGroup henrolls => exact (h.enrollsAll hop henrolls).1

/-- **References stay intact while no call breaks one.**  Account creation and
update and group creation need no condition. -/
theorem references_intact (env : Env) (w : World env.ctx) (hw : w.directory = .empty)
    (ops : List DaoOp) (hops : Runs.Meets (DaoOp.step env) KeepsReferences w ops) :
    References (Runs.run (DaoOp.step env) w ops).directory := by
  have hempty : References w.directory := by
    rw [hw]
    exact fun dn g hg => absurd hg (by simp)
  exact Runs.run_invariant (I := fun w : World env.ctx => References w.directory)
    (fun _ _ => references_step) hempty hops

/-- Looking for a DN in the member lists of all stored groups. -/
theorem notListed_of_values {dn : String}
    (h : ∀ g ∈ dir.groups.values, dn ∉ g.getMembers) : NotListed dir dn :=
  fun _ g hg _ => h g (dir.groups.mem_values_of_lookup hg)

/-- A run that deletes a group which nothing lists, and then an account. -/
theorem references_intact_deleted :
    References (Runs.run (DaoOp.step .mock) {}
      [.onAccount (.create (Account.new "alice")), .createGroup { name := "dev" } ["alice"],
        .deleteGroup "dev", .onAccount (.delete "bob")]).directory := by
  refine references_intact .mock {} rfl _ ⟨trivial, trivial, fun g _ => ?_, fun h => ?_, trivial⟩
  · exact notListed_of_values (by decide +kernel)
  · exact absurd h (by decide +kernel)

/-- **A deleted account stays a member.**  After an account is created and deleted,
`cloudos-users` lists a DN without an entry. -/
theorem references_broken : ¬ References (Runs.run (DaoOp.step .mock) {}
    [.onAccount (.create (Account.new "alice")), .onAccount (.delete "alice")]).directory := by
  intro h
  have hlisted : ((Runs.run (DaoOp.step .mock) {} [.onAccount (.create (Account.new "alice")),
      .onAccount (.delete "alice")]).directory.findGroup AccountGroup.DEFAULT_GROUP_NAME).map
      AccountGroup.getMembers = some [Env.mock.ctx.userDN "alice"] := by decide +kernel
  obtain ⟨g, hg, hmembers⟩ := Option.map_eq_some_iff.1 hlisted
  have hstored := (h _ g hg).members (Env.mock.ctx.userDN "alice") (by rw [hmembers]; simp)
  revert hstored
  unfold Stored
  decide +kernel

end Groups

end CloudOs

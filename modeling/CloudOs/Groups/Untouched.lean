/-
# A group opened and saved as it is

An admin opens the page of a group and saves the form without a change.  The group is meant to
keep its own members, its mirrors, its description and its quota.

| of the group | is sent | becomes |
| --- | --- | --- |
| members | with those of the mirrors, as names | what the names denote |
| mirrors | no | what they were: the server appends nothing to them |
| description, quota | no | `null` |

So a group is kept exactly when it has neither description nor quota, and its own members are
what the names of the listed members denote.
-/

import CloudOs.Client.GroupForm

namespace CloudOs

open Prog AccountGroup AccountGroupDAO AccountGroupsResource GroupPage Texts

namespace Groups

variable (env : Env) (getFirstDnValue : String → String)

/-- What a save of the untouched form is to leave alone. -/
structure SameGroup (g g' : AccountGroup) : Prop where
  members : g'.getMembers = g.getMembers
  mirrors : g'.getMirrors = g.getMirrors
  description : g'.get .description = g.get .description
  storageQuota : g'.get .storageQuota = g.get .storageQuota

/-- The page of the group opened and saved as it is leaves the stored group what it was. -/
def LeavesGroup (apiKey groupName : String) (s : State env.ctx) : Prop :=
  ∀ g, s.world.directory.findGroup groupName = some g → ∃ g', SameGroup g g' ∧
    (after (openAndSave env getFirstDnValue apiKey groupName) s).world.directory.findGroup
      groupName = some g'

/-- The form of a group with these members listed. -/
def formOf (g : AccountGroup) (listed : List String) : GroupForm :=
  ⟨g.name, toStringFromArray (listed.map getFirstDnValue)⟩

/-- The group can be opened, with these members listed, and the server takes the form back. -/
structure Saves (apiKey : String) (s : State env.ctx) (g : AccountGroup) (listed : List String) :
    Prop where
  admin : IsAdminSession s.world.sessions apiKey
  lists : buildGroupMemberList s.world.directory env.stackDepth g = .ok listed
  views : ∃ view, buildAccountGroupView env getFirstDnValue g listed = .ok view
  valid : (formOf getFirstDnValue g listed).isValid = true
  noCycle : createsCircularReference s.world.directory env.containsCircularReference
    (env.ctx.getName (formOf getFirstDnValue g listed).data)
    (formOf getFirstDnValue g listed).data.recipients = .ok false
  taken : env.fails .ldap s.world.calls = false

variable {env} in
/-- The own members of a group are what the names of the listed members denote. -/
def MembersComeBack (dir : Directory env.ctx) (g : AccountGroup) (listed : List String) : Prop :=
  ∀ dn, dn ∈ g.getMembers ↔ ∃ m ∈ listed, ∃ name ∈ recipientNames (getFirstDnValue m),
    findAccountOrGroupDN dir name = .ok dn

variable {env} in
/-- The group loses nothing on the way through its form. -/
structure Survives (dir : Directory env.ctx) (g : AccountGroup) (listed : List String) : Prop where
  noDescription : g.get .description = []
  noStorageQuota : g.get .storageQuota = []
  members : MembersComeBack getFirstDnValue dir g listed

/-- What the page opened and saved as it is leaves in the directory: with the form saved, the group
with what the names denote as its members; else what was there. -/
inductive Wrote (apiKey : String) (s : State env.ctx) (g : AccountGroup)
    (dir : Directory env.ctx) : Prop
  | group (listed dns : List String) (hsaves : Saves env getFirstDnValue apiKey s g listed)
      (hdns : (formOf getFirstDnValue g listed).data.recipients.mapM
        (findAccountOrGroupDN s.world.directory) = .ok dns)
      (hput : dir = s.world.directory.putGroup
        (updatedGroup (formOf getFirstDnValue g listed).data g dns.dedup))
  | nothing (hnot : ∀ listed, ¬ Saves env getFirstDnValue apiKey s g listed)
      (hkept : dir = s.world.directory)

variable {env getFirstDnValue} {s : State env.ctx} {g : AccountGroup} {listed : List String}

/-! ### What is sent -/

/-- The form of the page is that of the view. -/
theorem ofView_eq {view : AccountGroupView}
    (h : buildAccountGroupView env getFirstDnValue g listed = .ok view) :
    GroupForm.ofView view = formOf getFirstDnValue g listed := by
  obtain ⟨hname, hnames⟩ := names_of_view h
  rw [GroupForm.ofView, formOf, hname, hnames]

/-- A valid form sends the pieces of the names of the listed members. -/
theorem recipients_of_valid (h : (formOf getFirstDnValue g listed).isValid = true) :
    (formOf getFirstDnValue g listed).data.recipients =
      (listed.map getFirstDnValue).flatMap recipientNames := by
  refine toArrayFromString_toStringFromArray fun hempty => ?_
  have hrecipients : isBlank (formOf getFirstDnValue g listed).recipients = false := by
    simp only [GroupForm.isValid, Bool.and_eq_true] at h
    simpa using h.2
  rw [formOf, isBlank, hempty] at hrecipients
  exact Bool.false_ne_true hrecipients.symm

theorem recipients_ne_nil (h : (formOf getFirstDnValue g listed).isValid = true) :
    (formOf getFirstDnValue g listed).data.recipients ≠ [] := by
  rw [recipients_of_valid h]
  intro hempty
  cases listed with
  | nil => simp [formOf, GroupForm.isValid, toStringFromArray, isBlank, trim] at h
  | cons m listed =>
    rw [List.map_cons, List.flatMap_cons, List.append_eq_nil_iff, recipientNames,
      List.map_eq_nil_iff] at hempty
    exact List.splitOn_ne_nil _ _ hempty.1

/-- What the server resolves the recipients to is what the names denote. -/
theorem mem_resolved_iff {dir : Directory env.ctx} {dns : List String}
    (h : (formOf getFirstDnValue g listed).isValid = true)
    (hdns : (formOf getFirstDnValue g listed).data.recipients.mapM (findAccountOrGroupDN dir) =
      .ok dns) (dn : String) :
    dn ∈ dns ↔ ∃ m ∈ listed, ∃ name ∈ recipientNames (getFirstDnValue m),
      findAccountOrGroupDN dir name = .ok dn := by
  have hmem : ∀ name, name ∈ (formOf getFirstDnValue g listed).data.recipients ↔
      ∃ m ∈ listed, name ∈ recipientNames (getFirstDnValue m) := by
    intro name
    simp [recipients_of_valid h]
  constructor
  · intro hdn
    obtain ⟨name, hname, hfound⟩ := mem_of_mapM_ok hdns hdn
    obtain ⟨m, hm, hpiece⟩ := (hmem name).1 hname
    exact ⟨m, hm, name, hpiece, hfound⟩
  · rintro ⟨m, hm, name, hpiece, hfound⟩
    obtain ⟨dn', hdn', hfound'⟩ := exists_of_mapM_ok hdns ((hmem name).2 ⟨m, hm, hpiece⟩)
    rwa [← Except.ok.inj (hfound'.symm.trans hfound)]

/-! ### What is written -/

/-- **The written group** is the old one exactly when that has neither description nor quota, and
the members are its own. -/
theorem sameGroup_updatedGroup_iff (form : GroupForm) (members : List String) :
    SameGroup g (updatedGroup form.data g members) ↔
      g.get .description = [] ∧ g.get .storageQuota = [] ∧
        ∀ dn, dn ∈ g.getMembers ↔ dn ∈ members := by
  have hmembers : (updatedGroup form.data g members).getMembers =
      (g.setMembers members).getMembers := by
    simp [updatedGroup]
  have hmirrors : (updatedGroup form.data g members).getMirrors = g.getMirrors := by
    have hnone : form.data.getMirrorList = [] := by rfl
    simp [updatedGroup, hnone]
  have hdescription : (updatedGroup form.data g members).get .description = [] := by
    simp [updatedGroup, setDescription, setStorageQuota, setMirrors, LdapEntity.set,
      LdapEntity.appendAll, GroupForm.data]
  have hquota : (updatedGroup form.data g members).get .storageQuota = [] := by
    simp [updatedGroup, setStorageQuota, setMirrors, LdapEntity.set, LdapEntity.appendAll,
      GroupForm.data]
  constructor
  · intro h
    refine ⟨?_, ?_, fun dn => ?_⟩
    · rw [← h.description, hdescription]
    · rw [← h.storageQuota, hquota]
    · rw [← h.members, hmembers, mem_setMembers]
  · rintro ⟨hnoDescription, hnoQuota, hsame⟩
    refine ⟨?_, hmirrors, ?_, ?_⟩
    · rw [hmembers, setMembers_eq_self g fun dn => (hsame dn).symm]
    · rw [hdescription, hnoDescription]
    · rw [hquota, hnoQuota]

/-- The server takes a valid form, and writes what the names denote, or writes nothing. -/
theorem update_form {apiKey : String} (hg : s.world.directory.findGroup g.name = some g)
    (hadmin : IsAdminSession s.world.sessions apiKey)
    (hlists : buildGroupMemberList s.world.directory env.stackDepth g = .ok listed)
    (hviews : ∃ view, buildAccountGroupView env getFirstDnValue g listed = .ok view)
    (hvalid : (formOf getFirstDnValue g listed).isValid = true) :
    Ends (AccountGroupsResource.update env apiKey g.name (formOf getFirstDnValue g listed).data) s
      fun _ t => Wrote env getFirstDnValue apiKey s g t.world.directory := by
  refine ends_update hadmin rfl (by rw [hg]; rfl) ?_
  have hstored : s.world.directory.findGroup
      (env.ctx.getName (formOf getFirstDnValue g listed).data) = some g := by
    rw [LdapContext.getName, Directory.findGroup_toLowerCase]
    exact hg
  refine (update_writes hstored (recipients_ne_nil hvalid)).mono fun _ w h => ?_
  rcases h with ⟨dns, hdns, hcycle, htaken, hput⟩ | ⟨hnot, hkept⟩
  · exact .group listed dns ⟨hadmin, hlists, hviews, hvalid, hcycle, htaken⟩ hdns hput
  · refine .nothing (fun listed' hsaves => ?_) hkept
    obtain rfl := Except.ok.inj (hlists.symm.trans hsaves.lists)
    obtain ⟨dns, -, hdns, -⟩ := createsCircularReference_ok hsaves.noCycle
    exact Bool.false_ne_true (hsaves.taken.symm.trans (hnot dns hdns hsaves.noCycle))

/-- **The page opened and saved as it is** writes what the names denote, or nothing. -/
theorem openAndSave_writes (env : Env) (getFirstDnValue : String → String) (apiKey : String)
    {groupName : String} {s : State env.ctx}
    (hg : s.world.directory.findGroup groupName = some g) :
    Wrote env getFirstDnValue apiKey s g
      (after (openAndSave env getFirstDnValue apiKey groupName) s).world.directory := by
  refine Ends.after (P := fun t : State env.ctx =>
    Wrote env getFirstDnValue apiKey s g t.world.directory) ?_
  unfold openAndSave
  rw [ends_bind, ends_attempt]
  refine (find_returns apiKey hg).mono fun r t ⟨hsame, hrefused, hview⟩ => ?_
  subst hsame
  by_cases hadmin : IsAdminSession t.world.sessions apiKey
  · rw [hview hadmin]
    cases hlists : buildGroupMemberList t.world.directory env.stackDepth g with
    | error e => exact .nothing (fun _ h => of_error_eq_ok (hlists.symm.trans h.lists)) rfl
    | ok listed =>
      have honly : ∀ listed', Saves env getFirstDnValue apiKey t g listed' → listed' = listed :=
        fun _ h => Except.ok.inj (h.lists.symm.trans hlists)
      cases hbuild : buildAccountGroupView env getFirstDnValue g listed with
      | error e =>
        simp only [bind, Except.bind, hbuild]
        refine .nothing (fun listed' h => ?_) rfl
        obtain ⟨view, hviews⟩ := honly listed' h ▸ h.views
        exact of_error_eq_ok (hbuild.symm.trans hviews)
      | ok view =>
        simp only [bind, Except.bind, pure, Except.pure, hbuild, ofView_eq hbuild]
        split_ifs with hvalid
        · have hends := update_form (Directory.findGroup_name hg) hadmin hlists ⟨view, hbuild⟩ hvalid
          refine (ends_bind _ _ _ _).2 (hends.mono fun r t h => ?_)
          cases r with
          | error e => exact h
          | ok answer => exact h
        · exact .nothing (fun listed' h => hvalid (honly listed' h ▸ h.valid)) rfl
  · have hnot := hrefused hadmin
    have hnothing : Wrote env getFirstDnValue apiKey t g t.world.directory :=
      .nothing (fun _ h => hadmin h.admin) rfl
    cases r with
    | error e => exact hnothing
    | ok answer =>
      cases answer with
      | ok body => exact absurd hnot.symm Bool.false_ne_true
      | _ => exact hnothing

/-! ### The group is kept -/

/-- **A group is kept exactly when** it survives its form, if that is saved. -/
theorem leavesGroup_iff (env : Env) (getFirstDnValue : String → String) (apiKey groupName : String)
    (s : State env.ctx) : LeavesGroup env getFirstDnValue apiKey groupName s ↔
      ∀ g listed, s.world.directory.findGroup groupName = some g →
        Saves env getFirstDnValue apiKey s g listed →
        Survives getFirstDnValue s.world.directory g listed := by
  have hwritten : ∀ g (form : GroupForm) members dir,
      s.world.directory.findGroup groupName = some g →
      dir = s.world.directory.putGroup (updatedGroup form.data g members) →
      dir.findGroup groupName = some (updatedGroup form.data g members) := by
    intro g form members dir hg hput
    have hdn : env.ctx.groupDN groupName = env.ctx.groupDN g.name :=
      (Directory.groupDN_of_groupAt hg).symm
    rw [hput, Directory.findGroup, Directory.groupAt_putGroup, if_pos]
    simpa [updatedGroup] using hdn
  constructor
  · intro h g listed hg hsaves
    obtain ⟨g', hsame, hg'⟩ := h g hg
    cases openAndSave_writes env getFirstDnValue apiKey hg with
    | nothing hnot => exact absurd hsaves (hnot listed)
    | group listed' dns hsaves' hdns hput =>
      obtain rfl := Except.ok.inj (hsaves.lists.symm.trans hsaves'.lists)
      obtain rfl := Option.some.inj (hg'.symm.trans (hwritten g _ _ _ hg hput))
      obtain ⟨hdescription, hquota, hmembers⟩ := (sameGroup_updatedGroup_iff _ _).1 hsame
      refine ⟨hdescription, hquota, fun dn => ?_⟩
      rw [hmembers, List.mem_dedup, mem_resolved_iff hsaves.valid hdns]
  · intro h g hg
    cases openAndSave_writes env getFirstDnValue apiKey hg with
    | nothing _ hkept => exact ⟨g, ⟨rfl, rfl, rfl, rfl⟩, by rw [hkept, hg]⟩
    | group listed dns hsaves hdns hput =>
      obtain ⟨hdescription, hquota, hmembers⟩ := h g listed hg hsaves
      refine ⟨_, ?_, hwritten g _ _ _ hg hput⟩
      refine (sameGroup_updatedGroup_iff _ _).2 ⟨hdescription, hquota, fun dn => ?_⟩
      rw [hmembers, List.mem_dedup, mem_resolved_iff hsaves.valid hdns]

/-- A group without mirrors keeps its members, if each has a plain name that denotes it. -/
theorem membersComeBack_of_plain {dir : Directory env.ctx} {depth : ℕ}
    (hmirrors : g.getMirrors = []) (hlists : buildGroupMemberList dir depth g = .ok listed)
    (hcomma : ∀ dn ∈ g.getMembers, ',' ∉ (getFirstDnValue dn).toList)
    (htrim : ∀ dn ∈ g.getMembers,
      trim (getFirstDnValue dn).toList = (getFirstDnValue dn).toList)
    (hdenotes : ∀ dn ∈ g.getMembers, findAccountOrGroupDN dir (getFirstDnValue dn) = .ok dn) :
    MembersComeBack getFirstDnValue dir g listed := by
  have hlisted : listed = g.getMembers.dedup := by
    cases depth with
    | zero => exact of_error_eq_ok hlists
    | succ depth =>
      rw [buildGroupMemberList, hmirrors] at hlists
      exact (Except.ok.inj hlists).symm
  intro dn
  rw [hlisted]
  constructor
  · intro hdn
    refine ⟨dn, List.mem_dedup.2 hdn, getFirstDnValue dn, ?_, hdenotes dn hdn⟩
    rw [recipientNames_of_plain (hcomma dn hdn) (htrim dn hdn)]
    exact List.mem_singleton_self _
  · rintro ⟨m, hm, name, hpiece, hfound⟩
    have hmember := List.mem_dedup.1 hm
    rw [recipientNames_of_plain (hcomma m hmember) (htrim m hmember),
      List.mem_singleton] at hpiece
    rw [hpiece, hdenotes m hmember] at hfound
    rwa [← Except.ok.inj hfound]

/-- A mirrored member whose name denotes it becomes an own member. -/
theorem not_membersComeBack_of_mirrored {dir : Directory env.ctx} {dn name : String}
    (hlisted : dn ∈ listed) (hmirrored : dn ∉ g.getMembers)
    (hname : name ∈ recipientNames (getFirstDnValue dn))
    (hfound : findAccountOrGroupDN dir name = .ok dn) :
    ¬ MembersComeBack getFirstDnValue dir g listed :=
  fun h => hmirrored ((h dn).2 ⟨dn, hlisted, name, hname, hfound⟩)

/-- A group of `alice`, described, that mirrors the group of `bob`. -/
def staff : AccountGroup :=
  (((AccountGroup.new "staff").addMember (Env.mock.ctx.userDN "alice")).setDescription
    (some "everyone")).setMirrors ["ops"]

/-- A server with the two accounts and the two groups, and a session of an admin. -/
def staffed : State Env.mock.ctx where
  world := {
    directory := (((Directory.empty.putAccount (Account.new "alice")).putAccount
      (Account.new "bob")).putGroup ((AccountGroup.new "ops").addMember
        (Env.mock.ctx.userDN "bob"))).putGroup staff
    sessions := fun apiKey =>
      if apiKey = "admin" then some ((Account.new "root").setAdmin true) else none }

/-- **A description lost.**  The page of the group is opened and saved, and its description is no
more. -/
theorem description_lost : ¬ LeavesGroup .mock firstDnValue "admin" "staff" staffed := by
  intro h
  have hstored : staffed.world.directory.findGroup "staff" = some staff :=
    Directory.findGroup_putGroup _ staff
  have hlost : ((after (openAndSave .mock firstDnValue "admin" "staff") staffed).world.directory
      |>.findGroup "staff").map (·.get .description) = some [] := by
    decide +kernel
  obtain ⟨g', hsame, hg'⟩ := h staff hstored
  rw [hg', Option.map_some, hsame.description] at hlost
  exact absurd (Option.some.inj hlost) (by decide)

end Groups

end CloudOs

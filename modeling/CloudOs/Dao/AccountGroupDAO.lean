/-
# `AccountGroupDAO`

The methods that write groups, and for each of them what it can leave in the
directory.  A method that throws may have written before: `create` adds a
missing built-in group that a request mirrors before it checks the rest.

| method | what it writes |
| --- | --- |
| `addToDefaultGroup`, `addToAdminGroup` | the built-in group if it is missing, then its new member |
| `delete` | removes the group, unless it is mirrored or built in |
| `create` | missing built-in mirrors, then the new group |
| `update` | the group with new members and more mirrors, or `delete` |

Only `create` looks at the mirrors of a request; `update` appends what it is
sent.
-/

import CloudOs.Dao.GroupMembers
import CloudOs.Dao.LdapService
import Mathlib.Logic.Relation

namespace CloudOs

open Prog AccountGroup

namespace AccountGroupDAO

variable (env : Env)

/-- `addToDefaultGroup` and `addToAdminGroup`, by the name of the group. -/
def addToBuiltIn (groupName : String) (account : Account) : Server env AccountGroup := do
  let w ← get
  let group ← match w.directory.findGroup groupName with
    | some group => pure group
    | none => do
      ldapaddGroup env (builtIn groupName)
      pure (builtIn groupName)
  let group := group.addMember (env.ctx.userDN account.name)
  ldapmodifyGroup env group
  return group

def addToDefaultGroup (account : Account) : Server env AccountGroup :=
  addToBuiltIn env DEFAULT_GROUP_NAME account

def addToAdminGroup (account : Account) : Server env AccountGroup :=
  addToBuiltIn env ADMIN_GROUP_NAME account

/-- `delete(name)`; the first message goes on with the mirrors. -/
def delete (name : String) : Server env PUnit := do
  let w ← get
  match w.directory.findGroup name with
  | none => return ⟨⟩
  | some group =>
    if !(findMirrors w.directory group.name).isEmpty then
      throw (.invalidEx "\x7berr.group.mirrorsExist\x7d"
        (some "Cannot delete group, mirrors still exist: "))
    else if isDefaultGroup group.name then
      throw (.invalidEx "\x7berr.group.cannotDeleteDefault\x7d"
        (some ("Cannot delete default group: " ++ group.name)))
    else ldapdeleteGroup env (env.ctx.groupDN name)

/-- The first loop of `validate`: a mirror that is missing is created when it is
built in. -/
def validateMirror (mirror : String) : Server env PUnit := do
  let w ← get
  if (w.directory.findGroup mirror).isSome then return ⟨⟩
  else if env.ctx.equalsIgnoreCase mirror DEFAULT_GROUP_NAME then
    ldapaddGroup env (builtIn DEFAULT_GROUP_NAME)
  else if env.ctx.equalsIgnoreCase mirror ADMIN_GROUP_NAME then
    ldapaddGroup env (builtIn ADMIN_GROUP_NAME)
  else throw (.invalidEx "err.group.mirror.invalid" none)

/-- The checks of `validate` after the mirrors. -/
def validateGroup (request : AccountGroupRequest) (recipients : List String)
    (dir : Directory env.ctx) : Except Exn PUnit := do
  let groupName := env.ctx.getName request
  if !request.hasMirror && recipients.isEmpty then
    throw (.invalidEx "\x7berr.group.empty\x7d"
      (some ("Cannot create an empty non-mirror group: " ++ groupName)))
  else if (dir.findGroup groupName).isSome then
    throw (.invalidEx "\x7berr.name.notUnique\x7d" (some "group with same name already exists"))
  else if (dir.findAccount groupName).isSome then
    throw (.invalidEx "\x7berr.name.isUser\x7d" (some "user with same name already exists"))
  else if ← createsCircularReference dir env.containsCircularReference groupName recipients then
    throw (.invalidEx "\x7berr.group.circularReference\x7d"
      (some "group cannot contain a circular reference"))
  else return ⟨⟩

def validate (request : AccountGroupRequest) (recipients : List String) : Server env PUnit := do
  request.getMirrorList.forM (validateMirror env)
  reads fun w => validateGroup env request recipients w.directory

/-- The group of a `create` request, without its members. -/
def newGroup (request : AccountGroupRequest) : AccountGroup :=
  ((AccountGroup.new (env.ctx.getName request)).setDescription request.description).setMirrors
    request.getMirrorList

/-- The `try` block of `create`. -/
def createGroup (request : AccountGroupRequest) (recipients : List String) :
    Server env AccountGroup := do
  let group := newGroup env request
  let members ← reads fun w => buildRecipientList w.directory env.stackDepth group recipients true
  if members.isEmpty then
    throw (.die ("create: Group has no members: " ++ env.ctx.getName request))
  else do
    let members ← reads fun w =>
      buildRecipientList w.directory env.stackDepth group recipients false
    let group := group.setMembers members
    ldapaddGroup env group
    return group

/-- `create(groupRequest, recipients)`.  `catch (Exception e)` does not catch a
`StackOverflowError`. -/
def create (request : AccountGroupRequest) (recipients : List String) :
    Server env AccountGroup := do
  let w ← get
  if (w.directory.findGroup (env.ctx.getName request)).isSome then
    throw (.die ("create: Group already exists: " ++ env.ctx.getName request))
  else do
    validate env request recipients
    match ← attempt (createGroup env request recipients) with
    | .ok group => return group
    | .error .stackOverflow => throw .stackOverflow
    | .error e => throw (.dieOf "Error creating group: " e)

/-- What `update` makes of the stored group. -/
def updatedGroup (request : AccountGroupRequest) (group : AccountGroup) (members : List String) :
    AccountGroup :=
  (((group.setMembers members).setDescription request.description).setStorageQuota
    request.storageQuota).setMirrors request.getMirrorList

/-- `update(request)`; it answers `null` when it has deleted the group. -/
def update (request : AccountGroupRequest) : Server env (Option AccountGroup) := do
  let groupName := env.ctx.getName request
  let w ← get
  match w.directory.findGroup groupName with
  | none => throw (.die ("Group not found: " ++ groupName))
  | some group =>
    if request.recipients.isEmpty then do
      delete env groupName
      return none
    else if ← reads fun w => createsCircularReference w.directory env.containsCircularReference
        groupName request.recipients then
      throw (.invalidEx "\x7berr.group.circularReference\x7d"
        (some "group cannot contain a circular reference"))
    else do
      let members ← reads fun w =>
        buildRecipientList w.directory env.stackDepth group request.recipients false
      let group := updatedGroup request group members
      ldapmodifyGroup env group
      return some group

/-! ### What they leave in the directory -/

section Ends

variable {env} {w : World env.ctx}

theorem provider_addToBuiltIn (groupName : String) (account : Account) :
    Respects World.SameProvider (addToBuiltIn env groupName account) := by
  have hmodify : ∀ group, Respects World.SameProvider (do
      ldapmodifyGroup env group
      return group : Server env AccountGroup) := fun group =>
    (provider_ldapRequest _ _).bind fun _ => Respects.pure _
  refine Respects.get.bind fun w => ?_
  cases w.directory.findGroup groupName with
  | some group => exact (Respects.pure _).bind fun _ => hmodify _
  | none => exact (provider_ldapRequest _ _).bind fun _ => (Respects.pure _).bind fun _ => hmodify _

/-- A missing built-in group is added. -/
inductive AddsBuiltIn : Directory env.ctx → Directory env.ctx → Prop
  | add {dir : Directory env.ctx} {n : String} (hn : isDefaultGroup n = true)
      (h : dir.findGroup n = none) : AddsBuiltIn dir (dir.putGroup (builtIn n))

/-- A missing built-in group is added, or the account becomes a member of one. -/
inductive Enrolls (account : Account) : Directory env.ctx → Directory env.ctx → Prop
  | add {dir dir' : Directory env.ctx} (h : AddsBuiltIn dir dir') : Enrolls account dir dir'
  | member {dir : Directory env.ctx} {n : String} {g : AccountGroup}
      (hn : isDefaultGroup n = true) (h : dir.findGroup n = some g) :
      Enrolls account dir (dir.putGroup (g.addMember (env.ctx.userDN account.name)))

/-- Enrolling an account writes no account. -/
theorem Enrolls.accountAt {account : Account} {dir dir' : Directory env.ctx}
    (h : Relation.ReflTransGen (Enrolls account) dir dir') (dn : String) :
    dir'.accountAt dn = dir.accountAt dn := by
  induction h with
  | refl => rfl
  | tail _ hstep ih =>
    rw [← ih]
    cases hstep with
    | add hadds => cases hadds with | add _ _ => rfl
    | member _ _ => rfl

/-- The built-in group `n` with one more member. -/
def enrolled (dir : Directory env.ctx) (n : String) (account : Account) : AccountGroup :=
  ((dir.findGroup n).getD (builtIn n)).addMember (env.ctx.userDN account.name)

/-- `ldapmodify` of a group that is stored. -/
theorem ends_ldapmodifyGroup {g : AccountGroup} {Q : Except Exn PUnit → World env.ctx → Prop}
    (hg : (w.directory.findGroup g.name).isSome)
    (hfail : ∀ t, LdapFails env → w.Same t → Q (.error (.failed .ldap)) t)
    (hok : ∀ t, w.Leaves (w.directory.putGroup g) t → Q (.ok ⟨⟩) t) :
    Ends (ldapmodifyGroup env g) w Q := by
  refine ends_ldapRequest (fun t h hs => hfail t ?_ hs) fun t _ hs => hok t hs
  rcases h with h | h
  · exact h
  · rw [Option.isNone_iff_eq_none] at h
    simp [h] at hg

/-- `ldapadd` of a group that is not stored. -/
theorem ends_ldapaddGroup {g : AccountGroup} {Q : Except Exn PUnit → World env.ctx → Prop}
    (hg : w.directory.findGroup g.name = none)
    (hfail : ∀ t, LdapFails env → w.Same t → Q (.error (.failed .ldap)) t)
    (hok : ∀ t, w.Leaves (w.directory.putGroup g) t → Q (.ok ⟨⟩) t) :
    Ends (ldapaddGroup env g) w Q := by
  refine ends_ldapRequest (fun t h hs => hfail t ?_ hs) fun t _ hs => hok t hs
  simpa [hg] using h

/-- **Adding a member to a built-in group.**  Whatever fails, only built-in groups
are added or gain the account; if the directory does not fail, the group is
stored with its new member. -/
theorem addToBuiltIn_ends {n : String} (hn : isDefaultGroup n = true) (account : Account) :
    Ends (addToBuiltIn env n account) w fun r t =>
      (∃ dir, Relation.ReflTransGen (Enrolls account) w.directory dir ∧ w.Leaves dir t) ∧
      (¬ LdapFails env → r = .ok (enrolled w.directory n account) ∧
        w.Leaves (w.directory.putGroup (enrolled w.directory n account)) t) := by
  simp only [addToBuiltIn, ends_bind, ends_get]
  cases hg : w.directory.findGroup n with
  | some g =>
    simp only [ends_pure, ends_bind]
    refine ends_ldapmodifyGroup (by simp [Directory.findGroup_name hg]) (fun t hf hs => ?_)
      fun t hs => ?_
    · exact ⟨⟨_, .refl, hs⟩, fun h => absurd hf h⟩
    · simp only [enrolled, hg, Option.getD_some]
      exact ⟨⟨_, .single (.member hn hg), hs⟩, fun _ => ⟨trivial, hs⟩⟩
  | none =>
    simp only [ends_bind, ends_pure]
    refine ends_ldapaddGroup (by simpa using hg) (fun t hf hs => ?_) fun t hs => ?_
    · exact ⟨⟨_, .refl, hs⟩, fun h => absurd hf h⟩
    have hstored : t.directory.findGroup n = some (builtIn n) := by
      rw [hs.directory]
      exact Directory.findGroup_putGroup _ _
    have hadd : Enrolls account w.directory t.directory := by
      rw [hs.directory]
      exact .add (.add hn hg)
    refine ends_ldapmodifyGroup (by simp [hstored]) (fun u hf hs' => ?_) fun u hs' => ?_
    · exact ⟨⟨_, .single hadd, hs.directory ▸ hs.same_trans hs'⟩, fun h => absurd hf h⟩
    · simp only [enrolled, hg, Option.getD_none]
      refine ⟨⟨_, .tail (.single hadd) (.member hn hstored), hs.trans hs'⟩, fun _ => ⟨trivial, ?_⟩⟩
      have hput := hs.trans hs'
      rw [hs.directory, Directory.putGroup_putGroup _ (by simp)] at hput
      exact hput

/-- `delete` has checked the stored group `g`: no group mirrors it, and it is not
built in. -/
structure Deletes (dir : Directory env.ctx) (name : String) (g : AccountGroup) : Prop where
  stored : dir.findGroup name = some g
  notMirrored : findMirrors dir g.name = []
  notBuiltIn : isDefaultGroup g.name = false

/-- **`delete`** throws and changes nothing; or it answers, and has removed the group it has
checked, if there is one. -/
theorem delete_returns (name : String) : Ends (delete env name) w fun r t => match r with
    | .error _ => w.Same t
    | .ok _ => (w.directory.findGroup name = none ∧ w.Same t) ∨
      (env.fails .ldap w.calls = false ∧ ∃ g, Deletes w.directory name g ∧
        w.Leaves (w.directory.eraseGroup (env.ctx.groupDN name)) t) := by
  simp only [delete, ends_bind, ends_get]
  cases hg : w.directory.findGroup name with
  | none => exact Or.inl ⟨rfl, .refl⟩
  | some g =>
    dsimp only
    split_ifs with hm hd
    · exact World.Same.refl
    · exact World.Same.refl
    · rw [ldapdeleteGroup, ends_ldapRequest_iff]
      cases env.fails .ldap w.calls with
      | true => exact World.same_called w
      | false => exact Or.inr ⟨rfl, g, ⟨hg, by simpa using hm, by simpa using hd⟩, ⟨rfl, rfl, rfl⟩⟩

/-- **`delete`** changes nothing, or removes the group it has checked. -/
theorem delete_ends (name : String) : Ends (delete env name) w fun _ t =>
    w.Same t ∨ ∃ g, Deletes w.directory name g ∧
      w.Leaves (w.directory.eraseGroup (env.ctx.groupDN name)) t := by
  refine (delete_returns name).mono fun r t h => ?_
  cases r with
  | error e => exact Or.inl h
  | ok u => exact h.imp And.right And.right

/-- A member list without mirrors has the resolved recipients. -/
theorem buildRecipientList_ok {dir : Directory env.ctx} {depth : ℕ} {g : AccountGroup}
    {recipients members : List String}
    (h : buildRecipientList dir depth g recipients false = .ok members) :
    ∃ dns, recipients.mapM (findAccountOrGroupDN dir) = .ok dns ∧ members = dns.dedup := by
  unfold buildRecipientList at h
  cases hdns : recipients.mapM (findAccountOrGroupDN dir) with
  | error e => simp [hdns, bind, Except.bind] at h
  | ok dns => exact ⟨dns, rfl, by simpa [hdns, bind, Except.bind, pure, Except.pure, eq_comm] using h⟩

/-- `update` has checked `request` and made `g'` of the stored group `g`. -/
structure Updates (request : AccountGroupRequest) (dir : Directory env.ctx)
    (g g' : AccountGroup) : Prop where
  stored : dir.findGroup (env.ctx.getName request) = some g
  noCycle : createsCircularReference dir env.containsCircularReference (env.ctx.getName request)
    request.recipients = .ok false
  written : ∃ dns, request.recipients.mapM (findAccountOrGroupDN dir) = .ok dns ∧
    g' = updatedGroup request g dns.dedup

/-- **`update`** throws and changes nothing; or it answers `null` and has deleted the group, as
the request has no recipients; or it answers the group that it has written. -/
theorem update_returns (request : AccountGroupRequest) : Ends (update env request) w fun r t =>
    match r with
    | .error _ => w.Same t
    | .ok none => request.recipients = [] ∧ env.fails .ldap w.calls = false ∧
      ∃ g, Deletes w.directory (env.ctx.getName request) g ∧
        w.Leaves (w.directory.eraseGroup (env.ctx.groupDN (env.ctx.getName request))) t
    | .ok (some g') => request.recipients ≠ [] ∧ ∃ g, Updates request w.directory g g' ∧
      w.Leaves (w.directory.putGroup g') t := by
  simp only [update, ends_bind, ends_get]
  cases hg : w.directory.findGroup (env.ctx.getName request) with
  | none => exact World.Same.refl
  | some g =>
    dsimp only
    by_cases hempty : request.recipients = []
    · rw [if_pos (by simp [hempty]), ends_bind]
      refine (delete_returns _).mono fun r t h => ?_
      cases r with
      | error e => exact h
      | ok u =>
        refine ⟨hempty, h.resolve_left ?_⟩
        rintro ⟨hnone, -⟩
        exact absurd (hg.symm.trans hnone) (Option.some_ne_none g)
    · rw [if_neg (by simp [hempty])]
      simp only [ends_bind, ends_reads]
      cases hc : createsCircularReference w.directory env.containsCircularReference
        (env.ctx.getName request) request.recipients with
      | error e => exact World.Same.refl
      | ok b =>
        cases b with
        | true => exact World.Same.refl
        | false =>
          simp only [Bool.false_eq_true, if_false, ends_bind, ends_reads]
          cases hm : buildRecipientList w.directory env.stackDepth g request.recipients false with
          | error e => exact World.Same.refl
          | ok members =>
            obtain ⟨dns, hdns, rfl⟩ := buildRecipientList_ok hm
            refine ends_ldapRequest (fun t _ hs => hs) fun t _ hs => ?_
            exact ⟨hempty, g, ⟨hg, hc, dns, hdns, rfl⟩, hs⟩

/-- **When `update` writes** a stored group: the recipients resolve, they make no circle, and the
directory takes the write. -/
theorem update_writes {request : AccountGroupRequest} {g : AccountGroup}
    (hg : w.directory.findGroup (env.ctx.getName request) = some g)
    (hrecipients : request.recipients ≠ []) : Ends (update env request) w fun _ t =>
      (∃ dns, request.recipients.mapM (findAccountOrGroupDN w.directory) = .ok dns ∧
        createsCircularReference w.directory env.containsCircularReference
          (env.ctx.getName request) request.recipients = .ok false ∧
        env.fails .ldap w.calls = false ∧
        t.directory = w.directory.putGroup (updatedGroup request g dns.dedup)) ∨
      ((∀ dns, request.recipients.mapM (findAccountOrGroupDN w.directory) = .ok dns →
        createsCircularReference w.directory env.containsCircularReference
          (env.ctx.getName request) request.recipients = .ok false →
        env.fails .ldap w.calls = true) ∧ t.directory = w.directory) := by
  simp only [update, ends_bind, ends_get, hg]
  rw [if_neg (by simp [hrecipients])]
  simp only [ends_bind, ends_reads]
  cases hc : createsCircularReference w.directory env.containsCircularReference
    (env.ctx.getName request) request.recipients with
  | error e => exact Or.inr ⟨fun _ _ h => of_error_eq_ok h, trivial⟩
  | ok b =>
    cases b with
    | true =>
      exact Or.inr ⟨fun _ _ h => absurd (Except.ok.inj h).symm Bool.false_ne_true, rfl⟩
    | false =>
      simp only [Bool.false_eq_true, if_false, ends_bind, ends_reads, buildRecipientList]
      cases hdns : request.recipients.mapM (findAccountOrGroupDN w.directory) with
      | error e => exact Or.inr ⟨fun _ h => of_error_eq_ok h, trivial⟩
      | ok dns =>
        have hstored : w.directory.findGroup (updatedGroup request g dns.dedup).name = some g := by
          simpa [updatedGroup] using Directory.findGroup_name hg
        simp only [bind, Except.bind, pure, Except.pure]
        rw [ldapmodifyGroup, ends_ldapRequest_iff]
        cases env.fails .ldap w.calls with
        | true => exact Or.inr ⟨fun _ _ _ => rfl, rfl⟩
        | false =>
          rw [if_neg (by simp [hstored])]
          exact Or.inl ⟨dns, rfl, trivial, rfl, rfl⟩

/-- **`update`** changes nothing, deletes the group when the request has no
recipients, or writes the group it has checked. -/
theorem update_ends (request : AccountGroupRequest) : Ends (update env request) w fun _ t =>
    w.Same t ∨
    (request.recipients = [] ∧ ∃ g, Deletes w.directory (env.ctx.getName request) g ∧
      w.Leaves (w.directory.eraseGroup (env.ctx.groupDN (env.ctx.getName request))) t) ∨
    (request.recipients ≠ [] ∧ ∃ g g', Updates request w.directory g g' ∧
      w.Leaves (w.directory.putGroup g') t) := by
  refine (update_returns request).mono fun r t h => ?_
  match r, h with
  | .error _, h => exact Or.inl h
  | .ok none, ⟨hempty, _, hdeletes⟩ => exact Or.inr (Or.inl ⟨hempty, hdeletes⟩)
  | .ok (some g'), ⟨hne, g, hupdates, ht⟩ => exact Or.inr (Or.inr ⟨hne, g, g', hupdates, ht⟩)

/-- Groups that are missing are added; the others stay what they are. -/
theorem findGroup_of_addsBuiltIn {dir dir' : Directory env.ctx}
    (h : Relation.ReflTransGen AddsBuiltIn dir dir') {m : String} {g : AccountGroup}
    (hm : dir.findGroup m = some g) : dir'.findGroup m = some g := by
  induction h with
  | refl => exact hm
  | tail _ hstep ih =>
    cases hstep with
    | @add n hn hnone =>
      rw [Directory.findGroup, Directory.groupAt_putGroup, if_neg]
      · exact ih
      · intro hdn
        rw [Directory.findGroup, hdn, builtIn_name] at ih
        exact absurd (hnone.symm.trans ih) (Option.some_ne_none g).symm

/-- A stored group stays stored. -/
theorem findGroup_isSome_of_addsBuiltIn {dir dir' : Directory env.ctx}
    (h : Relation.ReflTransGen AddsBuiltIn dir dir') {m : String}
    (hm : (dir.findGroup m).isSome) : (dir'.findGroup m).isSome := by
  obtain ⟨g, hg⟩ := Option.isSome_iff_exists.1 hm
  rw [findGroup_of_addsBuiltIn h hg]
  rfl

/-- The directory after `validateMirror` found or added the mirror. -/
def addMirror (dir : Directory env.ctx) (mirror : String) : Directory env.ctx :=
  if (dir.findGroup mirror).isSome then dir
  else if env.ctx.equalsIgnoreCase mirror DEFAULT_GROUP_NAME then
    dir.putGroup (builtIn DEFAULT_GROUP_NAME)
  else if env.ctx.equalsIgnoreCase mirror ADMIN_GROUP_NAME then
    dir.putGroup (builtIn ADMIN_GROUP_NAME)
  else dir

/-- Adding the built-in group that a missing mirror names, in any case of its
letters. -/
theorem addMirror_ends {mirror n : String} (hn : isDefaultGroup n = true)
    (hmirror : env.ctx.equalsIgnoreCase mirror n = true)
    (hnone : ¬ (w.directory.findGroup mirror).isSome) :
    Ends (ldapaddGroup env (builtIn n)) w fun r t =>
      Relation.ReflTransGen AddsBuiltIn w.directory t.directory ∧ w.Leaves t.directory t ∧
      (r = .ok ⟨⟩ → t.directory = w.directory.putGroup (builtIn n) ∧
        (t.directory.findGroup mirror).isSome) := by
  have hdn := env.ctx.equalsIgnoreCase_iff.1 hmirror
  have hfresh : w.directory.findGroup n = none := by
    rw [Directory.findGroup, ← hdn]
    exact Option.not_isSome_iff_eq_none.1 hnone
  refine ends_ldapaddGroup hfresh (fun t _ hs => ?_) fun t hs => ?_
  · exact ⟨hs.directory ▸ .refl, hs.directory ▸ hs, of_error_eq_ok⟩
  · refine ⟨?_, hs.directory.symm ▸ hs, fun _ => ⟨hs.directory, ?_⟩⟩
    · rw [hs.directory]
      exact .single (.add hn hfresh)
    · rw [hs.directory, Directory.findGroup, hdn, Directory.groupAt_putGroup, builtIn_name, if_pos rfl]
      rfl

theorem validateMirror_ends (mirror : String) :
    Ends (validateMirror env mirror) w fun r t =>
      Relation.ReflTransGen AddsBuiltIn w.directory t.directory ∧ w.Leaves t.directory t ∧
      (r = .ok ⟨⟩ → t.directory = addMirror w.directory mirror ∧
        (t.directory.findGroup mirror).isSome) := by
  simp only [validateMirror, addMirror, ends_bind, ends_get]
  split_ifs with hsome hdefault hadmin
  · exact ⟨.refl, World.Same.refl, fun _ => ⟨rfl, hsome⟩⟩
  · exact addMirror_ends rfl hdefault hsome
  · exact addMirror_ends rfl hadmin hsome
  · exact ⟨.refl, World.Same.refl, of_error_eq_ok⟩

/-- The loop over the mirrors adds built-in groups that are missing; when it ends
normally every mirror is stored. -/
theorem validateMirrors_ends (mirrors : List String) :
    Ends (mirrors.forM (validateMirror env)) w fun r t =>
      Relation.ReflTransGen AddsBuiltIn w.directory t.directory ∧ w.Leaves t.directory t ∧
      (r = .ok ⟨⟩ → t.directory = mirrors.foldl addMirror w.directory ∧
        ∀ m ∈ mirrors, (t.directory.findGroup m).isSome) := by
  induction mirrors generalizing w with
  | nil => exact ⟨.refl, World.Same.refl, fun _ => ⟨rfl, List.forall_mem_nil _⟩⟩
  | cons mirror mirrors ih =>
    simp only [List.forM, ends_bind]
    refine (validateMirror_ends mirror).mono fun r t hend => ?_
    obtain ⟨hadds, hleaves, hdir⟩ := hend
    cases r with
    | error e => exact ⟨hadds, hleaves, of_error_eq_ok⟩
    | ok u =>
      obtain ⟨hdir, hfound⟩ := hdir rfl
      refine ih.mono fun r' t' hend => ?_
      obtain ⟨hadds', hleaves', hdir'⟩ := hend
      refine ⟨hadds.trans hadds', hleaves.trans hleaves', fun hok => ?_⟩
      obtain ⟨hdir', hfound'⟩ := hdir' hok
      rw [List.forall_mem_cons, List.foldl_cons, hdir', hdir]
      rw [← hdir, ← hdir']
      exact ⟨rfl, findGroup_isSome_of_addsBuiltIn hadds' hfound, hfound'⟩

/-- `create` has checked the request and is about to add `g`. -/
structure Creates (request : AccountGroupRequest) (recipients : List String)
    (dir : Directory env.ctx) (g : AccountGroup) : Prop where
  mirrors : ∀ m ∈ request.getMirrorList, (dir.findGroup m).isSome
  fresh : dir.findGroup (env.ctx.getName request) = none
  notUser : dir.findAccount (env.ctx.getName request) = none
  noCycle : createsCircularReference dir env.containsCircularReference (env.ctx.getName request)
    recipients = .ok false
  written : ∃ dns, recipients.mapM (findAccountOrGroupDN dir) = .ok dns ∧
    g = (newGroup env request).setMembers dns.dedup

/-- The checks pass when the request has mirrors or recipients, its name is free, and the
recipients make no circle. -/
theorem validateGroup_ok_iff {request : AccountGroupRequest} {recipients : List String}
    {dir : Directory env.ctx} {u : PUnit} :
    validateGroup env request recipients dir = .ok u ↔
      (request.hasMirror = true ∨ recipients ≠ []) ∧
        dir.findGroup (env.ctx.getName request) = none ∧
        dir.findAccount (env.ctx.getName request) = none ∧
        createsCircularReference dir env.containsCircularReference (env.ctx.getName request)
          recipients = .ok false := by
  unfold validateGroup
  dsimp only
  split_ifs with hempty hgroup haccount
  · simp only [Bool.and_eq_true, Bool.not_eq_true', List.isEmpty_iff] at hempty
    simp [hempty]
  · refine iff_of_false not_false ?_
    rintro ⟨-, hfresh, -, -⟩
    simp [hfresh] at hgroup
  · refine iff_of_false not_false ?_
    rintro ⟨-, -, huser, -⟩
    simp [huser] at haccount
  · have hpresent : request.hasMirror = true ∨ recipients ≠ [] := by
      by_contra hnone
      rw [not_or, Bool.not_eq_true, not_not] at hnone
      exact hempty (by simp [hnone])
    have hfresh : dir.findGroup (env.ctx.getName request) = none := by simpa using hgroup
    have huser : dir.findAccount (env.ctx.getName request) = none := by simpa using haccount
    simp only [hpresent, hfresh, huser, true_and]
    cases createsCircularReference dir env.containsCircularReference (env.ctx.getName request)
      recipients with
    | error e => simp [bind, Except.bind]
    | ok b => cases b <;> simp [bind, Except.bind, throw, throwThe, MonadExceptOf.throw, pure,
        Except.pure]

/-- The `try` block of `create` throws and changes nothing, or it answers the group that it has
added. -/
theorem createGroup_returns (request : AccountGroupRequest) (recipients : List String) :
    Ends (createGroup env request recipients) w fun r t => match r with
      | .error _ => w.Same t
      | .ok g => (∃ dns, recipients.mapM (findAccountOrGroupDN w.directory) = .ok dns ∧
          g = (newGroup env request).setMembers dns.dedup) ∧ w.Leaves (w.directory.putGroup g) t := by
  simp only [createGroup, ends_bind, ends_reads]
  cases buildRecipientList w.directory env.stackDepth (newGroup env request) recipients true with
  | error e => exact World.Same.refl
  | ok effective =>
    dsimp only
    split_ifs
    · exact World.Same.refl
    simp only [ends_bind, ends_reads]
    cases hm : buildRecipientList w.directory env.stackDepth (newGroup env request) recipients
      false with
    | error e => exact World.Same.refl
    | ok members =>
      obtain ⟨dns, hdns, rfl⟩ := buildRecipientList_ok hm
      exact ends_ldapRequest (fun t _ hs => hs) fun t _ hs => ⟨⟨dns, hdns, rfl⟩, hs⟩

/-- **`create`** adds built-in groups that are mirrored.  It throws then; or all mirrors are
there, and it answers the new group, checked against the directory with them. -/
theorem create_returns (request : AccountGroupRequest) (recipients : List String) :
    Ends (create env request recipients) w fun r t => match r with
      | .error _ => ∃ dir, Relation.ReflTransGen AddsBuiltIn w.directory dir ∧ w.Leaves dir t
      | .ok g => ∃ dir, Relation.ReflTransGen AddsBuiltIn w.directory dir ∧
        dir = request.getMirrorList.foldl addMirror w.directory ∧
        Creates request recipients dir g ∧ w.Leaves (dir.putGroup g) t := by
  simp only [create, ends_bind, ends_get]
  split_ifs with hexists
  · exact ⟨_, .refl, World.Same.refl⟩
  simp only [validate, ends_bind]
  refine (validateMirrors_ends _).mono fun r t hend => ?_
  obtain ⟨hadds, hleaves, hmirrors⟩ := hend
  cases r with
  | error e => exact ⟨t.directory, hadds, hleaves⟩
  | ok u =>
    simp only [ends_reads]
    cases hv : validateGroup env request recipients t.directory with
    | error e => exact ⟨t.directory, hadds, hleaves⟩
    | ok u =>
      obtain ⟨-, hfresh, huser, hcycle⟩ := validateGroup_ok_iff.1 hv
      obtain ⟨hdir, hfound⟩ := hmirrors rfl
      simp only [ends_attempt]
      refine (createGroup_returns request recipients).mono fun r v h => ?_
      cases r with
      | error e => cases e <;> exact ⟨t.directory, hadds, hleaves.same_trans h⟩
      | ok g =>
        obtain ⟨hwritten, hput⟩ := h
        exact ⟨t.directory, hadds, hdir, ⟨hfound, hfresh, huser, hcycle, hwritten⟩,
          hleaves.trans hput⟩

/-- **`create`** adds built-in groups that are mirrored; and when they all are
there, the new group, checked against the directory with them. -/
theorem create_ends (request : AccountGroupRequest) (recipients : List String) :
    Ends (create env request recipients) w fun _ t =>
      (∃ dir, Relation.ReflTransGen AddsBuiltIn w.directory dir ∧ w.Leaves dir t) ∨
      ∃ dir g, Relation.ReflTransGen AddsBuiltIn w.directory dir ∧
        dir = request.getMirrorList.foldl addMirror w.directory ∧
        Creates request recipients dir g ∧ w.Leaves (dir.putGroup g) t := by
  refine (create_returns request recipients).mono fun r t h => ?_
  cases r with
  | error e => exact Or.inl h
  | ok g =>
    obtain ⟨dir, hcreates⟩ := h
    exact Or.inr ⟨dir, g, hcreates⟩

end Ends

end AccountGroupDAO

end CloudOs

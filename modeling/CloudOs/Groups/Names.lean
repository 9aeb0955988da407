/-
# One name, one entry

A name is meant never to be both an account's and a group's: `findAccountOrGroupDN` looks for
an account first, and a group whose name an account has is not found.

| method | asks for an account of the name | asks for a group of the name |
| --- | --- | --- |
| `AccountGroupDAO.create` | yes | yes |
| `AccountGroupDAO.create`, a built-in mirror that is missing | no | yes |
| `addToDefaultGroup`, `addToAdminGroup` | no | yes |
| `AccountDAO.create` | the directory does | no |

The runs in which the last three meet no entry of the other kind keep the names apart.
-/

import CloudOs.Dao.Operations

namespace CloudOs

open Prog AccountGroup AccountGroupDAO AccountDAO

namespace Groups

variable {env : Env}

/-- No name denotes both an account and a group. -/
def NamesApart (dir : Directory env.ctx) : Prop :=
  ∀ n, (dir.findAccount n).isSome = true → dir.findGroup n = none

/-- The name of every stored group resolves to that group. -/
def ResolvesGroups (dir : Directory env.ctx) : Prop :=
  ∀ n g, dir.findGroup n = some g → findAccountOrGroupDN dir n = .ok (env.ctx.groupDN g.name)

/-- The built-in groups that `postCreate` adds an account to. -/
def enrolledIn (account : Account) : List String :=
  if account.isAdmin then [DEFAULT_GROUP_NAME, ADMIN_GROUP_NAME] else [DEFAULT_GROUP_NAME]

/-- No account has the name of the built-in group `n`, or the group is there. -/
def MayAdd (dir : Directory env.ctx) (n : String) : Prop :=
  dir.findGroup n = none → dir.findAccount n = none

/-- The call adds no entry under a name of the other kind.

* An account is created under a name that no group has, and that is not the name of a
  built-in group it brings in.
* A built-in group that is missing is not brought in while an account has its name. -/
def KeepsApart (w : World env.ctx) : DaoOp → Prop
  | .onAccount (.create request) =>
    AddGoes env (afterPassword w.calls request + 1) w.directory request.name →
      w.directory.findGroup request.name = none ∧ ∀ n ∈ enrolledIn request,
        MayAdd (w.directory.putAccount request) n
  | .createGroup request _ => w.directory.findGroup (env.ctx.getName request) = none →
      ∀ m ∈ request.getMirrorList, ∀ n ∈ [DEFAULT_GROUP_NAME, ADMIN_GROUP_NAME],
        env.ctx.equalsIgnoreCase m n = true → MayAdd w.directory n
  | .addToDefaultGroup _ => MayAdd w.directory DEFAULT_GROUP_NAME
  | .addToAdminGroup _ => MayAdd w.directory ADMIN_GROUP_NAME
  | _ => True

instance (dir : Directory env.ctx) (n : String) : Decidable (MayAdd dir n) :=
  inferInstanceAs (Decidable (_ → _))

instance (n : ℕ) (dir : Directory env.ctx) (name : String) : Decidable (AddGoes env n dir name) :=
  inferInstanceAs (Decidable (_ ∧ (_ → _)))

instance (w : World env.ctx) : ∀ op, Decidable (KeepsApart w op)
  | .onAccount (.create _) => inferInstanceAs (Decidable (_ → _ ∧ ∀ n ∈ _, _))
  | .createGroup _ _ => inferInstanceAs (Decidable (_ → ∀ m ∈ _, ∀ n ∈ _, _ → _))
  | .addToDefaultGroup _ => inferInstanceAs (Decidable (MayAdd _ _))
  | .addToAdminGroup _ => inferInstanceAs (Decidable (MayAdd _ _))
  | .onAccount (.update _) => inferInstanceAs (Decidable True)
  | .onAccount (.delete _) => inferInstanceAs (Decidable True)
  | .updateGroup _ => inferInstanceAs (Decidable True)
  | .deleteGroup _ => inferInstanceAs (Decidable True)

/-- **Groups are found where the names are apart**, and only there. -/
theorem resolvesGroups_iff {dir : Directory env.ctx} : ResolvesGroups dir ↔ NamesApart dir := by
  constructor
  · intro h n haccount
    by_contra hgroup
    obtain ⟨g, hg⟩ := Option.ne_none_iff_exists'.1 hgroup
    obtain ⟨a, ha⟩ := Option.isSome_iff_exists.1 haccount
    have hdn : findAccountOrGroupDN dir n = .ok (env.ctx.userDN a.name) := by
      simp only [findAccountOrGroupDN, ha]
    have hsame := Except.ok.inj (hdn.symm.trans (h n g hg))
    exact env.ctx.userDN_ne_groupDN _ _ hsame
  · intro h n g hg
    have hnone : dir.findAccount n = none := by
      by_contra hsome
      have hgroup := h n (Option.isSome_iff_ne_none.2 hsome)
      rw [hg] at hgroup
      exact absurd hgroup (Option.some_ne_none g)
    simp only [findAccountOrGroupDN, hnone, hg]

/-! ### Which groups a call adds -/

/-- The accounts are the same, and a group is under a DN that had one or is in `new`. -/
structure AddsGroups (new : String → Prop) (w t : World env.ctx) : Prop where
  accounts : t.directory.accounts = w.directory.accounts
  groups : ∀ dn, (t.directory.groupAt dn).isSome = true →
    (w.directory.groupAt dn).isSome = true ∨ new dn

variable {new : String → Prop}

instance : Std.Refl (@AddsGroups env new) := ⟨fun _ => ⟨rfl, fun _ h => Or.inl h⟩⟩

instance : IsTrans (World env.ctx) (AddsGroups new) := ⟨fun _ _ _ h h' =>
  ⟨h'.accounts.trans h.accounts, fun dn hdn => (h'.groups dn hdn).elim (h.groups dn) Or.inr⟩⟩

theorem adds_putGroup {w t : World env.ctx} {g : AccountGroup}
    (ht : t.directory = w.directory.putGroup g)
    (hg : (w.directory.findGroup g.name).isSome = true ∨ new (env.ctx.groupDN g.name)) :
    AddsGroups new w t := by
  refine ⟨by rw [ht]; rfl, fun dn hdn => ?_⟩
  rw [ht, Directory.groupAt_putGroup] at hdn
  split_ifs at hdn with hname
  · rw [hname]
    exact hg
  · exact Or.inl hdn

theorem adds_ldapaddGroup {g : AccountGroup} (hg : new (env.ctx.groupDN g.name)) :
    Respects (AddsGroups new) (ldapaddGroup env g) := by
  intro w
  rw [ldapaddGroup, ends_ldapRequest_iff]
  split_ifs
  · exact ⟨rfl, fun _ h => Or.inl h⟩
  · exact adds_putGroup rfl (Or.inr hg)

/-- A modified entry has to be there. -/
theorem adds_ldapmodifyGroup (g : AccountGroup) :
    Respects (AddsGroups new) (ldapmodifyGroup env g) := by
  intro w
  rw [ldapmodifyGroup, ends_ldapRequest_iff]
  split_ifs with hrefused
  · exact ⟨rfl, fun _ h => Or.inl h⟩
  · refine adds_putGroup rfl (Or.inl ?_)
    rw [not_or, Option.isNone_iff_eq_none] at hrefused
    exact Option.isSome_iff_ne_none.2 hrefused.2

theorem adds_addToBuiltIn {n : String} (hn : new (env.ctx.groupDN n)) (account : Account) :
    Respects (AddsGroups new) (addToBuiltIn env n account) := by
  have hmodify : ∀ group, Respects (AddsGroups new) (do
      ldapmodifyGroup env group
      return group : Server env AccountGroup) := fun group =>
    (adds_ldapmodifyGroup _).bind fun _ => Respects.pure _
  refine Respects.get.bind fun w => ?_
  cases w.directory.findGroup n with
  | some group => exact (Respects.pure _).bind fun _ => hmodify _
  | none => exact (adds_ldapaddGroup hn).bind fun _ => (Respects.pure _).bind fun _ => hmodify _

theorem adds_postCreate {account : Account}
    (h : ∀ n ∈ enrolledIn account, new (env.ctx.groupDN n)) :
    Respects (AddsGroups new) (postCreate env account) := by
  unfold enrolledIn at h
  refine (adds_addToBuiltIn (h _ ?_) account).bind fun _ => ?_
  · split_ifs <;> simp
  split_ifs at h ⊢
  · exact (adds_addToBuiltIn (h _ (by simp)) account).bind fun _ => Respects.pure _
  · exact Respects.pure _

theorem adds_validateMirror {mirror : String} (h : ∀ n ∈ [DEFAULT_GROUP_NAME, ADMIN_GROUP_NAME],
    env.ctx.equalsIgnoreCase mirror n = true → new (env.ctx.groupDN n)) :
    Respects (AddsGroups new) (validateMirror env mirror) := by
  refine Respects.get.bind fun w => ?_
  split_ifs with hfound hdefault hadmin
  · exact Respects.pure _
  · exact adds_ldapaddGroup (h _ (by simp) hdefault)
  · exact adds_ldapaddGroup (h _ (by simp) hadmin)
  · exact Respects.throw _

/-- The group of the request is new, and the group at `dn` is built in and mirrored. -/
def MirrorsBuiltIn (w : World env.ctx) (request : AccountGroupRequest) (dn : String) : Prop :=
  w.directory.findGroup (env.ctx.getName request) = none ∧ ∃ m ∈ request.getMirrorList,
    ∃ n ∈ [DEFAULT_GROUP_NAME, ADMIN_GROUP_NAME], env.ctx.equalsIgnoreCase m n = true ∧
      dn = env.ctx.groupDN n

theorem adds_createGroup {request : AccountGroupRequest}
    (h : new (env.ctx.groupDN (env.ctx.getName request))) (recipients : List String) :
    Respects (AddsGroups new) (createGroup env request recipients) := by
  have hname : ∀ members, ((newGroup env request).setMembers members).name
      = env.ctx.getName request := fun members => by simp [newGroup]
  refine (Respects.reads _).bind fun members => ?_
  split_ifs
  · exact Respects.throw _
  · exact (Respects.reads _).bind fun _ => (adds_ldapaddGroup (by rw [hname]; exact h)).bind
      fun _ => Respects.pure _

/-- `create` may add a group at `dn`: a built-in mirror, or the group, if no account has its
name. -/
def MayCreate (w : World env.ctx) (request : AccountGroupRequest) (dn : String) : Prop :=
  MirrorsBuiltIn w request dn ∨ dn = env.ctx.groupDN (env.ctx.getName request) ∧
    w.directory.findAccount (env.ctx.getName request) = none

/-- **Which groups `create` adds.** -/
theorem create_adds (w : World env.ctx) (request : AccountGroupRequest) (recipients : List String) :
    Ends (AccountGroupDAO.create env request recipients) w fun _ t =>
      AddsGroups (MayCreate w request) w t := by
  simp only [AccountGroupDAO.create, ends_bind, ends_get]
  split_ifs with hexists
  · exact ⟨rfl, fun _ h => Or.inl h⟩
  have hnew : w.directory.findGroup (env.ctx.getName request) = none :=
    Option.not_isSome_iff_eq_none.1 hexists
  simp only [validate, ends_bind]
  have hmirrors : ∀ l : List String, (∀ m ∈ l, m ∈ request.getMirrorList) →
      Respects (AddsGroups (MirrorsBuiltIn w request)) (l.forM (validateMirror env)) := by
    intro l hl
    induction l with
    | nil => exact Respects.pure _
    | cons m l ih =>
      refine (adds_validateMirror fun n hn hm => ?_).bind fun _ => ih ?_
      · exact ⟨hnew, m, hl m List.mem_cons_self, n, hn, hm, rfl⟩
      · exact fun m' hm' => hl m' (List.mem_cons_of_mem m hm')
  refine (hmirrors _ (fun _ h => h) w).mono fun r t ht => ?_
  have hfirst : AddsGroups (MayCreate w request) w t :=
    ⟨ht.accounts, fun dn hdn => (ht.groups dn hdn).imp_right Or.inl⟩
  cases r with
  | error e => exact hfirst
  | ok u =>
    simp only [ends_reads]
    cases hv : validateGroup env request recipients t.directory with
    | error e => exact hfirst
    | ok u =>
      obtain ⟨-, -, huser, -⟩ := validateGroup_ok_iff.1 hv
      rw [Directory.findAccount, Directory.accountAt, ht.accounts] at huser
      simp only [ends_attempt]
      have hgroup : MayCreate w request (env.ctx.groupDN (env.ctx.getName request)) :=
        Or.inr ⟨rfl, huser⟩
      refine (adds_createGroup hgroup recipients t).mono fun r v hv => ?_
      have hall := trans_of (AddsGroups _) hfirst hv
      rcases r with e | g
      · cases e <;> exact hall
      · exact hall

/-- The groups of `t` are under DNs that had one, or that are in `new`. -/
def GroupsWithin (new : String → Prop) (w t : World env.ctx) : Prop :=
  ∀ dn, (t.directory.groupAt dn).isSome = true → (w.directory.groupAt dn).isSome = true ∨ new dn

instance : Std.Refl (@GroupsWithin env new) := ⟨fun _ _ h => Or.inl h⟩

instance : IsTrans (World env.ctx) (GroupsWithin new) :=
  ⟨fun _ _ _ h h' dn hdn => (h' dn hdn).elim (h dn) Or.inr⟩

/-- A call that changes no store adds no group. -/
theorem within_of_same {α : Type} {m : Server env α} (h : Respects World.Same m) :
    Respects (GroupsWithin new) m :=
  fun w => (h w).mono fun _ _ hs _ hdn => Or.inl (by rwa [← hs.directory])

/-- **Which groups `create` of an account adds**: those it is enrolled in. -/
theorem within_createAccount {request : Account}
    (h : ∀ n ∈ enrolledIn request, new (env.ctx.groupDN n)) :
    Respects (GroupsWithin new) (createAccount env request) := by
  have hadd : ∀ account, Respects (GroupsWithin new) (ldapaddAccount env account) := by
    intro account w
    rw [ldapaddAccount, ends_ldapRequest_iff]
    split_ifs <;> exact fun _ hdn => Or.inl hdn
  refine Respects.bind (m := draw env) (fun w _ hdn => Or.inl hdn) fun n => ?_
  have henrolled : enrolledIn (newAccount request (env.random n) (env.currentTimeMillis n))
      = enrolledIn request := by
    rw [enrolledIn, newAccount_isAdmin, enrolledIn]
  have hpost : Respects (GroupsWithin new)
      (postCreate env (newAccount request (env.random n) (env.currentTimeMillis n))) := fun w =>
    (adds_postCreate (by rw [henrolled]; exact h) w).mono fun _ _ ht => ht.groups
  refine ((hadd _).bind fun _ => hpost).attempt.bind fun r => ?_
  cases r with
  | error e => exact Respects.throw _
  | ok u => exact (within_of_same (respects_writeRooty _)).bind fun _ =>
      (within_of_same (respects_broadcast _ _ _)).bind fun _ => Respects.pure _

theorem within_create {request : Account}
    (h : ∀ n ∈ enrolledIn request, new (env.ctx.groupDN n)) :
    Respects (GroupsWithin new) (AccountDAO.create env request) := by
  unfold AccountDAO.create
  split_ifs
  · exact within_createAccount h
  · refine Respects.bind (m := draw env) (fun w _ hdn => Or.inl hdn) fun n => ?_
    refine within_createAccount ?_
    rw [enrolledIn, Account.setPassword_isAdmin]
    exact h

/-! ### One call -/

/-- A call that adds groups of other names than the accounts have. -/
theorem NamesApart.of_adds {w t : World env.ctx} (h : NamesApart w.directory)
    (ht : AddsGroups new w t)
    (hnew : ∀ n, new (env.ctx.groupDN n) → w.directory.findGroup n = none →
      w.directory.findAccount n = none) : NamesApart t.directory := by
  intro n haccount
  rw [Directory.findAccount, Directory.accountAt, ht.accounts] at haccount
  by_contra hgroup
  have hnone : w.directory.findGroup n = none := h n haccount
  rcases ht.groups _ (Option.isSome_iff_ne_none.2 hgroup) with hold | hadded
  · rw [Directory.findGroup] at hnone
    rw [hnone] at hold
    exact absurd hold (by simp)
  · have hfree := hnew n hadded hnone
    rw [Directory.findAccount, Directory.accountAt] at hfree
    rw [hfree] at haccount
    exact absurd haccount (by simp)

/-- A name of a built-in group has its DN. -/
theorem mayAdd_congr {dir : Directory env.ctx} {m n : String}
    (hmn : env.ctx.groupDN m = env.ctx.groupDN n) (h : MayAdd dir n) (hnone : dir.findGroup m = none) :
    dir.findAccount m = none := by
  have huser : env.ctx.userDN m = env.ctx.userDN n :=
    env.ctx.userDN_eq_iff.2 (env.ctx.groupDN_eq_iff.1 hmn)
  rw [Directory.findGroup, hmn] at hnone
  rw [Directory.findAccount, huser]
  exact h hnone

/-- Removing entries keeps the names apart. -/
theorem NamesApart.mono {dir dir' : Directory env.ctx} (h : NamesApart dir)
    (haccounts : ∀ dn, (dir'.accountAt dn).isSome = true → (dir.accountAt dn).isSome = true)
    (hgroups : ∀ dn, dir.groupAt dn = none → dir'.groupAt dn = none) : NamesApart dir' :=
  fun n hn => hgroups _ (h n (haccounts _ hn))

/-- An account is added under a name that no group has, and no group under a name that an account
has. -/
theorem NamesApart.of_create {w t : World env.ctx} (h : NamesApart w.directory) {account : Account}
    (hadded : Added w account t) (hwithin : GroupsWithin new w t)
    (hname : w.directory.findGroup account.name = none)
    (hnew : ∀ n, new (env.ctx.groupDN n) → w.directory.findGroup n = none →
      (w.directory.putAccount account).findAccount n = none) : NamesApart t.directory := by
  intro n haccount
  rw [Directory.findAccount, hadded.accountAt] at haccount
  by_contra hgroup
  have hold : w.directory.findGroup n = none := by
    rw [Directory.accountAt_putAccount] at haccount
    split_ifs at haccount with hn
    · rw [Directory.findGroup, env.ctx.groupDN_eq_iff.2 (env.ctx.userDN_eq_iff.1 hn)]
      exact hname
    · exact h n haccount
  rcases hwithin _ (Option.isSome_iff_ne_none.2 hgroup) with hstored | hadds
  · rw [Directory.findGroup] at hold
    rw [hold] at hstored
    exact absurd hstored (by simp)
  · have hfree := hnew n hadds hold
    rw [Directory.findAccount] at hfree
    rw [hfree] at haccount
    exact absurd haccount (by simp)

/-- The DN of a request's account is that of the account made of it. -/
theorem findAccount_putAccount_congr {dir : Directory env.ctx} {a b : Account} (hab : a.name = b.name)
    {n : String} (h : (dir.putAccount a).findAccount n = none) :
    (dir.putAccount b).findAccount n = none := by
  rw [Directory.findAccount, Directory.accountAt_putAccount] at h ⊢
  rw [hab] at h
  split_ifs at h ⊢
  exact h

theorem apart_createAccount {w : World env.ctx} (h : NamesApart w.directory) {request : Account}
    (hop : KeepsApart w (.onAccount (.create request))) :
    NamesApart ((DaoOp.onAccount (.create request)).step env w).directory := by
  have hwithin : Respects (GroupsWithin fun dn => ∃ n ∈ enrolledIn request, dn = env.ctx.groupDN n)
      (AccountDAO.create env request) := within_create fun n hn => ⟨n, hn, rfl⟩
  refine Ends.after (P := fun t => NamesApart t.directory)
    (((create_creates request).and (hwithin w)).mono fun _ t ht => ?_)
  obtain ⟨⟨-, -, hs⟩ | ⟨hgoes, hadded, -⟩, hgroups⟩ := ht
  · exact hs.directory.symm ▸ h
  obtain ⟨hname, hbuiltIn⟩ := hop hgoes
  refine h.of_create hadded hgroups (by rw [created_name]; exact hname) ?_
  rintro n ⟨b, hb, hdn⟩ hnone
  exact findAccount_putAccount_congr (created_name _ _).symm (mayAdd_congr hdn (hbuiltIn b hb) hnone)

/-- An account that is stored is written. -/
theorem NamesApart.putAccount {dir : Directory env.ctx} (h : NamesApart dir) {a : Account}
    (hstored : (dir.findAccount a.name).isSome = true) : NamesApart (dir.putAccount a) := by
  refine h.mono (fun dn hdn => ?_) fun _ hnone => hnone
  rw [Directory.accountAt_putAccount] at hdn
  split_ifs at hdn with ha
  · rw [ha]
    exact hstored
  · exact hdn

theorem NamesApart.eraseAccount {dir : Directory env.ctx} (h : NamesApart dir) (dn : String) :
    NamesApart (dir.eraseAccount dn) := by
  refine h.mono (fun d hd => ?_) fun _ hnone => hnone
  rw [Directory.accountAt_eraseAccount] at hd
  split_ifs at hd
  · exact absurd hd Bool.false_ne_true
  · exact hd

/-- A group that is stored is written. -/
theorem NamesApart.putGroup {dir : Directory env.ctx} (h : NamesApart dir) {g : AccountGroup}
    (hstored : dir.findGroup g.name ≠ none) : NamesApart (dir.putGroup g) := by
  refine h.mono (fun _ hdn => hdn) fun dn hnone => ?_
  rw [Directory.groupAt_putGroup]
  split_ifs with hdn
  · rw [hdn] at hnone
    exact absurd hnone hstored
  · exact hnone

theorem NamesApart.eraseGroup {dir : Directory env.ctx} (h : NamesApart dir) (dn : String) :
    NamesApart (dir.eraseGroup dn) := by
  refine h.mono (fun _ hdn => hdn) fun d hnone => ?_
  rw [Directory.groupAt_eraseGroup, hnone, ite_self]

/-- An account is added to a built-in group. -/
theorem apart_addToBuiltIn {w : World env.ctx} (h : NamesApart w.directory) {n : String}
    (account : Account) (hop : MayAdd w.directory n) :
    NamesApart (after (addToBuiltIn env n account) w).directory := by
  have hadds : Respects (AddsGroups fun dn => dn = env.ctx.groupDN n)
      (addToBuiltIn env n account) := by
    refine adds_addToBuiltIn ?_ account
    rfl
  exact Ends.after (P := fun t => NamesApart t.directory) ((hadds w).mono fun _ t ht =>
    h.of_adds ht fun m hm hnone => mayAdd_congr hm hop hnone)

/-- **A call that adds no entry under a name of the other kind** keeps the names apart. -/
theorem apart_step {w : World env.ctx} {op : DaoOp} (h : NamesApart w.directory)
    (hop : KeepsApart w op) : NamesApart (op.step env w).directory := by
  have hwrites := op.step_writes w
  cases op with
  | onAccount op =>
    cases op with
    | create request => exact apart_createAccount h hop
    | update account =>
      generalize (DaoOp.step env w (.onAccount (.update account))).directory = dir at hwrites
      cases hwrites with
      | nothing => exact h
      | @updatesAccount _ e a _ stored name =>
        refine h.putAccount ?_
        rw [name, Directory.findAccount_name stored]
        rfl
    | delete accountName =>
      generalize (DaoOp.step env w (.onAccount (.delete accountName))).directory = dir at hwrites
      cases hwrites with
      | nothing => exact h
      | deletesAccount _ => exact h.eraseAccount _
  | createGroup request recipients =>
    refine Ends.after (P := fun t => NamesApart t.directory)
      ((create_adds w request recipients).mono fun _ t ht => h.of_adds ht ?_)
    rintro n (⟨hnew, m, hm, b, hb, hmb, hdn⟩ | ⟨hdn, huser⟩) hnone
    · exact mayAdd_congr hdn (hop hnew m hm b hb hmb) hnone
    · exact mayAdd_congr hdn (fun _ => huser) hnone
  | updateGroup request =>
    generalize (DaoOp.step env w (.updateGroup request)).directory = dir at hwrites
    cases hwrites with
    | nothing => exact h
    | @updatesGroup _ g g' _ _ updates =>
      obtain ⟨dns, -, rfl⟩ := updates.written
      refine h.putGroup ?_
      have hname : (updatedGroup request g dns.dedup).name = g.name := by simp [updatedGroup]
      rw [hname, Directory.findGroup_name updates.stored]
      exact Option.some_ne_none g
    | emptiesGroup _ _ => exact h.eraseGroup _
  | deleteGroup name =>
    generalize (DaoOp.step env w (.deleteGroup name)).directory = dir at hwrites
    cases hwrites with
    | nothing => exact h
    | deletesGroup _ => exact h.eraseGroup _
  | addToDefaultGroup account => exact apart_addToBuiltIn h account hop
  | addToAdminGroup account => exact apart_addToBuiltIn h account hop

/-! ### Runs -/

/-- **A name is never both an account's and a group's**, and every group is found by its name, in
every store that a run from the empty directory reaches, if no call of the run adds an entry
under a name of the other kind. -/
theorem names_apart (env : Env) (w : World env.ctx) (hw : w.directory = .empty) (ops : List DaoOp)
    (hops : Runs.Meets (DaoOp.step env) KeepsApart w ops) : ∀ before, before <+: ops →
      NamesApart (Runs.run (DaoOp.step env) w before).directory ∧
        ResolvesGroups (Runs.run (DaoOp.step env) w before).directory := by
  intro before hbefore
  have hempty : NamesApart w.directory := by
    rw [hw]
    intro n _
    rfl
  have hapart : NamesApart (Runs.run (DaoOp.step env) w before).directory :=
    Runs.run_invariant (I := fun w : World env.ctx => NamesApart w.directory)
      (fun _ _ => apart_step) hempty (hops.of_prefix hbefore)
  exact ⟨hapart, resolvesGroups_iff.2 hapart⟩

/-- An account and a group of it. -/
def aliceAndStaff : List DaoOp :=
  [.onAccount (.create (Account.new "alice")),
    .createGroup { name := "staff", recipients := ["alice"] } ["alice"]]

theorem names_apart_alice :
    NamesApart (Runs.run (DaoOp.step .mock) {} aliceAndStaff).directory ∧
      ResolvesGroups (Runs.run (DaoOp.step .mock) {} aliceAndStaff).directory :=
  names_apart .mock {} rfl aliceAndStaff (by decide +kernel) aliceAndStaff (List.prefix_refl _)

/-- **An account takes a group's name.**  After the group `staff` an account `staff` is created;
the name of the group then resolves to the account. -/
theorem names_collide :
    let dir := (Runs.run (DaoOp.step .mock) {}
      (aliceAndStaff ++ [.onAccount (.create (Account.new "staff"))])).directory
    (dir.findAccount "staff").isSome = true ∧ (dir.findGroup "staff").isSome = true ∧
      findAccountOrGroupDN dir "staff" = .ok (Env.mock.ctx.userDN "staff") := by
  decide +kernel

end Groups

end CloudOs

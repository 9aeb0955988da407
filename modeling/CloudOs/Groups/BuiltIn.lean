/-
# The built-in groups and the accounts

`cloudos-users` is meant to have the DNs of the accounts as its members, and
`cloudos-admins` those of the admins.  `postCreate` enrols a new account in
them; no other method of `AccountDAO` writes them.  So the groups track the
accounts as long as no account is deleted and no admin flag changes.

The directory performs the writes it is sent: none of its requests fails.
-/

import CloudOs.Dao.Operations

namespace CloudOs

open Prog AccountGroup AccountGroupDAO AccountDAO

namespace Groups

variable {env : Env} {dir : Directory env.ctx}

/-- The DN is a member of the group `n`, which has none while it is not stored. -/
def InGroup (dir : Directory env.ctx) (n dn : String) : Prop :=
  ∃ g, dir.findGroup n = some g ∧ dn ∈ g.getMembers

/-- The DN is that of a stored admin. -/
def IsAdminAt (dir : Directory env.ctx) (dn : String) : Prop :=
  ∃ a, dir.accountAt dn = some a ∧ a.isAdmin = true

/-- **The built-in groups track the accounts.** -/
structure TracksAccounts (dir : Directory env.ctx) : Prop where
  users : ∀ dn, InGroup dir DEFAULT_GROUP_NAME dn ↔ (dir.accountAt dn).isSome
  admins : ∀ dn, InGroup dir ADMIN_GROUP_NAME dn ↔ IsAdminAt dir dn

/-- The call keeps what the groups are to track: it deletes no account, and changes
no stored admin flag. -/
def KeepsBuiltIn (w : World env.ctx) : AccountOp → Prop
  | .create request => ∀ e, w.directory.findAccount request.name = some e →
      env.ldapaddReplaces = true → e.isAdmin = true → request.isAdmin = true
  | .update account => ∀ e, w.directory.findAccount account.name = some e →
      (account.getSingle .admin).isSome → account.isAdmin = e.isAdmin
  | .delete accountName => w.directory.findAccount accountName = none

theorem groupDN_default_ne_admin :
    env.ctx.groupDN DEFAULT_GROUP_NAME ≠ env.ctx.groupDN ADMIN_GROUP_NAME := by
  rw [Ne, env.ctx.groupDN_eq_iff, env.ctx.toLowerCase_of_lower _ (by decide),
    env.ctx.toLowerCase_of_lower _ (by decide)]
  decide

/-- Enrolling an account adds its DN to the one group. -/
theorem inGroup_enrolled (n n' : String) (account : Account) (dn : String) :
    InGroup (dir.putGroup (enrolled dir n account)) n' dn
      ↔ InGroup dir n' dn ∨
        (env.ctx.groupDN n' = env.ctx.groupDN n ∧ dn = env.ctx.userDN account.name) := by
  have hname : env.ctx.groupDN (enrolled dir n account).name = env.ctx.groupDN n := by
    rw [enrolled, addMember_name]
    cases hg : dir.findGroup n with
    | none => rfl
    | some g => exact Directory.groupDN_of_groupAt hg
  simp only [InGroup, Directory.findGroup, Directory.groupAt_putGroup, hname]
  split_ifs with hn
  · rw [hn]
    simp only [Option.some.injEq, exists_eq_left', enrolled, mem_addMember, true_and]
    refine or_congr_left ?_
    rw [Directory.findGroup]
    cases dir.groupAt (env.ctx.groupDN n) <;> simp
  · simp [hn]

theorem inGroup_enrolledAll (account : Account) (n dn : String) :
    InGroup (enrolledAll dir account) n dn
      ↔ InGroup dir n dn ∨ (dn = env.ctx.userDN account.name ∧
        (env.ctx.groupDN n = env.ctx.groupDN DEFAULT_GROUP_NAME ∨
          (account.isAdmin = true ∧ env.ctx.groupDN n = env.ctx.groupDN ADMIN_GROUP_NAME))) := by
  unfold enrolledAll
  dsimp only
  split_ifs with hadmin
  · rw [inGroup_enrolled, inGroup_enrolled]
    simp only [hadmin, true_and]
    tauto
  · rw [inGroup_enrolled]
    simp only [hadmin]
    tauto

/-- Adding an account that is no admin over a stored admin is the one case in which
`create` leaves a stale member. -/
theorem TracksAccounts.enrolledAll (h : TracksAccounts dir) (account : Account)
    (hstale : ∀ e, dir.findAccount account.name = some e → e.isAdmin = true →
      account.isAdmin = true) :
    TracksAccounts (enrolledAll (dir.putAccount account) account) := by
  have hat : ∀ dn, (AccountDAO.enrolledAll (dir.putAccount account) account).accountAt dn
      = if dn = env.ctx.userDN account.name then some account.stored else dir.accountAt dn := by
    intro dn
    rw [← Directory.accountAt_putAccount]
    unfold AccountDAO.enrolledAll
    dsimp only
    split_ifs <;> rfl
  have hin : ∀ n dn, InGroup (dir.putAccount account) n dn ↔ InGroup dir n dn := fun _ _ => Iff.rfl
  constructor
  · intro dn
    rw [inGroup_enrolledAll, hin, h.users, hat]
    split_ifs with hdn <;> simp [hdn]
  · intro dn
    rw [inGroup_enrolledAll, hin, h.admins]
    simp only [IsAdminAt, hat, groupDN_default_ne_admin.symm, false_or, and_true]
    split_ifs with hdn
    · subst hdn
      constructor
      · rintro (⟨e, he, hadmin⟩ | ⟨-, hadmin⟩)
        · exact ⟨account.stored, rfl, hstale e he hadmin⟩
        · exact ⟨account.stored, rfl, hadmin⟩
      · rintro ⟨a, ha, hadmin⟩
        obtain rfl := Option.some.inj ha
        exact Or.inr ⟨rfl, hadmin⟩
    · simp [hdn]

/-- Writing over a stored account with the same admin flag. -/
theorem TracksAccounts.putAccount (h : TracksAccounts dir) {e a : Account}
    (he : dir.findAccount a.name = some e) (hadmin : a.isAdmin = e.isAdmin) :
    TracksAccounts (dir.putAccount a) := by
  constructor
  · intro dn
    refine (h.users dn).trans ?_
    rw [Directory.accountAt_putAccount]
    split_ifs with hdn
    · subst hdn
      rw [Directory.findAccount] at he
      simp [he]
    · rfl
  · intro dn
    refine (h.admins dn).trans ?_
    simp only [IsAdminAt, Directory.accountAt_putAccount]
    split_ifs with hdn
    · subst hdn
      rw [Directory.findAccount] at he
      simp [he, hadmin]
    · rfl

theorem tracksAccounts_step (hldap : ¬ LdapFails env) {w : World env.ctx} {op : AccountOp}
    (h : TracksAccounts w.directory) (hop : KeepsBuiltIn w op) :
    TracksAccounts (op.step env w).directory := by
  cases op with
  | create request =>
    refine Ends.after (P := fun t => TracksAccounts t.directory)
      ((AccountDAO.create_ends request).mono fun _ t ht => ?_)
    rcases ht with ⟨_, hs⟩ | ⟨account, hmade, hadded, _⟩
    · exact hs.directory.symm ▸ h
    rw [(hadded.exact hldap).directory]
    refine h.enrolledAll account fun e he hadmin => ?_
    rw [hmade.isAdmin]
    exact hop e (hmade.name ▸ he) (hadded.free (by rw [he]; rfl)) hadmin
  | update account =>
    refine Ends.after (P := fun t => TracksAccounts t.directory)
      ((AccountDAO.update_ends account).mono fun _ t ht => ?_)
    rcases ht with ⟨_, hs⟩ | ⟨e, he, ⟨_, a, ha, ht⟩ | ⟨a, _, ha, ht⟩⟩
    · exact hs.directory.symm ▸ h
    · rw [ht.directory]
      exact h.putAccount (ha.name ▸ Directory.findAccount_name he) ha.isAdmin
    · rw [ht.directory]
      refine h.putAccount (ha.name ▸ Directory.findAccount_name he) ?_
      rw [ha.takes.isAdmin]
      split_ifs with hsent
      · exact hop e he hsent
      · rfl
  | delete accountName =>
    refine Ends.after (P := fun t => TracksAccounts t.directory)
      ((AccountDAO.delete_ends accountName).mono fun _ t ht => ?_)
    rcases ht with hs | ⟨hstored, _⟩
    · exact hs.directory.symm ▸ h
    · rw [KeepsBuiltIn] at hop
      rw [hop] at hstored
      exact absurd hstored (by decide)

/-- **The built-in groups track the accounts** through every run from the empty
directory that deletes no account and changes no stored admin flag. -/
theorem builtIn_track_accounts (env : Env) (hldap : ¬ LdapFails env) (w : World env.ctx)
    (hw : w.directory = .empty) (ops : List AccountOp)
    (hops : Runs.Meets (AccountOp.step env) KeepsBuiltIn w ops) :
    TracksAccounts (Runs.run (AccountOp.step env) w ops).directory := by
  have hempty : TracksAccounts w.directory := by
    rw [hw]
    exact ⟨fun dn => by simp [InGroup, Directory.findGroup],
      fun dn => by simp [InGroup, IsAdminAt, Directory.findGroup]⟩
  exact Runs.run_invariant (I := fun w : World env.ctx => TracksAccounts w.directory)
    (fun _ _ => tracksAccounts_step hldap) hempty hops

/-- An admin and a user are created, and the user changes a name. -/
theorem builtIn_track_accounts_created :
    TracksAccounts (Runs.run (AccountOp.step .mock) {}
      [.create ((Account.new "root").setAdmin true), .create (Account.new "alice"),
        .update ((Account.new "alice").set .firstName (some "Alice"))]).directory := by
  refine builtIn_track_accounts .mock (fun ⟨_, h⟩ => Bool.noConfusion h) {} rfl _
    ⟨fun e _ hreplaces => ?_, fun e _ hreplaces => ?_, fun e _ hsent => ?_, trivial⟩
  · exact absurd hreplaces (by decide)
  · exact absurd hreplaces (by decide)
  · exact absurd hsent (by decide)

/-- **A demoted admin stays a member.**  After an admin is created and updated to be
no admin, `cloudos-admins` still lists the account. -/
theorem builtIn_stale : ¬ TracksAccounts (Runs.run (AccountOp.step .mock) {}
    [.create ((Account.new "root").setAdmin true),
      .update ((Account.new "root").setAdmin false)]).directory := by
  intro h
  have hlisted : ((Runs.run (AccountOp.step .mock) {} [.create ((Account.new "root").setAdmin true),
      .update ((Account.new "root").setAdmin false)]).directory.findGroup ADMIN_GROUP_NAME).map
      getMembers = some [Env.mock.ctx.userDN "root"] := by decide +kernel
  obtain ⟨g, hg, hmembers⟩ := Option.map_eq_some_iff.1 hlisted
  obtain ⟨a, ha, hadmin⟩ := (h.admins (Env.mock.ctx.userDN "root")).1 ⟨g, hg, by simp [hmembers]⟩
  have hdemoted : ((Runs.run (AccountOp.step .mock) {}
      [.create ((Account.new "root").setAdmin true),
        .update ((Account.new "root").setAdmin false)]).directory.accountAt
      (Env.mock.ctx.userDN "root")).map Account.isAdmin = some false := by decide +kernel
  rw [ha, Option.map_some, hadmin] at hdemoted
  exact absurd hdemoted (by decide)

end Groups

end CloudOs

/-
# A group is created, or nothing is

`create` checks the mirrors of a request first, and adds a built-in group that one
of them names and that is missing.  What it checks afterwards can still be refused;
the built-in group stays.

| the state before | what is left when `create` throws |
| --- | --- |
| the name is taken | the groups as they were |
| no missing mirror, or the first one is not added | the groups as they were |
| the first missing mirror is added | one built-in group more, or two |

So a call that throws changes no group exactly when it adds none
(`create_allOrNothing_iff`), and a call that adds one has to go through:
`CreateGoes` is what it needs for that.
-/

import CloudOs.Dao.AccountGroupDAO

namespace CloudOs

open Prog AccountGroup AccountGroupDAO

namespace Groups

variable {env : Env} {w : World env.ctx} {dir : Directory env.ctx}

/-! ### The mirrors -/

/-- A mirror that `validate` adds when it is missing. -/
def NamesBuiltIn (ctx : LdapContext) (mirror : String) : Prop :=
  ctx.equalsIgnoreCase mirror DEFAULT_GROUP_NAME = true ∨
    ctx.equalsIgnoreCase mirror ADMIN_GROUP_NAME = true

/-- How many of the mirrors are missing when `validate` comes to them. -/
def additions (dir : Directory env.ctx) : List String → ℕ
  | [] => 0
  | mirror :: mirrors =>
    (if (dir.findGroup mirror).isSome then 0 else 1) + additions (addMirror dir mirror) mirrors

/-- Every mirror is there or is added: it is stored or names a built-in group, and the
directory, after `n` calls, takes the groups that are missing. -/
structure MirrorsGo (env : Env) (n : ℕ) (dir : Directory env.ctx) (mirrors : List String) :
    Prop where
  known : ∀ m ∈ mirrors, (dir.findGroup m).isSome ∨ NamesBuiltIn env.ctx m
  taken : ∀ k < additions dir mirrors, env.fails .ldap (n + k) = false

/-- The first mirror that is missing is added. -/
def FirstAdded (env : Env) (w : World env.ctx) (mirrors : List String) : Prop :=
  ∃ m, mirrors.find? (fun m => (w.directory.findGroup m).isNone) = some m ∧
    NamesBuiltIn env.ctx m ∧ env.fails .ldap w.calls = false

section Mirrors

variable {mirror : String} {Q : Except Exn PUnit → World env.ctx → Prop}

theorem ends_validateMirror_stored (h : (w.directory.findGroup mirror).isSome = true) :
    Ends (validateMirror env mirror) w Q ↔ Q (.ok ⟨⟩) w := by
  simp only [validateMirror, ends_bind, ends_get, h, if_true, ends_pure]

/-- `ldapadd` of a missing built-in group that a mirror names. -/
theorem ends_ldapaddGroup_builtIn {n : String} (h : (w.directory.findGroup mirror).isSome = false)
    (hn : env.ctx.equalsIgnoreCase mirror n = true) :
    Ends (ldapaddGroup env (builtIn n)) w Q ↔
      if env.fails .ldap w.calls = true then Q (.error (.failed .ldap)) w.called
      else Q (.ok ⟨⟩) (w.called.onDirectory (·.putGroup (builtIn n))) := by
  have hfresh : (w.directory.findGroup n).isSome = false := by
    rw [Directory.findGroup, ← env.ctx.equalsIgnoreCase_iff.1 hn]
    exact h
  rw [ldapaddGroup, ends_ldapRequest_iff]
  simp only [builtIn_name, hfresh, Bool.false_and, Bool.false_eq_true, or_false]

theorem ends_validateMirror_builtIn (h : (w.directory.findGroup mirror).isSome = false)
    (hn : NamesBuiltIn env.ctx mirror) :
    Ends (validateMirror env mirror) w Q ↔
      if env.fails .ldap w.calls = true then Q (.error (.failed .ldap)) w.called
      else Q (.ok ⟨⟩) (w.called.onDirectory (addMirror · mirror)) := by
  have hadds : ∀ n, env.ctx.equalsIgnoreCase mirror n = true →
      addMirror w.directory mirror = w.directory.putGroup (builtIn n) →
      (Ends (ldapaddGroup env (builtIn n)) w Q ↔
        if env.fails .ldap w.calls = true then Q (.error (.failed .ldap)) w.called
        else Q (.ok ⟨⟩) (w.called.onDirectory (addMirror · mirror))) := by
    intro n hmirror hadd
    rw [ends_ldapaddGroup_builtIn h hmirror]
    simp only [World.onDirectory, World.called_directory, hadd]
  simp only [validateMirror, ends_bind, ends_get, h, Bool.false_eq_true, if_false]
  by_cases hdefault : env.ctx.equalsIgnoreCase mirror DEFAULT_GROUP_NAME = true
  · rw [if_pos hdefault]
    exact hadds _ hdefault (by simp [addMirror, h, hdefault])
  · have hadmin := hn.resolve_left hdefault
    rw [if_neg hdefault, if_pos hadmin]
    exact hadds _ hadmin (by simp [addMirror, h, hdefault, hadmin])

theorem ends_validateMirror_unknown (h : (w.directory.findGroup mirror).isSome = false)
    (hn : ¬ NamesBuiltIn env.ctx mirror) :
    Ends (validateMirror env mirror) w Q ↔
      Q (.error (.invalidEx "err.group.mirror.invalid" none)) w := by
  obtain ⟨hdefault, hadmin⟩ := not_or.1 hn
  simp only [validateMirror, ends_bind, ends_get, h, hdefault, hadmin, Bool.false_eq_true, if_false,
    ends_throw]

/-- A group that `validate` adds has one of the two names. -/
theorem stored_or_named_addMirror {m : String} :
    (((addMirror dir mirror).findGroup m).isSome ∨ NamesBuiltIn env.ctx m) ↔
      ((dir.findGroup m).isSome ∨ NamesBuiltIn env.ctx m) := by
  have hput : ∀ n, isDefaultGroup n = true →
      (((dir.putGroup (builtIn n)).findGroup m).isSome ∨ NamesBuiltIn env.ctx m ↔
        (dir.findGroup m).isSome ∨ NamesBuiltIn env.ctx m) := by
    intro n hn
    rw [Directory.findGroup, Directory.groupAt_putGroup, builtIn_name]
    split_ifs with hdn
    · refine iff_of_true (Or.inl rfl) (Or.inr ?_)
      rw [isDefaultGroup, Bool.or_eq_true, beq_iff_eq, beq_iff_eq] at hn
      rw [← env.ctx.equalsIgnoreCase_iff] at hdn
      rcases hn with rfl | rfl
      · exact Or.inl hdn
      · exact Or.inr hdn
    · exact Iff.rfl
  unfold addMirror
  split_ifs
  · exact Iff.rfl
  · exact hput _ rfl
  · exact hput _ rfl
  · exact Iff.rfl

/-- A mirror that names a built-in group is there afterwards. -/
theorem isSome_addMirror (hn : NamesBuiltIn env.ctx mirror) :
    ((addMirror dir mirror).findGroup mirror).isSome := by
  have hput : ∀ n, env.ctx.equalsIgnoreCase mirror n = true →
      ((dir.putGroup (builtIn n)).findGroup mirror).isSome := by
    intro n hmirror
    rw [Directory.findGroup, env.ctx.equalsIgnoreCase_iff.1 hmirror, Directory.groupAt_putGroup,
      builtIn_name, if_pos rfl]
    rfl
  unfold addMirror
  split_ifs with hsome hdefault hadmin
  · exact hsome
  · exact hput _ hdefault
  · exact hput _ hadmin
  · exact absurd hn (not_or.2 ⟨hdefault, hadmin⟩)

/-- A stored group stays stored. -/
theorem isSome_foldl_addMirror {n : String} (mirrors : List String)
    (h : (dir.findGroup n).isSome) : ((mirrors.foldl addMirror dir).findGroup n).isSome := by
  induction mirrors generalizing dir with
  | nil => exact h
  | cons mirror mirrors ih =>
    have hput : ∀ b : String, ((dir.putGroup (builtIn b)).findGroup n).isSome := by
      intro b
      rw [Directory.findGroup, Directory.groupAt_putGroup]
      split_ifs
      · rfl
      · exact h
    refine ih ?_
    unfold addMirror
    split_ifs
    · exact h
    · exact hput _
    · exact hput _
    · exact h

theorem additions_cons_stored {mirrors : List String} (h : (dir.findGroup mirror).isSome = true) :
    additions dir (mirror :: mirrors) = additions dir mirrors := by
  rw [additions, if_pos h, Nat.zero_add, addMirror, if_pos h]

theorem additions_cons_missing {mirrors : List String}
    (h : (dir.findGroup mirror).isSome = false) :
    additions dir (mirror :: mirrors) = additions (addMirror dir mirror) mirrors + 1 := by
  rw [additions, h, if_neg Bool.false_ne_true, Nat.add_comm]

theorem mirrorsGo_cons_stored {n : ℕ} {mirrors : List String}
    (h : (dir.findGroup mirror).isSome = true) :
    MirrorsGo env n dir (mirror :: mirrors) ↔ MirrorsGo env n dir mirrors := by
  constructor
  · rintro ⟨hknown, htaken⟩
    rw [additions_cons_stored h] at htaken
    exact ⟨fun m hm => hknown m (List.mem_cons_of_mem _ hm), htaken⟩
  · rintro ⟨hknown, htaken⟩
    rw [← additions_cons_stored h] at htaken
    exact ⟨List.forall_mem_cons.2 ⟨Or.inl h, hknown⟩, htaken⟩

theorem mirrorsGo_cons_missing {n : ℕ} {mirrors : List String}
    (h : (dir.findGroup mirror).isSome = false) :
    MirrorsGo env n dir (mirror :: mirrors) ↔ NamesBuiltIn env.ctx mirror ∧
      env.fails .ldap n = false ∧ MirrorsGo env (n + 1) (addMirror dir mirror) mirrors := by
  constructor
  · rintro ⟨hknown, htaken⟩
    rw [additions_cons_missing h] at htaken
    obtain ⟨hmirror, hknown⟩ := List.forall_mem_cons.1 hknown
    refine ⟨hmirror.resolve_left (by simp [h]), by simpa using htaken 0 (Nat.succ_pos _),
      fun m hm => stored_or_named_addMirror.2 (hknown m hm), fun k hk => ?_⟩
    have hnext := htaken (k + 1) (Nat.succ_lt_succ hk)
    rwa [← Nat.add_assoc, Nat.add_right_comm] at hnext
  · rintro ⟨hmirror, hfirst, hknown, htaken⟩
    refine ⟨List.forall_mem_cons.2 ⟨Or.inr hmirror, fun m hm =>
      stored_or_named_addMirror.1 (hknown m hm)⟩, fun k hk => ?_⟩
    rw [additions_cons_missing h] at hk
    cases k with
    | zero => exact hfirst
    | succ k =>
      have hnext := htaken k (Nat.lt_of_succ_lt_succ hk)
      rwa [Nat.add_right_comm, Nat.add_assoc] at hnext

/-- **The loop over the mirrors** ends normally exactly when they all are there or are
added, and then it has made one request for each that was missing. -/
theorem validateMirrors_ok_iff (mirrors : List String) :
    Ends (mirrors.forM (validateMirror env)) w fun r t =>
      (r = .ok ⟨⟩ ↔ MirrorsGo env w.calls w.directory mirrors) ∧
      (r = .ok ⟨⟩ → t.calls = w.calls + additions w.directory mirrors) := by
  induction mirrors generalizing w with
  | nil => exact ⟨iff_of_true rfl ⟨List.forall_mem_nil _, fun k hk => absurd hk (Nat.not_lt_zero k)⟩,
      fun _ => rfl⟩
  | cons mirror mirrors ih =>
    simp only [List.forM, ends_bind]
    cases hsome : (w.directory.findGroup mirror).isSome with
    | true =>
      rw [ends_validateMirror_stored hsome, mirrorsGo_cons_stored hsome, additions_cons_stored hsome]
      exact ih
    | false =>
      rw [mirrorsGo_cons_missing hsome, additions_cons_missing hsome]
      by_cases hn : NamesBuiltIn env.ctx mirror
      · rw [ends_validateMirror_builtIn hsome hn]
        cases hfails : env.fails .ldap w.calls with
        | true =>
          rw [if_pos rfl]
          exact ⟨iff_of_false (fun h => of_error_eq_ok h) (fun h => absurd h.2.1 Bool.noConfusion),
            fun h => of_error_eq_ok h⟩
        | false =>
          rw [if_neg Bool.false_ne_true]
          refine ih.mono fun r t hend => ⟨?_, fun hok => ?_⟩
          · rw [hend.1]
            simp only [hn, true_and]
            rfl
          · rw [hend.2 hok]
            change w.calls + 1 + additions (addMirror w.directory mirror) mirrors = _
            omega
      · rw [ends_validateMirror_unknown hsome hn]
        exact ⟨iff_of_false (fun h => of_error_eq_ok h) fun h => hn h.1, fun h => of_error_eq_ok h⟩

/-- **What the loop adds**: nothing, unless the first mirror that is missing is added. -/
theorem validateMirrors_adds_iff (mirrors : List String) :
    Ends (mirrors.forM (validateMirror env)) w fun _ t =>
      (FirstAdded env w mirrors → ∃ dn, w.directory.groupAt dn = none ∧
        (t.directory.groupAt dn).isSome) ∧
      (¬ FirstAdded env w mirrors → t.directory = w.directory) := by
  induction mirrors with
  | nil =>
    refine ⟨?_, fun _ => rfl⟩
    rintro ⟨m, hm, -⟩
    exact absurd hm (Option.some_ne_none m).symm
  | cons mirror mirrors ih =>
    simp only [List.forM, ends_bind]
    cases hsome : (w.directory.findGroup mirror).isSome with
    | true =>
      have hfirst : FirstAdded env w (mirror :: mirrors) ↔ FirstAdded env w mirrors := by
        simp only [FirstAdded, List.find?_cons, ← Option.not_isSome, hsome, Bool.not_true]
      rw [ends_validateMirror_stored hsome, hfirst]
      exact ih
    | false =>
      have hfirst : FirstAdded env w (mirror :: mirrors) ↔
          NamesBuiltIn env.ctx mirror ∧ env.fails .ldap w.calls = false := by
        simp only [FirstAdded, List.find?_cons, ← Option.not_isSome, hsome, Bool.not_false,
          Option.some.injEq, exists_eq_left']
      rw [hfirst]
      by_cases hn : NamesBuiltIn env.ctx mirror
      · rw [ends_validateMirror_builtIn hsome hn]
        cases hfails : env.fails .ldap w.calls with
        | true => exact ⟨fun h => absurd h.2 Bool.noConfusion, fun _ => rfl⟩
        | false =>
          rw [if_neg Bool.false_ne_true]
          refine (validateMirrors_ends mirrors).mono fun r t hend => ⟨fun _ => ?_, fun h => ?_⟩
          · exact ⟨env.ctx.groupDN mirror, by simpa [Directory.findGroup] using hsome,
              findGroup_isSome_of_addsBuiltIn hend.1 (isSome_addMirror hn)⟩
          · exact absurd ⟨hn, rfl⟩ h
      · rw [ends_validateMirror_unknown hsome hn]
        exact ⟨fun h => absurd h.1 hn, fun _ => rfl⟩

end Mirrors

/-! ### The whole call -/

/-- The request passes the checks of `create` on a directory with its mirrors. -/
structure CreateChecks (request : AccountGroupRequest) (recipients : List String)
    (dir : Directory env.ctx) : Prop where
  notEmpty : request.hasMirror = true ∨ recipients ≠ []
  fresh : dir.findGroup (env.ctx.getName request) = none
  notUser : dir.findAccount (env.ctx.getName request) = none
  noCycle : createsCircularReference dir env.containsCircularReference (env.ctx.getName request)
    recipients = .ok false
  hasMembers : ∃ members, buildRecipientList dir env.stackDepth (newGroup env request) recipients true
    = .ok members ∧ members ≠ []

/-- What `create` needs to go through: the mirrors are there or are added, the request passes
the checks on the directory with them, and the directory takes the new group. -/
structure CreateGoes (env : Env) (w : World env.ctx) (request : AccountGroupRequest)
    (recipients : List String) : Prop where
  mirrors : MirrorsGo env w.calls w.directory request.getMirrorList
  checks : CreateChecks request recipients (request.getMirrorList.foldl addMirror w.directory)
  taken : env.fails .ldap (w.calls + additions w.directory request.getMirrorList) = false

/-- A member list with the mirrors starts from the resolved recipients. -/
theorem resolves_of_buildRecipientList {depth : ℕ} {g : AccountGroup} {recipients members : List String}
    {includeMirror : Bool} (h : buildRecipientList dir depth g recipients includeMirror = .ok members) :
    ∃ dns, recipients.mapM (findAccountOrGroupDN dir) = .ok dns := by
  obtain ⟨dns, hdns, -⟩ := exists_of_bind_eq_ok h
  exact ⟨dns, hdns⟩

/-- The `try` block of `create`, on a directory without the group. -/
theorem createGroup_ok_iff {request : AccountGroupRequest} (recipients : List String)
    (hfresh : w.directory.findGroup (env.ctx.getName request) = none) :
    Ends (createGroup env request recipients) w fun r t => ((∃ g, r = .ok g) ↔
      (∃ members, buildRecipientList w.directory env.stackDepth (newGroup env request) recipients true
        = .ok members ∧ members ≠ []) ∧ env.fails .ldap w.calls = false) ∧
      ((∃ g, r = .ok g) → t.calls = w.calls + 1) := by
  simp only [createGroup, ends_bind, ends_reads]
  cases heffective : buildRecipientList w.directory env.stackDepth (newGroup env request) recipients
    true with
  | error e => simp
  | ok effective =>
    dsimp only
    split_ifs with hempty
    · simp [List.isEmpty_iff.1 hempty]
    obtain ⟨dns, hdns⟩ := resolves_of_buildRecipientList heffective
    have hmembers : buildRecipientList w.directory env.stackDepth (newGroup env request) recipients
        false = .ok dns.dedup := by
      rw [buildRecipientList, hdns]
      rfl
    have hname : w.directory.findGroup (newGroup env request).name = none := by
      simpa [newGroup] using hfresh
    rw [List.isEmpty_iff] at hempty
    simp only [ends_bind, ends_reads, hmembers]
    rw [ldapaddGroup, ends_ldapRequest_iff]
    cases env.fails .ldap w.calls with
    | true => simp
    | false => simp [hname, hempty, World.onDirectory, World.called]

/-- **When `create` goes through**, and how many requests to the directory it has made then. -/
theorem create_ok_iff (request : AccountGroupRequest) (recipients : List String) :
    Ends (create env request recipients) w fun r t =>
      ((∃ g, r = .ok g) ↔ CreateGoes env w request recipients) ∧
      ((∃ g, r = .ok g) → t.calls
        = w.calls + additions w.directory request.getMirrorList + 1) := by
  simp only [create, ends_bind, ends_get]
  split_ifs with hexists
  · refine ⟨iff_of_false not_exists_error_eq_ok fun h => ?_,
      fun h => absurd h not_exists_error_eq_ok⟩
    have hstored := isSome_foldl_addMirror request.getMirrorList hexists
    rw [h.checks.fresh] at hstored
    exact absurd hstored Bool.false_ne_true
  simp only [validate, ends_bind]
  refine ((validateMirrors_ends _).and (validateMirrors_ok_iff _)).mono fun r t hend => ?_
  obtain ⟨⟨-, -, hdir⟩, hgo, hcalls⟩ := hend
  cases r with
  | error e =>
    exact ⟨iff_of_false not_exists_error_eq_ok fun h => of_error_eq_ok (hgo.2 h.mirrors),
      fun h => absurd h not_exists_error_eq_ok⟩
  | ok u =>
    obtain ⟨hdir, -⟩ := hdir rfl
    have hcalls := hcalls rfl
    simp only [ends_reads]
    cases hv : validateGroup env request recipients t.directory with
    | error e =>
      refine ⟨iff_of_false not_exists_error_eq_ok fun h => ?_,
        fun h => absurd h not_exists_error_eq_ok⟩
      have hchecks := h.checks
      rw [← hdir] at hchecks
      have hpasses := validateGroup_ok_iff (u := u).2
        ⟨hchecks.notEmpty, hchecks.fresh, hchecks.notUser, hchecks.noCycle⟩
      exact of_error_eq_ok (hv.symm.trans hpasses)
    | ok u =>
      obtain ⟨hpresent, hfresh, huser, hcycle⟩ := validateGroup_ok_iff.1 hv
      simp only [ends_attempt]
      refine (createGroup_ok_iff recipients hfresh).mono fun r v hend => ?_
      obtain ⟨h, hcall⟩ := hend
      have hgoes : (∃ g, r = .ok g) ↔ CreateGoes env w request recipients := by
        rw [h, hcalls]
        constructor
        · rintro ⟨hmembers, htaken⟩
          exact ⟨hgo.1 rfl, hdir ▸ ⟨hpresent, hfresh, huser, hcycle, hmembers⟩, htaken⟩
        · rintro ⟨-, hchecks, htaken⟩
          rw [← hdir] at hchecks
          exact ⟨hchecks.hasMembers, htaken⟩
      rw [← hgoes]
      cases r with
      | ok g => exact ⟨iff_of_true ⟨g, rfl⟩ ⟨g, rfl⟩, fun _ => hcalls ▸ hcall ⟨g, rfl⟩⟩
      | error e =>
        cases e <;> exact ⟨iff_of_false not_exists_error_eq_ok
          fun h => absurd h not_exists_error_eq_ok, fun h => absurd h not_exists_error_eq_ok⟩

/-- **What a `create` that throws leaves**: the groups as they were, unless the name was free and
the first missing mirror was added. -/
theorem create_error_adds_iff (request : AccountGroupRequest) (recipients : List String) :
    Ends (create env request recipients) w fun r t => ∀ e, r = .error e →
      ((∀ dn, t.directory.groupAt dn = w.directory.groupAt dn) ↔
        ((w.directory.findGroup (env.ctx.getName request)).isSome ∨
          ¬ FirstAdded env w request.getMirrorList)) := by
  simp only [create, ends_bind, ends_get]
  split_ifs with hexists
  · exact fun e _ => iff_of_true (fun dn => rfl) (Or.inl hexists)
  simp only [validate, ends_bind, hexists, Bool.false_eq_true, false_or]
  refine (validateMirrors_adds_iff _).mono fun r t hend => ?_
  -- the steps after the mirrors change nothing when they throw
  have hleft : ∀ v : World env.ctx, v.directory = t.directory →
      ((∀ dn, v.directory.groupAt dn = w.directory.groupAt dn) ↔
        ¬ FirstAdded env w request.getMirrorList) := by
    intro v hv
    rw [hv]
    constructor
    · intro hsame hfirst
      obtain ⟨dn, hnone, hsome⟩ := hend.1 hfirst
      rw [hsame, hnone] at hsome
      exact absurd hsome Bool.false_ne_true
    · exact fun hfirst dn => by rw [hend.2 hfirst]
  cases r with
  | error e => exact fun _ _ => hleft t rfl
  | ok u =>
    simp only [ends_reads]
    cases validateGroup env request recipients t.directory with
    | error e => exact fun _ _ => hleft t rfl
    | ok u =>
      simp only [ends_attempt]
      refine (createGroup_returns request recipients).mono fun r v h => ?_
      cases r with
      | ok g => exact fun e he => of_error_eq_ok he.symm
      | error e => cases e <;> exact fun _ _ => hleft v h.directory

/-- A `create` that throws leaves every group as it was. -/
def CreateAllOrNothing (env : Env) (w : World env.ctx) (request : AccountGroupRequest)
    (recipients : List String) : Prop :=
  Ends (create env request recipients) w fun r t => ∀ e, r = .error e →
    ∀ dn, t.directory.groupAt dn = w.directory.groupAt dn

/-- **All or nothing, and when.**  A `create` that throws leaves every group as it was exactly
when the name is taken, the first missing mirror is not added, or nothing after the mirrors is
refused. -/
theorem create_allOrNothing_iff (env : Env) (w : World env.ctx) (request : AccountGroupRequest)
    (recipients : List String) :
    CreateAllOrNothing env w request recipients ↔
      (w.directory.findGroup (env.ctx.getName request)).isSome ∨
      ¬ FirstAdded env w request.getMirrorList ∨ CreateGoes env w request recipients := by
  have hok : (∃ g, (exec (create env request recipients) w).1 = .ok g) ↔
      CreateGoes env w request recipients := (create_ok_iff request recipients).1
  have hadds : ∀ e, (exec (create env request recipients) w).1 = .error e →
      ((∀ dn, (exec (create env request recipients) w).2.directory.groupAt dn
        = w.directory.groupAt dn) ↔ ((w.directory.findGroup (env.ctx.getName request)).isSome ∨
          ¬ FirstAdded env w request.getMirrorList)) := create_error_adds_iff request recipients
  rw [← or_assoc, ← hok, CreateAllOrNothing, Ends]
  cases hend : (exec (create env request recipients) w).1 with
  | ok g => exact iff_of_true (fun e he => of_error_eq_ok he.symm) (Or.inr ⟨g, rfl⟩)
  | error e =>
    rw [or_iff_left not_exists_error_eq_ok, ← hadds e hend]
    exact ⟨fun h => h e rfl, fun h _ _ => h⟩

/-- A new group `dev` that mirrors `cloudos-users`, for somebody who does not exist. -/
def devOfNobody : AccountGroupRequest := { name := "dev", mirrors := some "cloudos-users" }

/-- **A group left behind.**  On the empty store the request is refused, as its recipient is
unknown, and `cloudos-users` is stored. -/
theorem create_leaves_builtIn :
    ¬ CreateAllOrNothing .mock {} devOfNobody ["nobody"] := by
  intro h
  have hthrows : ∃ e, (exec (create .mock devOfNobody ["nobody"]) {}).1 = .error e := by
    cases hend : (exec (create .mock devOfNobody ["nobody"]) {}).1 with
    | error e => exact ⟨e, rfl⟩
    | ok g =>
      have hok : (exec (create .mock devOfNobody ["nobody"]) {}).1.toOption.isNone := by
        decide +kernel
      rw [hend] at hok
      exact absurd hok Bool.false_ne_true
  obtain ⟨e, he⟩ := hthrows
  have hgroup := h e he (Env.mock.ctx.groupDN "cloudos-users")
  have hstored : ((exec (create .mock devOfNobody ["nobody"]) {}).2.directory.groupAt
      (Env.mock.ctx.groupDN "cloudos-users")).isSome := by decide +kernel
  rw [hgroup] at hstored
  exact absurd hstored Bool.false_ne_true

end Groups

end CloudOs

/-
# What a setup that fails leaves

`setup` creates the admin account, updates it, and then finishes: the time zone, the session, the
key file and the apps.  Only a failed update is undone, by `AccountDAO.delete`, and that leaves the
account's DN in the built-in groups.

So a setup that answers with an error leaves no trace of the account exactly in these cases
(`leavesNoTrace_iff`):

* it ends before the account is added,
* or it goes through,
* or the update fails, the entry is deleted, and the built-in groups listed the DN before.
-/

import CloudOs.Accounts.Undone
import CloudOs.Setup.Once

namespace CloudOs

open Prog AccountGroup AccountDAO Groups SetupResource Accounts

namespace Setup

variable {env : Env} {w : World env.ctx}

/-! ### The end of a setup -/

/-- The directory is left as it was. -/
def SameDirectory {ctx : LdapContext} (w t : World ctx) : Prop := t.directory = w.directory

instance {ctx : LdapContext} : Std.Refl (@SameDirectory ctx) := ⟨fun _ => rfl⟩

instance {ctx : LdapContext} : IsTrans (World ctx) SameDirectory :=
  ⟨fun _ _ _ h h' => h'.trans h⟩

/-- What `setup` does once the account is updated. -/
def finish (env : Env) (request : SetupRequest) (backupKey : String) (account : Account) :
    Server env Response := do
  setTimezone env request
  let sessionId ← createSession env account
  SetupSettingsSource.firstTimeSetupCompleted env
  call env .apps
  return .ok (.setup sessionId account backupKey)

/-- What `setup` does once the account is created. -/
def activate (env : Env) (request : SetupRequest) (backupKey : String) (request' account : Account) :
    Server env Response := do
  let now ← draw env
  let account := activated request' account (env.currentTimeMillis now)
  match ← attempt (AccountDAO.update env account) with
  | .error _ => do
    AccountDAO.delete env account.name
    return .serverError
  | .ok _ => finish env request backupKey account

theorem setup_eq (request : SetupRequest) : setup env request = (do
    let backupKey ← reads fun w => SetupSettingsSource.validateFirstTimeSetup env request w.keyFile
    let exist ← reads fun w => adminsExist env w.directory
    if exist then return .invalid "\x7berr.setup.adminsExist\x7d"
    else
      match ← attempt (AccountDAO.create env (request.setAdmin true)) with
      | .error _ => return .serverError
      | .ok (request', account) => activate env request backupKey request' account) := rfl

/-- The message that sets the time zone. -/
def timezoneCalls (request : SetupRequest) : List (Option External) :=
  if request.systemTimeZone.isSome then [some .rooty] else []

/-- The calls of `finish`; an error of the key file is not noticed. -/
def finishCalls (request : SetupRequest) : List (Option External) :=
  timezoneCalls request ++ [some .redis, none, some .apps]

/-- The time zone of the request, if it has one, is known. -/
def KnowsTimezone (env : Env) (request : SetupRequest) : Prop :=
  ∀ timezone ∈ request.systemTimeZone, (env.linuxName timezone).isSome = true

theorem makes_setTimezone {request : SetupRequest} (hknows : KnowsTimezone env request) :
    Makes (setTimezone env request) w (timezoneCalls request) ⟨⟩ w.directory := by
  unfold setTimezone timezoneCalls
  cases hzone : request.systemTimeZone with
  | none => exact Makes.pure _
  | some timezone =>
    obtain ⟨linuxName, hname⟩ := Option.isSome_iff_exists.1 (hknows timezone hzone)
    simp only [hname]
    exact Makes.writeRooty _

/-- A time zone that is not known ends the request. -/
theorem setTimezone_throws {request : SetupRequest} (hknows : ¬ KnowsTimezone env request) :
    setTimezone env request = throw .nullPointer := by
  unfold setTimezone
  cases hzone : request.systemTimeZone with
  | none => exact absurd (by simp [KnowsTimezone, hzone]) hknows
  | some timezone =>
    cases hname : env.linuxName timezone with
    | none => simp only [hname]
    | some linuxName =>
      refine absurd (fun timezone' h => ?_) hknows
      obtain rfl := Option.some.inj (hzone.symm.trans h)
      rw [hname]
      rfl

theorem makes_createSession (account : Account) :
    Makes (createSession env account) w [some .redis] (env.sessionId w.calls) w.directory :=
  Makes.get_bind ((Makes.call .redis).bind fun _ _ hdir => hdir ▸ (Makes.modify rfl rfl).bind_pure rfl)

theorem makes_firstTimeSetupCompleted :
    Makes (SetupSettingsSource.firstTimeSetupCompleted env) w [none] ⟨⟩ w.directory := by
  unfold Makes
  simp only [SetupSettingsSource.firstTimeSetupCompleted, ends_bind, ends_attempt, ends_call,
    ends_modify]
  split_ifs <;> exact ⟨fun _ => ⟨rfl, rfl, rfl⟩, fun h => absurd trivial h⟩

theorem makes_finish {request : SetupRequest} (hknows : KnowsTimezone env request)
    (backupKey : String) (account : Account) :
    Makes (finish env request backupKey account) w (finishCalls request)
      (.ok (.setup (env.sessionId (w.calls + (timezoneCalls request).length)) account backupKey))
      w.directory := by
  refine (makes_setTimezone hknows).bind fun t hcalls hdir => ?_
  rw [← hcalls, ← hdir]
  refine (makes_createSession account).bind fun u _ hu => ?_
  refine makes_firstTimeSetupCompleted.bind fun v _ hv => ?_
  rw [← hu, ← hv]
  exact (Makes.call .apps).bind_pure rfl

theorem respects_createSession (account : Account) :
    Respects SameDirectory (createSession env account) := by
  intro w
  rw [ends_createSession]
  split_ifs <;> rfl

theorem sameDirectory_finish (request : SetupRequest) (backupKey : String) (account : Account) :
    Respects SameDirectory (finish env request backupKey account) := by
  have hcall : ∀ sys, Respects SameDirectory (call env sys) := fun _ _ => rfl
  refine Respects.bind (fun w => (respects_setTimezone request w).mono fun _ _ h => h.directory) fun _ => ?_
  refine Respects.bind (respects_createSession account) fun _ => ?_
  refine Respects.bind (fun w => directory_firstTimeSetupCompleted w) fun _ => ?_
  exact (hcall .apps).bind fun _ => Respects.pure _

/-- The time zone is known, and every call of `finish` goes through, its first being number `n`. -/
def FinishGoes (env : Env) (n : ℕ) (request : SetupRequest) : Prop :=
  KnowsTimezone env request ∧ CallsGo env n (finishCalls request)

/-- **`finish`** writes nothing in the directory; it answers with OK if it goes through, and throws
otherwise. -/
theorem finish_ends (request : SetupRequest) (backupKey : String) (account : Account) :
    Ends (finish env request backupKey account) w fun r t => t.directory = w.directory ∧
      (FinishGoes env w.calls request → ∃ body, r = .ok (.ok body)) ∧
      (¬ FinishGoes env w.calls request → ∃ e, r = .error e) := by
  have hsame := sameDirectory_finish request backupKey account w
  by_cases hknows : KnowsTimezone env request
  · refine (hsame.and (makes_finish hknows backupKey account)).mono fun r t hend => ⟨hend.1, ?_, ?_⟩
    · exact fun h => ⟨_, (hend.2.1 h.2).1⟩
    · exact fun h => hend.2.2 fun hgo => h ⟨hknows, hgo⟩
  · rw [finish, setTimezone_throws hknows, ends_bind, ends_throw]
    exact ⟨rfl, fun h => absurd h.1 hknows, fun _ => ⟨_, rfl⟩⟩

/-! ### The whole of it -/

/-- The account that `setup` asks `create` for. -/
def adminOf (request : SetupRequest) : Account := request.setAdmin true

/-- The guards of `setup` let the request pass. -/
def Starts (env : Env) (w : World env.ctx) (request : SetupRequest) : Prop :=
  (∃ backupKey, SetupSettingsSource.validateFirstTimeSetup env request w.keyFile = .ok backupKey) ∧
    adminsExist env w.directory = .ok false

/-- How many calls `setup` has made when the account is created. -/
def callsAfterCreate (w : World env.ctx) (request : SetupRequest) : ℕ :=
  w.calls + (addCalls w.directory (adminOf request)).length

/-- The account is added, and everything after that goes through. -/
structure GoesThrough (env : Env) (w : World env.ctx) (request : SetupRequest) : Prop where
  creates : CallsGo env w.calls (addCalls w.directory (adminOf request))
  updates : env.fails .ldap (callsAfterCreate w request + 1) = false
  finishes : FinishGoes env (callsAfterCreate w request + 2) request

/-- The update fails, the entry is deleted, and its DN was in the built-in groups before. -/
structure IsUndone (env : Env) (w : World env.ctx) (request : SetupRequest) : Prop where
  creates : CallsGo env w.calls (addCalls w.directory (adminOf request))
  updateFails : env.fails .ldap (callsAfterCreate w request + 1) = true
  deletes : env.fails .ldap (callsAfterCreate w request + 2) = false
  listed : InGroup w.directory DEFAULT_GROUP_NAME (env.ctx.userDN request.name) ∧
    InGroup w.directory ADMIN_GROUP_NAME (env.ctx.userDN request.name)

/-- An answer that is an error, or an exception. -/
def IsError (r : Except Exn Response) : Prop := ∀ body, r ≠ .ok (.ok body)

/-- A setup that answers with an error, or throws, leaves no trace of its account. -/
def SetupLeavesNoTrace (env : Env) (w : World env.ctx) (request : SetupRequest) : Prop :=
  Ends (setup env request) w fun r t => IsError r → NoTrace request.name w t

/-- `update` of a stored account that it does not suspend. -/
theorem update_of_stored {e account : Account} (he : w.directory.findAccount account.name = some e)
    (hkeeps : ¬ Suspends e account) : Ends (AccountDAO.update env account) w fun r t =>
      t.calls = w.calls + 1 ∧
      (env.fails .ldap w.calls = true → (∃ x, r = .error x) ∧ t.directory = w.directory) ∧
      (env.fails .ldap w.calls = false → (∃ a, r = .ok a) ∧
        t.directory = w.directory.putAccount (e.merge account)) := by
  have hfound : (w.directory.findAccount (e.merge account).name).isSome = true := by
    rw [Account.merge_name, Directory.findAccount_name he]
    rfl
  simp only [AccountDAO.update, ends_bind, ends_get, he]
  rw [if_neg (by simpa [Suspends] using hkeeps), ends_bind, ends_ldapmodifyAccount_iff hfound]
  cases env.fails .ldap w.calls with
  | true => exact ⟨rfl, fun _ => ⟨⟨_, rfl⟩, rfl⟩, fun h => absurd h Bool.noConfusion⟩
  | false => exact ⟨rfl, fun h => absurd h Bool.noConfusion, fun _ => ⟨⟨_, rfl⟩, rfl⟩⟩

/-- `delete` of a stored account. -/
theorem delete_of_stored {e : Account} {name : String} (he : w.directory.findAccount name = some e) :
    Ends (AccountDAO.delete env name) w fun _ t =>
      (env.fails .ldap w.calls = true → t.directory = w.directory) ∧
      (env.fails .ldap w.calls = false →
        t.directory = w.directory.eraseAccount (env.ctx.userDN name)) := by
  simp only [AccountDAO.delete, ends_bind, ends_get, he]
  rw [ends_attempt, ldapdeleteAccount, ends_ldapRequest_iff, Directory.userDN_of_accountAt he]
  cases env.fails .ldap w.calls with
  | true => exact ⟨fun _ => rfl, fun h => absurd h Bool.noConfusion⟩
  | false =>
    rw [if_neg (not_or.2 ⟨Bool.false_ne_true, Bool.false_ne_true⟩)]
    refine ((respects_writeRooty _).bind fun _ => respects_broadcast _ _ _) _ |>.mono fun _ u hu => ?_
    exact ⟨fun h => absurd h Bool.noConfusion, fun _ => hu.directory⟩

/-- The directory with the new account, which is enrolled. -/
def enrolledDirectory (w : World env.ctx) (request : SetupRequest) : Directory env.ctx :=
  enrolledAll (w.directory.putAccount (created env w.calls (adminOf request)))
    (created env w.calls (adminOf request))

theorem adminOf_name (request : SetupRequest) : (adminOf request).name = request.name :=
  Account.setAdmin_name _ _

theorem adminOf_isAdmin (request : SetupRequest) : (adminOf request).isAdmin = true :=
  Account.setAdmin_isAdmin _ _

/-- Enrolling writes no account. -/
theorem accountAt_enrolledAll (dir : Directory env.ctx) (account : Account) (dn : String) :
    (enrolledAll dir account).accountAt dn = dir.accountAt dn := by
  unfold enrolledAll
  dsimp only
  split_ifs <;> rfl

/-- The entry that `create` wrote. -/
theorem findAccount_enrolledDirectory (w : World env.ctx) (request : SetupRequest) :
    (enrolledDirectory w request).findAccount request.name
      = some (created env w.calls (adminOf request)).stored := by
  have hput := Directory.findAccount_putAccount w.directory (created env w.calls (adminOf request))
  rw [created_name, adminOf_name] at hput
  rw [enrolledDirectory, Directory.findAccount, accountAt_enrolledAll]
  exact hput

theorem inGroup_congr {dir : Directory env.ctx} {n n' dn : String}
    (h : env.ctx.groupDN n = env.ctx.groupDN n') : InGroup dir n dn ↔ InGroup dir n' dn := by
  rw [InGroup, InGroup, Directory.findGroup, Directory.findGroup, h]

/-- What is left when `create` went through and the entry was deleted again. -/
theorem noTrace_undone_iff {t : World env.ctx} {request : SetupRequest}
    (hfree : w.directory.findAccount request.name = none)
    (ht : t.directory = (enrolledDirectory w request).eraseAccount (env.ctx.userDN request.name)) :
    NoTrace request.name w t ↔ InGroup w.directory DEFAULT_GROUP_NAME (env.ctx.userDN request.name) ∧
      InGroup w.directory ADMIN_GROUP_NAME (env.ctx.userDN request.name) := by
  have hlisted : ∀ n, InGroup t.directory n (env.ctx.userDN request.name) ↔
      InGroup w.directory n (env.ctx.userDN request.name) ∨
        env.ctx.groupDN n = env.ctx.groupDN DEFAULT_GROUP_NAME ∨
        env.ctx.groupDN n = env.ctx.groupDN ADMIN_GROUP_NAME := by
    intro n
    have henrolled := @inGroup_enrolledAll env
      (w.directory.putAccount (created env w.calls (adminOf request)))
      (created env w.calls (adminOf request)) n (env.ctx.userDN request.name)
    rw [(madeFrom_created _ _).isAdmin, adminOf_isAdmin, created_name, adminOf_name] at henrolled
    simp only [true_and] at henrolled
    rw [ht]
    exact henrolled
  constructor
  · intro htrace
    exact ⟨(htrace.listed _).1 ((hlisted _).2 (Or.inr (Or.inl rfl))),
      (htrace.listed _).1 ((hlisted _).2 (Or.inr (Or.inr rfl)))⟩
  · rintro ⟨husers, hadmins⟩
    refine ⟨?_, fun n => ?_⟩
    · rw [ht, hfree, Directory.findAccount, Directory.accountAt_eraseAccount, if_pos rfl]
    · rw [hlisted]
      refine ⟨?_, Or.inl⟩
      rintro (h | hdn | hdn)
      · exact h
      · exact (inGroup_congr hdn).2 husers
      · exact (inGroup_congr hdn).2 hadmins

/-- A state whose directory has an entry under a name that was free. -/
theorem not_noTrace_of_entry {t : World env.ctx} {name : String} {e : Account}
    (hfree : w.directory.findAccount name = none) (he : t.directory.findAccount name = some e) :
    ¬ NoTrace name w t := fun htrace =>
  absurd (he.symm.trans (htrace.entry.trans hfree)) (Option.some_ne_none e)

@[simp] theorem activated_isSuspended (request account : Account) (now : ℕ) :
    (activated request account now).isSuspended = account.isSuspended := by
  simp [activated, Account.setEmailVerified, Account.setLastLogin, Account.isSuspended]

/-- **After the account is created.**  What follows leaves no trace exactly when it goes through, or
the entry is deleted and the groups listed it before. -/
theorem activate_iff {t : World env.ctx} {request : SetupRequest} (backupKey : String)
    (request' : Account) (hfree : w.directory.findAccount request.name = none)
    (ht : t.directory = enrolledDirectory w request) :
    Ends (activate env request backupKey request' (created env w.calls (adminOf request))) t
        (fun r u => IsError r → NoTrace request.name w u) ↔
      (env.fails .ldap (t.calls + 1) = false ∧
        FinishGoes env (t.calls + 2) request) ∨
      (env.fails .ldap (t.calls + 1) = true ∧ env.fails .ldap (t.calls + 2) = false ∧
        InGroup w.directory DEFAULT_GROUP_NAME (env.ctx.userDN request.name) ∧
        InGroup w.directory ADMIN_GROUP_NAME (env.ctx.userDN request.name)) := by
  have hentry := findAccount_enrolledDirectory w request
  simp only [activate, ends_bind, ends_draw, ends_attempt]
  generalize haccount : activated request' (created env w.calls (adminOf request))
    (env.currentTimeMillis t.calls) = account
  have hname : account.name = request.name := by
    rw [← haccount, activated_name, created_name, adminOf_name]
  have hkeeps : ¬ Suspends (created env w.calls (adminOf request)).stored account := by
    rintro ⟨hactive, hsuspended⟩
    rw [← haccount, activated_isSuspended] at hsuspended
    exact Bool.false_ne_true (hactive.symm.trans hsuspended)
  have hstored : t.called.directory.findAccount account.name
      = some (created env w.calls (adminOf request)).stored := by
    rw [World.called_directory, ht, hname, hentry]
  refine ends_iff ((update_of_stored hstored hkeeps).mono fun r u hend => ?_)
  obtain ⟨hcalls, hfail, hgo⟩ := hend
  have hnext : u.calls = t.calls + 2 := hcalls
  cases hfails : env.fails .ldap (t.calls + 1) with
  | true =>
    obtain ⟨⟨x, rfl⟩, hu⟩ := hfail hfails
    have hstill : u.directory.findAccount account.name
        = some (created env w.calls (adminOf request)).stored := by rw [hu, hstored]
    simp only [ends_bind, ends_pure, Bool.true_eq_false, false_and, false_or, true_and]
    refine ends_iff ((delete_of_stored hstill).mono fun r v hdelete => ?_)
    have herror : ∀ r' : Except Exn Response, IsError r' →
        ((IsError r' → NoTrace request.name w v) ↔ NoTrace request.name w v) :=
      fun r' hr' => ⟨fun h => h hr', fun h _ => h⟩
    rw [hnext] at hdelete
    have htrace : NoTrace request.name w v ↔ env.fails .ldap (t.calls + 2) = false ∧
        InGroup w.directory DEFAULT_GROUP_NAME (env.ctx.userDN request.name) ∧
        InGroup w.directory ADMIN_GROUP_NAME (env.ctx.userDN request.name) := by
      cases hfails' : env.fails .ldap (t.calls + 2) with
      | true =>
        refine iff_of_false (not_noTrace_of_entry hfree (e := (created env w.calls
          (adminOf request)).stored) ?_) fun h => Bool.noConfusion h.1
        rw [hdelete.1 hfails', ← hname, hstill]
      | false =>
        rw [and_iff_right rfl]
        refine noTrace_undone_iff hfree ?_
        rw [hdelete.2 hfails', hu, World.called_directory, ht, hname]
    rw [← htrace]
    cases r with
    | ok x => exact herror _ fun body h => Response.noConfusion (Except.ok.inj h)
    | error x => exact herror _ fun body h => of_error_eq_ok h
  | false =>
    obtain ⟨⟨a, rfl⟩, hu⟩ := hgo hfails
    simp only [true_and, Bool.false_eq_true, false_and, or_false]
    refine ends_iff ((finish_ends (w := u) request backupKey account).mono fun r v hfinish => ?_)
    obtain ⟨hv, hgoes, hthrows⟩ := hfinish
    rw [hnext] at hgoes hthrows
    by_cases hfinishes : FinishGoes env (t.calls + 2) request
    · obtain ⟨body, rfl⟩ := hgoes hfinishes
      exact iff_of_true (fun h => absurd rfl (h _)) hfinishes
    · obtain ⟨x, rfl⟩ := hthrows hfinishes
      refine iff_of_false (fun h => ?_) hfinishes
      have hentry' := Directory.findAccount_putAccount t.called.directory
        ((created env w.calls (adminOf request)).stored.merge account)
      have hmerged : ((created env w.calls (adminOf request)).stored.merge account).name
          = request.name := by
        rw [Account.merge_name, Account.stored_name, created_name, adminOf_name]
      rw [← hu, hmerged] at hentry'
      rw [← hv] at hentry'
      exact not_noTrace_of_entry hfree hentry' (h fun body h => of_error_eq_ok h)

/-- **What a setup leaves, and when.** -/
theorem setup_leavesNoTrace_iff (hrefuses : env.ldapaddReplaces = false) (w : World env.ctx)
    (request : SetupRequest) :
    SetupLeavesNoTrace env w request ↔
      ¬ Starts env w request ∨
      ¬ AddGoes env (afterPassword w.calls (adminOf request) + 1) w.directory request.name ∨
      GoesThrough env w request ∨ IsUndone env w request := by
  unfold SetupLeavesNoTrace
  rw [setup_eq]
  by_cases hstarts : Starts env w request
  · rw [or_iff_right (not_not.2 hstarts)]
    obtain ⟨⟨backupKey, hkey⟩, hexist⟩ := hstarts
    simp only [ends_bind, ends_reads, hkey, hexist, Bool.false_eq_true, if_false, ends_attempt]
    by_cases hgoes : AddGoes env (afterPassword w.calls (adminOf request) + 1) w.directory request.name
    · have hfree := free_of_addGoes hrefuses hgoes
      have hgoes' : AddGoes env (afterPassword w.calls (adminOf request) + 1) w.directory
          (adminOf request).name := by rwa [adminOf_name]
      rw [or_iff_right (not_not.2 hgoes)]
      refine ends_iff ((Ends.and (create_creates (adminOf request))
        (makes_create hgoes'.2)).mono fun r t hend => ?_)
      obtain ⟨hcreates, hok, herror⟩ := hend
      by_cases hadds : CallsGo env w.calls (addCalls w.directory (adminOf request))
      · obtain ⟨rfl, hcalls, hdir⟩ := hok hadds
        have hafter : t.calls = callsAfterCreate w request := hcalls
        rw [activate_iff backupKey _ hfree hdir, hafter]
        refine or_congr ⟨fun h => ⟨hadds, h.1, h.2⟩, fun h => ⟨h.updates, h.finishes⟩⟩ ?_
        exact ⟨fun h => ⟨hadds, h.1, h.2.1, h.2.2⟩, fun h => ⟨h.updateFails, h.deletes, h.listed⟩⟩
      · obtain ⟨e, rfl⟩ := herror hadds
        refine iff_of_false (fun h => ?_) ?_
        · rcases hcreates with ⟨hnot, -⟩ | ⟨-, hadded, -⟩
          · exact hnot hgoes'
          · have htrace := not_noTrace_of_added hadded (by rwa [created_name, adminOf_name])
            rw [created_name, adminOf_name] at htrace
            exact htrace (h fun body hbody => Response.noConfusion (Except.ok.inj hbody))
        · rintro (h | h)
          · exact hadds h.creates
          · exact hadds h.creates
    · refine iff_of_true ?_ (Or.inl hgoes)
      refine (create_creates (adminOf request)).mono fun r t hend => ?_
      rw [adminOf_name] at hend
      rcases hend with ⟨-, ⟨e, rfl⟩, hsame⟩ | ⟨hadds, -⟩
      · exact fun _ => .of_directory hsame.directory
      · exact absurd hadds hgoes
  · refine iff_of_true ?_ (Or.inl hstarts)
    rw [ends_bind, ends_reads]
    cases hkey : SetupSettingsSource.validateFirstTimeSetup env request w.keyFile with
    | error e => exact fun _ => .of_directory rfl
    | ok backupKey =>
      simp only [ends_bind, ends_reads]
      cases hexist : adminsExist env w.directory with
      | error e => exact fun _ => .of_directory rfl
      | ok exist =>
        cases exist with
        | true => exact fun _ => .of_directory rfl
        | false => exact absurd ⟨⟨backupKey, hkey⟩, hexist⟩ hstarts

/-- **All or nothing, and when.**  A `create` that throws leaves no trace of the account exactly when
the entry was refused or every call after it goes through; a setup that answers with an error
leaves none exactly when it ends before the account is added, goes through, or deletes an entry
whose DN the built-in groups listed before. -/
theorem leavesNoTrace_iff (env : Env) (hrefuses : env.ldapaddReplaces = false) (w : World env.ctx) :
    (∀ request, CreateLeavesNoTrace env w request ↔
      ¬ AddGoes env (afterPassword w.calls request + 1) w.directory request.name ∨
      CallsGo env (afterPassword w.calls request + 2) (createCalls w.directory request)) ∧
    ∀ request, SetupLeavesNoTrace env w request ↔
      ¬ Starts env w request ∨
      ¬ AddGoes env (afterPassword w.calls (adminOf request) + 1) w.directory request.name ∨
      GoesThrough env w request ∨ IsUndone env w request :=
  ⟨create_leavesNoTrace_iff hrefuses w, setup_leavesNoTrace_iff hrefuses w⟩

/-- A server that was never set up, in any layout. -/
def neverSetUp (ctx : LdapContext) : World ctx where
  keyFile := .settings
    { secret := "key", email := "root@example.com", passwordHash := "pw", backupKey := "b" }

/-- The setup of a server in the time zone that the mock server knows. -/
def setupRequest : SetupRequest := { twoRequests true with systemTimeZone := some 0 }

theorem leavesNoTrace_mock :
    CreateLeavesNoTrace .mock (neverSetUp Env.mock.ctx) (Account.new "alice") ∧
      SetupLeavesNoTrace .mock (neverSetUp Env.mock.ctx) setupRequest := by
  have hboth := leavesNoTrace_iff .mock rfl (neverSetUp Env.mock.ctx)
  have hknows : KnowsTimezone .mock setupRequest := fun timezone h => by
    obtain rfl := Option.some.inj h
    rfl
  have hsetup : GoesThrough .mock (neverSetUp Env.mock.ctx) setupRequest :=
    ⟨by decide +kernel, rfl, hknows, by decide +kernel⟩
  exact ⟨(hboth.1 _).2 (Or.inr (by decide +kernel)), (hboth.2 _).2 (Or.inr (Or.inr (Or.inl hsetup)))⟩

/-- The mock server when no event can be sent. -/
def withoutEvents : Env := { Env.mock with fails := fun sys _ => sys == .rooty }

/-- The mock server when the tenth call to the directory fails. -/
def failsOnUpdate : Env := { Env.mock with fails := fun sys n => sys == .ldap && n == 9 }

/-- **Traces of what failed.**  A `create` whose event cannot be sent leaves its account; and a setup
whose update fails deletes the account and leaves its DN in the built-in groups. -/
theorem leaves_trace :
    ¬ CreateLeavesNoTrace withoutEvents (neverSetUp withoutEvents.ctx) (Account.new "alice") ∧
      ¬ SetupLeavesNoTrace failsOnUpdate (neverSetUp failsOnUpdate.ctx) (twoRequests true) := by
  constructor
  · intro h
    rcases (create_leavesNoTrace_iff rfl _ _).1 h with hrefused | hgoes
    · exact hrefused ⟨by decide, by decide +kernel⟩
    · exact absurd hgoes (by decide +kernel)
  · intro h
    rcases (setup_leavesNoTrace_iff rfl _ _).1 h with hstops | hrefused | hgoes | hundone
    · exact hstops ⟨⟨"b", by decide +kernel⟩, by decide +kernel⟩
    · exact hrefused ⟨by decide +kernel, by decide +kernel⟩
    · exact absurd hgoes.updates (by decide +kernel)
    · exact absurd hundone.listed.1 (by
        rintro ⟨g, hg, -⟩
        exact absurd hg (Option.some_ne_none g).symm)

end Setup

end CloudOs

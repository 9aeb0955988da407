/-
# Sessions and the directory

A session keeps a whole copy of its account, and `isAdmin()` is asked of the copy.
The copy is meant to say what the directory says: the account exists, is not
suspended, and has the same admin flag.

`update` touches the copies in two ways.  A suspension removes the sessions of
the uuid that the entry has afterwards, and every other update puts the caller's
own copy back as it was read.  No method takes a changed admin flag to the
copies, and `delete` leaves the sessions of the account open.
-/

import CloudOs.Resources.AccountsWrites

namespace CloudOs

open Prog AccountsResource

namespace Accounts

/-- A login, or a request of a session that changes what sessions rest on. -/
inductive SessionRequest
  | login (request : LoginRequest)
  | update (apiKey name : String) (request : Account)
  | delete (apiKey name : String)

/-- The state after it, however it ends. -/
def SessionRequest.step (env : Env) (w : World env.ctx) : SessionRequest → World env.ctx
  | .login request => after (AccountsResource.login env request) w
  | .update apiKey name request => AccountsResource.step env apiKey w (.update name request)
  | .delete apiKey name => AccountsResource.step env apiKey w (.delete name)

variable {env : Env}

/-- The session's copy says what the directory says. -/
def Current (dir : Directory env.ctx) (s : Account) : Prop :=
  ∃ e, dir.findAccount s.name = some e ∧ e.isSuspended = false ∧ e.isAdmin = s.isAdmin

/-- **Session authority follows the store.** -/
def SessionsCurrent (w : World env.ctx) : Prop :=
  ∀ k s, w.sessions k = some s → Current w.directory s

/-- No session is left with a copy that the write makes stale.

* A login is accepted for an account that is not suspended.
* An update that is to be written and suspends its entry leaves the entry the uuid that the
  sessions of the account have; one that does not suspend sets no other admin flag than theirs.
* An account that is deleted has no session. -/
def KeepsSessions (w : World env.ctx) : SessionRequest → Prop
  | .login request => ∀ e, LoginPasses w request e → e.isSuspended = false
  | .update apiKey name request => ∀ account e, w.directory.findAccount request.name = some e →
      UpdatePasses w apiKey name request account (AccountDAO.UpdateGoes env · e request) →
      ∀ k s, w.sessions k = some s → env.ctx.userDN s.name = env.ctx.userDN request.name →
        if request.isSuspended then request.getUuid.or e.getUuid = s.getUuid
        else ((asked account request).getSingle .admin).isSome →
          (asked account request).isAdmin = s.isAdmin
  | .delete apiKey name => ∀ admin d, DeletePasses w apiKey name admin →
      w.directory.findAccount name = some d → DeleteGoes env w.calls d →
      ∀ k s, w.sessions k = some s → env.ctx.userDN s.name ≠ env.ctx.userDN name

/-- A copy stays current when its entry keeps its flags. -/
theorem Current.putAccount {dir : Directory env.ctx} {s a : Account} (h : Current dir s)
    (hkeeps : ∀ e, dir.findAccount s.name = some e →
      env.ctx.userDN s.name = env.ctx.userDN a.name → e.isSuspended = false →
      e.isAdmin = s.isAdmin → a.isSuspended = false ∧ a.isAdmin = s.isAdmin) :
    Current (dir.putAccount a) s := by
  obtain ⟨e, he, hsuspended, hadmin⟩ := h
  by_cases hdn : env.ctx.userDN s.name = env.ctx.userDN a.name
  · obtain ⟨hsuspended', hadmin'⟩ := hkeeps e he hdn hsuspended hadmin
    refine ⟨a.stored, ?_, by simpa using hsuspended', by simpa using hadmin'⟩
    rw [Directory.findAccount, Directory.accountAt_putAccount, if_pos hdn]
  · refine ⟨e, ?_, hsuspended, hadmin⟩
    rw [Directory.findAccount, Directory.accountAt_putAccount, if_neg hdn]
    exact he

theorem current_login {w t : World env.ctx} {e : Account} {request : LoginRequest} {id : String}
    (hw : SessionsCurrent w) (he : w.directory.findAccount request.name = some e)
    (hsuspended : e.isSuspended = false) (hdirectory : t.directory = w.directory)
    (hsessions : t.sessions
      = Function.update w.sessions id (some (e.setPassword request.password))) :
    SessionsCurrent t := by
  intro k s hs
  rw [hdirectory]
  rw [hsessions, Function.update_apply] at hs
  split_ifs at hs
  · obtain rfl := Option.some.inj hs
    exact ⟨e, by simpa using Directory.findAccount_name he, hsuspended, by simp⟩
  · exact hw k s hs

/-- A write that changes no flag. -/
theorem current_sameButPassword {w t : World env.ctx} {n : String} {e a : Account}
    (hw : SessionsCurrent w) (he : w.directory.findAccount n = some e) (ha : e.SameButPassword a)
    (ht : w.Leaves (w.directory.putAccount a) t) : SessionsCurrent t := by
  intro k s hs
  rw [ht.sessions] at hs
  rw [ht.directory]
  refine (hw k s hs).putAccount fun e' he' hdn hsuspended hadmin => ?_
  rw [ha.name, Directory.userDN_of_accountAt he] at hdn
  rw [Directory.findAccount_congr _ hdn, he] at he'
  obtain rfl := Option.some.inj he'
  exact ⟨ha.isSuspended.trans hsuspended, ha.isAdmin.trans hadmin⟩

theorem current_updated {w t : World env.ctx} {account request e a : Account}
    (hw : SessionsCurrent w) (he : w.directory.findAccount request.name = some e)
    (hkeeps : ∀ k s, w.sessions k = some s → env.ctx.userDN s.name = env.ctx.userDN request.name →
      if request.isSuspended then request.getUuid.or e.getUuid = s.getUuid
      else ((asked account request).getSingle .admin).isSome →
        (asked account request).isAdmin = s.isAdmin)
    (h : Updated w t account request e a) : SessionsCurrent t := by
  intro k s hs
  -- a session that is left was open before, and is not of the uuid of a suspended account
  have hopen : w.sessions k = some s ∧ (request.isSuspended = true → s.getUuid ≠ a.getUuid) := by
    rw [h.sessions, sessionsAfter] at hs
    split_ifs at hs with hsuspends
    · obtain ⟨hs, huuid⟩ := Option.filter_eq_some_iff.1 hs
      exact ⟨hs, fun _ => of_decide_eq_true huuid⟩
    · exact ⟨hs, fun hsuspends' => absurd hsuspends' hsuspends⟩
  rw [h.directory]
  refine (hw k s hopen.1).putAccount fun e' he' hdn hsuspended hadmin => ?_
  rw [h.takes.name, Directory.userDN_of_accountAt he] at hdn
  rw [Directory.findAccount_congr _ hdn, he] at he'
  obtain rfl := Option.some.inj he'
  have hk := hkeeps k s hopen.1 hdn
  split_ifs at hk with hsuspends
  · refine absurd ?_ (hopen.2 hsuspends)
    rw [h.takes.getUuid, asked_getUuid, hk]
  · constructor
    · rw [h.takes.isSuspended, asked_isSuspended, hsuspended]
      simpa using fun _ => hsuspends
    · rw [h.takes.isAdmin]
      split_ifs with hsent
      · exact hk hsent
      · exact hadmin

theorem current_deleted {w t : World env.ctx} {name : String} (hw : SessionsCurrent w)
    (hkeeps : ∀ k s, w.sessions k = some s → env.ctx.userDN s.name ≠ env.ctx.userDN name)
    (ht : w.Leaves (w.directory.eraseAccount (env.ctx.userDN name)) t) : SessionsCurrent t := by
  intro k s hs
  rw [ht.sessions] at hs
  obtain ⟨e, he, hflags⟩ := hw k s hs
  refine ⟨e, ?_, hflags⟩
  rw [ht.directory, Directory.findAccount, Directory.accountAt_eraseAccount, if_neg (hkeeps k s hs)]
  exact he

theorem sessionsCurrent_step {w : World env.ctx} {request : SessionRequest}
    (hw : SessionsCurrent w) (hkeeps : KeepsSessions w request) :
    SessionsCurrent (request.step env w) := by
  have hsame : ∀ {t : World env.ctx}, w.Same t → SessionsCurrent t := fun hs k s hk =>
    hs.directory.symm ▸ hw k s (hs.sessions ▸ hk)
  cases request with
  | login request =>
    refine Ends.after (P := SessionsCurrent) ((login_ends request).mono fun _ t ht => ?_)
    rcases ht with hs | ⟨e, id, hpasses, hdirectory, hsessions⟩
    · exact hsame hs
    · exact current_login hw hpasses.stored (hkeeps e hpasses) hdirectory hsessions
  | update apiKey name request =>
    cases step_serves apiKey w (.update name request) with
    | nothing same => exact hsame same
    | failsToSuspend passes stored same leaves => exact current_sameButPassword hw stored same leaves
    | updates passes stored updated =>
      exact current_updated hw stored (hkeeps _ _ stored passes) updated
  | delete apiKey name =>
    cases step_serves apiKey w (.delete name) with
    | nothing same => exact hsame same
    | deletes passes stored goes leaves =>
      exact current_deleted hw (hkeeps _ _ passes stored goes) leaves

/-- **Session authority follows the store** in every run of logins, updates and deletions
that leave no session with a stale copy. -/
theorem sessions_follow_store (env : Env) (w : World env.ctx) (hw : SessionsCurrent w)
    (requests : List SessionRequest)
    (hkeeps : Runs.Meets (SessionRequest.step env) KeepsSessions w requests) :
    SessionsCurrent (Runs.run (SessionRequest.step env) w requests) :=
  Runs.run_invariant (I := SessionsCurrent) (fun _ _ => sessionsCurrent_step) hw hkeeps

/-- The stored accounts of an admin and of a user. -/
def rootAccount : Account :=
  ((((Account.new "root").setAdmin true).set .mobilePhone (some "1")).setPassword (some "p")).stored

def aliceAccount : Account :=
  (((Account.new "alice").set .mobilePhone (some "2")).setPassword (some "p")).stored

def rootAndAlice : Directory Env.mock.ctx :=
  (Directory.empty.putAccount rootAccount).putAccount aliceAccount

/-- With a session of the admin, who changes a name; then the user logs in. -/
theorem sessions_follow_store_login : SessionsCurrent (Runs.run (SessionRequest.step .mock)
    { directory := rootAndAlice, sessions := Function.update (fun _ => none) "s" (some rootAccount) }
    [.update "s" "alice"
        (((Account.new "alice").set .mobilePhone (some "2")).set .firstName (some "A")),
      .login ⟨"alice", some "p"⟩]) := by
  have hroot : ∀ k s, Function.update (fun _ => none) "s" (some rootAccount) k = some s →
      s = rootAccount := by
    intro k s hs
    rw [Function.update_apply] at hs
    split_ifs at hs
    exact (Option.some.inj hs).symm
  refine sessions_follow_store .mock _ (fun k s hs => ?_) _ ⟨fun account e _ _ k s hs hdn => ?_,
    fun e hpasses => ?_, trivial⟩
  · rw [hroot k s hs]
    exact ⟨rootAccount, rfl, by decide, rfl⟩
  · rw [hroot k s hs] at hdn
    exact absurd hdn (by decide)
  · have hactive : ((SessionRequest.step .mock
        { directory := rootAndAlice,
          sessions := Function.update (fun _ => none) "s" (some rootAccount) }
        (.update "s" "alice" (((Account.new "alice").set .mobilePhone (some "2")).set .firstName
          (some "A")))).directory.findAccount "alice").map Account.isSuspended = some false := by
      decide +kernel
    rw [hpasses.stored] at hactive
    simpa using hactive

/-- **A deleted account keeps its session.**  An admin and a user log in, and the admin
deletes the user. -/
theorem session_outlives_account : ¬ SessionsCurrent (Runs.run (SessionRequest.step .mock)
    { directory := rootAndAlice }
    [.login ⟨"root", some "p"⟩, .login ⟨"alice", some "p"⟩, .delete "session1" "alice"]) := by
  intro h
  have hopen : ((Runs.run (SessionRequest.step .mock) { directory := rootAndAlice }
      [.login ⟨"root", some "p"⟩, .login ⟨"alice", some "p"⟩, .delete "session1" "alice"]).sessions
        "session3").map (·.name) = some "alice" := by decide +kernel
  obtain ⟨s, hs, hname⟩ := Option.map_eq_some_iff.1 hopen
  obtain ⟨e, he, _⟩ := h "session3" s hs
  have hgone : ((Runs.run (SessionRequest.step .mock) { directory := rootAndAlice }
      [.login ⟨"root", some "p"⟩, .login ⟨"alice", some "p"⟩,
        .delete "session1" "alice"]).directory.findAccount "alice").isNone = true := by decide +kernel
  rw [hname] at he
  exact absurd (he.symm.trans (Option.isNone_iff_eq_none.1 hgone)) (Option.some_ne_none e)

end Accounts

end CloudOs

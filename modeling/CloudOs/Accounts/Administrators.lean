/-
# There is always an administrator

The endpoints refuse to let an admin suspend or delete the account of the own
session.  The two guards are meant to leave at least one account that is an admin
and not suspended.

They look at the session.  An admin can demote the own account, since no guard
looks at the admin flag of a body.  A session whose copy is stale can suspend or
delete the last admin, since that is another account; and so can a session of
an account whose name is not in lower case, since `delete` compares the name of
the path in lower case with it.
-/

import CloudOs.Resources.AccountsWrites

namespace CloudOs

open Prog AccountsResource

namespace Accounts

variable {env : Env}

/-- The account can administer: it is an admin and not suspended. -/
def Administers (a : Account) : Prop := a.isAdmin = true ∧ a.isSuspended = false

instance (a : Account) : Decidable (Administers a) := inferInstanceAs (Decidable (_ ∧ _))

/-- Some stored account can administer. -/
def HasAdministrator (dir : Directory env.ctx) : Prop :=
  ∃ dn a, dir.accountAt dn = some a ∧ Administers a

theorem hasAdministrator_iff {dir : Directory env.ctx} :
    HasAdministrator dir ↔ ∃ a ∈ dir.accounts.values, Administers a := by
  constructor
  · rintro ⟨dn, a, ha, hadministers⟩
    exact ⟨a, dir.accounts.mem_values_of_lookup ha, hadministers⟩
  · rintro ⟨a, ha, hadministers⟩
    exact ⟨env.ctx.userDN a.name, a, dir.accounts.mem_values.1 ha, hadministers⟩

instance (dir : Directory env.ctx) : Decidable (HasAdministrator dir) :=
  decidable_of_iff' _ hasAdministrator_iff

/-- No account but the one under `dn` can administer. -/
def IsLast (dir : Directory env.ctx) (dn : String) : Prop :=
  ∀ d a, dir.accountAt d = some a → Administers a → d = dn

/-- The request does not take the last administrator away.

* `addAccount` replaces it, on a directory that does so, only by an administrator.
* An `update` that is to be written neither suspends nor demotes it.
* A `delete` that goes through is of another account. -/
def KeepsAdministrator (w : World env.ctx) : String × AccountsRequest → Prop
  | (apiKey, .addAccount _ request) => ∀ admin, w.sessions apiKey = some admin →
      admin.isAdmin = true → env.ldapaddReplaces = true →
      IsLast w.directory (env.ctx.userDN request.name) → Administers request
  | (apiKey, .update name request) => ∀ account e, w.directory.findAccount request.name = some e →
      UpdatePasses w apiKey name request account (AccountDAO.UpdateGoes env · e request) →
      IsLast w.directory (env.ctx.userDN request.name) → request.isSuspended = false ∧
        (((asked account request).getSingle .admin).isSome → (asked account request).isAdmin = true)
  | (apiKey, .delete name) => ∀ admin d, DeletePasses w apiKey name admin →
      w.directory.findAccount name = some d → DeleteGoes env w.calls d →
      ¬ IsLast w.directory (env.ctx.userDN name)
  | _ => True

/-- **The frame of an administrator.**  What happens under one DN takes no administrator
away unless the last one stands there. -/
theorem HasAdministrator.of_frame {dir dir' : Directory env.ctx} (h : HasAdministrator dir)
    (dn : String) (hothers : ∀ d ≠ dn, dir'.accountAt d = dir.accountAt d)
    (hlast : IsLast dir dn → ∀ e, dir.accountAt dn = some e → Administers e →
      ∃ a, dir'.accountAt dn = some a ∧ Administers a) : HasAdministrator dir' := by
  by_cases hother : ∃ d a, d ≠ dn ∧ dir.accountAt d = some a ∧ Administers a
  · obtain ⟨d, a, hd, ha, hadministers⟩ := hother
    exact ⟨d, a, (hothers d hd).trans ha, hadministers⟩
  · have honly : IsLast dir dn := fun d a ha hadministers =>
      by_contra fun hd => hother ⟨d, a, hd, ha, hadministers⟩
    obtain ⟨d, e, he, hadministers⟩ := h
    obtain rfl := honly d e he hadministers
    obtain ⟨a, ha⟩ := hlast honly e he hadministers
    exact ⟨d, a, ha⟩

theorem HasAdministrator.putAccount {dir : Directory env.ctx} (h : HasAdministrator dir)
    {a : Account} (hlast : IsLast dir (env.ctx.userDN a.name) →
      ∀ e, dir.findAccount a.name = some e → Administers e → Administers a) :
    HasAdministrator (dir.putAccount a) := by
  refine h.of_frame (env.ctx.userDN a.name) (fun d hd => ?_) fun honly e he hadministers => ?_
  · rw [Directory.accountAt_putAccount, if_neg hd]
  · refine ⟨a.stored, ?_, hlast honly e he hadministers⟩
    rw [Directory.accountAt_putAccount, if_pos rfl]

/-- Writing over a stored account. -/
theorem HasAdministrator.overwrite {dir : Directory env.ctx} (h : HasAdministrator dir) {n : String}
    {e a : Account} (he : dir.findAccount n = some e) (hname : a.name = e.name)
    (hlast : IsLast dir (env.ctx.userDN n) → Administers e → Administers a) :
    HasAdministrator (dir.putAccount a) := by
  refine h.putAccount fun honly e' he' hadministers => ?_
  rw [hname, Directory.userDN_of_accountAt he] at honly
  rw [hname, Directory.findAccount_name he] at he'
  obtain rfl := Option.some.inj he'
  exact hlast honly hadministers

theorem Administers.sameButPassword {e a : Account} (h : Administers e) (ha : e.SameButPassword a) :
    Administers a := ⟨ha.isAdmin.trans h.1, ha.isSuspended.trans h.2⟩

/-- An update that carries neither flag against it leaves an administrator. -/
theorem Administers.takes {e request a : Account} (h : Administers e) (ha : e.Takes request a)
    (hsuspended : request.isSuspended = false)
    (hadmin : (request.getSingle .admin).isSome → request.isAdmin = true) : Administers a := by
  constructor
  · rw [ha.isAdmin]
    split_ifs with hsent
    · exact hadmin hsent
    · exact h.1
  · rw [ha.isSuspended, hsuspended, h.2, ite_self]

theorem hasAdministrator_step {w : World env.ctx} {request : String × AccountsRequest}
    (hw : HasAdministrator w.directory) (hkeeps : KeepsAdministrator w request) :
    HasAdministrator (step env request.1 w request.2).directory := by
  obtain ⟨apiKey, request⟩ := request
  have hserves := step_serves apiKey w request
  generalize step env apiKey w request = t at hserves
  cases hserves with
  | nothing same => exact same.directory.symm ▸ hw
  | @adds _ _ q a admin _ session isAdmin asks made added =>
    have hput : HasAdministrator (w.directory.putAccount a) := by
      refine hw.putAccount fun honly e he _ => ?_
      rw [made.name, asks.name] at honly
      have hadministers := hkeeps admin session isAdmin (added.free (by rw [he]; rfl)) honly
      exact ⟨(made.isAdmin.trans asks.isAdmin).trans hadministers.1,
        (made.isSuspended.trans asks.isSuspended).trans hadministers.2⟩
    obtain ⟨dn, b, hb, hadministers⟩ := hput
    exact ⟨dn, b, (added.accountAt dn).trans hb, hadministers⟩
  | failsToSuspend _ stored same leaves =>
    rw [leaves.directory]
    exact hw.overwrite stored same.name fun _ hadministers => hadministers.sameButPassword same
  | updates passes stored updated =>
    rw [updated.directory]
    refine hw.overwrite stored updated.takes.name fun honly hadministers => ?_
    obtain ⟨hsuspended, hadmin⟩ := hkeeps _ _ stored passes honly
    exact hadministers.takes updated.takes (by simpa using hsuspended) hadmin
  | changesPassword _ _ stored same leaves =>
    rw [leaves.directory]
    exact hw.overwrite stored same.name fun _ hadministers => hadministers.sameButPassword same
  | @deletes name _ _ _ passes stored goes leaves =>
    rw [leaves.directory]
    refine hw.of_frame (env.ctx.userDN name) (fun d hd => ?_) fun honly => ?_
    · rw [Directory.accountAt_eraseAccount, if_neg hd]
    · exact absurd honly (hkeeps _ _ passes stored goes)

/-- **There is always an administrator**, in every run of requests by any sessions that
do not take the last one away. -/
theorem administrator_remains (env : Env) (w : World env.ctx) (hw : HasAdministrator w.directory)
    (requests : List (String × AccountsRequest))
    (hkeeps : Runs.Meets (fun w request => step env request.1 w request.2) KeepsAdministrator w
      requests) :
    HasAdministrator
      (Runs.run (fun w request => step env request.1 w request.2) w requests).directory :=
  Runs.run_invariant (I := fun w : World env.ctx => HasAdministrator w.directory)
    (fun _ _ => hasAdministrator_step) hw hkeeps

/-- An administrator with a phone number. -/
def soleAdmin : Account := ((Account.new "root").setAdmin true).set .mobilePhone (some "1")

/-- A directory with one administrator, who has a session. -/
def rootAlone : World Env.mock.ctx where
  directory := Directory.empty.putAccount soleAdmin
  sessions := Function.update (fun _ => none) "s" (some soleAdmin)

/-- The only administrator changes a name, and may not delete the own account. -/
theorem administrator_remains_root : HasAdministrator
    (Runs.run (fun w request => step .mock request.1 w request.2) rootAlone
      [("s", .update "root" (soleAdmin.set .firstName (some "R"))),
        ("s", .changePassword "root" ⟨"old", "new", false⟩), ("s", .delete "root")]).directory := by
  refine administrator_remains .mock rootAlone (by decide +kernel) _
    ⟨fun account e _ hpasses _ => ?_, trivial, fun admin d hpasses _ _ => ?_, trivial⟩
  · obtain rfl : soleAdmin = account := Option.some.inj hpasses.session
    exact ⟨by decide, fun _ => by decide⟩
  · have hname : ((Runs.run (fun w request => step .mock request.1 w request.2) rootAlone
        [("s", .update "root" (soleAdmin.set .firstName (some "R"))),
          ("s", .changePassword "root" ⟨"old", "new", false⟩)]).sessions "s").map (·.name)
        = some "root" := by decide +kernel
    replace hname := (congrArg (Option.map (·.name)) hpasses.session).symm.trans hname
    exact absurd (Option.some.inj hname).symm hpasses.notSelf

/-- **The last administrator steps down.**  The only administrator posts an update of the
own account that is no admin. -/
theorem last_administrator_demoted : HasAdministrator rootAlone.directory ∧ ¬ HasAdministrator
    (Runs.run (fun w request => step .mock request.1 w request.2) rootAlone
      [("s", .update "root" (soleAdmin.setAdmin false))]).directory := by
  decide +kernel

end Accounts

end CloudOs

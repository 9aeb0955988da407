/-
# What a session without the admin flag can write

"Admins can update anyone, others can only update themselves."  A session whose
account `u` is not an admin is meant to leave every other account alone, and
never to make `u` an admin.

The endpoints that need an admin refuse it, and `changePassword` writes the entry
of the path, which the guard compares with the session.  `update` compares the
path too, and then writes the entry that the body names.  So a run keeps to `u`
as long as the body of every update that is to write a stored account names `u`.
-/

import CloudOs.Resources.AccountsWrites

namespace CloudOs

open Prog AccountsResource

namespace Accounts

variable {env : Env} {apiKey : String} {u : Account}

/-- Every account but the one under `dn` is as it was, and that one is an admin only
if it was one. -/
structure Isolates (dn : String) (dir dir' : Directory env.ctx) : Prop where
  others : ∀ d ≠ dn, dir'.accountAt d = dir.accountAt d
  admin : ∀ a, dir'.accountAt dn = some a → a.isAdmin = true →
    ∃ e, dir.accountAt dn = some e ∧ e.isAdmin = true

/-- The body of an update that is to write a stored account names the caller. -/
def NamesCaller (apiKey : String) (u : Account) (w : World env.ctx) : AccountsRequest → Prop
  | .update name request => ∀ e, w.directory.findAccount request.name = some e →
      UpdatePasses w apiKey name request u (AccountDAO.WritesEntry env · e request) →
      env.ctx.userDN request.name = env.ctx.userDN u.name
  | _ => True

theorem Isolates.refl (dn : String) (dir : Directory env.ctx) : Isolates dn dir dir :=
  ⟨fun _ _ => rfl, fun a ha hadmin => ⟨a, ha, hadmin⟩⟩

theorem Isolates.trans {dn : String} {dir₁ dir₂ dir₃ : Directory env.ctx}
    (h : Isolates dn dir₁ dir₂) (h' : Isolates dn dir₂ dir₃) : Isolates dn dir₁ dir₃ := by
  refine ⟨fun d hd => (h'.others d hd).trans (h.others d hd), fun a ha hadmin => ?_⟩
  obtain ⟨e, he, hadmin⟩ := h'.admin a ha hadmin
  exact h.admin e he hadmin

/-- Writing the entry under `dn` without making it an admin. -/
theorem isolates_putAccount {dir : Directory env.ctx} {e a : Account}
    (he : dir.accountAt (env.ctx.userDN u.name) = some e) (hname : a.name = e.name)
    (hadmin : a.isAdmin = true → e.isAdmin = true) :
    Isolates (env.ctx.userDN u.name) dir (dir.putAccount a) := by
  have hdn : env.ctx.userDN a.name = env.ctx.userDN u.name := by
    rw [hname, Directory.userDN_of_accountAt he]
  constructor
  · intro d hd
    rw [Directory.accountAt_putAccount, hdn, if_neg hd]
  · intro b hb hb'
    rw [Directory.accountAt_putAccount, hdn, if_pos rfl] at hb
    obtain rfl := Option.some.inj hb
    exact ⟨e, he, hadmin (by simpa using hb')⟩

/-- What a session without the admin flag writes when it updates. -/
theorem not_isAdmin_of_takes {account request e a : Account} (haccount : account.isAdmin = false)
    (h : e.Takes (asked account request) a) : a.isAdmin = false := by
  rw [asked, if_pos (by simp [haccount])] at h
  rw [h.isAdmin, Account.getSingle_setAdmin, Option.isSome_some, if_pos rfl,
    Account.setAdmin_isAdmin]

/-- The session stays that of `u`, if it stays. -/
theorem session_step {w t : World env.ctx} {request : AccountsRequest}
    (h : Serves apiKey w request t) (hsession : ∀ s, w.sessions apiKey = some s → s = u) :
    ∀ s, t.sessions apiKey = some s → s = u := by
  intro s hs
  cases h with
  | nothing same => exact hsession s (same.sessions ▸ hs)
  | adds _ _ _ _ added => exact hsession s (added.sessions ▸ hs)
  | failsToSuspend _ _ _ leaves => exact hsession s (leaves.sessions ▸ hs)
  | updates _ _ updated =>
    rw [updated.sessions, sessionsAfter] at hs
    split_ifs at hs
    · exact hsession s (Option.filter_eq_some_iff.1 hs).1
    · exact hsession s hs
  | changesPassword _ _ _ _ leaves => exact hsession s (leaves.sessions ▸ hs)
  | deletes _ _ _ leaves => exact hsession s (leaves.sessions ▸ hs)

theorem isolates_step (hu : u.isAdmin = false) {w t : World env.ctx} {request : AccountsRequest}
    (h : Serves apiKey w request t) (hsession : ∀ s, w.sessions apiKey = some s → s = u)
    (hnames : NamesCaller apiKey u w request) :
    Isolates (env.ctx.userDN u.name) w.directory t.directory := by
  cases h with
  | nothing same => exact same.directory ▸ Isolates.refl _ _
  | adds session isAdmin _ _ _ =>
    rw [hsession _ session, hu] at isAdmin
    exact Bool.noConfusion isAdmin
  | failsToSuspend passes stored same leaves =>
    obtain rfl := hsession _ passes.session
    have hown := hnames _ stored passes
    rw [Directory.findAccount, hown] at stored
    rw [leaves.directory]
    exact isolates_putAccount stored same.name fun hadmin => same.isAdmin ▸ hadmin
  | updates passes stored updated =>
    obtain rfl := hsession _ passes.session
    have hown := hnames _ stored (passes.imp fun _ => And.left)
    rw [Directory.findAccount, hown] at stored
    rw [updated.directory]
    refine isolates_putAccount stored updated.takes.name fun hadmin => ?_
    rw [not_isAdmin_of_takes hu updated.takes] at hadmin
    exact Bool.noConfusion hadmin
  | changesPassword session allowed stored same leaves =>
    obtain rfl := hsession _ session
    have hname := allowed.resolve_left (by simp [hu])
    rw [← hname] at stored
    rw [leaves.directory]
    exact isolates_putAccount stored same.name fun hadmin => same.isAdmin ▸ hadmin
  | deletes passes _ _ _ =>
    have hadmin := passes.isAdmin
    rw [hsession _ passes.session, hu] at hadmin
    exact Bool.noConfusion hadmin

/-- **Isolation.**  A run of requests on the session of an account that is no admin, in
which the body of every update past the guards names the caller, changes no other
account and makes the caller no admin. -/
theorem nonAdmin_isolated (env : Env) (apiKey : String) (w : World env.ctx) (u : Account)
    (hsession : w.sessions apiKey = some u) (hu : u.isAdmin = false)
    (requests : List AccountsRequest)
    (hnames : Runs.Meets (step env apiKey) (NamesCaller apiKey u) w requests) :
    Isolates (env.ctx.userDN u.name) w.directory
      (Runs.run (step env apiKey) w requests).directory := by
  have hstart : ∀ s, w.sessions apiKey = some s → s = u := fun _ hs =>
    Option.some.inj (hs.symm.trans hsession)
  refine Runs.run_relation (I := fun w : World env.ctx => ∀ s, w.sessions apiKey = some s → s = u)
    (R := fun w t : World env.ctx => Isolates (env.ctx.userDN u.name) w.directory t.directory)
    (fun w => Isolates.refl _ w.directory) Isolates.trans (fun w request hw hnames => ?_)
    hstart hnames
  have hserves := step_serves apiKey w request
  exact ⟨session_step hserves hw, isolates_step hu hserves hw hnames⟩

/-- Two accounts with phone numbers, and a session of the first. -/
def aliceAndBob : World Env.mock.ctx where
  directory := (Directory.empty.putAccount
      ((Account.new "alice").set .mobilePhone (some "1"))).putAccount
    ((Account.new "bob").set .mobilePhone (some "2"))
  sessions := Function.update (fun _ => none) "s" (some (Account.new "alice"))

/-- Alice changes her name and her password, and may not delete Bob. -/
theorem nonAdmin_isolated_alice : Isolates (Env.mock.ctx.userDN "alice") aliceAndBob.directory
    (Runs.run (step .mock "s") aliceAndBob
      [.update "alice"
          (((Account.new "alice").set .mobilePhone (some "1")).set .firstName (some "A")),
        .changePassword "alice" ⟨"old", "new", false⟩, .delete "bob"]).directory :=
  nonAdmin_isolated .mock "s" aliceAndBob (Account.new "alice") rfl (by decide) _
    ⟨fun _ _ _ => rfl, trivial, trivial, trivial⟩

/-- **The body decides.**  Alice posts to `/accounts/alice` a body that is named `bob`,
and Bob's password is the one she sent. -/
theorem nonAdmin_writes_other : aliceAndBob.sessions "s" = some (Account.new "alice") ∧
    (Account.new "alice").isAdmin = false ∧
    ¬ Isolates (Env.mock.ctx.userDN "alice") aliceAndBob.directory
      (Runs.run (step .mock "s") aliceAndBob [.update "alice"
        (((Account.new "bob").set .mobilePhone (some "1")).setPassword (some "x"))]).directory := by
  refine ⟨rfl, by decide, fun h => ?_⟩
  have hbob := h.others (Env.mock.ctx.userDN "bob") (by decide)
  have hbefore : (aliceAndBob.directory.accountAt (Env.mock.ctx.userDN "bob")).map
      Account.getPassword = some none := by decide +kernel
  have hafter : ((Runs.run (step .mock "s") aliceAndBob [.update "alice"
      (((Account.new "bob").set .mobilePhone (some "1")).setPassword (some "x"))]).directory.accountAt
        (Env.mock.ctx.userDN "bob")).map Account.getPassword = some (some "x") := by decide +kernel
  rw [hbob, hbefore] at hafter
  exact absurd hafter (by decide)

end Accounts

end CloudOs

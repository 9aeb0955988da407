/-
# Who can change a password

The session of an account that is no admin is meant to change the account's password
only through `changePassword`, which asks for the old one; a suspension, which
makes the password random, is the other way.

`update` merges its body into the stored entry, whatever attributes it has, and a
password among them is written as it is.  So the law holds in the runs whose updates
of the own entry carry no password, or the one that is stored; a suspension must
not fail between its two writes, since the first has changed the password.
-/

import CloudOs.Accounts.Isolation
import CloudOs.Resources.AccountsEnds

namespace CloudOs

open Prog AccountsResource

namespace Accounts

variable {env : Env} {apiKey : String} {u : Account}

/-- The directory password of the account under `dn`. -/
def passwordAt (dir : Directory env.ctx) (dn : String) : Option String :=
  (dir.accountAt dn).bind (·.getSingle .password)

/-- The request presents the password that `u` has then. -/
def PresentsPassword (u : Account) (w : World env.ctx) : AccountsRequest → Prop
  | .changePassword name request => env.ctx.userDN name = env.ctx.userDN u.name ∧
      ∃ e, w.directory.findAccount u.name = some e ∧ AccountDAO.Knows e (some request.oldPassword)
  | _ => False

/-- The request takes `u` from not suspended to suspended. -/
def SuspendsCaller (env : Env) (apiKey : String) (u : Account) (w : World env.ctx)
    (request : AccountsRequest) : Prop :=
  ∃ e a, w.directory.findAccount u.name = some e ∧ e.isSuspended = false ∧
    (step env apiKey w request).directory.findAccount u.name = some a ∧ a.isSuspended = true

/-- An update that is about to write the entry of `u` writes no other password; one that
suspends does not fail once the random password is written. -/
def KeepsPassword (env : Env) (apiKey : String) (u : Account) (w : World env.ctx) :
    AccountsRequest → Prop
  | .update name request => ∀ found e, Reaches w apiKey name request u found →
      BooksGo env w.calls (asked u request) found →
      env.ctx.userDN request.name = env.ctx.userDN u.name →
      w.directory.findAccount request.name = some e →
      let n := w.calls + (change (asked u request) found).calls
      if AccountDAO.Suspends e request then
        env.fails .ldap (n + 1) = false → env.fails .ldap (n + 2) = false
      else env.fails .ldap n = false →
        request.getSingle .password = none ∨ request.getSingle .password = e.getSingle .password
  | _ => True

theorem passwordAt_putAccount (dir : Directory env.ctx) (a : Account) (dn : String) :
    passwordAt (dir.putAccount a) dn
      = if dn = env.ctx.userDN a.name then a.getSingle .password else passwordAt dir dn := by
  rw [passwordAt, Directory.accountAt_putAccount]
  split_ifs <;> rfl

/-- Writing an entry under another DN, or with the password it had. -/
theorem passwordAt_overwrite {dir : Directory env.ctx} {n dn : String} {e a : Account}
    (he : dir.findAccount n = some e) (hname : a.name = e.name)
    (hsame : env.ctx.userDN n = dn → a.getSingle .password = e.getSingle .password) :
    passwordAt (dir.putAccount a) dn = passwordAt dir dn := by
  rw [passwordAt_putAccount, hname, Directory.userDN_of_accountAt he]
  split_ifs with hdn
  · subst hdn
    rw [hsame rfl, passwordAt, show dir.accountAt (env.ctx.userDN n) = some e from he]
    rfl
  · rfl

/-- One update of the session of `u`. -/
theorem password_update {w t : World env.ctx} {name : String} {request : Account}
    (hsession : ∀ s, w.sessions apiKey = some s → s = u)
    (hkeeps : KeepsPassword env apiKey u w (.update name request))
    (hsuspends : ∀ e a, w.directory.findAccount u.name = some e → e.isSuspended = false →
      t.directory.findAccount u.name = some a → a.isSuspended = false)
    (h : Updating w apiKey name request t) :
    passwordAt t.directory (env.ctx.userDN u.name) = passwordAt w.directory (env.ctx.userDN u.name) := by
  cases h with
  | refused same _ => rw [same.directory]
  | stops _ books => rw [books.same.directory]
  | @runs account found q r v reaches go books updates _ =>
    obtain rfl := hsession _ reaches.session
    have hq := books.withAuthId
    have hname : q.name = request.name := by rw [hq.name, asked_name]
    have hsuspended : q.isSuspended = request.isSuspended := by rw [hq.isSuspended, asked_isSuspended]
    have hpassword : q.getSingle .password = request.getSingle .password := by
      rw [hq.getSingle (by decide), asked_getSingle (by decide)]
    have hiff : ∀ e, AccountDAO.Suspends e q ↔ AccountDAO.Suspends e request := fun e => by
      rw [AccountDAO.Suspends, AccountDAO.Suspends, hsuspended]
    have hcond := fun e hdn he => hkeeps found e reaches go hdn (hname ▸ he)
    simp only [← books.calls] at hcond
    generalize hdir : t.directory = dir' at updates hsuspends
    cases updates with
    | unknown _ => rfl
    | refused _ _ _ => rfl
    | cannotSuspend _ _ _ => rfl
    | @writes e stored keeps goes =>
      refine passwordAt_overwrite stored (Account.merge_name _ _) fun hdn => ?_
      have hown := hcond e (hname ▸ hdn) stored
      rw [if_neg (mt (hiff e).2 keeps)] at hown
      rw [Account.getSingle_merge, hpassword]
      rcases hown goes with hnone | hsame
      · rw [hnone, Option.none_or]
      · rw [hsame, Option.or_self]
    | @failsToSuspend _ e stored suspends changes fails =>
      refine passwordAt_overwrite stored (Account.setPassword_name _ _) fun hdn => ?_
      have hown := hcond e (hname ▸ hdn) stored
      rw [if_pos ((hiff e).1 suspends)] at hown
      exact Bool.noConfusion (fails.symm.trans (hown changes))
    | @suspends e stored suspends changes goes =>
      refine passwordAt_overwrite stored (AccountDAO.suspended_name _ _ _) fun hdn => ?_
      -- the entry of the caller would be suspended
      have hfound : w.directory.findAccount account.name = some e := by
        rw [Directory.findAccount_congr _ hdn.symm]
        exact stored
      have hafter := Directory.findAccount_putAccount w.directory (AccountDAO.suspended env v.calls e q)
      rw [AccountDAO.suspended_name, Directory.findAccount_congr _
        ((Directory.userDN_of_accountAt stored).trans hdn)] at hafter
      have hflag := hsuspends e _ hfound suspends.1 hafter
      rw [Account.stored_isSuspended, AccountDAO.suspended, Account.setPassword_isSuspended,
        (Account.overlaid_merge q).isSuspended_of suspends.2] at hflag
      exact Bool.noConfusion hflag

/-- One request of the session of `u`. -/
theorem password_step (hu : u.isAdmin = false) {w : World env.ctx} {request : AccountsRequest}
    (hsession : ∀ s, w.sessions apiKey = some s → s = u)
    (hkeeps : KeepsPassword env apiKey u w request) (hpresents : ¬ PresentsPassword u w request)
    (hsuspends : ¬ SuspendsCaller env apiKey u w request) :
    passwordAt (step env apiKey w request).directory (env.ctx.userDN u.name)
      = passwordAt w.directory (env.ctx.userDN u.name) := by
  have hadmin : ∀ s, w.sessions apiKey = some s → s.isAdmin ≠ true := fun s hs => by
    rw [hsession s hs, hu]
    exact Bool.false_ne_true
  have hsame : ∀ {t : World env.ctx}, w.Same t → passwordAt t.directory (env.ctx.userDN u.name)
      = passwordAt w.directory (env.ctx.userDN u.name) := fun hs => by rw [hs.directory]
  have hserves := step_serves apiKey w request
  cases request with
  | findAll => cases hserves with | nothing same => exact hsame same
  | find name => cases hserves with | nothing same => exact hsame same
  | addAccount name request =>
    cases hserves with
    | nothing same => exact hsame same
    | adds session isAdmin _ _ _ => exact absurd isAdmin (hadmin _ session)
  | delete name =>
    cases hserves with
    | nothing same => exact hsame same
    | deletes passes _ _ _ => exact absurd passes.isAdmin (hadmin _ passes.session)
  | update name request =>
    have hupdating : Updating w apiKey name request (step env apiKey w (.update name request)) :=
      Ends.after (P := Updating w apiKey name request) (update_updating apiKey name request)
    refine password_update hsession hkeeps (fun e a he hactive ha => ?_) hupdating
    by_contra hno
    exact hsuspends ⟨e, a, he, hactive, ha, by simpa using hno⟩
  | changePassword name request =>
    refine Ends.after (P := fun t : World env.ctx => passwordAt t.directory (env.ctx.userDN u.name)
      = passwordAt w.directory (env.ctx.userDN u.name)) ?_
    refine (changePassword_own hu hsession request).mono fun _ t ht => ?_
    rcases ht with hs | ⟨e, rfl, he, hknows, -⟩
    · exact hsame hs
    · exact absurd ⟨rfl, e, he, hknows⟩ hpresents

/-- **Own passwords change only with proof of the old one**, in every run of requests on the
session of an account that is no admin, as long as its updates keep the password: the password
differs afterwards only if some request presented the old one, or suspended the account. -/
theorem password_changed_with_old (env : Env) (apiKey : String) (w : World env.ctx) (u : Account)
    (hsession : w.sessions apiKey = some u) (hu : u.isAdmin = false) (requests : List AccountsRequest)
    (hkeeps : Runs.Meets (step env apiKey) (KeepsPassword env apiKey u) w requests)
    (hdiffers : passwordAt (Runs.run (step env apiKey) w requests).directory (env.ctx.userDN u.name)
      ≠ passwordAt w.directory (env.ctx.userDN u.name)) :
    Runs.Somewhere (step env apiKey) (fun w request =>
      PresentsPassword u w request ∨ SuspendsCaller env apiKey u w request) w requests := by
  by_contra hno
  rw [Runs.not_somewhere_iff] at hno
  have hstart : ∀ s, w.sessions apiKey = some s → s = u := fun _ hs =>
    Option.some.inj (hs.symm.trans hsession)
  refine hdiffers (Runs.run_relation
    (I := fun w : World env.ctx => ∀ s, w.sessions apiKey = some s → s = u)
    (R := fun w t : World env.ctx => passwordAt t.directory (env.ctx.userDN u.name)
      = passwordAt w.directory (env.ctx.userDN u.name))
    (fun _ => rfl) (fun h h' => h'.trans h) (fun w request hI hC => ?_) hstart (hkeeps.and hno))
  obtain ⟨hkeeps, hother⟩ := hC
  rw [not_or] at hother
  exact ⟨session_step (step_serves apiKey w request) hI,
    password_step hu hI hkeeps hother.1 hother.2⟩

/-- Alice with a phone number and a password, and a session of hers. -/
def aliceAlone : World Env.mock.ctx where
  directory := Directory.empty.putAccount
    (((Account.new "alice").set .mobilePhone (some "1")).setPassword (some "old"))
  sessions := Function.update (fun _ => none) "s" (some (Account.new "alice"))

/-- Alice changes her name, and then her password with the old one. -/
theorem password_changed_with_old_alice : Runs.Somewhere (step .mock "s")
    (fun w request => PresentsPassword (Account.new "alice") w request ∨
      SuspendsCaller .mock "s" (Account.new "alice") w request) aliceAlone
    [.update "alice"
        (((Account.new "alice").set .mobilePhone (some "1")).set .firstName (some "A")),
      .changePassword "alice" ⟨"old", "new", false⟩] := by
  refine password_changed_with_old .mock "s" aliceAlone (Account.new "alice") rfl (by decide)
    _ ⟨fun found e _ _ _ _ => ?_, trivial, trivial⟩ (by decide +kernel)
  dsimp only
  rw [if_neg fun h => Bool.noConfusion (h.2 : false = true)]
  exact fun _ => Or.inl rfl

/-- **Any password will do.**  Alice posts an update with a new password, and it is hers. -/
theorem password_changed_without_old : aliceAlone.sessions "s" = some (Account.new "alice") ∧
    (Account.new "alice").isAdmin = false ∧
    passwordAt (Runs.run (step .mock "s") aliceAlone [.update "alice"
        (((Account.new "alice").set .mobilePhone (some "1")).setPassword (some "x"))]).directory
          (Env.mock.ctx.userDN "alice") ≠ passwordAt aliceAlone.directory (Env.mock.ctx.userDN "alice") ∧
    ¬ Runs.Somewhere (step .mock "s") (fun w request =>
        PresentsPassword (Account.new "alice") w request ∨
          SuspendsCaller .mock "s" (Account.new "alice") w request) aliceAlone
      [.update "alice"
        (((Account.new "alice").set .mobilePhone (some "1")).setPassword (some "x"))] := by
  refine ⟨rfl, by decide, by decide +kernel, fun h => ?_⟩
  obtain ⟨e, a, -, -, ha, hsuspended⟩ := (h.resolve_right id).resolve_left id
  have hactive : ((step .mock "s" aliceAlone (.update "alice" (((Account.new "alice").set .mobilePhone
      (some "1")).setPassword (some "x")))).directory.findAccount "alice").map Account.isSuspended
        = some false := by decide +kernel
  rw [show (Account.new "alice").name = "alice" from rfl] at ha
  rw [ha, Option.map_some, hsuspended] at hactive
  exact absurd hactive (by decide)

end Accounts

end CloudOs

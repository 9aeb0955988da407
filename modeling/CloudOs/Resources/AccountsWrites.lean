/-
# What the endpoints of `/accounts` write

`Serves` lists what an endpoint leaves in the stores, with the caller and the entry, and with what
went through for it: the guards, the bookkeeping of the two-factor provider, and the calls to the
directory.

| endpoint | what it leaves |
| --- | --- |
| `findAll`, `find` | nothing |
| `addAccount` | a new account |
| `update` | the entry that the body names; the sessions of a suspended account are gone |
| `changePassword` | the password of the account that the path names |
| `delete` | no account of the path's name |
-/

import CloudOs.Resources.TwoFactor

namespace CloudOs

open Prog

namespace AccountsResource

variable {env : Env} {w : World env.ctx}

/-- `update` has passed its guards: the caller is `account`, and `found` is the account of the
path. -/
structure Reaches (w : World env.ctx) (apiKey name : String) (request account found : Account) :
    Prop where
  session : w.sessions apiKey = some account
  allowed : account.isAdmin = true ∨ account.name = name
  notSelf : account.isAdmin = true → env.isSameName (asked account request) account = true →
    request.isSuspended = false
  found : w.directory.findAccount name = some found

theorem reaches_of_guards {apiKey name : String} {request account found : Account}
    (hsession : w.sessions apiKey = some account)
    (hforbidden : ¬ (!account.isAdmin && account.name != name) = true)
    (hself : ¬ (account.isAdmin && env.isSameName (asked account request) account &&
      (asked account request).isSuspended) = true)
    (hfound : w.directory.findAccount name = some found) :
    Reaches w apiKey name request account found := by
  refine ⟨hsession, ?_, ?_, hfound⟩
  · by_contra hno
    simp only [not_or, Bool.not_eq_true] at hno
    simp [hno.1, hno.2] at hforbidden
  · intro hadmin hname
    simpa [hadmin, hname] using hself

/-- `update` has passed its guards and the two-factor bookkeeping for the caller `account`, and
`goes` holds of the number of its next call. -/
def UpdatePasses (w : World env.ctx) (apiKey name : String) (request account : Account)
    (goes : ℕ → Prop) : Prop :=
  ∃ found, Reaches w apiKey name request account found ∧
    BooksGo env w.calls (asked account request) found ∧
      goes (w.calls + (change (asked account request) found).calls)

theorem UpdatePasses.session {apiKey name : String} {request account : Account} {goes : ℕ → Prop}
    (h : UpdatePasses w apiKey name request account goes) : w.sessions apiKey = some account :=
  h.choose_spec.1.session

theorem UpdatePasses.imp {apiKey name : String} {request account : Account} {goes goes' : ℕ → Prop}
    (h : UpdatePasses w apiKey name request account goes) (himp : ∀ n, goes n → goes' n) :
    UpdatePasses w apiKey name request account goes' :=
  let ⟨found, hreaches, hbooks, hgoes⟩ := h
  ⟨found, hreaches, hbooks, himp _ hgoes⟩

/-- The sessions after a successful update: those of a suspended account are gone. -/
def sessionsAfter (w : World env.ctx) (request a : Account) : String → Option Account :=
  if request.isSuspended then fun k => (w.sessions k).filter (·.getUuid ≠ a.getUuid) else w.sessions

/-- `update` has written the entry `a` that the body `request` names. -/
structure Updated (w t : World env.ctx) (account request e a : Account) : Prop where
  takes : e.Takes (asked account request) a
  directory : t.directory = w.directory.putAccount a
  sessions : t.sessions = sessionsAfter w request a

/-- What follows the write. -/
theorem afterUpdate_ends {apiKey : String} {request account q e : Account} {v : World env.ctx}
    (hv : w.Same v) (hsession : w.sessions apiKey = some account)
    (hq : WithAuthId (asked account request) q)
    {a : Account} (ha : e.Overlaid q a)
    {t : World env.ctx} (ht : v.Leaves (v.directory.putAccount a) t) :
    Ends (if q.isSuspended then do
        invalidateAllSessions env a.getUuid
        return .ok (.account account)
      else do
        updateSession env apiKey account
        return .ok (.account account) : Server env Response) t fun _ u =>
      Updated w u account request e a := by
  have hstored := hv.trans ht
  have hdirectory : t.directory = w.directory.putAccount a := by rw [ht.directory, hv.directory]
  have htakes := hq.takes ha
  have hsuspended : q.isSuspended = request.isSuspended := by rw [hq.isSuspended, asked_isSuspended]
  rw [hsuspended]
  split_ifs with h
  · simp only [ends_bind, ends_invalidateAllSessions, ends_pure]
    refine ⟨htakes, hdirectory, ?_⟩
    simp only [sessionsAfter, if_pos h, hstored.sessions]
  · simp only [ends_bind, ends_updateSession, ends_pure]
    refine ⟨htakes, hdirectory, ?_⟩
    -- the caller's own copy is put back as it was read
    rw [sessionsAfter, if_neg h, ← hstored.sessions]
    exact Function.update_eq_self_iff.2 (by rw [hstored.sessions, hsession])

/-- **`update`** changes no store, or has passed its guards and the bookkeeping and writes the
entry that the body names: its password alone when a suspension fails half-way, or what the
body asks for. -/
theorem update_ends (apiKey name : String) (request : Account) :
    Ends (update env apiKey name request) w fun _ t => w.Same t ∨
      ∃ account e a, w.directory.findAccount request.name = some e ∧
        ((UpdatePasses w apiKey name request account (AccountDAO.WritesEntry env · e request) ∧
            e.SameButPassword a ∧ w.Leaves (w.directory.putAccount a) t) ∨
          (UpdatePasses w apiKey name request account (AccountDAO.UpdateGoes env · e request) ∧
            Updated w t account request e a)) := by
  simp only [update, ends_bind, ends_get]
  cases hsession : w.sessions apiKey with
  | none => exact Or.inl .refl
  | some account =>
    dsimp only
    split_ifs with hforbidden hself
    · exact Or.inl .refl
    · exact Or.inl .refl
    cases hfound : w.directory.findAccount name with
    | none => exact Or.inl .refl
    | some found =>
      have hreaches := reaches_of_guards hsession hforbidden hself hfound
      simp only [ends_bind]
      refine (updateTwoFactor_bookkeeps _ found).mono fun r v hend => ?_
      obtain ⟨hbooks, hgo⟩ := hend
      have hv := hbooks.same
      cases r with
      | error x => exact Or.inl hv
      | ok q =>
        have hq := hbooks.withAuthId
        have hname : q.name = request.name := by rw [hq.name, asked_name]
        have hsuspended : q.isSuspended = request.isSuspended := by
          rw [hq.isSuspended, asked_isSuspended]
        -- the number of the next call is that after the bookkeeping
        have hpasses : ∀ goes : ℕ → Prop, goes v.calls → UpdatePasses w apiKey name request account goes :=
          fun goes h => ⟨found, hreaches, hgo.1 ⟨q, rfl⟩, hbooks.calls ▸ h⟩
        have hwritten : ∀ {e a : Account} {t : World env.ctx},
            v.directory.findAccount q.name = some e → AccountDAO.UpdateGoes env v.calls e q →
            e.Overlaid q a → v.Leaves (v.directory.putAccount a) t →
            Ends (if q.isSuspended then do
                invalidateAllSessions env a.getUuid
                return .ok (.account account)
              else do
                updateSession env apiKey account
                return .ok (.account account) : Server env Response) t fun _ u => w.Same u ∨
              ∃ account e a, w.directory.findAccount request.name = some e ∧
                ((UpdatePasses w apiKey name request account (AccountDAO.WritesEntry env · e request) ∧
                    e.SameButPassword a ∧ w.Leaves (w.directory.putAccount a) u) ∨
                  (UpdatePasses w apiKey name request account (AccountDAO.UpdateGoes env · e request) ∧
                    Updated w u account request e a)) := by
          intro e a t hstored hgoes ha hs
          rw [hname, hv.directory] at hstored
          refine (afterUpdate_ends hv hsession hq ha hs).mono fun _ u hu => ?_
          exact Or.inr ⟨account, e, a, hstored, Or.inr
            ⟨hpasses _ ((AccountDAO.updateGoes_congr hsuspended).1 hgoes), hu⟩⟩
        simp only [ends_attempt]
        refine (AccountDAO.update_updates q).mono fun r t ht => ?_
        obtain ⟨dir, hupdates, hs⟩ := ht
        cases hupdates with
        | unknown _ => exact Or.inl (hv.same_trans hs)
        | refused _ _ _ => exact Or.inl (hv.same_trans hs)
        | @writes e stored keeps goes =>
          refine hwritten stored ⟨?_, fun h => absurd h keeps⟩ (Account.overlaid_merge q) hs
          rwa [AccountDAO.WritesEntry, if_neg keeps]
        | cannotSuspend _ _ _ => exact Or.inl (hv.same_trans hs)
        | @failsToSuspend _ e stored suspends changes _ =>
          rw [hname, hv.directory] at stored
          refine Or.inr ⟨account, e, _, stored, Or.inl ⟨hpasses _ ?_,
            Account.sameButPassword_setPassword _, hv.directory ▸ hv.trans hs⟩⟩
          rwa [AccountDAO.WritesEntry, if_pos ((AccountDAO.suspends_congr hsuspended).1 suspends)]
        | @suspends e stored suspends changes goes =>
          refine hwritten stored ⟨?_, fun _ => goes⟩ ((Account.overlaid_merge q).setPassword _) hs
          rwa [AccountDAO.WritesEntry, if_pos suspends]

/-- **`addAccount`** changes no store, or an admin adds the account of the body. -/
theorem addAccount_ends (apiKey name : String) (request : Account) :
    Ends (addAccount env apiKey name request) w fun _ t => w.Same t ∨ ∃ admin q account,
      w.sessions apiKey = some admin ∧ admin.isAdmin = true ∧ WithAuthId request q ∧
        AccountDAO.MadeFrom q account ∧ AccountDAO.Added w account t := by
  simp only [addAccount, ends_bind, ends_get]
  cases hsession : w.sessions apiKey with
  | none => exact Or.inl .refl
  | some admin =>
    dsimp only
    by_cases hadmin : admin.isAdmin = true
    swap
    · rw [if_pos (by simp [hadmin])]
      exact Or.inl .refl
    rw [if_neg (by simp [hadmin])]
    rw [ends_bind]
    refine (asks_ends request).mono fun r v hend => ?_
    rcases hend with ⟨⟨x, rfl⟩, hv, -⟩ | ⟨q, rfl, hasks⟩
    · exact Or.inl hv
    · have hv := hasks.same
      simp only [ends_bind, ends_attempt]
      refine (AccountDAO.create_ends q).mono fun r t ht => ?_
      rcases ht with ⟨⟨x, rfl⟩, hs⟩ | ⟨account, hmade, hadded, _⟩
      · exact Or.inl (hv.same_trans hs)
      have hadds : ∀ u, t.Same u → ∃ admin' q account, some admin = some admin' ∧
          admin'.isAdmin = true ∧ WithAuthId request q ∧ AccountDAO.MadeFrom q account ∧
            AccountDAO.Added w account u := fun u hu =>
        ⟨admin, q, account, rfl, hadmin, hasks.withAuthId, hmade,
          (hadded.of_same hv).same_trans hu⟩
      cases r with
      | error x => exact Or.inr (hadds t .refl)
      | ok created =>
        simp only [ends_bind]
        refine (respects_sendInvitation _ _ _ t).mono fun r u hu => ?_
        cases r with
        | error x => exact Or.inr (hadds u hu)
        | ok x => exact Or.inr (hadds u hu)

/-- The `try` of `changePassword` writes nothing but the password of its target. -/
theorem changeTarget_ends (account : Account) (name : String) (request : ChangePasswordRequest) :
    Ends (changeTarget env account name request (w.directory.findAccount name)) w fun _ t =>
      w.Same t ∨ ∃ e a, w.directory.findAccount name = some e ∧ e.SameButPassword a ∧
        w.Leaves (w.directory.putAccount a) t := by
  unfold changeTarget
  by_cases hother : (account.isAdmin && account.name != name) = true
  · rw [if_pos hother, ends_bind]
    refine (AccountDAO.setPassword_ends (fun _ => Directory.findAccount_name) _).mono
      fun r t ht => ?_
    have hchanges : ∀ u, t.Same u → w.Same u ∨ ∃ e a, w.directory.findAccount name = some e ∧
        e.SameButPassword a ∧ w.Leaves (w.directory.putAccount a) u := by
      intro u hu
      rcases ht with hs | ⟨e, a, he, ha, hs⟩
      · exact Or.inl (hs.same_trans hu)
      · exact Or.inr ⟨e, a, he, ha, hs.same_trans hu⟩
    cases r with
    | error x => exact hchanges t .refl
    | ok x =>
      dsimp only
      split_ifs
      · split
        · exact (respects_sendInvitation _ _ _ t).mono fun _ u hu => hchanges u hu
        · exact hchanges t .refl
      · split <;> exact hchanges t .refl
  · rw [if_neg hother]
    refine (AccountDAO.changePassword_ends _ _ _).mono fun r t ht => ht.imp_right ?_
    rintro ⟨acc, e, a, hacc, he, ha, hs⟩
    obtain rfl := Option.some.inj ((Directory.findAccount_name hacc).symm.trans he)
    exact ⟨acc, a, hacc, ha, hs⟩

/-- **`changePassword`** changes no store, or the password of the account that the path
names, which is the caller's unless the caller is an admin. -/
theorem changePassword_ends (apiKey name : String) (request : ChangePasswordRequest) :
    Ends (changePassword env apiKey name request) w fun _ t => w.Same t ∨ ∃ account e a,
      w.sessions apiKey = some account ∧ (account.isAdmin = true ∨ account.name = name) ∧
        w.directory.findAccount name = some e ∧ e.SameButPassword a ∧
          w.Leaves (w.directory.putAccount a) t := by
  simp only [changePassword, ends_bind, ends_get]
  cases hsession : w.sessions apiKey with
  | none => exact Or.inl .refl
  | some account =>
    dsimp only
    split_ifs with hforbidden
    · exact Or.inl .refl
    have hallowed : account.isAdmin = true ∨ account.name = name := by
      simpa [Bool.eq_false_or_eq_true, or_iff_not_imp_left] using hforbidden
    simp only [ends_bind, ends_attempt]
    refine (changeTarget_ends account name request).mono fun r t ht => ?_
    have hchanges : w.Same t ∨ ∃ account' e a, some account = some account' ∧
        (account'.isAdmin = true ∨ account'.name = name) ∧ w.directory.findAccount name = some e ∧
          e.SameButPassword a ∧ w.Leaves (w.directory.putAccount a) t := by
      rcases ht with hs | ⟨e, a, he, ha, hs⟩
      · exact Or.inl hs
      · exact Or.inr ⟨account, e, a, rfl, hallowed, he, ha, hs⟩
    cases r with
    | error x => cases x <;> exact hchanges
    | ok x => exact hchanges

/-- `delete` has passed its guards. -/
structure DeletePasses (w : World env.ctx) (apiKey name : String) (admin : Account) : Prop where
  session : w.sessions apiKey = some admin
  isAdmin : admin.isAdmin = true
  notSelf : env.ctx.toLowerCase name ≠ admin.name
  notMailer : env.ctx.toLowerCase name ≠ env.smtpUser

/-- The calls of `delete` for the account `d` go through, the first being number `n`. -/
def DeleteGoes (env : Env) (n : ℕ) (d : Account) : Prop :=
  if d.hasAuthId then RemoveGoes env n d ∧ env.fails .ldap (n + 1) = false
  else env.fails .ldap n = false

theorem Forgets.deleteGoes {d : Account} {v : World env.ctx} (h : Forgets w d v)
    (hgo : env.fails .ldap v.calls = false) : DeleteGoes env w.calls d := by
  unfold DeleteGoes
  cases h with
  | removes hasAuthId _ goes =>
    rw [if_pos hasAuthId]
    exact ⟨goes, hgo⟩
  | nothing hasAuthId =>
    rw [if_neg (Bool.eq_false_iff.1 hasAuthId)]
    exact hgo

/-- **`delete`** changes no store, or an admin removes the account that the path names. -/
theorem delete_ends (apiKey name : String) : Ends (delete env apiKey name) w fun _ t =>
    w.Same t ∨ ∃ admin d, DeletePasses w apiKey name admin ∧
      w.directory.findAccount name = some d ∧ DeleteGoes env w.calls d ∧
        w.Leaves (w.directory.eraseAccount (env.ctx.userDN name)) t := by
  simp only [delete, ends_bind, ends_get]
  cases hsession : w.sessions apiKey with
  | none => exact Or.inl .refl
  | some admin =>
    dsimp only
    split_ifs with hadmin hname
    · exact Or.inl .refl
    · exact Or.inl .refl
    have hpasses : DeletePasses w apiKey name admin := by
      simp only [Bool.or_eq_true, beq_iff_eq, not_or] at hname
      exact ⟨hsession, by simpa using hadmin, hname.1, hname.2⟩
    have hlower : w.directory.findAccount (env.ctx.toLowerCase name) = w.directory.findAccount name :=
      Directory.findAccount_congr _ (env.ctx.userDN_toLowerCase name)
    have hend : ∀ {v t : World env.ctx}, w.Same v →
        (∀ d, w.directory.findAccount name = some d → env.fails .ldap v.calls = false →
          DeleteGoes env w.calls d) →
        ((v.directory.findAccount (env.ctx.toLowerCase name) = none ∧ v.Same t) ∨
          (env.fails .ldap v.calls = true ∧ v.Same t) ∨
          (env.fails .ldap v.calls = false ∧
            (v.directory.findAccount (env.ctx.toLowerCase name)).isSome = true ∧
            v.Leaves (v.directory.eraseAccount (env.ctx.userDN (env.ctx.toLowerCase name))) t)) →
        w.Same t ∨ ∃ admin d, DeletePasses w apiKey name admin ∧
          w.directory.findAccount name = some d ∧ DeleteGoes env w.calls d ∧
            w.Leaves (w.directory.eraseAccount (env.ctx.userDN name)) t := by
      rintro v t hv hgoes (⟨-, hs⟩ | ⟨-, hs⟩ | ⟨hgo, hstored, hs⟩)
      · exact Or.inl (hv.same_trans hs)
      · exact Or.inl (hv.same_trans hs)
      · rw [hv.directory, hlower] at hstored
        obtain ⟨d, hd⟩ := Option.isSome_iff_exists.1 hstored
        rw [hv.directory, env.ctx.userDN_toLowerCase] at hs
        exact Or.inr ⟨admin, d, hpasses, hd, hgoes d hd hgo, hv.trans hs⟩
    simp only [ends_bind, hlower]
    cases hfound : w.directory.findAccount name with
    | none =>
      simp only [forget2factor, ends_pure, ends_attempt]
      refine (AccountDAO.delete_deletes (env.ctx.toLowerCase name)).mono fun r t ht => ?_
      have hdeletes := hend .refl (fun d hd => absurd (hfound.symm.trans hd) (Option.some_ne_none d).symm) ht
      rw [hfound] at hdeletes
      cases r <;> exact hdeletes
    | some d =>
      refine (forget2factor_forgets d).mono fun r v hforget => ?_
      rcases hforget with ⟨⟨x, rfl⟩, hv, -⟩ | ⟨rfl, hforgets⟩
      · exact Or.inl hv
      simp only [ends_attempt]
      refine (AccountDAO.delete_deletes (env.ctx.toLowerCase name)).mono fun r t ht => ?_
      have hdeletes := hend hforgets.same (fun d' hd hgo => ?_) ht
      · rw [hfound] at hdeletes
        cases r <;> exact hdeletes
      · obtain rfl := Option.some.inj (hfound.symm.trans hd)
        exact hforgets.deleteGoes hgo

/-- The login is accepted for the stored account `e`: its password is given, and each call goes
through. -/
structure LoginPasses (w : World env.ctx) (l : LoginRequest) (e : Account) : Prop where
  stored : w.directory.findAccount l.name = some e
  binds : env.fails .ldap w.calls = false
  knows : AccountDAO.Knows e l.password
  accepts : env.acceptsLogin l e = true
  opens : env.fails .redis (w.calls + 1) = false

/-- **`login`** changes no store, or is accepted and opens a session on a copy of the stored
account. -/
theorem login_ends (l : LoginRequest) : Ends (login env l) w fun _ t =>
    w.Same t ∨ ∃ e id, LoginPasses w l e ∧ t.directory = w.directory ∧
      t.sessions = Function.update w.sessions id (some (e.setPassword l.password)) := by
  simp only [login, ends_bind, ends_attempt]
  refine (AccountDAO.authenticate_ends l).mono fun r v hend => ?_
  obtain ⟨hv, hcalls, hfound⟩ := hend
  cases r with
  | error x => split <;> first | exact Or.inl hv | contradiction
  | ok account =>
    obtain ⟨hstored, hknows, hbinds⟩ := hfound account rfl
    dsimp only
    split_ifs with haccepts
    · simp only [ends_bind, ends_createSession, ends_pure]
      split_ifs with hopens
      · exact Or.inl ⟨hv.directory, hv.sessions, hv.keyFile⟩
      · rw [hcalls, Bool.not_eq_true] at hopens
        refine Or.inr ⟨account, env.sessionId v.calls, ⟨hstored, hbinds, hknows, haccepts, hopens⟩,
          hv.directory, ?_⟩
        simp only [World.putSession, World.called_sessions, hv.sessions]
        rfl
    · exact Or.inl hv

/-- What the answer to a request can leave. -/
inductive Serves (apiKey : String) (w : World env.ctx) : AccountsRequest → World env.ctx → Prop
  | nothing {request : AccountsRequest} {t : World env.ctx} (same : w.Same t) :
      Serves apiKey w request t
  | adds {name : String} {request q a admin : Account} {t : World env.ctx}
      (session : w.sessions apiKey = some admin) (isAdmin : admin.isAdmin = true)
      (asks : WithAuthId request q) (made : AccountDAO.MadeFrom q a)
      (added : AccountDAO.Added w a t) : Serves apiKey w (.addAccount name request) t
  | failsToSuspend {name : String} {request account e a : Account} {t : World env.ctx}
      (passes : UpdatePasses w apiKey name request account (AccountDAO.WritesEntry env · e request))
      (stored : w.directory.findAccount request.name = some e) (same : e.SameButPassword a)
      (leaves : w.Leaves (w.directory.putAccount a) t) : Serves apiKey w (.update name request) t
  | updates {name : String} {request account e a : Account} {t : World env.ctx}
      (passes : UpdatePasses w apiKey name request account (AccountDAO.UpdateGoes env · e request))
      (stored : w.directory.findAccount request.name = some e)
      (updated : Updated w t account request e a) : Serves apiKey w (.update name request) t
  | changesPassword {name : String} {request : ChangePasswordRequest} {account e a : Account}
      {t : World env.ctx} (session : w.sessions apiKey = some account)
      (allowed : account.isAdmin = true ∨ account.name = name)
      (stored : w.directory.findAccount name = some e) (same : e.SameButPassword a)
      (leaves : w.Leaves (w.directory.putAccount a) t) :
      Serves apiKey w (.changePassword name request) t
  | deletes {name : String} {admin d : Account} {t : World env.ctx}
      (passes : DeletePasses w apiKey name admin) (stored : w.directory.findAccount name = some d)
      (goes : DeleteGoes env w.calls d)
      (leaves : w.Leaves (w.directory.eraseAccount (env.ctx.userDN name)) t) :
      Serves apiKey w (.delete name) t

/-- **What the answer to a request can do.** -/
theorem step_serves (apiKey : String) (w : World env.ctx) (request : AccountsRequest) :
    Serves apiKey w request (step env apiKey w request) := by
  refine Ends.after (P := Serves apiKey w request) ?_
  cases request with
  | findAll =>
    refine Ends.mono (P := fun _ t => w.Same t) ?_ fun _ t hs => .nothing hs
    simp only [serve, findAll, ends_bind, ends_get]
    split
    · exact .refl
    · split_ifs <;> exact .refl
  | addAccount name request =>
    refine (addAccount_ends apiKey name request).mono fun _ t h => ?_
    rcases h with hs | ⟨admin, q, a, hsession, hadmin, hq, hmade, hadded⟩
    · exact .nothing hs
    · exact .adds hsession hadmin hq hmade hadded
  | update name request =>
    refine (update_ends apiKey name request).mono fun _ t h => ?_
    rcases h with hs | ⟨account, e, a, he, ⟨hpasses, ha, hs⟩ | ⟨hpasses, hupdated⟩⟩
    · exact .nothing hs
    · exact .failsToSuspend hpasses he ha hs
    · exact .updates hpasses he hupdated
  | changePassword name request =>
    refine (changePassword_ends apiKey name request).mono fun _ t h => ?_
    rcases h with hs | ⟨account, e, a, hsession, hallowed, he, ha, hs⟩
    · exact .nothing hs
    · exact .changesPassword hsession hallowed he ha hs
  | find name =>
    refine Ends.mono (P := fun _ t => w.Same t) ?_ fun _ t hs => .nothing hs
    simp only [serve, find, ends_bind, ends_get]
    split
    · exact .refl
    · split_ifs
      · exact .refl
      · split
        · exact .refl
        · split_ifs <;> exact .refl
  | delete name =>
    refine (delete_ends apiKey name).mono fun _ t h => ?_
    rcases h with hs | ⟨admin, d, hpasses, hstored, hgoes, hs⟩
    · exact .nothing hs
    · exact .deletes hpasses hstored hgoes hs

end AccountsResource

end CloudOs

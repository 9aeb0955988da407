/-
# How the endpoints of `/accounts` end

`Updating`, `Adding` and `Deleting` list how the whole of `update`, `addAccount` and `delete` ends:
what the two-factor provider was told, what the directory answered, and where it stopped.
-/

import CloudOs.Resources.AccountsWrites

namespace CloudOs

open Prog

namespace AccountsResource

variable {env : Env} {w : World env.ctx}

/-! ### The whole of `update` -/

/-- How `update` ends. -/
inductive Updating (w : World env.ctx) (apiKey name : String) (request : Account)
    (t : World env.ctx) : Prop
  | refused (same : w.Same t) (provider : w.SameProvider t) : Updating w apiKey name request t
  | stops {account found : Account} {x : Exn} (reaches : Reaches w apiKey name request account found)
      (books : Bookkeeps w (asked account request) found (.error x) t) :
      Updating w apiKey name request t
  | runs {account found q : Account} {r : Except Exn Account} {v : World env.ctx}
      (reaches : Reaches w apiKey name request account found)
      (go : BooksGo env w.calls (asked account request) found)
      (books : Bookkeeps w (asked account request) found (.ok q) v)
      (updates : AccountDAO.Updates env v.calls w.directory q r t.directory)
      (provider : v.SameProvider t) : Updating w apiKey name request t

/-- **How `update` ends.** -/
theorem update_updating (apiKey name : String) (request : Account) :
    Ends (update env apiKey name request) w fun _ t => Updating w apiKey name request t := by
  simp only [update, ends_bind, ends_get]
  cases hsession : w.sessions apiKey with
  | none => exact .refused .refl ⟨rfl, rfl⟩
  | some account =>
    dsimp only
    split_ifs with hforbidden hself
    · exact .refused .refl ⟨rfl, rfl⟩
    · exact .refused .refl ⟨rfl, rfl⟩
    cases hfound : w.directory.findAccount name with
    | none => exact .refused .refl ⟨rfl, rfl⟩
    | some found =>
      have hreaches := reaches_of_guards hsession hforbidden hself hfound
      simp only [ends_bind]
      refine (updateTwoFactor_bookkeeps _ found).mono fun r v hend => ?_
      obtain ⟨hbooks, hgo⟩ := hend
      cases r with
      | error x => exact .stops hreaches hbooks
      | ok q =>
        simp only [ends_attempt]
        have hupdate := ((AccountDAO.update_updates (w := v) q).and (AccountDAO.provider_update q v))
        refine hupdate.mono fun r t ht => ?_
        obtain ⟨⟨dir, hupdates, hleaves⟩, hprovider⟩ := ht
        rw [hbooks.same.directory, ← hleaves.directory] at hupdates
        have hruns : ∀ u : World env.ctx, u.directory = t.directory → t.SameProvider u →
            Updating w apiKey name request u := fun u hdir hu =>
          .runs hreaches (hgo.1 ⟨q, rfl⟩) hbooks (hdir ▸ hupdates) (trans_of _ hprovider hu)
        cases r with
        | error x => exact hruns t rfl ⟨rfl, rfl⟩
        | ok a =>
          dsimp only
          split_ifs
          · simp only [ends_bind, ends_invalidateAllSessions, ends_pure]
            exact hruns _ rfl ⟨rfl, rfl⟩
          · simp only [ends_bind, ends_updateSession, ends_pure]
            exact hruns _ rfl ⟨rfl, rfl⟩

/-! ### The whole of `addAccount` and `delete` -/

/-- How `addAccount` ends. -/
inductive Adding (w : World env.ctx) (apiKey : String) (request : Account) (t : World env.ctx) : Prop
  | refused (same : w.Same t) (provider : w.SameProvider t) : Adding w apiKey request t
  | fails {admin q : Account} {v : World env.ctx} (session : w.sessions apiKey = some admin)
      (isAdmin : admin.isAdmin = true) (asks : Asks w request q v)
      (refuses : ¬ AccountDAO.AddGoes env (AccountDAO.afterPassword v.calls q + 1) w.directory q.name)
      (same : v.Same t) (provider : v.SameProvider t) : Adding w apiKey request t
  | adds {admin q : Account} {v : World env.ctx} (session : w.sessions apiKey = some admin)
      (isAdmin : admin.isAdmin = true) (asks : Asks w request q v)
      (goes : AccountDAO.AddGoes env (AccountDAO.afterPassword v.calls q + 1) w.directory q.name)
      (added : AccountDAO.Added w (AccountDAO.created env v.calls q) t)
      (provider : v.SameProvider t) : Adding w apiKey request t

/-- **How `addAccount` ends.** -/
theorem addAccount_adding (apiKey name : String) (request : Account) :
    Ends (addAccount env apiKey name request) w fun _ t => Adding w apiKey request t := by
  simp only [addAccount, ends_bind, ends_get]
  cases hsession : w.sessions apiKey with
  | none => exact .refused .refl ⟨rfl, rfl⟩
  | some admin =>
    dsimp only
    by_cases hadmin : admin.isAdmin = true
    swap
    · rw [if_pos (by simp [hadmin])]
      exact .refused .refl ⟨rfl, rfl⟩
    rw [if_neg (by simp [hadmin]), ends_bind]
    refine (asks_ends request).mono fun r v hend => ?_
    rcases hend with ⟨⟨x, rfl⟩, hs, hp⟩ | ⟨q, rfl, hasks⟩
    · exact .refused hs hp
    have hsame := hasks.same
    simp only [ends_bind, ends_attempt]
    have hcreate := (AccountDAO.create_creates (w := v) q).and (AccountDAO.provider_create q v)
    refine hcreate.mono fun r t ht => ?_
    obtain ⟨ht, hprovider⟩ := ht
    rw [hsame.directory] at ht
    have hend : ∀ u : World env.ctx, t.Same u → t.SameProvider u → Adding w apiKey request u := by
      intro u hu hu'
      rcases ht with ⟨hrefuses, -, hs⟩ | ⟨hgoes, hadded, -⟩
      · exact .fails hsession hadmin hasks hrefuses (hs.same_trans hu) (trans_of _ hprovider hu')
      · exact .adds hsession hadmin hasks hgoes ((hadded.of_same hsame).same_trans hu)
          (trans_of _ hprovider hu')
    cases r with
    | error x => exact hend t .refl ⟨rfl, rfl⟩
    | ok created =>
      simp only [ends_bind]
      have hsend := (respects_sendInvitation admin created.2 created.1.getPassword t).and
        (provider_sendInvitation admin created.2 created.1.getPassword t)
      refine hsend.mono fun r u hu => ?_
      cases r with
      | error x => exact hend u hu.1 hu.2
      | ok x => exact hend u hu.1 hu.2

/-- How `delete` ends. -/
inductive Deleting (w : World env.ctx) (apiKey name : String) (t : World env.ctx) : Prop
  | refused (same : w.Same t) (provider : w.SameProvider t) : Deleting w apiKey name t
  | unknown (none : w.directory.findAccount name = none) (same : w.Same t)
      (provider : w.SameProvider t) : Deleting w apiKey name t
  | fails {admin d : Account} {v : World env.ctx} (passes : DeletePasses w apiKey name admin)
      (stored : w.directory.findAccount name = some d) (forgets : Forgets w d v)
      (refuses : env.fails .ldap v.calls = true) (same : v.Same t) (provider : v.SameProvider t) :
      Deleting w apiKey name t
  | deletes {admin d : Account} {v : World env.ctx} (passes : DeletePasses w apiKey name admin)
      (stored : w.directory.findAccount name = some d) (forgets : Forgets w d v)
      (directory : t.directory = w.directory.eraseAccount (env.ctx.userDN name))
      (provider : v.SameProvider t) : Deleting w apiKey name t

/-- **How `delete` ends.** -/
theorem delete_deleting (apiKey name : String) :
    Ends (delete env apiKey name) w fun _ t => Deleting w apiKey name t := by
  simp only [delete, ends_bind, ends_get]
  cases hsession : w.sessions apiKey with
  | none => exact .refused .refl ⟨rfl, rfl⟩
  | some admin =>
    dsimp only
    split_ifs with hadmin hname
    · exact .refused .refl ⟨rfl, rfl⟩
    · exact .refused .refl ⟨rfl, rfl⟩
    have hpasses : DeletePasses w apiKey name admin := by
      simp only [Bool.or_eq_true, beq_iff_eq, not_or] at hname
      exact ⟨hsession, by simpa using hadmin, hname.1, hname.2⟩
    have hlower : w.directory.findAccount (env.ctx.toLowerCase name) = w.directory.findAccount name :=
      Directory.findAccount_congr _ (env.ctx.userDN_toLowerCase name)
    simp only [ends_bind, hlower]
    cases hfound : w.directory.findAccount name with
    | none =>
      simp only [forget2factor, ends_pure, ends_attempt]
      have hdelete := (AccountDAO.delete_deletes (w := w) (env.ctx.toLowerCase name)).and
        (AccountDAO.provider_delete (env.ctx.toLowerCase name) w)
      refine hdelete.mono fun r t ht => ?_
      have hsame : w.Same t := by
        rcases ht.1 with ⟨_, hs⟩ | ⟨_, hs⟩ | ⟨_, hsome, _⟩
        · exact hs
        · exact hs
        · rw [hlower, hfound] at hsome
          exact Bool.noConfusion hsome
      cases r <;> exact .unknown hfound hsame ht.2
    | some d =>
      refine (forget2factor_forgets d).mono fun r v hend => ?_
      rcases hend with ⟨⟨x, rfl⟩, hs, hp⟩ | ⟨rfl, hforgets⟩
      · exact .refused hs hp
      have hv := hforgets.same
      simp only [ends_attempt]
      have hdelete := (AccountDAO.delete_deletes (w := v) (env.ctx.toLowerCase name)).and
        (AccountDAO.provider_delete (env.ctx.toLowerCase name) v)
      refine hdelete.mono fun r t ht => ?_
      have hend : Deleting w apiKey name t := by
        rcases ht with ⟨⟨hnone, _⟩ | ⟨hfails, hs⟩ | ⟨_, _, hs⟩, hprovider⟩
        · rw [hv.directory, hlower, hfound] at hnone
          exact absurd hnone (Option.some_ne_none d)
        · exact .fails hpasses hfound hforgets hfails hs hprovider
        · refine .deletes hpasses hfound hforgets ?_ hprovider
          rw [hs.directory, hv.directory, env.ctx.userDN_toLowerCase]
      cases r <;> exact hend

/-- **How `changePassword` ends** for a caller who is no admin: it changes nothing, or writes the
caller's new password where the old one was given. -/
theorem changePassword_own {apiKey name : String} {u : Account} (hu : u.isAdmin = false)
    (hsession : ∀ s, w.sessions apiKey = some s → s = u) (request : ChangePasswordRequest) :
    Ends (changePassword env apiKey name request) w fun _ t => w.Same t ∨
      ∃ e, u.name = name ∧ w.directory.findAccount name = some e ∧
        AccountDAO.Knows e (some request.oldPassword) ∧
          w.Leaves (w.directory.putAccount (e.setPassword (some request.newPassword))) t := by
  simp only [changePassword, ends_bind, ends_get]
  cases hs : w.sessions apiKey with
  | none => exact Or.inl .refl
  | some account =>
    obtain rfl := hsession account hs
    dsimp only
    split_ifs with hforbidden
    · exact Or.inl .refl
    have hname : account.name = name := by simpa [hu] using hforbidden
    simp only [ends_bind, ends_attempt, changeTarget, hu, Bool.false_and, Bool.false_eq_true, if_false]
    refine (AccountDAO.changePassword_changes _ _ _).mono fun r t ht => ?_
    have hchanges : w.Same t ∨ ∃ e, account.name = name ∧ w.directory.findAccount name = some e ∧
        AccountDAO.Knows e (some request.oldPassword) ∧
          w.Leaves (w.directory.putAccount (e.setPassword (some request.newPassword))) t := by
      rcases ht with hsame | ⟨acc, e, hacc, he, hknows, hput⟩
      · exact Or.inl hsame
      · obtain rfl := Option.some.inj ((Directory.findAccount_name hacc).symm.trans he)
        exact Or.inr ⟨acc, hname, hacc, hknows, hput⟩
    cases r with
    | error x => cases x <;> exact hchanges
    | ok x => exact hchanges

end AccountsResource

end CloudOs

/-
# How the two-factor bookkeeping ends

`update` first tells the two-factor provider what the body makes of the account of
the path, and then writes the body.

| the body | the account of the path | what the provider is told |
| --- | --- | --- |
| off | on | forget the account's id |
| on | off | register the body's email and phone |
| as the account, with another phone | | forget the id, then register |
| as the account, with its phone | | nothing |

A call reads a number from a text first: `deleteUser` the id, `addUser` the country
code.  `BooksGo` says that the bookkeeping goes through, and `Bookkeeps` lists how it ends.
-/

import CloudOs.Resources.AccountsResource

namespace CloudOs

open Prog

namespace World

variable {ctx : LdapContext} (w : World ctx)

/-- `deleteUser` of `id` has gone through. -/
def forgotten (id : Option ℤ) : World ctx :=
  { w.called with twoFactorUsers := w.twoFactorUsers.filter fun u => some (u.id : ℤ) ≠ id }

/-- `addUser` of the account has gone through. -/
def registered (a : Account) (countryCode : String) : World ctx :=
  { w.called with
    twoFactorUsers := ⟨w.nextAuthId, a.getEmail, a.getMobilePhone, countryCode⟩ :: w.twoFactorUsers
    nextAuthId := w.nextAuthId + 1 }

end World

namespace AccountsResource

variable (env : Env)

/-- The id that `remove2factor` sends for the account, unless it throws before. -/
def sentId (a : Account) : Option (Option ℤ) :=
  match a.getAuthIdInt with
  | .ok id => if id = none ∧ env.deleteUserUnboxes then none else some id
  | .error _ => none

/-- The country code that `set2factor` sends for the account, unless it throws before. -/
def sentCode (a : Account) : Option String := a.getMobilePhoneCountryCodeString.toOption

/-- `remove2factor` goes through, its call being number `n`. -/
def RemoveGoes (n : ℕ) (a : Account) : Prop :=
  (sentId env a).isSome = true ∧ env.fails .twoFactor n = false

/-- `set2factor` goes through, its call being number `n`. -/
def RegisterGoes (n : ℕ) (request : Account) : Prop :=
  (sentCode request).isSome = true ∧ env.fails .twoFactor n = false

instance (n : ℕ) (a : Account) : Decidable (RemoveGoes env n a) :=
  inferInstanceAs (Decidable (_ ∧ _))

instance (n : ℕ) (a : Account) : Decidable (RegisterGoes env n a) :=
  inferInstanceAs (Decidable (_ ∧ _))

/-- What the bookkeeping is to do. -/
inductive Change
  | off | on | moved | none
  deriving DecidableEq, Repr

/-- The change that the body asks of the account of the path. -/
def change (request found : Account) : Change :=
  if !request.isTwoFactor && found.isTwoFactor then .off
  else if request.isTwoFactor && !found.isTwoFactor then .on
  else if request.getMobilePhone ≠ found.getMobilePhone then .moved
  else .none

/-- How many calls to the provider a change takes. -/
def Change.calls : Change → ℕ
  | off => 1
  | on => 1
  | moved => 2
  | none => 0

/-- The bookkeeping goes through, its first call being number `n`. -/
def BooksGo (n : ℕ) (request found : Account) : Prop :=
  match change request found with
  | .off => RemoveGoes env n found
  | .on => RegisterGoes env n request
  | .moved => request.getMobilePhone ≠ Option.none ∧ RemoveGoes env n found ∧
      RegisterGoes env (n + 1) request
  | .none => request.getMobilePhone ≠ Option.none

variable {env} {w : World env.ctx}

/-! ### The two calls -/

theorem ends_deleteUser_iff (id : Option ℤ) (Q : Except Exn PUnit → World env.ctx → Prop) :
    Ends (deleteUser env id) w Q ↔
      if id = none ∧ env.deleteUserUnboxes then Q (.error .nullPointer) w
      else if env.fails .twoFactor w.calls then Q (.error (.failed .twoFactor)) w.called
      else Q (.ok ⟨⟩) (w.forgotten id) := by
  unfold deleteUser
  split_ifs with hnull hfails
  · exact Iff.rfl
  · rw [ends_bind, ends_call, if_pos hfails]
  · rw [ends_bind, ends_call, if_neg hfails]
    exact Iff.rfl

/-- **How `remove2factor` ends.** -/
theorem remove2factor_ends (a : Account) : Ends (remove2factor env a) w fun r t =>
    (∃ id, sentId env a = some id ∧ RemoveGoes env w.calls a ∧ r = .ok ⟨⟩ ∧ t = w.forgotten id) ∨
    (¬ RemoveGoes env w.calls a ∧ (∃ x, r = .error x) ∧ w.Same t ∧ w.SameProvider t) := by
  simp only [remove2factor, ends_bind, ends_reads]
  cases hid : a.getAuthIdInt with
  | error x =>
    have hsent : sentId env a = none := by rw [sentId, hid]
    exact Or.inr ⟨fun hgoes => by simp [RemoveGoes, hsent] at hgoes, ⟨_, rfl⟩, .refl, ⟨rfl, rfl⟩⟩
  | ok id =>
    dsimp only
    rw [ends_deleteUser_iff]
    split_ifs with hnull hfails
    · have hsent : sentId env a = none := by rw [sentId, hid]; exact if_pos hnull
      exact Or.inr ⟨fun hgoes => by simp [RemoveGoes, hsent] at hgoes, ⟨_, rfl⟩, .refl, ⟨rfl, rfl⟩⟩
    · exact Or.inr ⟨fun hgoes => by simp [RemoveGoes, hfails] at hgoes, ⟨_, rfl⟩, ⟨rfl, rfl, rfl⟩,
        ⟨rfl, rfl⟩⟩
    · have hsent : sentId env a = some id := by rw [sentId, hid]; exact if_neg hnull
      exact Or.inl ⟨id, hsent, ⟨by rw [hsent]; rfl, Bool.eq_false_iff.2 hfails⟩, rfl, rfl⟩

/-- **How `set2factor` ends.** -/
theorem set2factor_registers (request : Account) : Ends (set2factor env request) w fun r t =>
    (∃ code, sentCode request = some code ∧ RegisterGoes env w.calls request ∧
      r = .ok (request.setAuthIdInt w.nextAuthId) ∧ t = w.registered request code) ∨
    (¬ RegisterGoes env w.calls request ∧ (∃ x, r = .error x) ∧ w.Same t ∧ w.SameProvider t) := by
  simp only [set2factor, ends_bind, ends_reads]
  cases hcode : request.getMobilePhoneCountryCodeString with
  | error x =>
    have hsent : sentCode request = none := by rw [sentCode, hcode]; rfl
    exact Or.inr ⟨fun hgoes => by simp [RegisterGoes, hsent] at hgoes, ⟨_, rfl⟩, .refl, ⟨rfl, rfl⟩⟩
  | ok code =>
    have hsent : sentCode request = some code := by rw [sentCode, hcode]; rfl
    simp only [addUser, ends_bind, ends_call]
    by_cases hfails : env.fails .twoFactor w.calls = true
    · rw [if_pos hfails]
      exact Or.inr ⟨fun hgoes => by simp [RegisterGoes, hfails] at hgoes, ⟨_, rfl⟩, ⟨rfl, rfl, rfl⟩,
        ⟨rfl, rfl⟩⟩
    · rw [if_neg hfails]
      exact Or.inl ⟨code, hsent, ⟨by rw [hsent]; rfl, Bool.eq_false_iff.2 hfails⟩, rfl, rfl⟩

/-! ### The bookkeeping -/

/-- How the bookkeeping ends. -/
inductive Bookkeeps (w : World env.ctx) (request found : Account) :
    Except Exn Account → World env.ctx → Prop
  | stops {x : Exn} {t : World env.ctx} (same : w.Same t) (provider : w.SameProvider t) :
      Bookkeeps w request found (.error x) t
  | off {id : Option ℤ} (change : change request found = .off) (sent : sentId env found = some id) :
      Bookkeeps w request found (.ok request) (w.forgotten id)
  | on {code : String} (change : change request found = .on) (sent : sentCode request = some code) :
      Bookkeeps w request found (.ok (request.setAuthIdInt w.nextAuthId)) (w.registered request code)
  | forgets {x : Exn} {id : Option ℤ} {t : World env.ctx} (change : change request found = .moved)
      (phone : request.getMobilePhone ≠ none) (sent : sentId env found = some id) (same : (w.forgotten id).Same t)
      (provider : (w.forgotten id).SameProvider t) (removes : RemoveGoes env w.calls found)
      (fails : ¬ RegisterGoes env (w.calls + 1) request) :
      Bookkeeps w request found (.error x) t
  | moved {id : Option ℤ} {code : String} (change : change request found = .moved)
      (sent : sentId env found = some id) (sentCode : sentCode request = some code) :
      Bookkeeps w request found (.ok (request.setAuthIdInt w.nextAuthId))
        ((w.forgotten id).registered request code)
  | none (change : change request found = .none) : Bookkeeps w request found (.ok request) w

/-- The bookkeeping changes no store. -/
theorem Bookkeeps.same {request found : Account} {r : Except Exn Account} {t : World env.ctx}
    (h : Bookkeeps w request found r t) : w.Same t := by
  cases h with
  | stops same _ => exact same
  | off _ _ => exact ⟨rfl, rfl, rfl⟩
  | on _ _ => exact ⟨rfl, rfl, rfl⟩
  | forgets _ _ _ same _ _ _ => exact ⟨same.directory, same.sessions, same.keyFile⟩
  | moved _ _ _ => exact ⟨rfl, rfl, rfl⟩
  | none _ => exact .refl

/-- The body that is written is the body that was sent, with or without a new id. -/
theorem Bookkeeps.withAuthId {request found q : Account} {t : World env.ctx}
    (h : Bookkeeps w request found (.ok q) t) : WithAuthId request q := by
  cases h with
  | off _ _ => exact Or.inl rfl
  | on _ _ => exact Or.inr ⟨_, rfl⟩
  | moved _ _ _ => exact Or.inr ⟨_, rfl⟩
  | none _ => exact Or.inl rfl

/-- The bookkeeping that goes through makes the calls of its change. -/
theorem Bookkeeps.calls {request found q : Account} {t : World env.ctx}
    (h : Bookkeeps w request found (.ok q) t) :
    t.calls = w.calls + (change request found).calls := by
  cases h with
  | off change _ => rw [change]; rfl
  | on change _ => rw [change]; rfl
  | moved change _ _ => rw [change]; rfl
  | none change => rw [change]; rfl

/-- **How the bookkeeping ends.** -/
theorem updateTwoFactor_bookkeeps (request found : Account) :
    Ends (updateTwoFactor env request found) w fun r t => Bookkeeps w request found r t ∧
      ((∃ q, r = .ok q) ↔ BooksGo env w.calls request found) := by
  unfold updateTwoFactor
  by_cases hoff : (!request.isTwoFactor && found.isTwoFactor) = true
  · have hchange : change request found = .off := by rw [change, if_pos hoff]
    rw [if_pos hoff, ends_bind]
    simp only [BooksGo, hchange]
    refine (remove2factor_ends found).mono fun r t hend => ?_
    rcases hend with ⟨id, hsent, hgoes, rfl, rfl⟩ | ⟨hgoes, ⟨x, rfl⟩, hs, hp⟩
    · exact ⟨.off hchange hsent, fun _ => hgoes, fun _ => ⟨_, rfl⟩⟩
    · exact ⟨.stops hs hp, fun h => of_error_eq_ok h.choose_spec, fun h => absurd h hgoes⟩
  rw [if_neg hoff]
  by_cases hon : (request.isTwoFactor && !found.isTwoFactor) = true
  · have hchange : change request found = .on := by rw [change, if_neg hoff, if_pos hon]
    rw [if_pos hon]
    simp only [BooksGo, hchange]
    refine (set2factor_registers request).mono fun r t hend => ?_
    rcases hend with ⟨code, hsent, hgoes, rfl, rfl⟩ | ⟨hgoes, ⟨x, rfl⟩, hs, hp⟩
    · exact ⟨.on hchange hsent, fun _ => hgoes, fun _ => ⟨_, rfl⟩⟩
    · exact ⟨.stops hs hp, fun h => of_error_eq_ok h.choose_spec, fun h => absurd h hgoes⟩
  rw [if_neg hon]
  by_cases hmoved : request.getMobilePhone ≠ found.getMobilePhone
  · have hchange : change request found = .moved := by
      rw [change, if_neg hoff, if_neg hon, if_pos hmoved]
    simp only [BooksGo, hchange]
    cases hphone : request.getMobilePhone with
    | none => exact ⟨.stops .refl ⟨rfl, rfl⟩, fun h => of_error_eq_ok h.choose_spec, fun h => absurd rfl h.1⟩
    | some phone =>
      dsimp only
      rw [hphone] at hmoved
      rw [if_pos (bne_iff_ne.2 hmoved), ends_bind]
      refine (remove2factor_ends found).mono fun r v hend => ?_
      rcases hend with ⟨id, hsent, hgoes, rfl, rfl⟩ | ⟨hgoes, ⟨x, rfl⟩, hs, hp⟩
      · refine (set2factor_registers request).mono fun r t hend => ?_
        rcases hend with ⟨code, hsent', hgoes', rfl, rfl⟩ | ⟨hgoes', ⟨x, rfl⟩, hs, hp⟩
        · exact ⟨.moved hchange hsent hsent',
            fun _ => ⟨Option.some_ne_none phone, hgoes, hgoes'⟩, fun _ => ⟨_, rfl⟩⟩
        · exact ⟨.forgets hchange (hphone ▸ Option.some_ne_none phone) hsent hs hp hgoes hgoes',
            fun h => of_error_eq_ok h.choose_spec, fun h => absurd h.2.2 hgoes'⟩
      · exact ⟨.stops hs hp, fun h => of_error_eq_ok h.choose_spec, fun h => absurd h.2.1 hgoes⟩
  · have hchange : change request found = .none := by
      rw [change, if_neg hoff, if_neg hon, if_neg hmoved]
    simp only [BooksGo, hchange]
    rw [ne_eq, not_not] at hmoved
    cases hphone : request.getMobilePhone with
    | none => exact ⟨.stops .refl ⟨rfl, rfl⟩, fun h => of_error_eq_ok h.choose_spec, fun h => absurd rfl h⟩
    | some phone =>
      have hsame : ¬ ((some phone != found.getMobilePhone) = true) := by
        rw [← hmoved, hphone]
        simp
      dsimp only
      rw [if_neg hsame]
      exact ⟨.none hchange, fun _ => Option.some_ne_none phone, fun _ => ⟨_, rfl⟩⟩

/-- What `addAccount` asks of the provider before it creates the account of `request`: the
request as it is created, and the state then. -/
inductive Asks (w : World env.ctx) (request : Account) : Account → World env.ctx → Prop
  | registers {code : String} (twoFactor : request.isTwoFactor = true)
      (sent : sentCode request = some code) (goes : RegisterGoes env w.calls request) :
      Asks w request (request.setAuthIdInt w.nextAuthId) (w.registered request code)
  | nothing (twoFactor : request.isTwoFactor = false) : Asks w request request w

theorem Asks.same {request q : Account} {v : World env.ctx} (h : Asks w request q v) : w.Same v := by
  cases h with
  | registers _ _ _ => exact ⟨rfl, rfl, rfl⟩
  | nothing _ => exact .refl

theorem Asks.withAuthId {request q : Account} {v : World env.ctx} (h : Asks w request q v) :
    WithAuthId request q := by
  cases h with
  | registers _ _ _ => exact Or.inr ⟨_, rfl⟩
  | nothing _ => exact Or.inl rfl

theorem asks_ends (request : Account) :
    Ends (if request.isTwoFactor then set2factor env request else pure request) w fun r v =>
      ((∃ x, r = .error x) ∧ w.Same v ∧ w.SameProvider v) ∨ ∃ q, r = .ok q ∧ Asks w request q v := by
  split_ifs with htwoFactor
  · refine (set2factor_registers request).mono fun r v hend => ?_
    rcases hend with ⟨code, hsent, hgoes, rfl, rfl⟩ | ⟨-, hx, hs, hp⟩
    · exact Or.inr ⟨_, rfl, .registers htwoFactor hsent hgoes⟩
    · exact Or.inl ⟨hx, hs, hp⟩
  · exact Or.inr ⟨_, rfl, .nothing (Bool.eq_false_iff.2 htwoFactor)⟩

/-- What `delete` tells the provider of the account `d` before it deletes it, and the state
then. -/
inductive Forgets (w : World env.ctx) (d : Account) : World env.ctx → Prop
  | removes {id : Option ℤ} (hasAuthId : d.hasAuthId = true) (sent : sentId env d = some id)
      (goes : RemoveGoes env w.calls d) : Forgets w d (w.forgotten id)
  | nothing (hasAuthId : d.hasAuthId = false) : Forgets w d w

theorem Forgets.same {d : Account} {v : World env.ctx} (h : Forgets w d v) : w.Same v := by
  cases h with
  | removes _ _ _ => exact ⟨rfl, rfl, rfl⟩
  | nothing _ => exact .refl

theorem forget2factor_forgets (d : Account) : Ends (forget2factor env (some d)) w fun r v =>
    ((∃ x, r = .error x) ∧ w.Same v ∧ w.SameProvider v) ∨ (r = .ok ⟨⟩ ∧ Forgets w d v) := by
  unfold forget2factor
  dsimp only
  split_ifs with hauth
  · refine (remove2factor_ends d).mono fun r v hend => ?_
    rcases hend with ⟨id, hsent, hgoes, rfl, rfl⟩ | ⟨-, hx, hs, hp⟩
    · exact Or.inr ⟨rfl, .removes hauth hsent hgoes⟩
    · exact Or.inl ⟨hx, hs, hp⟩
  · exact Or.inr ⟨rfl, .nothing (Bool.eq_false_iff.2 hauth)⟩

theorem provider_sendInvitation (admin created : Account) (password : Option String) :
    Respects World.SameProvider (sendInvitation env admin created password) :=
  (provider_deliverMessage _).attempt.bind fun _ => Respects.pure _

end AccountsResource

end CloudOs

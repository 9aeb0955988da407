/-
# Calls in a row

Most methods of the server make a fixed row of calls to outside systems, and throw as soon as
one of them fails.  `Makes m w calls a dir` says that of a method: with these calls it ends with
`a` and leaves the directory `dir` if all of them go through, and it throws otherwise.  The
rules below put the row of a method together from the rows of its parts.

A call whose failure cannot be noticed (the draw of a number) stands as `none` in a row.
-/

import CloudOs.Dao.AccountDAO

namespace CloudOs

open Prog

variable {env : Env}

/-- The calls go through, one after the other, from call number `n` on. -/
def CallsGo (env : Env) : ℕ → List (Option External) → Prop
  | _, [] => True
  | n, none :: calls => CallsGo env (n + 1) calls
  | n, some sys :: calls => env.fails sys n = false ∧ CallsGo env (n + 1) calls

instance decidableCallsGo : ∀ (n : ℕ) (calls : List (Option External)), Decidable (CallsGo env n calls)
  | _, [] => inferInstanceAs (Decidable True)
  | n, none :: calls => decidableCallsGo (n + 1) calls
  | n, some sys :: calls =>
    have := decidableCallsGo (n + 1) calls
    inferInstanceAs (Decidable (env.fails sys n = false ∧ CallsGo env (n + 1) calls))

/-- The method makes these calls from the state `w`: it ends with `a` and leaves the directory `dir`
if they go through, and throws otherwise. -/
def Makes {α : Type} (m : Server env α) (w : World env.ctx) (calls : List (Option External)) (a : α)
    (dir : Directory env.ctx) : Prop :=
  Ends m w fun r t =>
    (CallsGo env w.calls calls →
      r = .ok a ∧ t.calls = w.calls + calls.length ∧ t.directory = dir) ∧
    (¬ CallsGo env w.calls calls → ∃ e, r = .error e)

/-- A row of calls is made one part after the other. -/
theorem callsGo_append (n : ℕ) (calls later : List (Option External)) :
    CallsGo env n (calls ++ later) ↔
      CallsGo env n calls ∧ CallsGo env (n + calls.length) later := by
  induction calls generalizing n with
  | nil => exact (and_iff_right trivial).symm
  | cons sys calls ih =>
    rw [List.cons_append, List.length_cons, Nat.add_comm _ 1, ← Nat.add_assoc]
    cases sys with
    | none => exact ih (n + 1)
    | some sys => rw [CallsGo, CallsGo, ih, and_assoc]

/-- The same call for each element of a list. -/
theorem callsGo_map_some {α : Type} (n : ℕ) (sys : External) (l : List α) :
    CallsGo env n (l.map fun _ => some sys) ↔ ∀ i < l.length, env.fails sys (n + i) = false := by
  induction l generalizing n with
  | nil => exact iff_of_true trivial fun i hi => absurd hi (Nat.not_lt_zero i)
  | cons x l ih =>
    rw [List.map_cons, CallsGo, ih, List.length_cons]
    constructor
    · rintro ⟨hfirst, hrest⟩ i hi
      cases i with
      | zero => exact hfirst
      | succ i =>
        rw [Nat.add_comm i 1, ← Nat.add_assoc]
        exact hrest i (Nat.lt_of_succ_lt_succ hi)
    · refine fun h => ⟨h 0 (Nat.succ_pos _), fun i hi => ?_⟩
      have hnext := h (i + 1) (Nat.succ_lt_succ hi)
      rwa [Nat.add_comm i 1, ← Nat.add_assoc] at hnext

namespace Makes

variable {α β : Type} {m : Server env α} {f : α → Server env β} {w : World env.ctx}
  {calls later : List (Option External)} {a : α} {b : β} {dir dir' : Directory env.ctx}

/-- The method ends normally exactly when its calls go through. -/
theorem ok_iff (h : Makes m w calls a dir) :
    Ends m w fun r _ => (∃ a, r = .ok a) ↔ CallsGo env w.calls calls := by
  refine Ends.mono h fun r t hend => ?_
  by_cases hgo : CallsGo env w.calls calls
  · exact iff_of_true ⟨a, (hend.1 hgo).1⟩ hgo
  · obtain ⟨e, rfl⟩ := hend.2 hgo
    exact iff_of_false not_exists_error_eq_ok hgo

protected theorem pure (a : α) : Makes (pure a : Server env α) w [] a w.directory :=
  ⟨fun _ => ⟨rfl, rfl, rfl⟩, fun h => absurd trivial h⟩

/-- One call. -/
protected theorem call (sys : External) :
    Makes (CloudOs.call env sys) w [some sys] ⟨⟩ w.directory := by
  unfold Makes
  rw [ends_call]
  cases hfails : env.fails sys w.calls with
  | true => exact ⟨fun h => absurd (hfails.symm.trans h.1) Bool.noConfusion, fun _ => ⟨_, rfl⟩⟩
  | false => exact ⟨fun _ => ⟨rfl, rfl, rfl⟩, fun h => absurd ⟨hfails, trivial⟩ h⟩

protected theorem draw : Makes (CloudOs.draw env) w [none] w.calls w.directory :=
  ⟨fun _ => ⟨rfl, rfl, rfl⟩, fun h => absurd trivial h⟩

/-- A request that the directory does not refuse. -/
protected theorem ldapRequest {refuses : Directory env.ctx → Bool}
    {f : Directory env.ctx → Directory env.ctx} (h : refuses w.directory = false) :
    Makes (CloudOs.ldapRequest env refuses f) w [some .ldap] ⟨⟩ (f w.directory) := by
  unfold Makes
  rw [ends_ldapRequest_iff, h]
  cases hfails : env.fails .ldap w.calls with
  | true =>
    rw [if_pos (Or.inl rfl)]
    exact ⟨fun h => absurd (hfails.symm.trans h.1) Bool.noConfusion, fun _ => ⟨_, rfl⟩⟩
  | false =>
    rw [if_neg (by simp)]
    exact ⟨fun _ => ⟨rfl, rfl, rfl⟩, fun h => absurd ⟨hfails, trivial⟩ h⟩

/-- A change to a part of the state that no call reads. -/
protected theorem modify {f : World env.ctx → World env.ctx} (hcalls : (f w).calls = w.calls)
    (hdir : (f w).directory = w.directory) :
    Makes (modify f : Server env PUnit) w [] ⟨⟩ w.directory :=
  ⟨fun _ => ⟨rfl, hcalls, hdir⟩, fun h => absurd trivial h⟩

protected theorem get_bind {f : World env.ctx → Server env β} (h : Makes (f w) w calls b dir) :
    Makes (get >>= f) w calls b dir := by
  unfold Makes
  simp only [ends_bind, ends_get]
  exact h

/-- Once the first calls have gone through, the later ones decide about the whole row. -/
theorem ends_later {n : Server env β} {t : World env.ctx} (hgo : CallsGo env w.calls calls)
    (hcalls : t.calls = w.calls + calls.length) (h : Makes n t later b dir') :
    Ends n t fun r u =>
      (CallsGo env w.calls (calls ++ later) →
        r = .ok b ∧ u.calls = w.calls + (calls ++ later).length ∧ u.directory = dir') ∧
      (¬ CallsGo env w.calls (calls ++ later) → ∃ e, r = .error e) := by
  refine h.mono fun r u hend => ?_
  rw [hcalls] at hend
  rw [callsGo_append, and_iff_right hgo, List.length_append, ← Nat.add_assoc]
  exact hend

/-- **The rule of sequence.**  The second part makes its calls after those of the first. -/
protected theorem bind (h : Makes m w calls a dir)
    (hf : ∀ t, t.calls = w.calls + calls.length → t.directory = dir →
      Makes (f a) t later b dir') : Makes (m >>= f) w (calls ++ later) b dir' := by
  unfold Makes
  rw [ends_bind]
  refine Ends.mono h fun r t hend => ?_
  by_cases hgo : CallsGo env w.calls calls
  · obtain ⟨rfl, hcalls, hdir⟩ := hend.1 hgo
    exact ends_later hgo hcalls (hf t hcalls hdir)
  · obtain ⟨e, rfl⟩ := hend.2 hgo
    exact ⟨fun hall => absurd ((callsGo_append _ _ _).1 hall).1 hgo, fun _ => ⟨e, rfl⟩⟩

/-- A method that answers after its last call. -/
protected theorem bind_pure (h : Makes m w calls a dir) (hf : f a = pure b) :
    Makes (m >>= f) w calls b dir := by
  rw [← List.append_nil calls]
  refine h.bind fun t _ hdir => ?_
  rw [hf, ← hdir]
  exact Makes.pure b

/-- A `catch` that throws again lets the calls of its `try` stand. -/
protected theorem rethrow {f : Except Exn α → Server env β} {wrap : Exn → Exn}
    (herror : ∀ e, f (.error e) = throw (wrap e)) (h : Makes m w calls a dir)
    (hf : ∀ t, t.calls = w.calls + calls.length → t.directory = dir →
      Makes (f (.ok a)) t later b dir') : Makes (attempt m >>= f) w (calls ++ later) b dir' := by
  unfold Makes
  rw [ends_bind, ends_attempt]
  refine Ends.mono h fun r t hend => ?_
  by_cases hgo : CallsGo env w.calls calls
  · obtain ⟨rfl, hcalls, hdir⟩ := hend.1 hgo
    exact ends_later hgo hcalls (hf t hcalls hdir)
  · obtain ⟨e, rfl⟩ := hend.2 hgo
    dsimp only
    rw [herror]
    exact ⟨fun hall => absurd ((callsGo_append _ _ _).1 hall).1 hgo, fun _ => ⟨_, rfl⟩⟩

protected theorem writeRooty (message : RootyMessage) :
    Makes (CloudOs.writeRooty env message) w [some .rooty] ⟨⟩ w.directory :=
  (Makes.call .rooty).bind fun _ _ hdir => hdir ▸ Makes.modify rfl rfl

/-- A loop that writes a message for some of its elements. -/
theorem forM_writeRooty {hasScript : α → Bool} (message : α → RootyMessage) (l : List α) :
    Makes (l.forM fun x => if hasScript x then CloudOs.writeRooty env (message x) else pure ⟨⟩) w
      ((l.filter hasScript).map fun _ => some .rooty) ⟨⟩ w.directory := by
  induction l generalizing w with
  | nil => exact Makes.pure _
  | cons x l ih =>
    rw [List.forM]
    by_cases hx : hasScript x = true
    · rw [if_pos hx, List.filter_cons_of_pos hx, List.map_cons]
      exact (Makes.writeRooty _).bind fun t _ hdir => hdir ▸ ih
    · rw [if_neg hx, List.filter_cons_of_neg hx]
      exact (Makes.pure _).bind fun t _ hdir => hdir ▸ ih

end Makes

namespace AccountDAO

/-- The calls of a message to the apps that have a script. -/
def broadcastCalls (env : Env) (hasScript : AppRuntime → Bool) : List (Option External) :=
  some .apps :: (env.availableRuntimes.filter fun r => r.hasUserManagement && hasScript r).map
    fun _ => some .rooty

variable {w : World env.ctx}

theorem makes_broadcast (hasScript : AppRuntime → Bool) (type : AppScriptMessageType)
    (args : List String) :
    Makes (broadcast env hasScript type args) w (broadcastCalls env hasScript) ⟨⟩ w.directory := by
  have happs : Makes (getAvailableRuntimes env) w [some .apps] env.availableRuntimes w.directory :=
    (Makes.call .apps).bind_pure rfl
  refine happs.bind fun t _ hdir => hdir ▸ ?_
  exact Makes.forM_writeRooty (fun r : AppRuntime => .appScript r.name type args) _

end AccountDAO

end CloudOs

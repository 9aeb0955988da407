/-
# The app caches and deadlocks

Threads that call `getAvailableAppDetails`, `getAvailableRuntimes` and `resetApps` are meant
never to deadlock.

`getAvailableAppDetails` enters `appDetails` and then `apps`; `resetApps` enters them the
other way round.  The second entry of `getAvailableAppDetails` is made only when `apps` is
`null`, so that a deadlock takes a schedule:

| thread | stands at |
| --- | --- |
| `resetApps` | the entry of `appDetails`, inside `apps` |
| `getAvailableAppDetails` | the entry of `apps`, inside `appDetails` |

The one that comes there last makes the deadlock.  Runs where neither comes there while the
other stands there are the runs without deadlock.
-/

import CloudOs.Dao.AppCaches

namespace CloudOs

open AppCaches Monitors

namespace Apps

variable {T ρ δ : Type*}

/-- Some threads all wait for each other. -/
def Deadlocked (s : State T ρ δ) : Prop := Monitors.Deadlocked Pc.entering s.caches.owner s.pc

/-- The event sends no thread into a second monitor against another one.

* `resetApps` enters `apps` while no `getAvailableAppDetails` waits for it.
* `getAvailableAppDetails` finds no runtimes while no `resetApps` waits for `appDetails`. -/
def KeepsOrder (s : State T ρ δ) : Event T ρ → Prop
  | .call _ _ => True
  | .step t _ => match s.pc t with
    | .resetApps .enterApps => s.caches.owner .apps = none →
        ∀ u, s.pc u ≠ .getAvailableAppDetails (.runtimes .enter)
    | .getAvailableAppDetails (.runtimes .check) => s.caches.apps = none →
        ∀ u, s.pc u ≠ .resetApps .enterDetails
    | _ => True

/-! ### The two places -/

theorem eq_enterDetails_iff {pc : Pc ρ δ} : pc = .resetApps .enterDetails ↔
    Monitor.apps ∈ pc.holds ∧ pc.entering = some .appDetails := by
  constructor
  · rintro rfl
    exact ⟨rfl, rfl⟩
  · rintro ⟨hholds, hentering⟩
    unfold Pc.entering at hentering
    split at hentering <;> simp_all [Pc.holds]

theorem eq_runtimes_enter_iff {pc : Pc ρ δ} : pc = .getAvailableAppDetails (.runtimes .enter) ↔
    Monitor.appDetails ∈ pc.holds ∧ pc.entering = some .apps := by
  constructor
  · rintro rfl
    exact ⟨Or.inl rfl, rfl⟩
  · rintro ⟨hholds, hentering⟩
    unfold Pc.entering at hentering
    split at hentering <;> simp_all [Pc.holds, Next.holds]

/-- **Deadlocks of the caches.** -/
theorem deadlocked_iff {s : State T ρ δ} (h : Accounted s) :
    Deadlocked s ↔ ∃ t u, s.pc t = .resetApps .enterDetails ∧
      s.pc u = .getAvailableAppDetails (.runtimes .enter) := by
  have htwo : ∀ m : Monitor, m = .apps ∨ m = .appDetails := fun m => by cases m <;> simp
  rw [Deadlocked, deadlocked_iff_crossed (by decide) htwo h]
  constructor
  · rintro ⟨t, u, -, hta, htd, hud, hua⟩
    exact ⟨t, u, eq_enterDetails_iff.2 ⟨hta, htd⟩, eq_runtimes_enter_iff.2 ⟨hud, hua⟩⟩
  · rintro ⟨t, u, ht, hu⟩
    obtain ⟨hta, htd⟩ := eq_enterDetails_iff.1 ht
    obtain ⟨hud, hua⟩ := eq_runtimes_enter_iff.1 hu
    refine ⟨t, u, ?_, hta, htd, hud, hua⟩
    rintro rfl
    rw [ht] at hu
    simp at hu

/-- At the entry of a monitor a thread stays, or goes on when the monitor is free. -/
theorem eq_of_enter {α : Type*} {c : Caches T ρ δ} {m : Monitor} {t : T} {here next x : α}
    (h : (c.enter m t here next).2 = x) : here = x ∨ (next = x ∧ c.owner m = none) := by
  unfold Caches.enter at h
  cases howner : c.owner m with
  | none =>
    rw [howner] at h
    exact Or.inr ⟨h, rfl⟩
  | some u =>
    rw [howner] at h
    exact Or.inl h

/-- A thread comes to the entry of `appDetails` in `resetApps` from that of `apps`. -/
theorem advance_enterDetails {getDetails : ρ → δ} {t : T} {loaded : Except Exn (AppMap ρ)}
    {c : Caches T ρ δ} {pc : Pc ρ δ}
    (h : (advance getDetails t loaded c pc).2 = .resetApps .enterDetails) :
    pc = .resetApps .enterDetails ∨ (pc = .resetApps .enterApps ∧ c.owner .apps = none) := by
  have hdetails : ∀ n : Next ρ, (n.inDetails : Pc ρ δ) ≠ .resetApps .enterDetails := by
    rintro (_ | map | _)
    · simp [Next.inDetails]
    · cases map <;> simp [Next.inDetails]
    · simp [Next.inDetails]
  cases pc with
  | outside last => simp [advance] at h
  | getAvailableAppDetails pc =>
    cases pc with
    | runtimes pc => exact absurd h (hdetails _)
    | enter => rcases eq_of_enter h with h | ⟨h, -⟩ <;> simp at h
    | exit thrown => cases thrown <;> simp [advance, stepDetails] at h
    | _ => simp [advance, stepDetails] at h
  | getAvailableRuntimes pc =>
    simp only [advance] at h
    generalize (stepRuntimes t loaded c pc).2 = n at h
    cases n <;> simp [Next.alone] at h
  | resetApps pc =>
    cases pc with
    | enterApps =>
      rcases eq_of_enter h with h | ⟨-, hfree⟩
      · simp at h
      · exact Or.inr ⟨rfl, hfree⟩
    | enterDetails => exact Or.inl rfl
    | _ => simp [advance, stepReset] at h

theorem stepRuntimes_enter {t : T} {loaded : Except Exn (AppMap ρ)} {c : Caches T ρ δ}
    {pc : RuntimesPc} (h : (stepRuntimes t loaded c pc).2 = .go .enter) :
    pc = .enter ∨ (pc = .check ∧ c.apps = none) := by
  cases pc with
  | check =>
    refine Or.inr ⟨rfl, ?_⟩
    by_contra hsome
    simp [stepRuntimes, hsome] at h
  | enter => exact Or.inl rfl
  | recheck =>
    simp only [stepRuntimes] at h
    split_ifs at h <;> simp at h
  | init => cases loaded <;> simp [stepRuntimes] at h
  | exit thrown => cases thrown <;> simp [stepRuntimes] at h
  | ret => simp [stepRuntimes] at h

/-- A thread comes to the entry of `apps` in `getAvailableAppDetails` when there are no
runtimes. -/
theorem advance_runtimes_enter {getDetails : ρ → δ} {t : T} {loaded : Except Exn (AppMap ρ)}
    {c : Caches T ρ δ} {pc : Pc ρ δ}
    (h : (advance getDetails t loaded c pc).2 = .getAvailableAppDetails (.runtimes .enter)) :
    pc = .getAvailableAppDetails (.runtimes .enter) ∨
      (pc = .getAvailableAppDetails (.runtimes .check) ∧ c.apps = none) := by
  have hgo : ∀ n : Next ρ, (n.inDetails : Pc ρ δ) = .getAvailableAppDetails (.runtimes .enter) →
      n = .go .enter := by
    rintro (_ | map | _) hn
    · simpa [Next.inDetails] using hn
    · cases map <;> simp [Next.inDetails] at hn
    · simp [Next.inDetails] at hn
  cases pc with
  | outside last => simp [advance] at h
  | getAvailableAppDetails pc =>
    cases pc with
    | runtimes pc =>
      rcases stepRuntimes_enter (hgo _ h) with rfl | ⟨rfl, happs⟩
      · exact Or.inl rfl
      · exact Or.inr ⟨rfl, happs⟩
    | check =>
      simp only [advance, stepDetails] at h
      split_ifs at h <;> simp at h
    | enter => rcases eq_of_enter h with h | ⟨h, -⟩ <;> simp at h
    | recheck =>
      simp only [advance, stepDetails] at h
      split_ifs at h <;> simp at h
    | set map => simp [advance, stepDetails] at h
    | exit thrown => cases thrown <;> simp [advance, stepDetails] at h
    | ret => simp [advance, stepDetails] at h
  | getAvailableRuntimes pc =>
    simp only [advance] at h
    generalize (stepRuntimes t loaded c pc).2 = n at h
    cases n <;> simp [Next.alone] at h
  | resetApps pc =>
    cases pc with
    | enterApps => rcases eq_of_enter h with h | ⟨h, -⟩ <;> simp at h
    | enterDetails => rcases eq_of_enter h with h | ⟨h, -⟩ <;> simp at h
    | _ => simp [advance, stepReset] at h

/-- A thread that calls a method comes to neither place. -/
theorem eq_of_call {method : Method} {pc x : Pc ρ δ} (h : pc.call method = x)
    (hx : x ≠ method.start) : pc = x := by
  cases pc with
  | outside last => exact absurd h.symm hx
  | _ => exact h

/-! ### One event -/

/-- After a call a thread that does not stand at the start of the method stands where it stood. -/
theorem pc_of_call [DecidableEq T] (getDetails : ρ → δ) {s : State T ρ δ} {t u : T}
    {method : Method} {x : Pc ρ δ} (h : (step getDetails s (.call t method)).pc u = x)
    (hx : x ≠ method.start) : s.pc u = x := by
  simp only [step, Function.update_apply] at h
  split_ifs at h with hut
  · rw [hut]
    exact eq_of_call h hx
  · exact h

/-- A step that ends in a deadlock does not keep the order. -/
theorem not_keepsOrder_of_deadlocked [DecidableEq T] (getDetails : ρ → δ) {s : State T ρ δ}
    (hfree : ¬ ∃ t u, s.pc t = .resetApps .enterDetails ∧
      s.pc u = .getAvailableAppDetails (.runtimes .enter)) {t a b : T}
    {loaded : Except Exn (AppMap ρ)}
    (ha : (step getDetails s (.step t loaded)).pc a = .resetApps .enterDetails)
    (hb : (step getDetails s (.step t loaded)).pc b = .getAvailableAppDetails (.runtimes .enter)) :
    ¬ KeepsOrder s (.step t loaded) := by
  simp only [step, Function.update_apply] at ha hb
  split_ifs at ha hb with hat hbt hbt
  · exact absurd (ha.symm.trans hb) (by simp)
  · rcases advance_enterDetails ha with hpc | ⟨hpc, happs⟩
    · exact absurd ⟨t, b, hpc, hb⟩ hfree
    · simp only [KeepsOrder, hpc]
      exact fun hkeeps => hkeeps happs b hb
  · rcases advance_runtimes_enter hb with hpc | ⟨hpc, happs⟩
    · exact absurd ⟨a, t, ha, hpc⟩ hfree
    · simp only [KeepsOrder, hpc]
      exact fun hkeeps => hkeeps happs a ha
  · exact absurd ⟨a, b, ha, hb⟩ hfree

/-- **A step that makes the deadlock.**  From a state without deadlock, the events after which
there is one are those that do not keep the order. -/
theorem deadlocked_step_iff [DecidableEq T] (getDetails : ρ → δ) {s : State T ρ δ} (h : Accounted s)
    (hfree : ¬ Deadlocked s) (e : Event T ρ) :
    Deadlocked (step getDetails s e) ↔ ¬ KeepsOrder s e := by
  rw [deadlocked_iff h] at hfree
  rw [deadlocked_iff (accounted_step getDetails h e)]
  cases e with
  | call t method =>
    refine iff_of_false ?_ (not_not_intro trivial)
    rintro ⟨a, b, ha, hb⟩
    refine hfree ⟨a, b, pc_of_call getDetails ha ?_, pc_of_call getDetails hb ?_⟩
    · cases method <;> simp [Method.start]
    · cases method <;> simp [Method.start]
  | step t loaded =>
    constructor
    · rintro ⟨a, b, ha, hb⟩
      exact not_keepsOrder_of_deadlocked getDetails hfree ha hb
    · intro hkeeps
      unfold KeepsOrder at hkeeps
      dsimp only at hkeeps
      split at hkeeps
      case h_1 hpc =>
        simp only [not_forall, ne_eq, not_not] at hkeeps
        obtain ⟨happs, u, hu⟩ := hkeeps
        refine ⟨t, u, ?_, step_pc_eq getDetails hu (by rw [hpc]; simp) loaded⟩
        rw [step_pc_self, hpc]
        simp [advance, stepReset, Caches.enter, happs]
      case h_2 hpc =>
        simp only [not_forall, ne_eq, not_not] at hkeeps
        obtain ⟨happs, u, hu⟩ := hkeeps
        refine ⟨u, t, step_pc_eq getDetails hu (by rw [hpc]; simp) loaded, ?_⟩
        rw [step_pc_self, hpc]
        simp [advance, stepDetails, stepRuntimes, Next.inDetails, happs]
      case h_3 => exact absurd trivial hkeeps

/-! ### Runs -/

theorem not_deadlocked_empty : ¬ Deadlocked ({} : State T ρ δ) := by
  rw [deadlocked_iff accounted_empty]
  rintro ⟨t, u, ht, -⟩
  simp at ht

/-- **The caches never deadlock** in the runs from the empty caches, for any number of threads,
whose events keep the order; and in no others. -/
theorem never_deadlocks_iff [DecidableEq T] (getDetails : ρ → δ) (events : List (Event T ρ)) :
    (∀ before, before <+: events → ¬ Deadlocked (Runs.run (step getDetails) {} before)) ↔
      Runs.Meets (step getDetails) KeepsOrder {} events := by
  refine (Runs.forall_prefix_iff (P := fun s => ¬ Deadlocked s)).trans ?_
  rw [and_iff_right not_deadlocked_empty]
  refine Runs.meets_congr (I := fun s => Accounted s ∧ ¬ Deadlocked s) (fun s e hI hfree => ?_)
    (fun s e hI => ?_) ⟨accounted_empty, not_deadlocked_empty⟩
  · exact ⟨accounted_step getDetails hI.1 e, hfree⟩
  · rw [deadlocked_step_iff getDetails hI.1 hI.2 e, not_not]

theorem accounted_run [DecidableEq T] (getDetails : ρ → δ) (events : List (Event T ρ)) :
    Accounted (Runs.run (step getDetails) {} events) :=
  Runs.run_invariant (I := Accounted) (C := fun _ _ => True)
    (fun _ e h _ => accounted_step getDetails h e)
    accounted_empty (Runs.meets_of_forall (fun _ _ => trivial) _ _)

/-- In every run no two threads are inside one monitor. -/
theorem exclusive_run [DecidableEq T] (getDetails : ρ → δ) (events : List (Event T ρ)) {m : Monitor}
    {t u : T} (ht : m ∈ ((Runs.run (step getDetails) {} events).pc t).holds)
    (hu : m ∈ ((Runs.run (step getDetails) {} events).pc u).holds) : t = u :=
  (accounted_run getDetails events).unique ht hu

/-- Thread 1 asks for the details and gets as far as the check of the runtimes; thread 2 enters
`apps` to reset them; thread 1 goes on. -/
def detailsMeetReset : List (Event ℕ Unit) :=
  [.call 1 .getAvailableAppDetails, .step 1 (.ok []), .step 1 (.ok []), .step 1 (.ok []),
    .call 2 .resetApps, .step 2 (.ok []), .step 1 (.ok [])]

/-- **A deadlock**: the details wait for `apps` and the reset for `appDetails`. -/
theorem details_deadlock_reset : Deadlocked (Runs.run (step id) {} detailsMeetReset) :=
  (deadlocked_iff (accounted_run id detailsMeetReset)).2 ⟨2, 1, rfl, rfl⟩

end Apps

end CloudOs

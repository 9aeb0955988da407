/-
# The app caches and `null`

A call of `getAvailableRuntimes` or `getAvailableAppDetails` that returns is meant never to
return `null`: its callers ask the map at once.

Both methods check the reference, fill it when it is `null`, and then read it once more,
outside of the monitor.

| a thread stands | what keeps the reference from `null` |
| --- | --- |
| inside the monitor, after the reference is filled | the monitor, which `resetApps` needs |
| at the last read of `getAvailableRuntimes`, called by `getAvailableAppDetails` | the monitor of `appDetails`, which `resetApps` needs |
| at the last read of either method | nothing |

A `resetApps` that clears a reference while a thread stands at its last read makes that call
return `null`, or lets it; and nothing else does.
-/

import CloudOs.Dao.AppCaches

namespace CloudOs

open AppCaches Monitors

namespace Apps

variable {T ρ δ : Type*}

/-- The event completes a call, of `getAvailableRuntimes` by anyone or of
`getAvailableAppDetails`, that returns `null`. -/
def ReturnsNull (getDetails : ρ → δ) (s : State T ρ δ) : Event T ρ → Prop
  | .call _ _ => False
  | .step t loaded => match s.pc t with
    | .getAvailableRuntimes pc => (stepRuntimes t loaded s.caches pc).2 = .returns none
    | .getAvailableAppDetails (.runtimes pc) =>
      (stepRuntimes t loaded s.caches pc).2 = .returns none
    | .getAvailableAppDetails pc =>
      (stepDetails getDetails t loaded s.caches pc).2 = .outside (some (.details none))
    | _ => False

/-- The event clears no reference that a thread is about to return. -/
def KeepsReads (s : State T ρ δ) : Event T ρ → Prop
  | .call _ _ => True
  | .step t _ => match s.pc t with
    | .resetApps .clearApps => ∀ u, s.pc u ≠ .getAvailableRuntimes .ret
    | .resetApps .clearDetails => ∀ u, s.pc u ≠ .getAvailableAppDetails .ret
    | _ => True

/-! ### The places where a reference is filled -/

/-- The places of `getAvailableRuntimes` after its check or its initialisation. -/
def RuntimesFilled : RuntimesPc → Prop
  | .exit none => True
  | .ret => True
  | _ => False

/-- The places where the thread counts on `apps`. -/
def CountsOnApps : Pc ρ δ → Prop
  | .getAvailableRuntimes pc => RuntimesFilled pc
  | .getAvailableAppDetails (.runtimes pc) => RuntimesFilled pc
  | _ => False

/-- The places where the thread counts on `appDetails`. -/
def CountsOnDetails : Pc ρ δ → Prop
  | .getAvailableAppDetails (.exit none) => True
  | .getAvailableAppDetails .ret => True
  | _ => False

/-- The references that threads count on are filled. -/
structure Filled (s : State T ρ δ) : Prop where
  apps : ∀ t, CountsOnApps (s.pc t) → s.caches.apps ≠ none
  details : ∀ t, CountsOnDetails (s.pc t) → s.caches.appDetails ≠ none

theorem filled_empty : Filled ({} : State T ρ δ) := ⟨fun _ h => h.elim, fun _ h => h.elim⟩

/-! ### One instruction -/

/-- `getAvailableRuntimes` never clears `apps`. -/
theorem stepRuntimes_apps {t : T} {loaded : Except Exn (AppMap ρ)} {c : Caches T ρ δ}
    {pc : RuntimesPc} (h : c.apps ≠ none) : (stepRuntimes t loaded c pc).1.apps ≠ none := by
  cases pc with
  | enter =>
    rw [stepRuntimes, Caches.enter_apps]
    exact h
  | init => cases loaded <;> simp [stepRuntimes, h]
  | _ => exact h

/-- `getAvailableRuntimes` leaves `appDetails` alone. -/
theorem stepRuntimes_appDetails (t : T) (loaded : Except Exn (AppMap ρ)) (c : Caches T ρ δ)
    (pc : RuntimesPc) : (stepRuntimes t loaded c pc).1.appDetails = c.appDetails := by
  cases pc with
  | enter => exact c.enter_appDetails .apps t _ _
  | init => cases loaded <;> rfl
  | _ => rfl

/-- The only instruction that clears `apps`. -/
theorem eq_clearApps {getDetails : ρ → δ} {t : T} {loaded : Except Exn (AppMap ρ)}
    {c : Caches T ρ δ} {pc : Pc ρ δ} (hfull : c.apps ≠ none)
    (h : (advance getDetails t loaded c pc).1.apps = none) : pc = .resetApps .clearApps := by
  cases pc with
  | outside last => exact absurd h hfull
  | getAvailableRuntimes pc => exact absurd h (stepRuntimes_apps hfull)
  | getAvailableAppDetails pc =>
    cases pc with
    | runtimes pc => exact absurd h (stepRuntimes_apps hfull)
    | enter => exact absurd ((c.enter_apps .appDetails t _ _).symm.trans h) hfull
    | _ => exact absurd h hfull
  | resetApps pc =>
    cases pc with
    | clearApps => rfl
    | enterApps => exact absurd ((c.enter_apps .apps t _ _).symm.trans h) hfull
    | enterDetails => exact absurd ((c.enter_apps .appDetails t _ _).symm.trans h) hfull
    | _ => exact absurd h hfull

/-- The only instruction that clears `appDetails`. -/
theorem eq_clearDetails {getDetails : ρ → δ} {t : T} {loaded : Except Exn (AppMap ρ)}
    {c : Caches T ρ δ} {pc : Pc ρ δ} (hfull : c.appDetails ≠ none)
    (h : (advance getDetails t loaded c pc).1.appDetails = none) :
    pc = .resetApps .clearDetails := by
  cases pc with
  | outside last => exact absurd h hfull
  | getAvailableRuntimes pc =>
    exact absurd ((stepRuntimes_appDetails t loaded c pc).symm.trans h) hfull
  | getAvailableAppDetails pc =>
    cases pc with
    | runtimes pc => exact absurd ((stepRuntimes_appDetails t loaded c pc).symm.trans h) hfull
    | enter => exact absurd ((c.enter_appDetails .appDetails t _ _).symm.trans h) hfull
    | set map => simp [advance, stepDetails] at h
    | _ => exact absurd h hfull
  | resetApps pc =>
    cases pc with
    | clearDetails => rfl
    | enterApps => exact absurd ((c.enter_appDetails .apps t _ _).symm.trans h) hfull
    | enterDetails => exact absurd ((c.enter_appDetails .appDetails t _ _).symm.trans h) hfull
    | _ => exact absurd h hfull

/-- A thread comes to count on `apps` when `apps` is filled. -/
theorem stepRuntimes_filled {t : T} {loaded : Except Exn (AppMap ρ)} {c : Caches T ρ δ}
    {pc pc' : RuntimesPc} (h : RuntimesFilled pc → c.apps ≠ none)
    (hpc : (stepRuntimes t loaded c pc).2 = .go pc') (hfilled : RuntimesFilled pc') :
    (stepRuntimes t loaded c pc).1.apps ≠ none := by
  cases pc with
  | check | recheck =>
    by_contra hnone
    have happs : c.apps = none := hnone
    simp only [stepRuntimes, happs, Option.isNone_none, if_true, Next.go.injEq] at hpc
    subst hpc
    exact hfilled
  | enter =>
    unfold stepRuntimes Caches.enter at hpc
    cases howner : c.owner .apps <;> rw [howner] at hpc <;>
      obtain rfl := Next.go.inj hpc <;> exact hfilled.elim
  | init =>
    cases loaded with
    | ok map => simp [stepRuntimes]
    | error x =>
      obtain rfl := Next.go.inj hpc
      exact hfilled.elim
  | exit thrown =>
    cases thrown with
    | none => exact h trivial
    | some x => exact absurd hpc (by simp [stepRuntimes])
  | ret => exact absurd hpc (by simp [stepRuntimes])

/-- A reset counts on nothing, wherever its next instruction leads. -/
theorem not_counts_reset {Counts : Pc ρ δ → Prop} (hreset : ∀ pc, ¬ Counts (.resetApps pc))
    (hdone : ¬ Counts (.outside (some .reset))) (t : T) (c : Caches T ρ δ) (pc : ResetPc) :
    ¬ Counts (stepReset t c pc).2 := by
  cases pc with
  | enterApps =>
    unfold stepReset Caches.enter
    cases c.owner .apps <;> exact hreset _
  | enterDetails =>
    unfold stepReset Caches.enter
    cases c.owner .appDetails <;> exact hreset _
  | clearApps => exact hreset _
  | clearDetails => exact hreset _
  | exitDetails => exact hreset _
  | exitApps => exact hdone

theorem advance_apps {getDetails : ρ → δ} {t : T} {loaded : Except Exn (AppMap ρ)}
    {c : Caches T ρ δ} {pc : Pc ρ δ} (h : CountsOnApps pc → c.apps ≠ none)
    (hpc : CountsOnApps (advance getDetails t loaded c pc).2) :
    (advance getDetails t loaded c pc).1.apps ≠ none := by
  cases pc with
  | outside last => exact hpc.elim
  | getAvailableRuntimes pc =>
    simp only [advance] at hpc
    cases hnext : (stepRuntimes t loaded c pc).2 with
    | go pc' =>
      rw [hnext] at hpc
      exact stepRuntimes_filled h hnext hpc
    | returns map => exact absurd hpc (by rw [hnext]; exact id)
    | throws x => exact absurd hpc (by rw [hnext]; exact id)
  | getAvailableAppDetails pc =>
    cases pc with
    | runtimes pc =>
      simp only [advance, stepDetails] at hpc
      cases hnext : (stepRuntimes t loaded c pc).2 with
      | go pc' =>
        rw [hnext] at hpc
        exact stepRuntimes_filled h hnext hpc
      | returns map => cases map <;> exact absurd hpc (by rw [hnext]; exact id)
      | throws x => exact absurd hpc (by rw [hnext]; exact id)
    | check =>
      simp only [advance, stepDetails] at hpc
      split_ifs at hpc <;> exact hpc.elim
    | enter =>
      simp only [advance, stepDetails, Caches.enter] at hpc
      cases howner : c.owner .appDetails <;> rw [howner] at hpc <;> exact hpc.elim
    | recheck =>
      simp only [advance, stepDetails] at hpc
      split_ifs at hpc <;> exact hpc.elim
    | exit thrown => cases thrown <;> exact hpc.elim
    | _ => exact hpc.elim
  | resetApps pc => exact absurd hpc (not_counts_reset (fun _ h => h) id t c pc)

/-- A thread comes to count on `appDetails` when `appDetails` is filled. -/
theorem advance_details {getDetails : ρ → δ} {t : T} {loaded : Except Exn (AppMap ρ)}
    {c : Caches T ρ δ} {pc : Pc ρ δ} (h : CountsOnDetails pc → c.appDetails ≠ none)
    (hpc : CountsOnDetails (advance getDetails t loaded c pc).2) :
    (advance getDetails t loaded c pc).1.appDetails ≠ none := by
  cases pc with
  | outside last => exact hpc.elim
  | getAvailableRuntimes pc =>
    simp only [advance] at hpc
    generalize (stepRuntimes t loaded c pc).2 = next at hpc
    cases next <;> exact hpc.elim
  | getAvailableAppDetails pc =>
    cases pc with
    | check =>
      intro hnone
      have hempty : c.appDetails = none := hnone
      simp [advance, stepDetails, hempty, CountsOnDetails] at hpc
    | enter =>
      simp only [advance, stepDetails, Caches.enter] at hpc
      cases howner : c.owner .appDetails <;> rw [howner] at hpc <;> exact hpc.elim
    | recheck =>
      intro hnone
      have hempty : c.appDetails = none := hnone
      simp [advance, stepDetails, hempty, CountsOnDetails] at hpc
    | runtimes pc =>
      simp only [advance, stepDetails] at hpc
      generalize (stepRuntimes t loaded c pc).2 = next at hpc
      rcases next with pc' | map | x
      · exact hpc.elim
      · cases map <;> exact hpc.elim
      · exact hpc.elim
    | set map => simp [advance, stepDetails]
    | exit thrown =>
      cases thrown with
      | none => exact h trivial
      | some x => exact hpc.elim
    | ret => exact hpc.elim
  | resetApps pc => exact absurd hpc (not_counts_reset (fun _ h => h) id t c pc)

/-! ### One event -/

/-- Whoever counts on `apps` holds a monitor that `resetApps` needs, or stands at the last read
of `getAvailableRuntimes`. -/
theorem CountsOnApps.holds {pc : Pc ρ δ} (h : CountsOnApps pc) :
    Monitor.apps ∈ pc.holds ∨ Monitor.appDetails ∈ pc.holds ∨ pc = .getAvailableRuntimes .ret := by
  cases pc with
  | outside last => exact h.elim
  | getAvailableRuntimes pc =>
    cases pc with
    | exit thrown => exact Or.inl rfl
    | ret => exact Or.inr (Or.inr rfl)
    | _ => exact h.elim
  | getAvailableAppDetails pc =>
    cases pc with
    | runtimes pc => exact Or.inr (Or.inl (Or.inl rfl))
    | _ => exact h.elim
  | resetApps pc => exact h.elim

theorem CountsOnDetails.holds {pc : Pc ρ δ} (h : CountsOnDetails pc) :
    Monitor.appDetails ∈ pc.holds ∨ pc = .getAvailableAppDetails .ret := by
  cases pc with
  | getAvailableAppDetails pc =>
    cases pc with
    | exit thrown => exact Or.inl rfl
    | ret => exact Or.inr rfl
    | _ => exact h.elim
  | _ => exact h.elim

/-- While a thread clears `apps`, the others that count on it stand at the last read. -/
theorem clearApps_spares {s : State T ρ δ} (h : Accounted s) {t u : T}
    (ht : s.pc t = .resetApps .clearApps) (hu : CountsOnApps (s.pc u)) :
    s.pc u = .getAvailableRuntimes .ret := by
  have happs : Monitor.apps ∈ (s.pc t).holds := by rw [ht]; exact Or.inl rfl
  have hdetails : Monitor.appDetails ∈ (s.pc t).holds := by rw [ht]; exact Or.inr rfl
  have hsame : u = t → s.pc u = .getAvailableRuntimes .ret := by
    rintro rfl
    rw [ht] at hu
    exact hu.elim
  rcases hu.holds with hm | hm | hret
  · exact hsame (Monitors.Accounted.unique h hm happs)
  · exact hsame (Monitors.Accounted.unique h hm hdetails)
  · exact hret

theorem clearDetails_spares {s : State T ρ δ} (h : Accounted s) {t u : T}
    (ht : s.pc t = .resetApps .clearDetails) (hu : CountsOnDetails (s.pc u)) :
    s.pc u = .getAvailableAppDetails .ret := by
  have hdetails : Monitor.appDetails ∈ (s.pc t).holds := by rw [ht]; exact Or.inr rfl
  rcases hu.holds with hm | hret
  · have hut : u = t := Monitors.Accounted.unique h hm hdetails
    rw [hut, ht] at hu
    exact hu.elim
  · exact hret

/-- A call starts at a place that counts on nothing. -/
theorem counts_of_call {method : Method} {pc : Pc ρ δ} {Counts : Pc ρ δ → Prop}
    (hstart : ¬ Counts method.start) (h : Counts (pc.call method)) : Counts pc := by
  cases pc with
  | outside last => exact absurd h hstart
  | _ => exact h

/-- **What threads count on stays filled** by an event that keeps the reads. -/
theorem filled_step [DecidableEq T] (getDetails : ρ → δ) {s : State T ρ δ} (h : Accounted s)
    (hs : Filled s) {e : Event T ρ} (he : KeepsReads s e) : Filled (step getDetails s e) := by
  cases e with
  | call t method =>
    have hback : ∀ (Counts : Pc ρ δ → Prop), ¬ Counts method.start → ∀ u,
        Counts ((step getDetails s (.call t method)).pc u) → Counts (s.pc u) := by
      intro Counts hstart u hu
      simp only [step, Function.update_apply] at hu
      split_ifs at hu with hut
      · rw [hut]
        exact counts_of_call hstart hu
      · exact hu
    have hstart : ¬ CountsOnApps (method.start : Pc ρ δ) ∧
        ¬ CountsOnDetails (method.start : Pc ρ δ) := by
      cases method <;> exact ⟨id, id⟩
    exact ⟨fun u hu => hs.apps u (hback _ hstart.1 u hu),
      fun u hu => hs.details u (hback _ hstart.2 u hu)⟩
  | step t loaded =>
    constructor
    · intro u hu
      by_cases hut : u = t
      · rw [hut, step_pc_self] at hu
        exact advance_apps (hs.apps t) hu
      · rw [step_pc_of_ne getDetails s hut] at hu
        intro hnone
        have hclear : s.pc t = .resetApps .clearApps := eq_clearApps (hs.apps u hu) hnone
        simp only [KeepsReads, hclear] at he
        exact he u (clearApps_spares h hclear hu)
    · intro u hu
      by_cases hut : u = t
      · rw [hut, step_pc_self] at hu
        exact advance_details (hs.details t) hu
      · rw [step_pc_of_ne getDetails s hut] at hu
        intro hnone
        have hclear : s.pc t = .resetApps .clearDetails := eq_clearDetails (hs.details u hu) hnone
        simp only [KeepsReads, hclear] at he
        exact he u (clearDetails_spares h hclear hu)

/-- Where the references that threads count on are filled, no event completes a call with
`null`. -/
theorem not_returnsNull {getDetails : ρ → δ} {s : State T ρ δ} (hs : Filled s) (e : Event T ρ) :
    ¬ ReturnsNull getDetails s e := by
  cases e with
  | call t method => exact id
  | step t loaded =>
    intro hnull
    simp only [ReturnsNull] at hnull
    split at hnull
    case h_1 pc hpc =>
      obtain ⟨rfl, hnone⟩ := stepRuntimes_returns hnull
      exact hs.apps t (by rw [hpc]; trivial) hnone
    case h_2 pc hpc =>
      obtain ⟨rfl, hnone⟩ := stepRuntimes_returns hnull
      exact hs.apps t (by rw [hpc]; trivial) hnone
    case h_3 pc hruntimes hpc =>
      obtain ⟨rfl, hnone⟩ := stepDetails_returns hnull
      exact hs.details t (by rw [hpc]; trivial) hnone
    case h_4 => exact hnull

/-- **After an event that does not keep the reads** the thread that was about to return its map
returns `null`, if it goes on next. -/
theorem returnsNull_of_not_keepsReads [DecidableEq T] (getDetails : ρ → δ) {s : State T ρ δ}
    {e : Event T ρ} (he : ¬ KeepsReads s e) :
    ∃ u loaded, ReturnsNull getDetails (step getDetails s e) (.step u loaded) := by
  cases e with
  | call t method => exact absurd trivial he
  | step t loaded =>
    unfold KeepsReads at he
    dsimp only at he
    split at he
    case h_1 hpc =>
      simp only [ne_eq, not_forall, not_not] at he
      obtain ⟨u, hu⟩ := he
      refine ⟨u, loaded, ?_⟩
      simp only [ReturnsNull, step_pc_eq getDetails hu (by rw [hpc]; simp) loaded]
      simp [step, hpc, advance, stepReset, stepRuntimes]
    case h_2 hpc =>
      simp only [ne_eq, not_forall, not_not] at he
      obtain ⟨u, hu⟩ := he
      refine ⟨u, loaded, ?_⟩
      simp only [ReturnsNull, step_pc_eq getDetails hu (by rw [hpc]; simp) loaded]
      simp [step, hpc, advance, stepReset, stepDetails]
    case h_3 => exact absurd trivial he

/-! ### Runs -/

/-- **The app caches hand out no `null`** in the runs from the empty caches, for any number of
threads, whose resets clear no reference that a thread is about to return; and in no others: in
these a call is completed with `null` by the next event of the run or by one that could come
instead. -/
theorem never_returns_null_iff [DecidableEq T] (getDetails : ρ → δ) (events : List (Event T ρ)) :
    (∀ before, before <+: events → ∀ e,
      ¬ ReturnsNull getDetails (Runs.run (step getDetails) {} before) e) ↔
        Runs.Meets (step getDetails) KeepsReads {} events := by
  refine (Runs.forall_prefix_iff (P := fun s => ∀ e, ¬ ReturnsNull getDetails s e)).trans ?_
  rw [and_iff_right (not_returnsNull filled_empty)]
  have hkeeps : ∀ (s : State T ρ δ) e,
      (∀ e', ¬ ReturnsNull getDetails (step getDetails s e) e') → KeepsReads s e := by
    intro s e hnever
    by_contra he
    obtain ⟨u, loaded, hnull⟩ := returnsNull_of_not_keepsReads getDetails he
    exact hnever _ hnull
  refine Runs.meets_congr (I := fun s => Accounted s ∧ Filled s) (fun s e hI hnever => ?_)
    (fun s e hI => ⟨hkeeps s e, fun he => ?_⟩) ⟨accounted_empty, filled_empty⟩
  · exact ⟨accounted_step getDetails hI.1 e, filled_step getDetails hI.1 hI.2 (hkeeps s e hnever)⟩
  · exact not_returnsNull (filled_step getDetails hI.1 hI.2 he)

/-- Thread 1 fills the runtimes; thread 2 finds them there and is about to read them; thread 1
resets them. -/
def readMeetsReset : List (Event ℕ Unit) :=
  [.call 1 .getAvailableRuntimes, .step 1 (.ok []), .step 1 (.ok []), .step 1 (.ok []),
    .step 1 (.ok [("app", ())]), .step 1 (.ok []), .step 1 (.ok []),
    .call 2 .getAvailableRuntimes, .step 2 (.ok []),
    .call 1 .resetApps, .step 1 (.ok []), .step 1 (.ok []), .step 1 (.ok [])]

/-- **A `null` map**: the call of thread 2 that found the runtimes returns none. -/
theorem read_returns_null :
    ReturnsNull id (Runs.run (step id) {} readMeetsReset) (.step 2 (.ok [])) := rfl

end Apps

end CloudOs

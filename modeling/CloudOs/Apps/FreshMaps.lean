/-
# A reset of the app caches takes effect

What `getAvailableRuntimes` and `getAvailableAppDetails` return after a `resetApps` is meant
to come from an initialisation that started after that reset began, and never from a thread
that was computing meanwhile.

A `History` is kept beside the caches: the time of every call, when an initialisation starts,
and which initialisation the content of each reference and of each thread's map comes from.
It only watches: the caches go on as without it (`run_trace_fst`).

| place of a thread | monitors | what the history says |
| --- | --- | --- |
| `init` | `apps` | its initialisation starts after every reset that has returned began |
| `set` | `appDetails` | so does the one that its runtimes come from |
| after `apps` is cleared | both | `apps` is `null` |
| after `appDetails` is cleared | `apps` at least | both are `null`, and no thread is at `set` |

An instruction does one of the things of `Move` to the caches and the history, and every one of
them keeps these four (`current_move`).
-/

import CloudOs.Dao.AppCaches

namespace CloudOs

open AppCaches Monitors

namespace Apps

variable {T ρ δ : Type*}

/-- An initialisation of the runtimes: when it started, and what it built. -/
structure Init (ρ : Type*) where
  began : ℕ
  map : AppMap ρ

/-- A call of `resetApps` that has returned. -/
structure Reset where
  began : ℕ
  returned : ℕ

/-- What has happened: the time, when each thread called its method and the runtimes within it,
when its initialisation started, what the references and its runtimes come from, and the
resets. -/
structure History (T ρ : Type*) where
  now : ℕ := 0
  calledAt : T → ℕ := fun _ => 0
  innerCalledAt : T → ℕ := fun _ => 0
  initAt : T → ℕ := fun _ => 0
  apps : Option (Init ρ) := none
  runtimes : T → Option (Init ρ) := fun _ => none
  details : Option (Init ρ) := none
  resets : List Reset := []

/-- The details of an initialisation's runtimes. -/
def Init.details (getDetails : ρ → δ) (i : Init ρ) : AppMap δ :=
  i.map.map fun e => (e.1, getDetails e.2)

namespace History

variable [DecidableEq T] (k : History T ρ)

/-- What an instruction of `getAvailableRuntimes` adds.  An initialisation starts when the second
check has found `apps` to be `null`. -/
def recordRuntimes (t : T) (loaded : Except Exn (AppMap ρ)) : RuntimesPc → History T ρ
  | .recheck => { k with initAt := Function.update k.initAt t k.now }
  | .init => match loaded with
    | .ok map => { k with apps := some ⟨k.initAt t, map⟩ }
    | .error _ => k
  | _ => k

/-- What an instruction adds, that leads the thread from one place to the next.  A reset is
recorded when its call has ended. -/
def recordInstruction (t : T) (loaded : Except Exn (AppMap ρ)) : Pc ρ δ → Pc ρ δ → History T ρ
  | .getAvailableRuntimes pc, _ => k.recordRuntimes t loaded pc
  | .getAvailableAppDetails .recheck, _ =>
    { k with innerCalledAt := Function.update k.innerCalledAt t k.now }
  | .getAvailableAppDetails (.runtimes .ret), _ =>
    { k with runtimes := Function.update k.runtimes t k.apps }
  | .getAvailableAppDetails (.runtimes pc), _ => k.recordRuntimes t loaded pc
  | .getAvailableAppDetails (.set _), _ => { k with details := k.runtimes t }
  | .resetApps _, .outside (some .reset) => { k with resets := ⟨k.calledAt t, k.now⟩ :: k.resets }
  | _, _ => k

/-- What an event adds that leads from `s` to `s'`. -/
def record (s s' : State T ρ δ) : Event T ρ → History T ρ
  | .call t _ => match s.pc t with
    | .outside _ => { k with now := k.now + 1, calledAt := Function.update k.calledAt t k.now }
    | _ => { k with now := k.now + 1 }
  | .step t loaded => { k.recordInstruction t loaded (s.pc t) (s'.pc t) with now := k.now + 1 }

end History

/-- An event, of the caches and of the history. -/
def trace [DecidableEq T] (getDetails : ρ → δ) (p : State T ρ δ × History T ρ) (e : Event T ρ) :
    State T ρ δ × History T ρ :=
  (step getDetails p.1 e, p.2.record p.1 (step getDetails p.1 e) e)

/-- The history only watches. -/
theorem run_trace_fst [DecidableEq T] (getDetails : ρ → δ) (events : List (Event T ρ)) :
    (Runs.run (trace getDetails) ({}, {}) events).1 = Runs.run (step getDetails) {} events :=
  Runs.run_simulation (R := fun (p : State T ρ δ × History T ρ) s => p.1 = s)
    (fun p s e h => by rw [← h]; rfl) events rfl

/-- The initialisation `i` started after every reset began that had returned at the time
`called`. -/
def FreshSince (k : History T ρ) (called : ℕ) (i : Init ρ) : Prop :=
  ∀ r ∈ k.resets, r.returned < called → r.began < i.began

/-- **What the next instruction of any thread returns is fresh**: a call that it completes with a
map, of `getAvailableRuntimes` alone, of `getAvailableRuntimes` within, or of
`getAvailableAppDetails`, returns what an initialisation built that is fresh since the call. -/
structure ReturnsFresh (getDetails : ρ → δ) (s : State T ρ δ) (k : History T ρ) : Prop where
  runtimes : ∀ t loaded pc map, s.pc t = .getAvailableRuntimes pc →
    (stepRuntimes t loaded s.caches pc).2 = .returns (some map) →
      ∃ i, k.apps = some i ∧ map = i.map ∧ FreshSince k (k.calledAt t) i
  inner : ∀ t loaded pc map, s.pc t = .getAvailableAppDetails (.runtimes pc) →
    (stepRuntimes t loaded s.caches pc).2 = .returns (some map) →
      ∃ i, k.apps = some i ∧ map = i.map ∧ FreshSince k (k.innerCalledAt t) i
  details : ∀ t loaded pc map, s.pc t = .getAvailableAppDetails pc →
    (stepDetails getDetails t loaded s.caches pc).2 = .outside (some (.details (some map))) →
      ∃ i, k.details = some i ∧ map = i.details getDetails ∧ FreshSince k (k.calledAt t) i

/-! ### What an instruction does -/

/-- The places of a thread that matter to what the references hold. -/
inductive Place (ρ : Type*)
  | elsewhere
  | init
  | set (runtimes : AppMap ρ)
  | appsCleared
  | bothCleared

/-- The place of a thread. -/
def place : Pc ρ δ → Place ρ
  | .getAvailableRuntimes .init => .init
  | .getAvailableAppDetails (.runtimes .init) => .init
  | .getAvailableAppDetails (.set map) => .set map
  | .resetApps .clearDetails => .appsCleared
  | .resetApps .exitDetails => .bothCleared
  | .resetApps .exitApps => .bothCleared
  | _ => .elsewhere

/-- What an instruction of the thread `t`, which stands at `pc`, does to the content of the
references, the place of the thread and the history. -/
inductive Move [DecidableEq T] (getDetails : ρ → δ) (t : T) (c : Caches T ρ δ) (k : History T ρ)
    (pc : Pc ρ δ) : Caches T ρ δ → Place ρ → History T ρ → Prop
  | quiet {c' p' k'} (apps : c'.apps = c.apps) (appDetails : c'.appDetails = c.appDetails)
      (place : p' = .elsewhere ∨ p' = .bothCleared ∧ place pc = .bothCleared)
      (history : ∃ called began read, k' = { k with
        innerCalledAt := called
        initAt := Function.update k.initAt t began
        runtimes := Function.update k.runtimes t read }) :
      Move getDetails t c k pc c' p' k'
  | starts : Move getDetails t c k pc c .init
      { k with initAt := Function.update k.initAt t k.now }
  | builds (map : AppMap ρ) (init : place pc = .init) :
      Move getDetails t c k pc { c with apps := some map } .elsewhere
        { k with apps := some ⟨k.initAt t, map⟩ }
  | reads (map : AppMap ρ) (full : c.apps = some map) : Move getDetails t c k pc c (.set map)
      { k with runtimes := Function.update k.runtimes t k.apps }
  | sets (map : AppMap ρ) (set : place pc = .set map) :
      Move getDetails t c k pc
        { c with appDetails := some (map.map fun e => (e.1, getDetails e.2)) } .elsewhere
        { k with details := k.runtimes t }
  | clearsApps : Move getDetails t c k pc { c with apps := none } .appsCleared k
  | clearsDetails (half : place pc = .appsCleared) (holds : Monitor.appDetails ∈ pc.holds) :
      Move getDetails t c k pc { c with appDetails := none } .bothCleared k
  | returns {c'} (apps : c'.apps = c.apps) (appDetails : c'.appDetails = c.appDetails)
      (cleared : place pc = .bothCleared) : Move getDetails t c k pc c' .elsewhere
        { k with resets := ⟨k.calledAt t, k.now⟩ :: k.resets }

theorem elsewhere_of_enter {c : Caches T ρ δ} {m : Monitor} {t : T} {here next : Pc ρ δ}
    (hhere : place here = .elsewhere) (hnext : place next = .elsewhere) :
    place (c.enter m t here next).2 = .elsewhere := by
  rcases c.enter_next m t here next with h | h
  · rw [h, hhere]
  · rw [h, hnext]

section Moves

variable [DecidableEq T] {getDetails : ρ → δ} {t : T} {c : Caches T ρ δ} {k : History T ρ}

/-- An instruction that the history does not record. -/
theorem Move.still {pc pc' : Pc ρ δ} {c' : Caches T ρ δ} (apps : c'.apps = c.apps)
    (appDetails : c'.appDetails = c.appDetails)
    (hplace : place pc' = .elsewhere ∨ place pc' = .bothCleared ∧ place pc = .bothCleared) :
    Move getDetails t c k pc c' (place pc') k :=
  .quiet apps appDetails hplace ⟨k.innerCalledAt, k.initAt t, k.runtimes t, by simp⟩

/-- An instruction of `getAvailableRuntimes`, called by itself or within, but for its last. -/
theorem runtimes_move {pc : Pc ρ δ} {f : Next ρ → Pc ρ δ} {rpc : RuntimesPc} (hrpc : rpc ≠ .ret)
    (hpc : rpc = .init → place pc = .init) (hf : ∀ n, n ≠ .go .init → (∀ map, n ≠ .returns map) →
      place (f n) = .elsewhere) (hinit : place (f (.go .init)) = .init)
    (loaded : Except Exn (AppMap ρ)) :
    Move getDetails t c k pc (stepRuntimes t loaded c rpc).1
      (place (f (stepRuntimes t loaded c rpc).2)) (k.recordRuntimes t loaded rpc) := by
  have hgo : ∀ {rpc' : RuntimesPc}, rpc' ≠ .init → place (f (.go rpc')) = .elsewhere :=
    fun hne => hf _ (fun h => hne (Next.go.inj h)) (fun _ => by simp)
  cases rpc with
  | check =>
    refine .still rfl rfl (Or.inl (hgo ?_))
    split_ifs <;> simp
  | enter =>
    refine .still (c.enter_apps _ _ _ _) (c.enter_appDetails _ _ _ _) (Or.inl ?_)
    rcases c.enter_next .apps t (Next.go .enter : Next ρ) (.go .recheck) with h | h
    · rw [stepRuntimes, h]
      exact hgo (by simp)
    · rw [stepRuntimes, h]
      exact hgo (by simp)
  | recheck =>
    by_cases happs : c.apps.isNone = true
    · simp only [stepRuntimes, happs, if_true, hinit]
      exact .starts
    · simp only [stepRuntimes, happs]
      exact .quiet rfl rfl (Or.inl (hgo (by simp)))
        ⟨k.innerCalledAt, k.now, k.runtimes t, by simp [History.recordRuntimes]⟩
  | init =>
    cases loaded with
    | ok map =>
      have hexit : place (f (.go (.exit none))) = .elsewhere := hgo (by simp)
      simp only [stepRuntimes, hexit]
      exact .builds map (hpc rfl)
    | error x => exact .still rfl rfl (Or.inl (hgo (by simp)))
  | exit thrown =>
    cases thrown with
    | none => exact .still rfl rfl (Or.inl (hgo (by simp)))
    | some x => exact .still rfl rfl (Or.inl (hf (.throws x) (by simp) (fun _ => by simp)))
  | ret => exact absurd rfl hrpc

theorem details_move (loaded : Except Exn (AppMap ρ)) (pc : DetailsPc ρ) :
    Move getDetails t c k (.getAvailableAppDetails pc) (stepDetails getDetails t loaded c pc).1
      (place (stepDetails getDetails t loaded c pc).2)
      (k.recordInstruction t loaded (.getAvailableAppDetails pc)
        (stepDetails getDetails t loaded c pc).2) := by
  cases pc with
  | check =>
    refine .still rfl rfl (Or.inl ?_)
    simp only [stepDetails]
    split_ifs <;> rfl
  | enter =>
    exact .still (c.enter_apps _ _ _ _) (c.enter_appDetails _ _ _ _)
      (Or.inl (elsewhere_of_enter rfl rfl))
  | recheck =>
    refine .quiet rfl rfl (Or.inl ?_) ⟨Function.update k.innerCalledAt t k.now, k.initAt t,
      k.runtimes t, by simp [History.recordInstruction]⟩
    simp only [stepDetails]
    split_ifs <;> rfl
  | runtimes rpc =>
    by_cases hret : rpc = .ret
    · subst hret
      cases happs : c.apps with
      | none =>
        refine .quiet rfl rfl (Or.inl ?_) ⟨k.innerCalledAt, k.initAt t, k.apps, by
          simp [History.recordInstruction]⟩
        simp only [stepDetails, stepRuntimes, happs]
        rfl
      | some map =>
        simp only [stepDetails, stepRuntimes, happs]
        exact .reads map happs
    · have hrecord : ∀ next : Pc ρ δ, k.recordInstruction t loaded
          (.getAvailableAppDetails (.runtimes rpc)) next = k.recordRuntimes t loaded rpc := by
        intro next
        cases rpc with
        | ret => exact absurd rfl hret
        | _ => rfl
      rw [hrecord]
      refine runtimes_move (f := Next.inDetails) hret (fun h => by rw [h]; rfl) ?_ rfl loaded
      rintro (rpc' | map | x) hinit hreturns
      · cases rpc' with
        | init => exact absurd rfl hinit
        | _ => rfl
      · exact absurd rfl (hreturns map)
      · rfl
  | set map => exact .sets map rfl
  | exit thrown => cases thrown <;> exact .still rfl rfl (Or.inl rfl)
  | ret => exact .still rfl rfl (Or.inl rfl)

theorem reset_move (loaded : Except Exn (AppMap ρ)) (pc : ResetPc) :
    Move getDetails t c k (.resetApps pc) (stepReset t c pc).1 (place (stepReset t c pc).2)
      (k.recordInstruction t loaded (.resetApps pc) (stepReset t c pc).2) := by
  -- a call that enters a monitor goes on inside
  have henter : ∀ {m : Monitor} {here next : ResetPc}, k.recordInstruction t loaded
      (.resetApps pc) (c.enter m t (Pc.resetApps here : Pc ρ δ) (.resetApps next)).2 = k := by
    intro m here next
    rcases c.enter_next m t (Pc.resetApps here : Pc ρ δ) (.resetApps next) with h | h
    · rw [h]
      rfl
    · rw [h]
      rfl
  cases pc with
  | enterApps =>
    rw [stepReset, henter]
    exact .still (c.enter_apps _ _ _ _) (c.enter_appDetails _ _ _ _)
      (Or.inl (elsewhere_of_enter rfl rfl))
  | enterDetails =>
    rw [stepReset, henter]
    exact .still (c.enter_apps _ _ _ _) (c.enter_appDetails _ _ _ _)
      (Or.inl (elsewhere_of_enter rfl rfl))
  | clearApps => exact .clearsApps
  | clearDetails => exact .clearsDetails rfl (Or.inr rfl)
  | exitDetails => exact .still rfl rfl (Or.inr ⟨rfl, rfl⟩)
  | exitApps => exact .returns rfl rfl rfl

/-- **What an instruction does** to the references and the history. -/
theorem advance_move (loaded : Except Exn (AppMap ρ)) (pc : Pc ρ δ) :
    Move getDetails t c k pc (advance getDetails t loaded c pc).1
      (place (advance getDetails t loaded c pc).2)
      (k.recordInstruction t loaded pc (advance getDetails t loaded c pc).2) := by
  cases pc with
  | outside last => exact .still rfl rfl (Or.inl rfl)
  | getAvailableAppDetails pc => exact details_move loaded pc
  | getAvailableRuntimes rpc =>
    by_cases hret : rpc = .ret
    · subst hret
      exact .still rfl rfl (Or.inl rfl)
    · refine runtimes_move (f := Next.alone) hret (fun h => by rw [h]; rfl) ?_ rfl loaded
      rintro (rpc' | map | x) hinit hreturns
      · cases rpc' with
        | init => exact absurd rfl hinit
        | _ => rfl
      · rfl
      · rfl
  | resetApps pc => exact reset_move loaded pc

end Moves

/-! ### The invariant -/

/-- The initialisation `i` started after every reset began that has returned. -/
def History.Fresh (k : History T ρ) (i : Init ρ) : Prop := ∀ r ∈ k.resets, r.began < i.began

/-- **The references are current**: what they and the threads hold comes from initialisations
that are fresh, and a reset that has cleared them finds them so at its end. -/
structure Current (getDetails : ρ → δ) (s : State T ρ δ) (k : History T ρ) : Prop where
  called : ∀ t, k.calledAt t ≤ k.now
  past : ∀ r ∈ k.resets, r.began < k.now
  apps : ∀ map, s.caches.apps = some map → ∃ i, k.apps = some i ∧ map = i.map ∧ k.Fresh i
  details : ∀ map, s.caches.appDetails = some map →
    ∃ i, k.details = some i ∧ map = i.details getDetails ∧ k.Fresh i
  init : ∀ t, place (s.pc t) = .init → ∀ r ∈ k.resets, r.began < k.initAt t
  set : ∀ t map, place (s.pc t) = .set map →
    ∃ i, k.runtimes t = some i ∧ map = i.map ∧ k.Fresh i
  appsCleared : ∀ t, place (s.pc t) = .appsCleared → s.caches.apps = none
  bothCleared : ∀ t, place (s.pc t) = .bothCleared →
    s.caches.apps = none ∧ s.caches.appDetails = none ∧ ∀ u map, place (s.pc u) ≠ .set map

theorem current_empty (getDetails : ρ → δ) : Current getDetails ({} : State T ρ δ) {} where
  called _ := le_rfl
  past _ h := absurd h List.not_mem_nil
  apps _ h := absurd h (by simp)
  details _ h := absurd h (by simp)
  init _ h := absurd h (by simp [place])
  set _ _ h := absurd h (by simp [place])
  appsCleared _ h := absurd h (by simp [place])
  bothCleared _ h := absurd h (by simp [place])

/-- The monitor of `apps` is held wherever `apps` may be filled or is cleared. -/
theorem apps_mem_holds {pc : Pc ρ δ} (h : place pc = .init ∨ place pc = .appsCleared ∨
    place pc = .bothCleared) : Monitor.apps ∈ pc.holds := by
  cases pc with
  | outside last => simp [place] at h
  | getAvailableRuntimes rpc =>
    cases rpc with
    | init => rfl
    | _ => simp [place] at h
  | getAvailableAppDetails pc =>
    cases pc with
    | runtimes rpc =>
      cases rpc with
      | init => exact Or.inr rfl
      | _ => simp [place] at h
    | _ => simp [place] at h
  | resetApps pc =>
    cases pc with
    | clearDetails => exact Or.inl rfl
    | exitDetails => exact Or.inl rfl
    | exitApps => rfl
    | _ => simp [place] at h

theorem appDetails_mem_holds {pc : Pc ρ δ} {map : AppMap ρ} (h : place pc = .set map) :
    Monitor.appDetails ∈ pc.holds := by
  cases pc with
  | outside last => simp [place] at h
  | getAvailableRuntimes rpc => cases rpc <;> simp [place] at h
  | getAvailableAppDetails pc =>
    cases pc with
    | set map => rfl
    | runtimes rpc => cases rpc <;> simp [place] at h
    | _ => simp [place] at h
  | resetApps pc => cases pc <;> simp [place] at h

/-- Two threads at places that hold `apps` are one. -/
theorem eq_of_apps {s : State T ρ δ} (h : Accounted s) {t u : T}
    (ht : place (s.pc t) = .init ∨ place (s.pc t) = .appsCleared ∨ place (s.pc t) = .bothCleared)
    (hu : place (s.pc u) = .init ∨ place (s.pc u) = .appsCleared ∨
      place (s.pc u) = .bothCleared) : t = u :=
  Monitors.Accounted.unique h (apps_mem_holds ht) (apps_mem_holds hu)

section Steps

variable [DecidableEq T] {getDetails : ρ → δ} {s : State T ρ δ} {k : History T ρ} {t : T}
  {c' : Caches T ρ δ} {pc' : Pc ρ δ} {k' : History T ρ}

/-- Where a thread stands after `t` has come to `pc'`. -/
theorem place_update (u : T) {P : Place ρ → Prop} (h : P (place (Function.update s.pc t pc' u))) :
    u = t ∧ P (place pc') ∨ u ≠ t ∧ P (place (s.pc u)) := by
  by_cases hut : u = t
  · rw [hut, Function.update_self] at h
    exact Or.inl ⟨hut, h⟩
  · rw [Function.update_of_ne hut] at h
    exact Or.inr ⟨hut, h⟩

theorem Move.apps_current (hs : Current getDetails s k)
    (hmove : Move getDetails t s.caches k (s.pc t) c' (place pc') k') :
    ∀ map, c'.apps = some map → ∃ i, k'.apps = some i ∧ map = i.map ∧ k'.Fresh i := by
  intro map hmap
  generalize place pc' = p' at hmove
  cases hmove with
  | quiet apps _ _ history =>
    obtain ⟨called, began, read, rfl⟩ := history
    exact hs.apps map (apps.symm.trans hmap)
  | builds built init =>
    obtain rfl := Option.some.inj hmap
    exact ⟨⟨k.initAt t, built⟩, rfl, rfl, hs.init t init⟩
  | clearsApps => exact absurd hmap (by simp)
  | returns apps _ cleared =>
    rw [apps, (hs.bothCleared t cleared).1] at hmap
    exact absurd hmap (by simp)
  | _ => exact hs.apps map hmap

theorem Move.details_current (hs : Current getDetails s k)
    (hmove : Move getDetails t s.caches k (s.pc t) c' (place pc') k') :
    ∀ map, c'.appDetails = some map →
      ∃ i, k'.details = some i ∧ map = i.details getDetails ∧ k'.Fresh i := by
  intro map hmap
  generalize place pc' = p' at hmove
  cases hmove with
  | quiet _ appDetails _ history =>
    obtain ⟨called, began, read, rfl⟩ := history
    exact hs.details map (appDetails.symm.trans hmap)
  | sets runtimes set =>
    obtain ⟨i, hi, hruntimes, hfresh⟩ := hs.set t runtimes set
    obtain rfl := Option.some.inj hmap
    exact ⟨i, hi, by rw [hruntimes]; rfl, hfresh⟩
  | clearsDetails => exact absurd hmap (by simp)
  | returns _ appDetails cleared =>
    rw [appDetails, (hs.bothCleared t cleared).2.1] at hmap
    exact absurd hmap (by simp)
  | _ => exact hs.details map hmap

theorem Move.init_current (h : Accounted s) (hs : Current getDetails s k)
    (hmove : Move getDetails t s.caches k (s.pc t) c' (place pc') k') :
    ∀ u, place (Function.update s.pc t pc' u) = .init → ∀ r ∈ k'.resets, r.began < k'.initAt u := by
  intro u hu
  replace hu := place_update (P := (· = Place.init)) u hu
  generalize place pc' = p' at hmove hu
  cases hmove with
  | quiet _ _ place history =>
    obtain ⟨called, began, read, rfl⟩ := history
    rcases hu with ⟨-, rfl⟩ | ⟨hut, hu⟩
    · simp at place
    · simp only [Function.update_of_ne hut]
      exact hs.init u hu
  | starts =>
    rcases hu with ⟨rfl, -⟩ | ⟨hut, hu⟩
    · simp only [Function.update_self]
      exact hs.past
    · simp only [Function.update_of_ne hut]
      exact hs.init u hu
  | returns _ _ cleared =>
    rcases hu with ⟨-, hp⟩ | ⟨hut, hu⟩
    · exact absurd hp (by simp)
    · exact absurd (eq_of_apps h (Or.inl hu) (Or.inr (Or.inr cleared))) hut
  | _ =>
    rcases hu with ⟨-, hp⟩ | ⟨-, hu⟩
    · exact absurd hp (by simp)
    · exact hs.init u hu

theorem Move.set_current (hs : Current getDetails s k)
    (hmove : Move getDetails t s.caches k (s.pc t) c' (place pc') k') :
    ∀ u map, place (Function.update s.pc t pc' u) = .set map →
      ∃ i, k'.runtimes u = some i ∧ map = i.map ∧ k'.Fresh i := by
  intro u map hu
  replace hu := place_update (P := (· = Place.set map)) u hu
  generalize place pc' = p' at hmove hu
  cases hmove with
  | quiet _ _ place history =>
    obtain ⟨called, began, read, rfl⟩ := history
    rcases hu with ⟨-, rfl⟩ | ⟨hut, hu⟩
    · simp at place
    · simp only [Function.update_of_ne hut]
      exact hs.set u map hu
  | reads runtimes full =>
    rcases hu with ⟨rfl, hp⟩ | ⟨hut, hu⟩
    · obtain rfl := Place.set.inj hp
      simp only [Function.update_self]
      exact hs.apps _ full
    · simp only [Function.update_of_ne hut]
      exact hs.set u map hu
  | returns _ _ cleared =>
    rcases hu with ⟨-, hp⟩ | ⟨-, hu⟩
    · exact absurd hp (by simp)
    · exact absurd hu ((hs.bothCleared t cleared).2.2 u map)
  | _ =>
    rcases hu with ⟨-, hp⟩ | ⟨-, hu⟩
    · exact absurd hp (by simp)
    · exact hs.set u map hu

theorem Move.appsCleared_current (h : Accounted s) (hs : Current getDetails s k)
    (hmove : Move getDetails t s.caches k (s.pc t) c' (place pc') k') :
    ∀ u, place (Function.update s.pc t pc' u) = .appsCleared → c'.apps = none := by
  intro u hu
  replace hu := place_update (P := (· = Place.appsCleared)) u hu
  generalize place pc' = p' at hmove hu
  cases hmove with
  | quiet apps _ place =>
    rcases hu with ⟨-, rfl⟩ | ⟨-, hu⟩
    · simp at place
    · exact apps.trans (hs.appsCleared u hu)
  | builds map init =>
    rcases hu with ⟨-, hp⟩ | ⟨hut, hu⟩
    · exact absurd hp (by simp)
    · exact absurd (eq_of_apps h (Or.inr (Or.inl hu)) (Or.inl init)) hut
  | clearsApps => rfl
  | returns apps _ cleared => exact apps.trans (hs.bothCleared t cleared).1
  | _ =>
    rcases hu with ⟨-, hp⟩ | ⟨-, hu⟩
    · exact absurd hp (by simp)
    · exact hs.appsCleared u hu

/-- After a move no thread is at `set` that was not, unless it has read the runtimes. -/
theorem Move.bothCleared_current (h : Accounted s) (hs : Current getDetails s k)
    (hmove : Move getDetails t s.caches k (s.pc t) c' (place pc') k') :
    ∀ u, place (Function.update s.pc t pc' u) = .bothCleared → c'.apps = none ∧
      c'.appDetails = none ∧ ∀ v map, place (Function.update s.pc t pc' v) ≠ .set map := by
  intro u hu
  replace hu := place_update (P := (· = Place.bothCleared)) u hu
  have hset : ∀ v map, (∀ w map, place (s.pc w) ≠ .set map) → place pc' ≠ .set map →
      place (Function.update s.pc t pc' v) ≠ .set map := by
    intro v map hno hp hv
    rcases place_update (P := (· = Place.set map)) v hv with ⟨-, hv⟩ | ⟨-, hv⟩
    · exact hp hv
    · exact hno v map hv
  generalize place pc' = p' at hmove hu hset
  cases hmove with
  | quiet apps appDetails place =>
    have hcleared : ∃ v, CloudOs.Apps.place (s.pc v) = .bothCleared := by
      rcases hu with ⟨-, rfl⟩ | ⟨-, hu⟩
      · exact ⟨t, by simpa using place⟩
      · exact ⟨u, hu⟩
    obtain ⟨v, hv⟩ := hcleared
    obtain ⟨happs, hdetails, hno⟩ := hs.bothCleared v hv
    refine ⟨apps.trans happs, appDetails.trans hdetails, fun w map => hset w map hno ?_⟩
    rcases place with rfl | ⟨rfl, -⟩ <;> simp
  | starts =>
    rcases hu with ⟨-, hp⟩ | ⟨-, hu⟩
    · exact absurd hp (by simp)
    · obtain ⟨happs, hdetails, hno⟩ := hs.bothCleared u hu
      exact ⟨happs, hdetails, fun v map => hset v map hno (by simp)⟩
  | builds map init =>
    rcases hu with ⟨-, hp⟩ | ⟨hut, hu⟩
    · exact absurd hp (by simp)
    · exact absurd (eq_of_apps h (Or.inr (Or.inr hu)) (Or.inl init)) hut
  | reads map full =>
    rcases hu with ⟨-, hp⟩ | ⟨-, hu⟩
    · exact absurd hp (by simp)
    · rw [(hs.bothCleared u hu).1] at full
      exact absurd full (by simp)
  | sets map set =>
    rcases hu with ⟨-, hp⟩ | ⟨-, hu⟩
    · exact absurd hp (by simp)
    · exact absurd set ((hs.bothCleared u hu).2.2 t map)
  | clearsApps =>
    rcases hu with ⟨-, hp⟩ | ⟨-, hu⟩
    · exact absurd hp (by simp)
    · obtain ⟨-, hdetails, hno⟩ := hs.bothCleared u hu
      exact ⟨rfl, hdetails, fun v map => hset v map hno (by simp)⟩
  | clearsDetails half holds =>
    refine ⟨hs.appsCleared t half, rfl, fun v map => hset v map (fun w map' hw => ?_) (by simp)⟩
    obtain rfl := Monitors.Accounted.unique h (appDetails_mem_holds hw) holds
    rw [half] at hw
    exact absurd hw (by simp)
  | returns apps appDetails cleared =>
    obtain ⟨happs, hdetails, hno⟩ := hs.bothCleared t cleared
    exact ⟨apps.trans happs, appDetails.trans hdetails, fun v map => hset v map hno (by simp)⟩

/-- The resets are in the past. -/
theorem Move.past_current (hs : Current getDetails s k) {p' : Place ρ}
    (hmove : Move getDetails t s.caches k (s.pc t) c' p' k') :
    ∀ r ∈ k'.resets, r.began < k.now + 1 := by
  have hold : ∀ r ∈ k.resets, r.began < k.now + 1 := fun r hr => Nat.lt_succ_of_lt (hs.past r hr)
  cases hmove with
  | quiet _ _ _ history =>
    obtain ⟨called, began, read, rfl⟩ := history
    exact hold
  | returns =>
    intro r hr
    rcases List.mem_cons.1 hr with rfl | hr
    · exact Nat.lt_succ_of_le (hs.called t)
    · exact hold r hr
  | _ => exact hold

theorem Move.calledAt_eq {c : Caches T ρ δ} {pc : Pc ρ δ} {p' : Place ρ}
    (hmove : Move getDetails t c k pc c' p' k') : k'.calledAt = k.calledAt := by
  cases hmove with
  | quiet _ _ _ history =>
    obtain ⟨called, began, read, rfl⟩ := history
    rfl
  | _ => rfl

end Steps

/-- A call of a method is recorded with its time, unless its thread is inside one. -/
theorem record_call [DecidableEq T] {getDetails : ρ → δ} {s s' : State T ρ δ} {k : History T ρ} {t : T}
    (h : Current getDetails s k) (method : Method) : ∃ called : T → ℕ, (∀ u, called u ≤ k.now + 1) ∧
      k.record s s' (.call t method) = { k with now := k.now + 1, calledAt := called } := by
  have hcalled : ∀ u, k.calledAt u ≤ k.now + 1 := fun u => (h.called u).trans (Nat.le_succ _)
  cases hpc : s.pc t with
  | outside last =>
    refine ⟨Function.update k.calledAt t k.now, fun u => ?_, by simp [History.record, hpc]⟩
    rw [Function.update_apply]
    split_ifs
    · exact Nat.le_succ _
    · exact hcalled u
  | _ => exact ⟨k.calledAt, hcalled, by simp [History.record, hpc]⟩

/-- **The references stay current**, whatever happens. -/
theorem current_trace [DecidableEq T] {getDetails : ρ → δ} {p : State T ρ δ × History T ρ}
    (h : Accounted p.1) (hp : Current getDetails p.1 p.2) (e : Event T ρ) :
    Current getDetails (trace getDetails p e).1 (trace getDetails p e).2 := by
  obtain ⟨s, k⟩ := p
  cases e with
  | call t method =>
    have hplace : ∀ u, place ((step getDetails s (.call t method)).pc u) = place (s.pc u) := by
      intro u
      by_cases hut : u = t
      · rw [hut]
        simp only [step, Function.update_self]
        cases s.pc t with
        | outside last => cases method <;> rfl
        | _ => rfl
      · simp only [step, Function.update_of_ne hut]
    obtain ⟨called, hcalled, hk⟩ := record_call hp method
    show Current getDetails (step getDetails s (.call t method)) 
      (k.record s (step getDetails s (.call t method)) (.call t method))
    rw [hk]
    refine ⟨hcalled, fun r hr => Nat.lt_succ_of_lt (hp.past r hr), hp.apps, hp.details, ?_, ?_,
      ?_, ?_⟩
    · exact fun u hu => hp.init u ((hplace u).symm.trans hu)
    · exact fun u map hu => hp.set u map ((hplace u).symm.trans hu)
    · exact fun u hu => hp.appsCleared u ((hplace u).symm.trans hu)
    · intro u hu
      obtain ⟨happs, hdetails, hno⟩ := hp.bothCleared u ((hplace u).symm.trans hu)
      exact ⟨happs, hdetails, fun v map hv => hno v map ((hplace v).symm.trans hv)⟩
  | step t loaded =>
    have hnext : (step getDetails s (.step t loaded)).pc t
        = (advance getDetails t loaded s.caches (s.pc t)).2 := Function.update_self _ _ _
    have hmove : Move getDetails t s.caches k (s.pc t)
        (advance getDetails t loaded s.caches (s.pc t)).1
        (place (advance getDetails t loaded s.caches (s.pc t)).2)
        (k.recordInstruction t loaded (s.pc t) (advance getDetails t loaded s.caches (s.pc t)).2) :=
      advance_move loaded (s.pc t)
    have hcalled : ∀ u, (k.recordInstruction t loaded (s.pc t)
        (advance getDetails t loaded s.caches (s.pc t)).2).calledAt u ≤ k.now + 1 := by
      rw [hmove.calledAt_eq]
      exact fun u => (hp.called u).trans (Nat.le_succ _)
    have hpast := hmove.past_current hp
    have happs := hmove.apps_current hp
    have hdetails := hmove.details_current hp
    have hinit := hmove.init_current h hp
    have hset := hmove.set_current hp
    simp only [trace, History.record, hnext]
    exact ⟨hcalled, hpast, happs, hdetails, hinit, hset,
      hmove.appsCleared_current h hp, hmove.bothCleared_current h hp⟩

/-! ### Runs -/

theorem current_run [DecidableEq T] (getDetails : ρ → δ) (events : List (Event T ρ)) :
    Accounted (Runs.run (trace getDetails) ({}, {}) events).1 ∧
      Current getDetails (Runs.run (trace getDetails) ({}, {}) events).1
        (Runs.run (trace getDetails) ({}, {}) events).2 :=
  Runs.run_invariant (I := fun p : State T ρ δ × History T ρ =>
    Accounted p.1 ∧ Current getDetails p.1 p.2)
    (C := fun _ _ => True)
    (fun _ e h _ => ⟨accounted_step getDetails h.1 e, current_trace h.1 h.2 e⟩)
    ⟨accounted_empty, current_empty getDetails⟩ (Runs.meets_of_forall (fun _ _ => trivial) _ _)

/-- **A reset takes effect**: in every run from the empty caches, for any number of threads, what
any call returns was built by an initialisation that started after every `resetApps` began that
had returned when the call started. -/
theorem reset_takes_effect [DecidableEq T] (getDetails : ρ → δ) (events : List (Event T ρ)) :
    ReturnsFresh getDetails (Runs.run (step getDetails) {} events)
      (Runs.run (trace getDetails) ({}, {}) events).2 := by
  obtain ⟨-, hcurrent⟩ := current_run getDetails events
  rw [run_trace_fst] at hcurrent
  generalize Runs.run (step getDetails) {} events = s at hcurrent
  generalize (Runs.run (trace getDetails) ({}, {}) events).2 = k at hcurrent
  have hfresh : ∀ {i : Init ρ} called, k.Fresh i → FreshSince k called i :=
    fun called h r hr _ => h r hr
  constructor
  · intro t loaded pc map hpc hret
    obtain ⟨-, happs⟩ := stepRuntimes_returns hret
    obtain ⟨i, hi, hmap, hi'⟩ := hcurrent.apps map happs
    exact ⟨i, hi, hmap, hfresh _ hi'⟩
  · intro t loaded pc map hpc hret
    obtain ⟨-, happs⟩ := stepRuntimes_returns hret
    obtain ⟨i, hi, hmap, hi'⟩ := hcurrent.apps map happs
    exact ⟨i, hi, hmap, hfresh _ hi'⟩
  · intro t loaded pc map hpc hret
    obtain ⟨-, hdetails⟩ := stepDetails_returns hret
    obtain ⟨i, hi, hmap, hi'⟩ := hcurrent.details map hdetails
    exact ⟨i, hi, hmap, hfresh _ hi'⟩

/-- A thread fills the runtimes, resets them and fills them again. -/
def fillAndReset : List (Event ℕ Unit) :=
  let fill : List (Event ℕ Unit) :=
    .call 1 .getAvailableRuntimes :: List.replicate 6 (.step 1 (.ok [("app", ())]))
  fill ++ .call 1 .resetApps :: List.replicate 6 (.step 1 (.ok [])) ++ fill

example :
    let k := (Runs.run (trace (T := ℕ) (id : Unit → Unit)) ({}, {}) fillAndReset).2
    k.resets.map (fun r => (r.began, r.returned)) = [(7, 13)] ∧ k.apps.map (·.began) = some 17 :=
  ⟨rfl, rfl⟩

end Apps

end CloudOs

/-
# `AppDAO`: the caches of the apps

`AppDAO` caches what the active apps say of themselves, in two references: `apps`, the
runtimes by name, and `appDetails`, what is shown of them.  Any number of threads call
three methods.

| method | enters |
| --- | --- |
| `getAvailableRuntimes` | `apps`, to fill it |
| `getAvailableAppDetails` | `appDetails`, to fill it; and `apps` within, to get the runtimes |
| `resetApps` | `apps`, and `appDetails` within, to clear both |

A thread stands at an instruction of its method (`Pc`), and an event lets one thread call
a method or take one instruction: a read or a write of a reference, the entry or the exit of
a `synchronized` block.  At the entry of a monitor that is owned it stays where it stands.
What `initAvailableRuntimes` finds in the repository of the apps is part of the event.

No method enters a monitor that its thread holds (`not_reentered`).
-/

import CloudOs.Lib.Monitors
import CloudOs.Lib.Runs
import CloudOs.Model.Requests

namespace CloudOs

namespace AppCaches

/-- The two references that are locked. -/
inductive Monitor
  | apps | appDetails
  deriving DecidableEq, Repr

/-- The methods that use the caches. -/
inductive Method
  | getAvailableAppDetails | getAvailableRuntimes | resetApps
  deriving DecidableEq, Repr

/-- A map from the names of apps. -/
abbrev AppMap (α : Type*) := List (String × α)

/-- Where a thread stands in `getAvailableRuntimes`. -/
inductive RuntimesPc
  | check
  | enter
  | recheck
  | init
  | exit (thrown : Option Exn)
  | ret
  deriving DecidableEq, Repr

/-- Where a thread stands in `getAvailableAppDetails`; `runtimes` is inside the call to
`getAvailableRuntimes`. -/
inductive DetailsPc (ρ : Type*)
  | check
  | enter
  | recheck
  | runtimes (pc : RuntimesPc)
  | set (runtimes : AppMap ρ)
  | exit (thrown : Option Exn)
  | ret

/-- Where a thread stands in `resetApps`. -/
inductive ResetPc
  | enterApps | enterDetails | clearApps | clearDetails | exitDetails | exitApps
  deriving DecidableEq, Repr

/-- How a call has ended. -/
inductive Result (ρ δ : Type*)
  | details (map : Option (AppMap δ))
  | runtimes (map : Option (AppMap ρ))
  | reset
  | threw (x : Exn)

/-- Where a thread stands: outside, its last call having ended so, or inside a method. -/
inductive Pc (ρ δ : Type*)
  | outside (last : Option (Result ρ δ))
  | getAvailableAppDetails (pc : DetailsPc ρ)
  | getAvailableRuntimes (pc : RuntimesPc)
  | resetApps (pc : ResetPc)

/-- What the threads share. -/
structure Caches (T ρ δ : Type*) where
  apps : Option (AppMap ρ) := none
  appDetails : Option (AppMap δ) := none
  owner : Monitor → Option T := fun _ => none

/-- The caches and where every thread stands; at first the caches are empty. -/
structure State (T ρ δ : Type*) where
  caches : Caches T ρ δ := {}
  pc : T → Pc ρ δ := fun _ => .outside none

/-- What can happen: a thread outside calls a method; a thread inside takes its next
instruction, for which `initAvailableRuntimes` ends with `loaded`. -/
inductive Event (T ρ : Type*)
  | call (t : T) (method : Method)
  | step (t : T) (loaded : Except Exn (AppMap ρ))

variable {T ρ δ : Type*}

namespace Caches

variable (c : Caches T ρ δ)

/-- The entry of a monitor: the thread stays at `here` unless it is free. -/
def enter {α : Type*} (m : Monitor) (t : T) (here next : α) : Caches T ρ δ × α :=
  match c.owner m with
  | none => ({ c with owner := Function.update c.owner m (some t) }, next)
  | some _ => (c, here)

/-- The exit of a monitor. -/
def exit (m : Monitor) : Caches T ρ δ := { c with owner := Function.update c.owner m none }

@[simp] theorem enter_apps {α : Type*} (m : Monitor) (t : T) (here next : α) :
    (c.enter m t here next).1.apps = c.apps := by
  unfold enter
  cases c.owner m <;> rfl

@[simp] theorem enter_appDetails {α : Type*} (m : Monitor) (t : T) (here next : α) :
    (c.enter m t here next).1.appDetails = c.appDetails := by
  unfold enter
  cases c.owner m <;> rfl

/-- At its entry a thread stays, or is let in. -/
theorem enter_next {α : Type*} (m : Monitor) (t : T) (here next : α) :
    (c.enter m t here next).2 = here ∨ (c.enter m t here next).2 = next := by
  unfold enter
  cases c.owner m
  · exact Or.inr rfl
  · exact Or.inl rfl

end Caches

/-- Where an instruction of `getAvailableRuntimes` leads: on in the method, or out of it. -/
inductive Next (ρ : Type*)
  | go (pc : RuntimesPc)
  | returns (map : Option (AppMap ρ))
  | throws (x : Exn)

/-- One instruction of `getAvailableRuntimes`. -/
def stepRuntimes (t : T) (loaded : Except Exn (AppMap ρ)) (c : Caches T ρ δ) :
    RuntimesPc → Caches T ρ δ × Next ρ
  | .check => (c, .go (if c.apps.isNone then .enter else .ret))
  | .enter => c.enter .apps t (.go .enter) (.go .recheck)
  | .recheck => (c, .go (if c.apps.isNone then .init else .exit none))
  | .init => match loaded with
    | .ok map => ({ c with apps := some map }, .go (.exit none))
    | .error x =>
      (c, .go (.exit (some (.dieOf "getAvailableRuntimes: error intializing: " x))))
  | .exit thrown => (c.exit .apps, thrown.elim (.go .ret) .throws)
  | .ret => (c, .returns c.apps)

/-- Where `getAvailableAppDetails` goes on after an instruction of `getAvailableRuntimes`;
`entrySet` is called on what that returns, which may be `null`. -/
def Next.inDetails : Next ρ → Pc ρ δ
  | .go pc => .getAvailableAppDetails (.runtimes pc)
  | .returns (some map) => .getAvailableAppDetails (.set map)
  | .returns none => .getAvailableAppDetails (.exit (some .nullPointer))
  | .throws x => .getAvailableAppDetails (.exit (some x))

/-- Where a thread goes on that has called `getAvailableRuntimes`. -/
def Next.alone : Next ρ → Pc ρ δ
  | .go pc => .getAvailableRuntimes pc
  | .returns map => .outside (some (.runtimes map))
  | .throws x => .outside (some (.threw x))

/-- One instruction of `getAvailableAppDetails`. -/
def stepDetails (getDetails : ρ → δ) (t : T) (loaded : Except Exn (AppMap ρ)) (c : Caches T ρ δ) :
    DetailsPc ρ → Caches T ρ δ × Pc ρ δ
  | .check => (c, .getAvailableAppDetails (if c.appDetails.isNone then .enter else .ret))
  | .enter => c.enter .appDetails t (.getAvailableAppDetails .enter) (.getAvailableAppDetails .recheck)
  | .recheck => (c, .getAvailableAppDetails
      (if c.appDetails.isNone then .runtimes .check else .exit none))
  | .runtimes pc => ((stepRuntimes t loaded c pc).1, (stepRuntimes t loaded c pc).2.inDetails)
  | .set map => ({ c with appDetails := some (map.map fun e => (e.1, getDetails e.2)) },
      .getAvailableAppDetails (.exit none))
  | .exit thrown => (c.exit .appDetails,
      thrown.elim (.getAvailableAppDetails .ret) fun x => .outside (some (.threw x)))
  | .ret => (c, .outside (some (.details c.appDetails)))

/-- One instruction of `resetApps`. -/
def stepReset (t : T) (c : Caches T ρ δ) : ResetPc → Caches T ρ δ × Pc ρ δ
  | .enterApps => c.enter .apps t (.resetApps .enterApps) (.resetApps .enterDetails)
  | .enterDetails => c.enter .appDetails t (.resetApps .enterDetails) (.resetApps .clearApps)
  | .clearApps => ({ c with apps := none }, .resetApps .clearDetails)
  | .clearDetails => ({ c with appDetails := none }, .resetApps .exitDetails)
  | .exitDetails => (c.exit .appDetails, .resetApps .exitApps)
  | .exitApps => (c.exit .apps, .outside (some .reset))

/-- One instruction of a thread. -/
def advance (getDetails : ρ → δ) (t : T) (loaded : Except Exn (AppMap ρ)) (c : Caches T ρ δ) :
    Pc ρ δ → Caches T ρ δ × Pc ρ δ
  | .outside last => (c, .outside last)
  | .getAvailableAppDetails pc => stepDetails getDetails t loaded c pc
  | .getAvailableRuntimes pc =>
    ((stepRuntimes t loaded c pc).1, (stepRuntimes t loaded c pc).2.alone)
  | .resetApps pc => stepReset t c pc

/-- The first instruction of a method. -/
def Method.start : Method → Pc ρ δ
  | .getAvailableAppDetails => .getAvailableAppDetails .check
  | .getAvailableRuntimes => .getAvailableRuntimes .check
  | .resetApps => .resetApps .enterApps

/-- A thread calls a method, unless it is inside one. -/
def Pc.call (method : Method) : Pc ρ δ → Pc ρ δ
  | .outside _ => method.start
  | pc => pc

/-- What an event does. -/
def step [DecidableEq T] (getDetails : ρ → δ) (s : State T ρ δ) : Event T ρ → State T ρ δ
  | .call t method => { s with pc := Function.update s.pc t ((s.pc t).call method) }
  | .step t loaded =>
    { caches := (advance getDetails t loaded s.caches (s.pc t)).1
      pc := Function.update s.pc t (advance getDetails t loaded s.caches (s.pc t)).2 }

@[simp] theorem step_pc_self [DecidableEq T] (getDetails : ρ → δ) (s : State T ρ δ) (t : T)
    (loaded : Except Exn (AppMap ρ)) : (step getDetails s (.step t loaded)).pc t
      = (advance getDetails t loaded s.caches (s.pc t)).2 := Function.update_self _ _ _

/-- The other threads stay where they stand. -/
theorem step_pc_of_ne [DecidableEq T] (getDetails : ρ → δ) (s : State T ρ δ) {t u : T} (h : u ≠ t)
    (loaded : Except Exn (AppMap ρ)) : (step getDetails s (.step t loaded)).pc u = s.pc u :=
  Function.update_of_ne h _ _

/-- A thread at another place than the one that goes on stays there. -/
theorem step_pc_eq [DecidableEq T] (getDetails : ρ → δ) {s : State T ρ δ} {t u : T} {x : Pc ρ δ}
    (hu : s.pc u = x) (ht : s.pc t ≠ x) (loaded : Except Exn (AppMap ρ)) :
    (step getDetails s (.step t loaded)).pc u = x := by
  rw [step_pc_of_ne getDetails s (fun hut => ht (by rw [← hut, hu])) loaded, hu]

/-! ### What a call returns -/

/-- `getAvailableRuntimes` returns what it reads last. -/
theorem stepRuntimes_returns {t : T} {loaded : Except Exn (AppMap ρ)} {c : Caches T ρ δ}
    {pc : RuntimesPc} {map : Option (AppMap ρ)}
    (h : (stepRuntimes t loaded c pc).2 = .returns map) : pc = .ret ∧ c.apps = map := by
  cases pc with
  | ret => exact ⟨rfl, Next.returns.inj h⟩
  | enter =>
    unfold stepRuntimes Caches.enter at h
    cases howner : c.owner .apps <;> rw [howner] at h <;> exact absurd h (by simp)
  | init => cases loaded <;> exact absurd h (by simp [stepRuntimes])
  | exit thrown => cases thrown <;> exact absurd h (by simp [stepRuntimes])
  | _ => exact absurd h (by simp [stepRuntimes])

/-- `getAvailableAppDetails` returns what it reads last. -/
theorem stepDetails_returns {getDetails : ρ → δ} {t : T} {loaded : Except Exn (AppMap ρ)}
    {c : Caches T ρ δ} {pc : DetailsPc ρ} {map : Option (AppMap δ)}
    (h : (stepDetails getDetails t loaded c pc).2 = .outside (some (.details map))) :
    pc = .ret ∧ c.appDetails = map := by
  cases pc with
  | ret => exact ⟨rfl, by simpa [stepDetails] using h⟩
  | enter =>
    simp only [stepDetails, Caches.enter] at h
    cases howner : c.owner .appDetails <;> rw [howner] at h <;> exact absurd h (by simp)
  | runtimes pc =>
    simp only [stepDetails] at h
    generalize (stepRuntimes t loaded c pc).2 = next at h
    rcases next with pc' | map' | x
    · exact absurd h (by simp [Next.inDetails])
    · cases map' <;> exact absurd h (by simp [Next.inDetails])
    · exact absurd h (by simp [Next.inDetails])
  | exit thrown => cases thrown <;> exact absurd h (by simp [stepDetails])
  | _ => exact absurd h (by simp [stepDetails])

/-! ### What a thread holds and what it enters -/

/-- The monitors that a thread has entered in `getAvailableRuntimes`. -/
def Next.holds : Next ρ → Set Monitor
  | .go .recheck => {.apps}
  | .go .init => {.apps}
  | .go (.exit _) => {.apps}
  | _ => ∅

namespace Pc

/-- The monitors that a thread holds where it stands. -/
def holds : Pc ρ δ → Set Monitor
  | .outside _ => ∅
  | .getAvailableRuntimes pc => (Next.go pc : Next ρ).holds
  | .getAvailableAppDetails .check => ∅
  | .getAvailableAppDetails .enter => ∅
  | .getAvailableAppDetails .ret => ∅
  | .getAvailableAppDetails (.runtimes pc) => {.appDetails} ∪ (Next.go pc : Next ρ).holds
  | .getAvailableAppDetails _ => {.appDetails}
  | .resetApps .enterApps => ∅
  | .resetApps .enterDetails => {.apps}
  | .resetApps .exitApps => {.apps}
  | .resetApps _ => {.apps, .appDetails}

/-- The monitor at whose entry a thread stands. -/
def entering : Pc ρ δ → Option Monitor
  | .getAvailableRuntimes .enter => some .apps
  | .getAvailableAppDetails .enter => some .appDetails
  | .getAvailableAppDetails (.runtimes .enter) => some .apps
  | .resetApps .enterApps => some .apps
  | .resetApps .enterDetails => some .appDetails
  | _ => none

end Pc

open Monitors

theorem Next.holds_inDetails (n : Next ρ) :
    (n.inDetails : Pc ρ δ).holds = {Monitor.appDetails} ∪ n.holds := by
  cases n with
  | go pc => rfl
  | returns map => cases map <;> exact (Set.union_empty _).symm
  | throws x => exact (Set.union_empty _).symm

/-- `getAvailableRuntimes` enters `apps` alone. -/
theorem Next.notMem_holds (n : Next ρ) (m : Monitor) (hm : m ∈ n.holds) :
    m ∉ ({.appDetails} : Set Monitor) := by
  have happs : n.holds ⊆ {.apps} := by
    cases n with
    | go pc => cases pc <;> simp [Next.holds]
    | returns map => exact Set.empty_subset _
    | throws x => exact Set.empty_subset _
  rw [Set.mem_singleton_iff.1 (happs hm)]
  simp

/-- The entry of a monitor: the thread stays, or takes it. -/
theorem enter_turn {α : Type*} {holds : α → Set Monitor} (c : Caches T ρ δ) (m : Monitor) (t : T)
    {here next : α} (takes : holds next = insert m (holds here)) :
    Turn holds t here c.owner (c.enter m t here next).2 (c.enter m t here next).1.owner := by
  unfold Caches.enter
  cases howner : c.owner m with
  | none => exact .enters howner takes
  | some u => exact .stays rfl

theorem stepRuntimes_turn (t : T) (loaded : Except Exn (AppMap ρ)) (c : Caches T ρ δ)
    (pc : RuntimesPc) : Turn Next.holds t (.go pc) c.owner (stepRuntimes t loaded c pc).2
      (stepRuntimes t loaded c pc).1.owner := by
  cases pc with
  | check =>
    refine .stays ?_
    simp only [stepRuntimes]
    split_ifs <;> rfl
  | enter => exact enter_turn c .apps t (by simp [Next.holds])
  | recheck =>
    refine .stays ?_
    simp only [stepRuntimes]
    split_ifs <;> rfl
  | init => cases loaded <;> exact .stays rfl
  | exit thrown => cases thrown <;> exact .exits rfl (by simp [Next.holds, stepRuntimes])
  | ret => exact .stays rfl

theorem stepDetails_turn (getDetails : ρ → δ) (t : T) (loaded : Except Exn (AppMap ρ))
    (c : Caches T ρ δ) (pc : DetailsPc ρ) : Turn Pc.holds t (.getAvailableAppDetails pc) c.owner
      (stepDetails getDetails t loaded c pc).2 (stepDetails getDetails t loaded c pc).1.owner := by
  cases pc with
  | check =>
    refine .stays ?_
    simp only [stepDetails]
    split_ifs <;> rfl
  | enter => exact enter_turn c .appDetails t (by simp [Pc.holds])
  | recheck =>
    refine .stays ?_
    simp only [stepDetails]
    split_ifs
    · exact Set.union_empty _
    · rfl
  | runtimes pc =>
    exact (stepRuntimes_turn t loaded c pc).inside Next.holds_inDetails Next.notMem_holds
  | set map => exact .stays rfl
  | exit thrown => cases thrown <;> exact .exits rfl (by simp [Pc.holds, stepDetails])
  | ret => exact .stays rfl

theorem stepReset_turn (t : T) (c : Caches T ρ δ) (pc : ResetPc) :
    Turn Pc.holds t (.resetApps pc) c.owner (stepReset t c pc).2 (stepReset t c pc).1.owner := by
  cases pc with
  | enterApps => exact enter_turn c .apps t (by simp [Pc.holds])
  | enterDetails => exact enter_turn c .appDetails t (Set.pair_comm _ _)
  | clearApps => exact .stays rfl
  | clearDetails => exact .stays rfl
  | exitDetails =>
    refine .exits (Or.inr rfl) ?_
    ext m
    cases m <;> simp [Pc.holds, stepReset]
  | exitApps => exact .exits rfl (by simp [Pc.holds, stepReset])

/-- **What an instruction does to the monitors.** -/
theorem advance_turn (getDetails : ρ → δ) (t : T) (loaded : Except Exn (AppMap ρ))
    (c : Caches T ρ δ) (pc : Pc ρ δ) : Turn Pc.holds t pc c.owner (advance getDetails t loaded c pc).2
      (advance getDetails t loaded c pc).1.owner := by
  cases pc with
  | outside last => exact .stays rfl
  | getAvailableAppDetails pc => exact stepDetails_turn getDetails t loaded c pc
  | getAvailableRuntimes pc =>
    have halone : ∀ n : Next ρ, (n.alone : Pc ρ δ).holds = ∅ ∪ n.holds := by
      intro n
      rw [Set.empty_union]
      cases n <;> rfl
    exact (stepRuntimes_turn t loaded c pc).inside halone fun _ _ _ => Set.notMem_empty _
  | resetApps pc => exact stepReset_turn t c pc

/-! ### The owners -/

/-- The owners of the monitors are the threads that hold them where they stand. -/
def Accounted (s : State T ρ δ) : Prop := Monitors.Accounted Pc.holds s.caches.owner s.pc

theorem accounted_empty : Accounted ({} : State T ρ δ) := fun m t =>
  iff_of_false (Option.some_ne_none t).symm (Set.notMem_empty m)

/-- **The owners are accounted for** after every event. -/
theorem accounted_step [DecidableEq T] (getDetails : ρ → δ) {s : State T ρ δ} (h : Accounted s)
    (e : Event T ρ) : Accounted (step getDetails s e) := by
  cases e with
  | call t method =>
    have hcall : ∀ pc : Pc ρ δ, (pc.call method).holds = pc.holds := by
      intro pc
      cases pc <;> cases method <;> rfl
    exact h.turn (.stays (hcall _))
  | step t loaded => exact h.turn (advance_turn getDetails t loaded s.caches (s.pc t))

/-- No method enters a monitor that its thread holds. -/
theorem not_reentered {s : State T ρ δ} (h : Accounted s) {t : T} {m : Monitor}
    (hm : (s.pc t).entering = some m) : s.caches.owner m ≠ some t := by
  rw [ne_eq, h m t]
  generalize s.pc t = p at hm
  unfold Pc.entering at hm
  split at hm <;> simp at hm <;> subst hm <;> simp [Pc.holds, Next.holds]

end AppCaches

end CloudOs

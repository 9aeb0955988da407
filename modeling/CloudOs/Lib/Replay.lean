/-
# Logs of messages and what they say

A machine that tells other systems what it does keeps a log of the messages it has sent.
Whoever listens folds the log into a view of its own (`replay`).  What is meant is that the view
and the machine's own state agree; it follows from what one step adds to the log (`Emits`) and
what the listener makes of that.

* Messages that tell the listener nothing new leave the view (`replay_of_ignored`).
* The log of two steps is that of the one and then of the other (`replay_append`).
-/

import Mathlib.Order.Defs.Unbundled

namespace Replay

variable {σ μ ν : Type*}

/-- The view of a listener after the messages `log`, from the view `v`. -/
def replay (hear : ν → μ → ν) (v : ν) (log : List μ) : ν := log.foldl hear v

@[simp] theorem replay_nil (hear : ν → μ → ν) (v : ν) : replay hear v [] = v := rfl

@[simp] theorem replay_cons (hear : ν → μ → ν) (v : ν) (m : μ) (log : List μ) :
    replay hear v (m :: log) = replay hear (hear v m) log := rfl

@[simp] theorem replay_append (hear : ν → μ → ν) (v : ν) (log ms : List μ) :
    replay hear v (log ++ ms) = replay hear (replay hear v log) ms := List.foldl_append

/-- Messages that tell the listener nothing that is not in its view. -/
theorem replay_of_ignored {hear : ν → μ → ν} {ms : List μ} {v : ν}
    (h : ∀ m ∈ ms, hear v m = v) : replay hear v ms = v := by
  induction ms with
  | nil => rfl
  | cons m ms ih =>
    rw [replay_cons, h m List.mem_cons_self]
    exact ih fun m' hm' => h m' (List.mem_cons_of_mem m hm')

/-- From `s` to `t` the log grows by messages that satisfy `P`. -/
def Emits (log : σ → List μ) (P : μ → Prop) (s t : σ) : Prop :=
  ∃ ms, log t = log s ++ ms ∧ ∀ m ∈ ms, P m

variable {log : σ → List μ} {P : μ → Prop} {s t : σ}

theorem Emits.of_eq (h : log t = log s) : Emits log P s t :=
  ⟨[], by rw [h, List.append_nil], fun m hm => absurd hm List.not_mem_nil⟩

theorem Emits.one {m : μ} (h : log t = log s ++ [m]) (hm : P m) : Emits log P s t :=
  ⟨[m], h, fun _ hm' => List.mem_singleton.1 hm' ▸ hm⟩

instance : Std.Refl (Emits log P) := ⟨fun _ => .of_eq rfl⟩

instance : IsTrans σ (Emits log P) := ⟨fun s t u h h' => by
  obtain ⟨ms, hlog, hms⟩ := h
  obtain ⟨ms', hlog', hms'⟩ := h'
  refine ⟨ms ++ ms', by rw [hlog', hlog, List.append_assoc], fun m hm => ?_⟩
  exact (List.mem_append.1 hm).elim (hms m) (hms' m)⟩

end Replay

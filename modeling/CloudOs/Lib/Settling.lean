/-
# Values that settle

A value is kept when it has the key that is wanted, and replaced by a default with that key when
it has not.  A list of defaults is worked off from left to right: each one wants its own key.

| what is wanted | what becomes of the value |
| --- | --- |
| nothing | it stays (`settleAll_nil`) |
| the same key throughout | it stays if it has that key (`settleAll_of_key`) |
| several keys | it is forgotten: the defaults alone decide (`settleAll_congr`) |

So to work the list off once more changes nothing (`settleAll_settleAll`), although single steps of
it may change the value.
-/

import Mathlib.Logic.Basic
import Mathlib.Tactic.SplitIfs

namespace Settling

variable {α κ : Type*} [DecidableEq κ] (key : α → κ)

/-- Keeps a value with the key of the default. -/
def settle (x c : α) : α := if key x = key c then x else c

/-- Works a list of defaults off. -/
def settleAll (x : α) (cs : List α) : α := cs.foldl (settle key) x

@[simp] theorem settleAll_nil (x : α) : settleAll key x [] = x := rfl

@[simp] theorem settleAll_cons (x c : α) (cs : List α) :
    settleAll key x (c :: cs) = settleAll key (settle key x c) cs := rfl

theorem settleAll_append (x : α) (cs ds : List α) :
    settleAll key x (cs ++ ds) = settleAll key (settleAll key x cs) ds := List.foldl_append

/-- The key that is wanted is there. -/
theorem key_settle (x c : α) : key (settle key x c) = key c := by
  rw [settle]
  split_ifs with h
  · exact h
  · rfl

theorem settle_of_key {x c : α} (h : key x = key c) : settle key x c = x := if_pos h

theorem settle_of_key_ne {x c : α} (h : key x ≠ key c) : settle key x c = c := if_neg h

/-- A value that has every key that is wanted stays. -/
theorem settleAll_of_key {x : α} {cs : List α} (h : ∀ c ∈ cs, key x = key c) :
    settleAll key x cs = x := by
  induction cs with
  | nil => rfl
  | cons c cs ih =>
    rw [settleAll_cons, settle_of_key key (h c List.mem_cons_self)]
    exact ih fun d hd => h d (List.mem_cons_of_mem c hd)

/-- Two values with one key become the same as soon as another key is wanted. -/
theorem settleAll_congr {x y : α} (hkey : key x = key y) {cs : List α}
    (h : ∃ c ∈ cs, key x ≠ key c) : settleAll key x cs = settleAll key y cs := by
  induction cs with
  | nil =>
    obtain ⟨c, hc, -⟩ := h
    exact absurd hc List.not_mem_nil
  | cons c cs ih =>
    rw [settleAll_cons, settleAll_cons]
    by_cases hc : key x = key c
    · rw [settle_of_key key hc, settle_of_key key (hkey.symm.trans hc)]
      obtain ⟨d, hd, hne⟩ := h
      rcases List.mem_cons.1 hd with rfl | hd
      · exact absurd hc hne
      · exact ih ⟨d, hd, hne⟩
    · rw [settle_of_key_ne key hc, settle_of_key_ne key fun hy => hc (hkey.trans hy)]

/-- **Once is enough.**  With one key only the value is kept the second time, and with several the
defaults alone decide, both times. -/
theorem settleAll_settleAll (x : α) (cs : List α) :
    settleAll key (settleAll key x cs) cs = settleAll key x cs := by
  cases cs with
  | nil => rfl
  | cons c cs =>
    by_cases h : ∃ d ∈ cs, key c ≠ key d
    · rw [settleAll_cons]
      refine settleAll_congr key ((key_settle key _ c).trans (key_settle key x c).symm) ?_
      rw [key_settle key _ c]
      exact h
    · have hsame : ∀ d ∈ cs, key c = key d := fun d hd => by_contra fun hne => h ⟨d, hd, hne⟩
      have hkey : key (settleAll key x (c :: cs)) = key c := by
        rw [settleAll_cons, settleAll_of_key key fun d hd => (key_settle key x c).trans (hsame d hd)]
        exact key_settle key x c
      refine settleAll_of_key key fun d hd => hkey.trans ?_
      rcases List.mem_cons.1 hd with rfl | hd
      · rfl
      · exact hsame d hd

end Settling

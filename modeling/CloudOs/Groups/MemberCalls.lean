/-
# The calls of `setMembers`

`setMembers` changes the members of a group by calls of `remove` and `append`, with one DN each.

| the DN | is in the argument | is not in the argument |
| --- | --- | --- |
| was a member | no call | one `remove` |
| was none | one `append`, however often it is there | no call |

A `Recorded` group keeps the calls that are made on it; what it does to the group is what the group
does without a record (`setMembers_group`).  Members that stay come first, in their old order, and
behind them those that are new, in the order of the argument (`getMembers_setMembers`).
-/

import CloudOs.Model.AccountGroup
import Mathlib.Data.List.Nodup

namespace CloudOs

open AccountGroup

namespace Groups

/-- A call that changes the members. -/
inductive MemberCall
  | append (dn : String)
  | remove (dn : String)
  deriving DecidableEq, Repr

/-- A group, and the calls that have been made on it. -/
structure Recorded where
  group : AccountGroup
  calls : List MemberCall := []

namespace Recorded

variable (t : Recorded)

def append (dn : String) : Recorded := ⟨t.group.append .members dn, t.calls ++ [.append dn]⟩

def remove (dn : String) : Recorded := ⟨t.group.removeValue .members dn, t.calls ++ [.remove dn]⟩

def getMembers : List String := t.group.getMembers

def addMember (dn : String) : Recorded := if dn ∈ t.getMembers then t else t.append dn

def removeMember (dn : String) : Recorded := t.remove dn

/-- The first loop of `setMembers`, over the DNs of a list. -/
def removeOthers (memberDNs l : List String) : Recorded :=
  l.foldl (fun t dn => if dn ∈ memberDNs then t else t.removeMember dn) t

def setMembers (memberDNs : List String) : Recorded :=
  memberDNs.foldl addMember (t.removeOthers memberDNs t.getMembers)

/-! ### The record changes nothing -/

theorem addMember_group (dn : String) : (t.addMember dn).group = t.group.addMember dn := by
  unfold addMember AccountGroup.addMember getMembers
  split_ifs <;> rfl

theorem removeOthers_group (memberDNs l : List String) : (t.removeOthers memberDNs l).group =
    l.foldl (fun g dn => if dn ∈ memberDNs then g else g.removeMember dn) t.group := by
  refine (List.foldl_hom Recorded.group fun t dn => ?_).symm
  split_ifs <;> rfl

/-- **The recorded group is the group.** -/
theorem setMembers_group (memberDNs : List String) :
    (t.setMembers memberDNs).group = t.group.setMembers memberDNs := by
  have hadd : ∀ t : Recorded, (memberDNs.foldl addMember t).group =
      memberDNs.foldl AccountGroup.addMember t.group := fun t =>
    (List.foldl_hom Recorded.group fun t dn => (t.addMember_group dn).symm).symm
  rw [setMembers, hadd, removeOthers_group]
  rfl

/-! ### The two loops -/

theorem append_getMembers (dn : String) : (t.append dn).getMembers = t.getMembers ++ [dn] := by
  simp [append, getMembers, AccountGroup.getMembers, LdapEntity.append]

theorem removeMember_getMembers (dn : String) :
    (t.removeMember dn).getMembers = t.getMembers.filter (· ≠ dn) := by
  simp [removeMember, remove, getMembers, AccountGroup.getMembers, LdapEntity.removeValue]

/-- **The first loop** removes the DNs of its list that are not to stay, one by one. -/
theorem removeOthers_spec (memberDNs l : List String) :
    (t.removeOthers memberDNs l).getMembers =
      t.getMembers.filter (fun m => decide (m ∈ l → m ∈ memberDNs)) ∧
    (t.removeOthers memberDNs l).calls =
      t.calls ++ (l.filter (· ∉ memberDNs)).map MemberCall.remove := by
  induction l generalizing t with
  | nil =>
    have hall : t.getMembers.filter (fun m => decide (m ∈ ([] : List String) → m ∈ memberDNs)) =
        t.getMembers := List.filter_eq_self.2 (by simp)
    exact ⟨hall.symm, (List.append_nil _).symm⟩
  | cons dn l ih =>
    by_cases hdn : dn ∈ memberDNs
    · obtain ⟨hmembers, hcalls⟩ := ih t
      have hstep : t.removeOthers memberDNs (dn :: l) = t.removeOthers memberDNs l := by
        rw [removeOthers, List.foldl_cons, if_pos hdn]
        rfl
      rw [hstep, hmembers, hcalls, List.filter_cons_of_neg (by simpa using hdn)]
      refine ⟨List.filter_congr fun m _ => decide_eq_decide.2 ?_, rfl⟩
      rw [List.mem_cons]
      exact ⟨fun h hm => hm.elim (fun he => he ▸ hdn) h, fun h hm => h (Or.inr hm)⟩
    · obtain ⟨hmembers, hcalls⟩ := ih (t.removeMember dn)
      have hstep : t.removeOthers memberDNs (dn :: l) =
          (t.removeMember dn).removeOthers memberDNs l := by
        rw [removeOthers, List.foldl_cons, if_neg hdn]
        rfl
      rw [hstep, hmembers, hcalls, removeMember_getMembers, List.filter_filter,
        List.filter_cons_of_pos (by simpa using hdn)]
      refine ⟨List.filter_congr fun m _ => ?_, ?_⟩
      · rw [← Bool.decide_and, decide_eq_decide, List.mem_cons]
        constructor
        · rintro ⟨h, hne⟩ (he | hm)
          · exact absurd he hne
          · exact h hm
        · intro h
          exact ⟨fun hm => h (Or.inr hm), fun he => hdn (he ▸ h (Or.inl he))⟩
      · simp [removeMember, remove]

/-- What a list adds to what is there, in order and once each. -/
def missing : List String → List String → List String
  | _, [] => []
  | there, dn :: l =>
    if dn ∈ there then missing there l else dn :: missing (there ++ [dn]) l

/-- **The second loop** appends the DNs of its list that are missing. -/
theorem foldl_addMember_spec (l : List String) :
    (l.foldl addMember t).getMembers = t.getMembers ++ missing t.getMembers l ∧
    (l.foldl addMember t).calls =
      t.calls ++ (missing t.getMembers l).map MemberCall.append := by
  induction l generalizing t with
  | nil => simp [missing]
  | cons dn l ih =>
    obtain ⟨hmembers, hcalls⟩ := ih (t.addMember dn)
    rw [List.foldl_cons, hmembers, hcalls, missing, addMember]
    split_ifs with hdn
    · exact ⟨rfl, rfl⟩
    · rw [append_getMembers]
      simp [append]

theorem mem_missing {there l : List String} {m : String} :
    m ∈ missing there l ↔ m ∈ l ∧ m ∉ there := by
  induction l generalizing there with
  | nil => simp [missing]
  | cons dn l ih =>
    rw [missing]
    split_ifs with hdn
    · rw [ih, List.mem_cons]
      constructor
      · rintro ⟨hm, hnot⟩
        exact ⟨Or.inr hm, hnot⟩
      · rintro ⟨rfl | hm, hnot⟩
        · exact absurd hdn hnot
        · exact ⟨hm, hnot⟩
    · rw [List.mem_cons, ih, List.mem_append, List.mem_singleton, List.mem_cons]
      by_cases he : m = dn
      · simp [he, hdn]
      · simp [he]

theorem nodup_missing (there l : List String) : (missing there l).Nodup := by
  induction l generalizing there with
  | nil => exact List.nodup_nil
  | cons dn l ih =>
    rw [missing]
    split_ifs with hdn
    · exact ih there
    · refine List.nodup_cons.2 ⟨fun h => (mem_missing.1 h).2 ?_, ih _⟩
      exact List.mem_append_right there (List.mem_singleton_self dn)

/-! ### Both loops -/

/-- The members that stay. -/
def staying (memberDNs : List String) : List String := t.getMembers.filter (· ∈ memberDNs)

/-- What the first loop leaves are the members that stay. -/
theorem removeOthers_getMembers (memberDNs : List String) :
    (t.removeOthers memberDNs t.getMembers).getMembers = t.staying memberDNs := by
  rw [(t.removeOthers_spec memberDNs _).1, staying]
  refine List.filter_congr fun m hm => decide_eq_decide.2 ?_
  exact ⟨fun h => h hm, fun h _ => h⟩

theorem getMembers_setMembers (memberDNs : List String) : (t.setMembers memberDNs).getMembers =
    t.staying memberDNs ++ missing (t.staying memberDNs) memberDNs := by
  rw [setMembers, (foldl_addMember_spec _ memberDNs).1, removeOthers_getMembers]

theorem calls_setMembers (memberDNs : List String) : (t.setMembers memberDNs).calls =
    t.calls ++ (t.getMembers.filter (· ∉ memberDNs)).map MemberCall.remove ++
      (missing (t.staying memberDNs) memberDNs).map MemberCall.append := by
  rw [setMembers, (foldl_addMember_spec _ memberDNs).2, removeOthers_getMembers,
    (t.removeOthers_spec memberDNs _).2]

theorem mem_staying {memberDNs : List String} {m : String} :
    m ∈ t.staying memberDNs ↔ m ∈ t.getMembers ∧ m ∈ memberDNs := by
  rw [staying, List.mem_filter, decide_eq_true_iff]

/-- New is what is in the argument and was no member. -/
theorem mem_missing_staying {memberDNs : List String} {m : String} :
    m ∈ missing (t.staying memberDNs) memberDNs ↔ m ∈ memberDNs ∧ m ∉ t.getMembers := by
  rw [mem_missing, mem_staying]
  constructor
  · rintro ⟨hm, hnot⟩
    exact ⟨hm, fun hbefore => hnot ⟨hbefore, hm⟩⟩
  · rintro ⟨hm, hnot⟩
    exact ⟨hm, fun hstays => hnot hstays.1⟩

end Recorded

/-- The members are the DNs of the list, once each, and no call was needless. -/
structure SetsExactly (before memberDNs : List String) (t : Recorded) : Prop where
  nodup : t.getMembers.Nodup
  mem_iff : ∀ m, m ∈ t.getMembers ↔ m ∈ memberDNs
  untouched : ∀ m ∈ before, m ∈ memberDNs →
    MemberCall.remove m ∉ t.calls ∧ MemberCall.append m ∉ t.calls
  removed : ∀ m, MemberCall.remove m ∈ t.calls → m ∈ before ∧ m ∉ memberDNs
  appended : ∀ m, MemberCall.append m ∈ t.calls → m ∈ memberDNs ∧ m ∉ before
  once : t.calls.Nodup

open Recorded

/-- **`setMembers` sets the members exactly**, with no call that is not needed. -/
theorem setMembers_exact (g : AccountGroup) (memberDNs : List String)
    (hnodup : g.getMembers.Nodup) :
    ((⟨g, []⟩ : Recorded).setMembers memberDNs).group = g.setMembers memberDNs ∧
    SetsExactly g.getMembers memberDNs ((⟨g, []⟩ : Recorded).setMembers memberDNs) := by
  refine ⟨setMembers_group _ memberDNs, ?_⟩
  have hremoved : ∀ m, MemberCall.remove m ∈ ((⟨g, []⟩ : Recorded).setMembers memberDNs).calls →
      m ∈ g.getMembers ∧ m ∉ memberDNs := by
    intro m hm
    have hothers : m ∈ (⟨g, []⟩ : Recorded).getMembers ∧ m ∉ memberDNs := by
      simpa [calls_setMembers] using hm
    exact hothers
  have happended : ∀ m, MemberCall.append m ∈ ((⟨g, []⟩ : Recorded).setMembers memberDNs).calls →
      m ∈ memberDNs ∧ m ∉ g.getMembers := by
    intro m hm
    have hmissing : m ∈ missing (staying ⟨g, []⟩ memberDNs) memberDNs := by
      simpa [calls_setMembers] using hm
    exact (mem_missing_staying _).1 hmissing
  constructor
  · rw [getMembers_setMembers]
    refine (hnodup.filter _).append (nodup_missing _ _) fun m hstays hnew => ?_
    exact (mem_missing.1 hnew).2 hstays
  · intro m
    have hmem : m ∈ (g.setMembers memberDNs).getMembers ↔ m ∈ memberDNs := mem_setMembers g
    rw [← setMembers_group ⟨g, []⟩ memberDNs] at hmem
    exact hmem
  · intro m hbefore hm
    exact ⟨fun h => (hremoved m h).2 hm, fun h => (happended m h).2 hbefore⟩
  · exact hremoved
  · exact happended
  · rw [calls_setMembers, List.nil_append]
    refine List.Nodup.append ((hnodup.filter _).map fun a b h => MemberCall.remove.inj h)
      ((nodup_missing _ _).map fun a b h => MemberCall.append.inj h) fun call h h' => ?_
    obtain ⟨m, -, rfl⟩ := List.mem_map.1 h
    obtain ⟨m', -, he⟩ := List.mem_map.1 h'
    cases he

/-- Bob stays, alice goes and carol comes, who is named twice. -/
theorem setMembers_exact_staff :
    SetsExactly ["alice", "bob"] ["carol", "bob", "carol"]
      ((⟨(AccountGroup.new "staff").setMembers ["alice", "bob"], []⟩ : Recorded).setMembers
        ["carol", "bob", "carol"]) :=
  (setMembers_exact ((AccountGroup.new "staff").setMembers ["alice", "bob"])
    ["carol", "bob", "carol"] (by decide)).2

end Groups

end CloudOs

/-
# What `AccountGroupDAO` reads: mirrors, member lists, circular references

The methods of `AccountGroupDAO` that read the directory and change nothing, as
functions of the directory.

* `buildGroupMemberList(group)` is a recursion through the directory: the
  members of the group, and for each mirror the members of its source, where a
  member that is a group is expanded in turn.  A mirror whose source is missing
  is passed over; a member group that is missing is dereferenced, and the
  method throws.  The recursion is over the depth of the call stack.
* `createsCircularReference` puts the members of all stored groups into one map,
  replaces the members of the group in question, and searches the map.

A `HashSet` of DNs is a list without repetitions.
-/

import CloudOs.Model.World
import Mathlib.Data.List.Forall2

namespace CloudOs

/-! ### Loops that may throw -/

/-- A loop whose body ends normally or not whatever was collected before ends
normally exactly when its body does on each element. -/
theorem foldlM_ok_iff {ε α β : Type} {f : β → α → Except ε β} {P : α → Prop}
    (h : ∀ b a, (∃ r, f b a = .ok r) ↔ P a) (l : List α) (b : β) :
    (∃ r, l.foldlM f b = .ok r) ↔ ∀ a ∈ l, P a := by
  induction l generalizing b with
  | nil => simp [pure, Except.pure]
  | cons a l ih =>
    rw [List.foldlM_cons, List.forall_mem_cons, ← h b a]
    cases hf : f b a with
    | error e => simp [bind, Except.bind]
    | ok c => simpa [bind, Except.bind] using ih c

/-- `mapM` ends normally with the results of its elements. -/
theorem mapM_ok_iff {ε α β : Type} {f : α → Except ε β} {l : List α} {r : List β} :
    l.mapM f = .ok r ↔ List.Forall₂ (fun a b => f a = .ok b) l r := by
  induction l generalizing r with
  | nil => cases r <;> simp [pure, Except.pure]
  | cons a l ih =>
    rw [List.mapM_cons, List.forall₂_cons_left_iff]
    simp only [← ih]
    cases f a with
    | error e => simp [bind, Except.bind]
    | ok b => cases l.mapM f <;> simp [bind, Except.bind, pure, Except.pure, eq_comm]

/-- `mapM` throws when one of its elements does. -/
theorem mapM_error_iff {ε α β : Type} {f : α → Except ε β} {l : List α} :
    (∃ x, l.mapM f = .error x) ↔ ∃ a ∈ l, ∃ x, f a = .error x := by
  induction l with
  | nil => simp [pure, Except.pure]
  | cons a l ih =>
    rw [List.mapM_cons, List.exists_mem_cons_iff, ← ih]
    cases f a with
    | error e => simp [bind, Except.bind]
    | ok b => cases l.mapM f <;> simp [bind, Except.bind, pure, Except.pure]

/-- A value is collected by `mapM` from some element. -/
theorem mem_of_mapM_ok {ε α β : Type} {f : α → Except ε β} {l : List α} {r : List β}
    (h : l.mapM f = .ok r) {b : β} (hb : b ∈ r) : ∃ a ∈ l, f a = .ok b := by
  rw [mapM_ok_iff] at h
  induction h with
  | nil => exact absurd hb List.not_mem_nil
  | @cons a c l r hac _ ih =>
    rcases List.mem_cons.1 hb with rfl | hb
    · exact ⟨a, List.mem_cons_self, hac⟩
    · obtain ⟨a', ha', hfa⟩ := ih hb
      exact ⟨a', List.mem_cons_of_mem _ ha', hfa⟩

/-- Every element contributes a value to what `mapM` collects. -/
theorem exists_of_mapM_ok {ε α β : Type} {f : α → Except ε β} {l : List α} {r : List β}
    (h : l.mapM f = .ok r) {a : α} (ha : a ∈ l) : ∃ b ∈ r, f a = .ok b := by
  rw [mapM_ok_iff] at h
  induction h with
  | nil => exact absurd ha List.not_mem_nil
  | @cons c b l r hcb _ ih =>
    rcases List.mem_cons.1 ha with rfl | ha
    · exact ⟨b, List.mem_cons_self, hcb⟩
    · obtain ⟨b', hb', hfa⟩ := ih ha
      exact ⟨b', List.mem_cons_of_mem _ hb', hfa⟩

namespace AccountGroupDAO

variable {ctx : LdapContext} (dir : Directory ctx)

/-- `findMirrors`: the groups that mirror `groupName`. -/
def findMirrors (groupName : String) : List AccountGroup :=
  dir.groups.values.filter fun g => ctx.hasMirror g groupName

/-- `findAccountOrGroupDN`: accounts come first. -/
def findAccountOrGroupDN (recipient : String) : Except Exn String :=
  match dir.findAccount recipient with
  | some account => .ok (ctx.userDN account.name)
  | none => match dir.findGroup recipient with
    | some accountGroup => .ok (ctx.groupDN accountGroup.name)
    | none => .error (.invalidEx "\x7berr.member.notFound\x7d"
        (some ("group member does not exist: " ++ recipient)))

/-- `buildGroupMemberList(group)`, on a call stack of this depth. -/
def buildGroupMemberList : ℕ → AccountGroup → Except Exn (List String)
  | 0, _ => .error .stackOverflow
  | depth + 1, group =>
    group.getMirrors.foldlM (fun members mirror =>
      match dir.findGroup mirror with
      | none => .ok members
      | some source => source.getMembers.foldlM (fun members m =>
          if ctx.isGroupDn m then
            match dir.groupAt m with
            | none => .error .nullPointer
            | some g => (members ∪ ·) <$> buildGroupMemberList depth g
          else .ok (members.insert m)) members) group.getMembers.dedup

/-- `buildGroupMemberList(group, recipients, includeMirror)`. -/
def buildRecipientList (depth : ℕ) (group : AccountGroup) (recipients : List String)
    (includeMirror : Bool) : Except Exn (List String) := do
  let members := (← recipients.mapM (findAccountOrGroupDN dir)).dedup
  if includeMirror then
    group.getMirrors.foldlM (fun members mirror =>
      match dir.findGroup mirror with
      | none => .ok members
      | some source => (members ∪ ·) <$> buildGroupMemberList dir depth source) members
  else return members

/-- `new AccountGroupMember(groupDn, dn, config())`: a pair of DNs. -/
def newAccountGroupMember (groupDn dn : String) : Except Exn (String × String) :=
  if startsWith dn (ctx.user_username ++ "=") || startsWith dn (ctx.group_name ++ "=") then
    .ok (groupDn, dn)
  else .error (.die ("AccountGroupMember: " ++ dn))

/-- `findAllMembers`. -/
def findAllMembers : Except Exn (List (String × String)) :=
  (dir.groups.values.flatMap fun g => g.getMembers.map fun m => (ctx.groupDN g.name, m)).mapM
    fun p => @newAccountGroupMember ctx p.1 p.2

/-- One more member in the map of `createsCircularReference`. -/
def addEdge (map : AList fun _ : String => List String) (m : String × String) :
    AList fun _ : String => List String :=
  map.insert m.1 ((map.lookup m.1).getD [] ++ [m.2])

/-- `createsCircularReference`, with the search of the library. -/
def createsCircularReference
    (containsCircularReference : String → (AList fun _ : String => List String) → Bool)
    (group : String) (members : List String) : Except Exn Bool := do
  let map := (← findAllMembers dir).foldl addEdge ∅
  let groupDN := ctx.groupDN group
  let membersDNs ← members.mapM (findAccountOrGroupDN dir)
  return containsCircularReference groupDN (map.insert groupDN membersDNs)

/-! ### What they answer -/

variable {dir}

theorem mem_findMirrors {groupName : String} {g : AccountGroup} :
    g ∈ findMirrors dir groupName
      ↔ dir.groupAt (ctx.groupDN g.name) = some g ∧
        ∃ m ∈ g.getMirrors, ctx.groupDN m = ctx.groupDN groupName := by
  simp only [findMirrors, List.mem_filter, LdapContext.hasMirror, List.any_eq_true,
    LdapContext.equalsIgnoreCase_iff]
  exact and_congr_left' (KeyedMap.mem_values _)

/-- A resolved recipient is the DN of a stored account or group. -/
theorem stored_of_findAccountOrGroupDN {recipient dn : String}
    (h : findAccountOrGroupDN dir recipient = .ok dn) :
    (∃ a, dir.accountAt dn = some a) ∨ ∃ g, dir.groupAt dn = some g := by
  unfold findAccountOrGroupDN at h
  split at h
  · rename_i a ha
    obtain rfl := Except.ok.inj h
    rw [Directory.userDN_of_accountAt ha]
    exact Or.inl ⟨a, ha⟩
  · split at h
    · rename_i g hg
      obtain rfl := Except.ok.inj h
      rw [Directory.groupDN_of_groupAt hg]
      exact Or.inr ⟨g, hg⟩
    · exact absurd h (by simp)

/-- A recipient is resolved to a DN of its own name. -/
theorem findAccountOrGroupDN_ok {recipient dn : String}
    (h : findAccountOrGroupDN dir recipient = .ok dn) :
    dn = ctx.userDN recipient ∨ dn = ctx.groupDN recipient := by
  unfold findAccountOrGroupDN at h
  split at h
  · rename_i a ha
    exact Or.inl ((Except.ok.inj h).symm.trans (Directory.userDN_of_accountAt ha))
  · split at h
    · rename_i g hg
      exact Or.inr ((Except.ok.inj h).symm.trans (Directory.groupDN_of_groupAt hg))
    · exact absurd h (by simp)

/-- The edges of the map are the members that were added. -/
theorem edge_foldl_addEdge (l : List (String × String)) (map : AList fun _ : String => List String)
    (n m : String) :
    Digraph.Edge (l.foldl addEdge map) n m ↔ Digraph.Edge map n m ∨ (n, m) ∈ l := by
  induction l generalizing map with
  | nil => simp
  | cons p l ih =>
    obtain ⟨g, d⟩ := p
    have hone : Digraph.Edge (addEdge map (g, d)) n m
        ↔ Digraph.Edge map n m ∨ (n, m) = (g, d) := by
      by_cases hn : n = g
      · subst hn
        simp [Digraph.Edge, Digraph.successors, addEdge]
      · simp [Digraph.Edge, Digraph.successors, addEdge, AList.lookup_insert_ne hn, hn]
    rw [List.foldl_cons, ih, hone, List.mem_cons, or_assoc]

theorem newAccountGroupMember_ok {p q : String × String}
    (h : @newAccountGroupMember ctx p.1 p.2 = .ok q) : q = p := by
  unfold newAccountGroupMember at h
  split_ifs at h
  exact (Except.ok.inj h).symm

/-- `findAllMembers` answers the members of the stored groups. -/
theorem mem_findAllMembers {all : List (String × String)} (h : findAllMembers dir = .ok all)
    (n m : String) : (n, m) ∈ all ↔ ∃ g, dir.groupAt n = some g ∧ m ∈ g.getMembers := by
  obtain rfl := List.forall₂_eq_eq_eq ▸
    (mapM_ok_iff.1 h).imp fun _ _ hpq => (newAccountGroupMember_ok hpq).symm
  simp only [List.mem_flatMap, List.mem_map, Prod.mk.injEq]
  constructor
  · rintro ⟨g, hg, d, hd, rfl, rfl⟩
    exact ⟨g, dir.groups.mem_values.1 hg, hd⟩
  · rintro ⟨g, hg, hm⟩
    exact ⟨g, dir.groups.mem_values_of_lookup hg, m, hm, Directory.groupDN_of_groupAt hg, rfl⟩

/-- **The search sees the stored groups with one of them replaced.** -/
theorem createsCircularReference_ok {search : String → (AList fun _ : String => List String) → Bool}
    {group : String} {members : List String} {b : Bool}
    (h : createsCircularReference dir search group members = .ok b) :
    ∃ dns map, members.mapM (findAccountOrGroupDN dir) = .ok dns ∧
      b = search (ctx.groupDN group) map ∧
      ∀ n m, Digraph.Edge map n m ↔ if n = ctx.groupDN group then m ∈ dns
        else ∃ g, dir.groupAt n = some g ∧ m ∈ g.getMembers := by
  unfold createsCircularReference at h
  cases hall : findAllMembers dir with
  | error e => simp [hall, bind, Except.bind] at h
  | ok all =>
    cases hdns : members.mapM (findAccountOrGroupDN dir) with
    | error e => simp [hall, hdns, bind, Except.bind] at h
    | ok dns =>
      simp only [hall, hdns, bind, Except.bind, pure, Except.pure, Except.ok.injEq] at h
      refine ⟨dns, _, rfl, h.symm, fun n m => ?_⟩
      split_ifs with hn
      · subst hn
        simp [Digraph.Edge, Digraph.successors]
      · have hold := edge_foldl_addEdge all ∅ n m
        rw [mem_findAllMembers hall] at hold
        simpa [Digraph.Edge, Digraph.successors, AList.lookup_insert_ne hn] using hold

end AccountGroupDAO

end CloudOs

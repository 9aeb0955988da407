/-
# The admin UI follows the server

The page is meant to show what the server holds: a change shows on it exactly when the server
has accepted it.  `Api._update` returns an object for an error too, and the functions of the
model take it for a success:

| call | goes wrong when |
| --- | --- |
| `toggleStatus` | the server refuses: the flag stays turned |
| `save` | the server refuses: the group is listed |
| `updateWith` | the server refuses: the group is changed; or it has deleted the group: it is not |
| `destroy` | never |

A refused toggle does not stop `bulkToggleStatus`, for the same reason.  A call that succeeds
changes the object it was made on and no other: a second object of that name is left behind.
-/

import CloudOs.Client.AdminModel

namespace CloudOs

open Prog

namespace Client

/-- What the page shows is what the server holds. -/
structure Agrees (s : State) : Prop where
  accounts : ∀ i ∈ s.allAccounts,
    s.server.suspended (s.accounts i).name = some (s.accounts i).suspended
  groups : ∀ i ∈ s.allGroups, s.server.groups (s.groups i).name = some (s.groups i).recipients

/-- The server accepts the request. -/
def Accepts (env : Env) (s : State) (request : Request) : Prop :=
  (reply env s request).isSome = true

instance (env : Env) (s : State) (request : Request) : Decidable (Accepts env s request) :=
  inferInstanceAs (Decidable (_ = _))

/-- One toggle shows exactly when the server accepts it. -/
def ToggleApplied (env : Env) (s : State) (i : ℕ) : Prop :=
  let request : Request := .updateAccount (s.accounts i).name (!(s.accounts i).suspended)
  (step env s (.toggleStatus i)).accounts =
    if Accepts env s request then Function.update s.accounts i (s.accounts i).turned
    else s.accounts

/-- A change shows exactly when the server accepts it. -/
def Applied (env : Env) (s : State) (op : Op) : Prop :=
  match op with
  | .toggleStatus i => ToggleApplied env s i
  | .bulkToggleStatus accounts =>
    Runs.Meets (fun s i => step env s (.toggleStatus i)) (ToggleApplied env) s accounts
  | .save i => (step env s op).allGroups =
      if Accepts env s (.addGroup (s.groups i).name (s.groups i).recipients) then
        s.allGroups ++ [i]
      else s.allGroups
  | .updateWith i data => (step env s op).groups =
      if Accepts env s (.editGroup data.name data.recipients) then
        Function.update s.groups i data
      else s.groups
  | .destroy i => (step env s op).allGroups =
      if Accepts env s (.deleteGroup (s.groups i).name) then s.allGroups.filter (· ≠ i)
      else s.allGroups

/-- `bulkToggleStatus` makes a request for every account. -/
def AttemptsAll (env : Env) (s : State) (op : Op) : Prop :=
  match op with
  | .bulkToggleStatus accounts => (step env s op).requests.map Request.subject =
      s.requests.map Request.subject ++ accounts.map fun i => (s.accounts i).name
  | _ => True

/-- The server accepts a toggle of each of these accounts, and each is the one of its name. -/
structure TogglesAccepted (env : Env) (s : State) (accounts : List ℕ) : Prop where
  accepts : ∀ k < accounts.length, env.fails (s.requests.length + k) = false
  stored : ∀ i ∈ accounts, (s.server.suspended (s.accounts i).name).isSome = true
  only : ∀ i ∈ accounts, ∀ j ∈ s.allAccounts, (s.accounts j).name = (s.accounts i).name → j = i

/-- No listed group but `i` has the name. -/
def OnlyGroup (s : State) (i : ℕ) (name : String) : Prop :=
  ∀ j ∈ s.allGroups, (s.groups j).name = name → j = i

/-- The calls that the page follows.

* The server accepts every toggle, new group and edit.
* No group is sent without recipients.
* No other object on the list has the name of the one that changes. -/
def Followed (env : Env) (s : State) : Op → Prop
  | .toggleStatus i => TogglesAccepted env s [i]
  | .bulkToggleStatus accounts => TogglesAccepted env s accounts
  | .save i => Accepts env s (.addGroup (s.groups i).name (s.groups i).recipients) ∧
      (s.groups i).recipients ≠ []
  | .updateWith i data => Accepts env s (.editGroup data.name data.recipients) ∧
      data.recipients ≠ [] ∧ OnlyGroup s i data.name
  | .destroy i => Accepts env s (.deleteGroup (s.groups i).name) →
      OnlyGroup s i (s.groups i).name

variable {env : Env} {s : State}

/-! ### The server's replies -/

theorem server_sent_of_refused {request : Request} (h : ¬ Accepts env s request) :
    (s.sent env request).server = s.server := by
  have hnone : reply env s request = none := by simpa [Accepts] using h
  rw [State.sent, hnone]
  rfl

/-- An accepted request is handled. -/
theorem handle_of_accepts {request : Request} (h : Accepts env s request) :
    ∃ server body, s.server.handle env.caller request = some (server, body) ∧
      reply env s request = some (server, body) ∧ (s.sent env request).server = server := by
  obtain ⟨⟨server, body⟩, hreply⟩ := Option.isSome_iff_exists.1 h
  refine ⟨server, body, ?_, hreply, by rw [State.sent, hreply]; rfl⟩
  unfold reply at hreply
  split_ifs at hreply
  exact hreply

/-! ### Accounts -/

theorem step_toggleStatus (i : ℕ) : step env s (.toggleStatus i) = s.toggled env i :=
  (toggleStatus_ends i).mono fun _ _ h => h.2

theorem step_bulkToggleStatus (accounts : List ℕ) :
    step env s (.bulkToggleStatus accounts) = accounts.foldl (State.toggled env) s :=
  (bulkToggleStatus_ends accounts).mono fun _ _ h => h

/-- A toggle changes no name. -/
theorem name_toggled (i j : ℕ) : ((s.toggled env i).accounts j).name = (s.accounts j).name := by
  change (Function.update s.accounts i _ j).name = _
  by_cases hj : j = i
  · rw [hj, Function.update_self]
    rfl
  · rw [Function.update_of_ne hj]

/-- **Every account is attempted**, whatever the server replies. -/
theorem bulk_attempts (accounts : List ℕ) :
    (accounts.foldl (State.toggled env) s).requests.map Request.subject =
      s.requests.map Request.subject ++ accounts.map fun i => (s.accounts i).name := by
  induction accounts generalizing s with
  | nil => exact (List.append_nil _).symm
  | cons i accounts ih =>
    rw [List.foldl_cons, ih]
    have hrequests : (s.toggled env i).requests.map Request.subject =
        s.requests.map Request.subject ++ [(s.accounts i).name] := by
      change (s.requests ++ [_]).map Request.subject = _
      rw [List.map_append]
      rfl
    simp only [hrequests, name_toggled, List.map_cons, List.append_assoc, List.singleton_append]

theorem attemptsAll (op : Op) : AttemptsAll env s op := by
  cases op with
  | bulkToggleStatus accounts =>
    rw [AttemptsAll, step_bulkToggleStatus]
    exact bulk_attempts accounts
  | _ => trivial

/-- The server turns the flag of an account that it accepts to toggle. -/
theorem suspended_toggled {i : ℕ} (hfails : env.fails s.requests.length = false)
    (hstored : (s.server.suspended (s.accounts i).name).isSome = true) :
    Accepts env s (.updateAccount (s.accounts i).name (!(s.accounts i).suspended)) ∧
      (s.toggled env i).server =
        s.server.setSuspended (s.accounts i).name (!(s.accounts i).suspended) := by
  have hreply : reply env s (.updateAccount (s.accounts i).name (!(s.accounts i).suspended)) =
      some (s.server.setSuspended (s.accounts i).name (!(s.accounts i).suspended), true) := by
    simp [reply, hfails, Server.handle, hstored]
  refine ⟨by rw [Accepts, hreply]; rfl, ?_⟩
  change (reply env s (.updateAccount (s.accounts i).name (!(s.accounts i).suspended))).elim _ _ = _
  rw [hreply]
  rfl

/-- The rest of the accounts can be toggled after the first. -/
theorem TogglesAccepted.tail {i : ℕ} {accounts : List ℕ}
    (h : TogglesAccepted env s (i :: accounts)) : TogglesAccepted env (s.toggled env i) accounts := by
  have hfails := h.accepts 0 (Nat.succ_pos _)
  have hserver := (suspended_toggled hfails (h.stored i List.mem_cons_self)).2
  refine ⟨fun k hk => ?_, fun j hj => ?_, fun j hj k hk hname => ?_⟩
  · have hlength : (s.toggled env i).requests.length = s.requests.length + 1 := by
      change (s.requests ++ [_]).length = _
      simp
    rw [hlength, Nat.add_assoc, Nat.add_comm 1 k]
    exact h.accepts (k + 1) (Nat.succ_lt_succ hk)
  · rw [name_toggled, hserver, Server.setSuspended]
    dsimp only
    by_cases hname : (s.accounts j).name = (s.accounts i).name
    · rw [hname, Function.update_self]
      rfl
    · rw [Function.update_of_ne hname]
      exact h.stored j (List.mem_cons_of_mem i hj)
  · rw [name_toggled, name_toggled] at hname
    exact h.only j (List.mem_cons_of_mem i hj) k hk hname

/-- **An accepted toggle** shows on the page, and the page goes on to agree with the server. -/
theorem Agrees.toggled (hs : Agrees s) {i : ℕ} {accounts : List ℕ}
    (h : TogglesAccepted env s (i :: accounts)) :
    Agrees (s.toggled env i) ∧ ToggleApplied env s i := by
  obtain ⟨haccepts, hserver⟩ := suspended_toggled (h.accepts 0 (Nat.succ_pos _))
    (h.stored i List.mem_cons_self)
  refine ⟨⟨fun j hj => ?_, fun j hj => ?_⟩, ?_⟩
  · have honly := h.only i List.mem_cons_self j hj
    rw [name_toggled, hserver]
    change Function.update s.server.suspended _ _ _ = some (Function.update s.accounts i _ j).suspended
    by_cases hname : (s.accounts j).name = (s.accounts i).name
    · rw [honly hname, Function.update_self, Function.update_self]
      rfl
    · rw [Function.update_of_ne hname, Function.update_of_ne fun hj' => hname (by rw [hj'])]
      exact hs.accounts j hj
  · rw [hserver]
    exact hs.groups j hj
  · rw [ToggleApplied, step_toggleStatus, if_pos haccepts]
    rfl

/-- **`bulkToggleStatus`**, if every toggle is accepted. -/
theorem Agrees.bulkToggled (hs : Agrees s) {accounts : List ℕ}
    (h : TogglesAccepted env s accounts) :
    Agrees (accounts.foldl (State.toggled env) s) ∧
      Runs.Meets (fun s i => step env s (.toggleStatus i)) (ToggleApplied env) s accounts := by
  induction accounts generalizing s with
  | nil => exact ⟨hs, trivial⟩
  | cons i accounts ih =>
    obtain ⟨hagrees, happlied⟩ := hs.toggled h
    obtain ⟨hend, hrest⟩ := ih hagrees h.tail
    rw [← step_toggleStatus] at hrest
    exact ⟨hend, happlied, hrest⟩

/-! ### Groups -/

/-- The groups of the server after a write under `name`. -/
theorem Agrees.setGroup {server : Server} (hs : Agrees s) {name : String}
    {group : Option (List String)} (hserver : server = s.server.setGroup name group) :
    (∀ i ∈ s.allAccounts, server.suspended (s.accounts i).name = some (s.accounts i).suspended) ∧
      ∀ i ∈ s.allGroups, (s.groups i).name ≠ name →
        server.groups (s.groups i).name = some (s.groups i).recipients := by
  subst hserver
  refine ⟨hs.accounts, fun i hi hname => ?_⟩
  change Function.update s.server.groups name group _ = _
  rw [Function.update_of_ne hname]
  exact hs.groups i hi

theorem step_save (i : ℕ) : step env s (.save i) =
    { s.sent env (.addGroup (s.groups i).name (s.groups i).recipients) with
      allGroups := s.allGroups ++ [i] } :=
  (save_ends i).mono fun _ _ h => h

/-- **`save`**, if the server adds the group. -/
theorem Agrees.save (hs : Agrees s) {i : ℕ} (h : Followed env s (.save i)) :
    Agrees (step env s (.save i)) ∧ Applied env s (.save i) := by
  obtain ⟨haccepts, hrecipients⟩ := h
  obtain ⟨server, body, hhandle, -, hserver⟩ := handle_of_accepts haccepts
  simp only [Server.handle] at hhandle
  split_ifs at hhandle with hstored
  obtain ⟨rfl, -⟩ := Prod.mk.inj (Option.some.inj hhandle)
  obtain ⟨haccounts, hgroups⟩ := hs.setGroup hserver
  have hnone : s.server.groups (s.groups i).name = none := by simpa using hstored
  rw [Applied, if_pos haccepts, step_save]
  refine ⟨⟨haccounts, fun j hj => ?_⟩, rfl⟩
  change (s.sent env _).server.groups (s.groups j).name = some (s.groups j).recipients
  rcases List.mem_append.1 hj with hj | hj
  · refine hgroups j hj fun hname => ?_
    have hlisted := hs.groups j hj
    rw [hname, hnone] at hlisted
    exact absurd hlisted.symm (Option.some_ne_none _)
  · rw [List.mem_singleton.1 hj, hserver]
    exact Function.update_self ..

/-- **`updateWith`**, if the server writes the edit. -/
theorem Agrees.updateWith (hs : Agrees s) {i : ℕ} {data : GroupObject}
    (h : Followed env s (.updateWith i data)) :
    Agrees (step env s (.updateWith i data)) ∧ Applied env s (.updateWith i data) := by
  obtain ⟨haccepts, hrecipients, honly⟩ := h
  obtain ⟨server, body, hhandle, hreply, hserver⟩ := handle_of_accepts haccepts
  simp only [Server.handle] at hhandle
  rw [if_neg hrecipients] at hhandle
  split_ifs at hhandle with hstored
  obtain ⟨rfl, rfl⟩ := Prod.mk.inj (Option.some.inj hhandle)
  obtain ⟨haccounts, hgroups⟩ := hs.setGroup hserver
  have hstep : step env s (.updateWith i data) =
      { s.sent env (.editGroup data.name data.recipients) with
        groups := Function.update s.groups i data } := by
    refine (updateWith_ends i data).mono fun _ t ht => ht.trans ?_
    rw [hreply]
    rfl
  rw [Applied, if_pos haccepts, hstep]
  refine ⟨⟨haccounts, fun j hj => ?_⟩, rfl⟩
  change (s.sent env _).server.groups (Function.update s.groups i data j).name =
    some (Function.update s.groups i data j).recipients
  by_cases hji : j = i
  · rw [hji, Function.update_self, hserver]
    exact Function.update_self ..
  · rw [Function.update_of_ne hji]
    exact hgroups j hj fun hname => hji (honly j hj hname)

theorem step_destroy (i : ℕ) : step env s (.destroy i) =
    if Accepts env s (.deleteGroup (s.groups i).name) then
      { s.sent env (.deleteGroup (s.groups i).name) with
        allGroups := s.allGroups.filter (· ≠ i) }
    else s.sent env (.deleteGroup (s.groups i).name) :=
  (destroy_ends i).mono fun _ _ h => h

/-- **`destroy`** shows exactly when the server accepts. -/
theorem Agrees.destroy (hs : Agrees s) {i : ℕ} (h : Followed env s (.destroy i)) :
    Agrees (step env s (.destroy i)) ∧ Applied env s (.destroy i) := by
  rw [Applied, step_destroy]
  by_cases haccepts : Accepts env s (.deleteGroup (s.groups i).name)
  · obtain ⟨server, body, hhandle, -, hserver⟩ := handle_of_accepts haccepts
    simp only [Server.handle] at hhandle
    split_ifs at hhandle with hstored
    obtain ⟨rfl, -⟩ := Prod.mk.inj (Option.some.inj hhandle)
    obtain ⟨haccounts, hgroups⟩ := hs.setGroup hserver
    rw [if_pos haccepts, if_pos haccepts]
    refine ⟨⟨haccounts, fun j hj => ?_⟩, rfl⟩
    obtain ⟨hj, hji⟩ := List.mem_filter.1 hj
    exact hgroups j hj fun hname => absurd (h haccepts j hj hname) (by simpa using hji)
  · rw [if_neg haccepts, if_neg haccepts]
    refine ⟨⟨fun j hj => ?_, fun j hj => ?_⟩, rfl⟩
    · rw [server_sent_of_refused haccepts]
      exact hs.accounts j hj
    · rw [server_sent_of_refused haccepts]
      exact hs.groups j hj

/-! ### Runs -/

/-- **One call that is followed** leaves the page in agreement with the server. -/
theorem Agrees.step (hs : Agrees s) {op : Op} (h : Followed env s op) :
    Agrees (step env s op) ∧ Applied env s op := by
  cases op with
  | toggleStatus i =>
    obtain ⟨hagrees, happlied⟩ := hs.toggled h
    rw [← step_toggleStatus] at hagrees
    exact ⟨hagrees, happlied⟩
  | bulkToggleStatus accounts =>
    rw [step_bulkToggleStatus]
    exact hs.bulkToggled h
  | save i => exact hs.save h
  | updateWith i data => exact hs.updateWith h
  | destroy i => exact hs.destroy h

/-- **The page follows the server.**  Every account of a bulk is attempted in every run; and if
the calls of a run are followed, a change shows exactly when the server accepts it, and the page
agrees with the server after each of them. -/
theorem page_follows (env : Env) (s : State) (hs : Agrees s) (ops : List Op) :
    Runs.Meets (step env) (AttemptsAll env) s ops ∧
      (Runs.Meets (step env) (Followed env) s ops →
        Runs.Meets (step env) (fun s op => Agrees (Client.step env s op) ∧ Applied env s op) s ops) := by
  refine ⟨Runs.meets_of_forall (fun _ _ => attemptsAll _) s ops, fun h => ?_⟩
  induction ops generalizing s with
  | nil => trivial
  | cons op ops ih =>
    obtain ⟨hagrees, happlied⟩ := hs.step h.1
    exact ⟨⟨hagrees, happlied⟩, ih _ hagrees h.2⟩

/-- A page with the account `alice`, and a server with it. -/
def alicePage : State where
  accounts := fun _ => ⟨"alice", false⟩
  allAccounts := [0]
  groups := fun _ => ⟨"staff", ["alice"]⟩
  allGroups := []
  server := ⟨fun name => if name = "alice" then some false else none, fun _ => none⟩

theorem alicePage_agrees : Agrees alicePage := by
  refine ⟨fun i _ => ?_, fun i hi => absurd hi List.not_mem_nil⟩
  rfl

/-- A server that accepts what it is asked. -/
def willing : Env := ⟨"root", fun _ => false⟩

/-- A page with the accounts `alice` and `bob`, who is suspended, and a group that is not saved. -/
def staffPage : State where
  accounts := fun i => if i = 0 then ⟨"alice", false⟩ else ⟨"bob", true⟩
  allAccounts := [0, 1]
  groups := fun _ => ⟨"staff", ["alice"]⟩
  allGroups := []
  server := ⟨fun name => if name = "alice" then some false else if name = "bob" then some true
    else none, fun _ => none⟩

/-- Both accounts are turned, the group is saved and changed, and an account is turned back. -/
def staffOps : List Op :=
  [.bulkToggleStatus [0, 1], .save 0, .updateWith 0 ⟨"staff", ["alice", "bob"]⟩, .toggleStatus 1]

theorem page_follows_alice : Runs.Meets (step willing)
    (fun s op => Agrees (step willing s op) ∧ Applied willing s op) staffPage staffOps := by
  have hagrees : Agrees staffPage := ⟨by decide +kernel, by decide +kernel⟩
  refine (page_follows willing staffPage hagrees staffOps).2 ⟨?_, ?_, ?_, ?_, trivial⟩
  · exact ⟨by decide +kernel, by decide +kernel, by decide +kernel⟩
  · exact ⟨by decide +kernel, by decide +kernel⟩
  · exact ⟨by decide +kernel, by decide +kernel, by unfold OnlyGroup; decide +kernel⟩
  · exact ⟨by decide +kernel, by decide +kernel, by decide +kernel⟩

/-- A server that refuses what it is asked. -/
def refusing : Env := ⟨"root", fun _ => true⟩

/-- **A toggle that the server refused stays on the page.** -/
theorem refused_toggle_stays : Agrees alicePage ∧
    ¬ Agrees (Runs.run (step refusing) alicePage [.toggleStatus 0]) := by
  refine ⟨alicePage_agrees, fun h => ?_⟩
  have hshown := h.accounts 0 (List.mem_singleton_self 0)
  have hdiffer : (Runs.run (step refusing) alicePage [.toggleStatus 0]).server.suspended
      ((Runs.run (step refusing) alicePage [.toggleStatus 0]).accounts 0).name ≠
        some ((Runs.run (step refusing) alicePage [.toggleStatus 0]).accounts 0).suspended := by
    decide +kernel
  exact hdiffer hshown

end Client

end CloudOs

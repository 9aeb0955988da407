/-
# The model of the admin UI: `App.Account`, `App.Group`

What `account_model.js` and `group_model.js` do to the objects that the page shows, and the
requests they make through `Api` (`apps/api.js`).  Objects have an identity, here a number; the
lists `App.Account.all` and `App.Group.all` hold some of them.  A request waits for its reply.

| the server | `Api._update` returns | in a condition |
| --- | --- | --- |
| accepts, with a body | the body | true |
| accepts, without a body | `undefined` | false |
| refuses | an object that tells the error | true |

`Api._delete` returns whether the server accepts.  The server is known by what it holds of each
account and group; `fails n` says whether it refuses the `n`-th request whatever that asks.
-/

import CloudOs.Lib.Prog
import CloudOs.Lib.Runs
import Mathlib.Data.Nat.Notation
import Mathlib.Logic.Function.Basic
import Mathlib.Tactic.SplitIfs

namespace CloudOs

open Prog

namespace Client

/-- `App.Account`, as far as a change of its status goes. -/
structure AccountObject where
  name : String
  suspended : Bool
  deriving DecidableEq, Repr

/-- The account with its flag turned. -/
def AccountObject.turned (a : AccountObject) : AccountObject :=
  { a with suspended := !a.suspended }

/-- `App.Group`. -/
structure GroupObject where
  name : String
  recipients : List String
  deriving DecidableEq, Repr

/-- A request to the server. -/
inductive Request
  | updateAccount (name : String) (suspended : Bool)
  | addGroup (name : String) (recipients : List String)
  | editGroup (name : String) (recipients : List String)
  | deleteGroup (name : String)
  deriving DecidableEq, Repr

/-- The account or the group that a request is about. -/
def Request.subject : Request → String
  | updateAccount name _ => name
  | addGroup name _ => name
  | editGroup name _ => name
  | deleteGroup name => name

/-- What the server holds of each account and group. -/
structure Server where
  suspended : String → Option Bool
  groups : String → Option (List String)

/-- The server with another flag for an account. -/
def Server.setSuspended (server : Server) (name : String) (flag : Bool) : Server :=
  { server with suspended := Function.update server.suspended name (some flag) }

/-- The server with another group, or none, under a name. -/
def Server.setGroup (server : Server) (name : String) (group : Option (List String)) : Server :=
  { server with groups := Function.update server.groups name group }

/-- What the server makes of a request, and whether its answer has a body: `none` if it refuses.
A new group without recipients gets the caller; an edit without recipients deletes the group. -/
def Server.handle (caller : String) (server : Server) : Request → Option (Server × Bool)
  | .updateAccount name suspended =>
    if (server.suspended name).isSome then some (server.setSuspended name suspended, true) else none
  | .addGroup name recipients =>
    if (server.groups name).isSome then none
    else some (server.setGroup name (if recipients = [] then [caller] else recipients), true)
  | .editGroup name recipients =>
    if (server.groups name).isSome then
      if recipients = [] then some (server.setGroup name none, false)
      else some (server.setGroup name recipients, true)
    else none
  | .deleteGroup name =>
    if (server.groups name).isSome then some (server.setGroup name none, true) else none

/-- What the page cannot change. -/
structure Env where
  caller : String
  fails : ℕ → Bool

/-- What the page holds, what the server holds, and the requests made so far. -/
structure State where
  accounts : ℕ → AccountObject
  allAccounts : List ℕ
  groups : ℕ → GroupObject
  allGroups : List ℕ
  server : Server
  requests : List Request := []

/-- A function of the page; none of them throws. -/
abbrev Page (α : Type) := Prog State Empty α

/-- A value, as far as a condition looks at it. -/
inductive JsValue
  | undefined
  | bool (b : Bool)
  | response
  | errorObject
  deriving DecidableEq, Repr

/-- Whether a condition takes the value for true. -/
def JsValue.truthy : JsValue → Bool
  | undefined => false
  | bool b => b
  | response => true
  | errorObject => true

variable (env : Env)

/-- What the server replies to the next request. -/
def reply (s : State) (request : Request) : Option (Server × Bool) :=
  if env.fails s.requests.length then none else s.server.handle env.caller request

/-- The state after a request and its reply. -/
def State.sent (s : State) (request : Request) : State :=
  { s with
    requests := s.requests ++ [request]
    server := (reply env s request).elim s.server Prod.fst }

/-- `Ember.$.ajax`: none for an error, or whether the answer has a body. -/
def ajax (request : Request) : Page (Option Bool) := fun s =>
  (.ok ((reply env s request).map Prod.snd), s.sent env request)

/-- `Api._update`. -/
def _update (request : Request) : Page JsValue := do
  match ← ajax env request with
  | some true => return .response
  | some false => return .undefined
  | none => return .errorObject

/-- `Api._delete`. -/
def _delete (request : Request) : Page JsValue := do
  return .bool (← ajax env request).isSome

/-! ### `App.Account` -/

/-- `_toggle_suspend`. -/
def _toggleSuspend (i : ℕ) : Page PUnit :=
  modify fun s => { s with accounts := Function.update s.accounts i (s.accounts i).turned }

/-- `toggleStatus`. -/
def toggleStatus (i : ℕ) : Page JsValue := do
  _toggleSuspend i
  let s ← get
  let success ← _update env (.updateAccount (s.accounts i).name (s.accounts i).suspended)
  if !success.truthy then
    _toggleSuspend i
  return success

/-- The loop of `bulkToggleStatus`. -/
def toggleAll : List ℕ → JsValue → Page JsValue
  | [], success => return success
  | i :: accounts, success => do
    if success.truthy then
      let success ← toggleStatus env i
      toggleAll accounts success
    else toggleAll accounts success

/-- `bulkToggleStatus`. -/
def bulkToggleStatus (accounts : List ℕ) : Page JsValue := toggleAll env accounts (.bool true)

/-! ### `App.Group` -/

/-- `save`. -/
def save (i : ℕ) : Page JsValue := do
  let s ← get
  let committed ← _update env (.addGroup (s.groups i).name (s.groups i).recipients)
  if committed.truthy then
    modify fun s => { s with allGroups := s.allGroups ++ [i] }
  return committed

/-- `updateWith`. -/
def updateWith (i : ℕ) (data : GroupObject) : Page JsValue := do
  let committed ← _update env (.editGroup data.name data.recipients)
  if committed.truthy then
    modify fun s => { s with groups := Function.update s.groups i data }
  return committed

/-- `destroy`. -/
def destroy (i : ℕ) : Page JsValue := do
  let s ← get
  let committed ← _delete env (.deleteGroup (s.groups i).name)
  if committed.truthy then
    modify fun s => { s with allGroups := s.allGroups.filter (· ≠ i) }
  return committed

/-- A call that the page makes. -/
inductive Op
  | toggleStatus (i : ℕ)
  | bulkToggleStatus (accounts : List ℕ)
  | save (i : ℕ)
  | updateWith (i : ℕ) (data : GroupObject)
  | destroy (i : ℕ)

/-- What a call runs. -/
def perform : Op → Page JsValue
  | .toggleStatus i => toggleStatus env i
  | .bulkToggleStatus accounts => bulkToggleStatus env accounts
  | .save i => save env i
  | .updateWith i data => updateWith env i data
  | .destroy i => destroy env i

/-- The state after a call. -/
def step (s : State) (op : Op) : State := after (perform env op) s

/-! ### How the calls end -/

section Ends

variable {env} {s : State}

@[simp] theorem ends_ajax (request : Request) (Q : Except Empty (Option Bool) → State → Prop) :
    Ends (ajax env request) s Q ↔
      Q (.ok ((reply env s request).map Prod.snd)) (s.sent env request) := Iff.rfl

/-- What `_update` returns for a reply. -/
def returned : Option (Server × Bool) → JsValue
  | some (_, true) => .response
  | some (_, false) => .undefined
  | none => .errorObject

@[simp] theorem ends_update (request : Request) (Q : Except Empty JsValue → State → Prop) :
    Ends (_update env request) s Q ↔
      Q (.ok (returned (reply env s request))) (s.sent env request) := by
  simp only [_update, ends_bind, ends_ajax]
  rcases reply env s request with _ | ⟨_, _ | _⟩ <;> exact Iff.rfl

/-- The server answers a change of an account with a body, or refuses it. -/
theorem returned_updateAccount (name : String) (suspended : Bool) :
    (returned (reply env s (.updateAccount name suspended))).truthy = true := by
  simp only [reply, Server.handle]
  split_ifs <;> rfl

theorem returned_addGroup (name : String) (recipients : List String) :
    (returned (reply env s (.addGroup name recipients))).truthy = true := by
  simp only [reply, Server.handle]
  split_ifs <;> rfl

/-- The flag of the object `i` turned. -/
def State.turned (s : State) (i : ℕ) : State :=
  { s with accounts := Function.update s.accounts i (s.accounts i).turned }

/-- The flag of the object `i` turned, and the server asked to follow. -/
def State.toggled (env : Env) (s : State) (i : ℕ) : State :=
  (s.turned i).sent env
    (.updateAccount (s.accounts i).turned.name (s.accounts i).turned.suspended)

/-- **`toggleStatus`** turns the flag of the object whatever the server replies. -/
theorem toggleStatus_ends (i : ℕ) : Ends (toggleStatus env i) s fun r t =>
    (∃ v, r = .ok v ∧ v.truthy = true) ∧ t = s.toggled env i := by
  have htruthy := @returned_updateAccount env (s.turned i)
    (s.accounts i).turned.name (s.accounts i).turned.suspended
  simp only [toggleStatus, _toggleSuspend, ends_bind, ends_modify, ends_get, ends_update,
    Function.update_self]
  rw [if_neg (by simpa [State.turned] using htruthy)]
  exact ⟨⟨_, rfl, htruthy⟩, rfl⟩

/-- The loop goes on as long as what it has is true, and so it always does. -/
theorem toggleAll_ends (accounts : List ℕ) {success : JsValue} (h : success.truthy = true) :
    Ends (toggleAll env accounts success) s fun _ t => t = accounts.foldl (State.toggled env) s := by
  induction accounts generalizing s success with
  | nil => exact rfl
  | cons i accounts ih =>
    rw [toggleAll, if_pos h, ends_bind]
    refine (toggleStatus_ends i).mono ?_
    rintro r t ⟨⟨v, rfl, hv⟩, rfl⟩
    exact ih hv

/-- **`bulkToggleStatus`** toggles one object after the other. -/
theorem bulkToggleStatus_ends (accounts : List ℕ) : Ends (bulkToggleStatus env accounts) s
    fun _ t => t = accounts.foldl (State.toggled env) s :=
  toggleAll_ends accounts rfl

/-- **`save`** lists the group whatever the server replies. -/
theorem save_ends (i : ℕ) : Ends (save env i) s fun _ t =>
    t = { s.sent env (.addGroup (s.groups i).name (s.groups i).recipients) with
      allGroups := s.allGroups ++ [i] } := by
  simp only [save, ends_bind, ends_get, ends_update]
  rw [if_pos (returned_addGroup _ _)]
  rfl

/-- **`updateWith`** changes the object unless the server accepts the edit without a body. -/
theorem updateWith_ends (i : ℕ) (data : GroupObject) : Ends (updateWith env i data) s fun _ t =>
    let request : Request := .editGroup data.name data.recipients
    t = if (returned (reply env s request)).truthy then
        { s.sent env request with groups := Function.update s.groups i data }
      else s.sent env request := by
  simp only [updateWith, ends_bind, ends_update]
  split_ifs <;> rfl

/-- **`destroy`** takes the group off the list when the server accepts. -/
theorem destroy_ends (i : ℕ) : Ends (destroy env i) s fun _ t =>
    let request : Request := .deleteGroup (s.groups i).name
    t = if (reply env s request).isSome then
        { s.sent env request with allGroups := s.allGroups.filter (· ≠ i) }
      else s.sent env request := by
  simp only [destroy, _delete, ends_bind, ends_get, ends_ajax, ends_pure, JsValue.truthy,
    Option.isSome_map]
  split_ifs <;> rfl

end Ends

end Client

end CloudOs

/-
# `DnsRecordsResource`

An admin lists, writes and deletes DNS records through the manager of a zone that the
cloudstead shares with others: its own records are those under its hostname.

| request | asks the manager to | scoped to the hostname |
| --- | --- | --- |
| `listAllRecords` | `list` | yes |
| `writeRecord` | `write`, `publish` | no |
| `deleteRecords` | `remove`, `publish` | yes |

The manager is not in the repository.  `write` adds the record that it is given and says
whether it is new; `list` and `remove` are about the records that match.  Which names lie under
a hostname is a parameter, and so is whether the `n`-th call to the manager fails.
-/

import Mathlib.Data.Finset.Card
import CloudOs.Lib.Runs
import CloudOs.Model.Answers

namespace CloudOs

open Prog

/-- A type of record; the repository itself names the first three. -/
inductive DnsType
  | A | MX | TXT
  | other (name : String)
  deriving DecidableEq, Repr

/-- `DnsRecord`. -/
structure DnsRecord where
  ttl : ℕ
  type : DnsType
  fqdn : String
  value : String
  deriving DecidableEq, Repr

/-- `DnsRecordMatch`: what is left out matches everything. -/
structure DnsRecordMatch where
  type : Option DnsType := none
  fqdn : Option String := none
  value : Option String := none
  subdomain : Option String := none
  deriving DecidableEq, Repr

/-- `new DnsRecordMatch(record)`. -/
def DnsRecordMatch.ofRecord (record : DnsRecord) : DnsRecordMatch where
  type := some record.type
  fqdn := some record.fqdn
  value := some record.value

namespace DnsRecordsResource

/-- What the resource asks of the manager. -/
inductive Operation
  | list | write | remove | publish
  deriving DecidableEq, Repr

/-- What the manager throws: an answer of another service, or anything else. -/
inductive Failure
  | apiException (status : ℕ)
  | exception
  deriving DecidableEq, Repr

/-- What a request cannot change; `inSubdomain host` are the names under `host`. -/
structure DnsEnv where
  sessions : String → Option Account
  hostname : String
  inSubdomain : String → String → Bool
  fails : Operation → ℕ → Option Failure

/-- What a request can change: the zone, and the number of calls to its manager so far. -/
structure State where
  zone : Finset DnsRecord := ∅
  calls : ℕ := 0

variable (env : DnsEnv)

/-- A record matches when it agrees with all that is set. -/
def matching (m : DnsRecordMatch) (record : DnsRecord) : Bool :=
  m.type.all (· = record.type) && m.fqdn.all (· = record.fqdn) &&
    m.value.all (· = record.value) && m.subdomain.all (env.inSubdomain · record.fqdn)

/-- One call to the manager. -/
def call (op : Operation) : Prog State Failure PUnit := fun s =>
  (match env.fails op s.calls with
    | some e => .error e
    | none => .ok ⟨⟩, { s with calls := s.calls + 1 })

/-- `DnsManager.list`. -/
def list (m : DnsRecordMatch) : Prog State Failure (Finset DnsRecord) := do
  call env .list
  let s ← get
  return s.zone.filter fun record => matching env m record

/-- `DnsManager.write`: whether the record was added. -/
def write (record : DnsRecord) : Prog State Failure Bool := do
  call env .write
  let s ← get
  modify fun s => { s with zone := insert record s.zone }
  return decide (record ∉ s.zone)

/-- `DnsManager.remove`: how many records were removed. -/
def remove (m : DnsRecordMatch) : Prog State Failure ℕ := do
  call env .remove
  let s ← get
  modify fun s => { s with zone := s.zone.filter fun record => ¬ matching env m record }
  return (s.zone.filter fun record => matching env m record).card

/-- The `try` of the three methods. -/
def answering {β : Type} (body : Prog State Failure β) : Prog State Failure (Answer β) := do
  match ← attempt body with
  | .ok b => return .ok b
  | .error (.apiException status) => return .apiFailure status
  | .error .exception => return .serverError

/-- `listAllRecords`. -/
def listAllRecords (apiKey : String) : Prog State Failure (Answer (Finset DnsRecord)) :=
  asAdmin env.sessions apiKey fun _ =>
    answering (list env { subdomain := some env.hostname })

/-- `writeRecord`: the record is written as it came. -/
def writeRecord (apiKey : String) (record : DnsRecord) : Prog State Failure (Answer Bool) :=
  asAdmin env.sessions apiKey fun _ => answering do
    let written ← write env record
    call env .publish
    return written

/-- `deleteRecords`. -/
def deleteRecords (apiKey : String) (m : DnsRecordMatch) : Prog State Failure (Answer ℕ) :=
  asAdmin env.sessions apiKey fun _ => answering do
    let removed ← remove env { m with subdomain := some env.hostname }
    call env .publish
    return removed

/-- A request that may change the zone. -/
inductive Request
  | writeRecord (apiKey : String) (record : DnsRecord)
  | deleteRecords (apiKey : String) (m : DnsRecordMatch)

/-- The state after a request, however it ends. -/
def step (s : State) : Request → State
  | .writeRecord apiKey record => after (writeRecord env apiKey record) s
  | .deleteRecords apiKey m => after (deleteRecords env apiKey m) s

/-! ### How the calls end -/

section Ends

variable {env} {s : State}

@[simp] theorem ends_call (op : Operation) (Q : Except Failure PUnit → State → Prop) :
    Ends (call env op) s Q ↔ Q (match env.fails op s.calls with
      | some e => .error e
      | none => .ok ⟨⟩) { s with calls := s.calls + 1 } := Iff.rfl

/-- What a `try` leaves is what its body leaves. -/
theorem ends_answering {β : Type} {body : Prog State Failure β} {P : State → Prop}
    (h : Ends body s fun _ t => P t) : Ends (answering body) s fun _ t => P t := by
  simp only [answering, ends_bind, ends_attempt]
  refine h.mono fun r t ht => ?_
  rcases r with (_ | _) | _ <;> exact ht

/-- **What `write` leaves**, followed by the rest of the request. -/
theorem write_leaves (record : DnsRecord) :
    Ends (do let written ← write env record; call env .publish; return written) s fun _ t =>
      t.zone = if env.fails .write s.calls = none then insert record s.zone else s.zone := by
  simp only [write, ends_bind, ends_call]
  cases hwrite : env.fails .write s.calls with
  | some e => exact (if_neg (Option.some_ne_none e)).symm
  | none =>
    rw [if_pos rfl]
    simp only [ends_get, ends_modify, ends_pure]
    cases env.fails .publish (s.calls + 1) <;> exact trivial

/-- **What `remove` leaves**, followed by the rest of the request. -/
theorem remove_leaves (m : DnsRecordMatch) :
    Ends (do let removed ← remove env m; call env .publish; return removed) s fun _ t =>
      t.zone = if env.fails .remove s.calls = none then
        s.zone.filter fun record => ¬ matching env m record else s.zone := by
  simp only [remove, ends_bind, ends_call]
  cases hremove : env.fails .remove s.calls with
  | some e => exact (if_neg (Option.some_ne_none e)).symm
  | none =>
    rw [if_pos rfl]
    simp only [ends_get, ends_modify, ends_pure]
    cases env.fails .publish (s.calls + 1) <;> exact trivial

end Ends

end DnsRecordsResource

end CloudOs

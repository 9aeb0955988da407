/-
# `EmailDomainsResource` and `EmailDomainDAO`

An admin adds and removes the mail domains that the cloudstead accepts mail for.  They stand
in a table of the database, and whoever delivers mail learns of them from events.

| request | does, in this order |
| --- | --- |
| `create` | `NewEmailDomainEvent`; the row is saved; `NewEmailDomainEvent` (`postCreate`) |
| `remove` | the row is found; `RemoveEmailDomainEvent`, twice; the row is deleted |

What is missing from the repository is a parameter: `fails sys n` says whether the `n`-th call
to another system fails, `uuid` is what the database's layer draws, and `rollsBack` says
whether an exception of `postCreate` undoes the save, as it does in a transaction.
-/

import CloudOs.Lib.NamedTable
import CloudOs.Lib.Replay
import CloudOs.Lib.Runs
import CloudOs.Model.Answers

namespace CloudOs

open Prog Replay

/-- `cloudos.model.EmailDomain`. -/
structure EmailDomain where
  uuid : String
  name : String
  deriving DecidableEq, Repr

/-- A message about mail domains. -/
inductive EmailDomainEvent
  | newEmailDomain (name : String)
  | removeEmailDomain (name : String)
  deriving DecidableEq, Repr

namespace EmailDomainsResource

/-- A system that the resource calls. -/
inductive System
  | rooty | database
  deriving DecidableEq, Repr

/-- How a request fails. -/
inductive Failure
  | failed (sys : System)
  | nullPointer
  deriving DecidableEq, Repr

/-- What a request cannot change. -/
structure DomainsEnv where
  sessions : String → Option Account
  toLowerCase : String → String
  toLowerCase_toLowerCase : ∀ s, toLowerCase (toLowerCase s) = toLowerCase s
  uuid : ℕ → String
  rollsBack : Bool
  fails : System → ℕ → Bool

/-- The table of the domains. -/
abbrev Table : Type := NamedTable EmailDomain.uuid EmailDomain.name

/-- What a request can change: the table, what was sent, and the number of calls so far. -/
structure State where
  domains : Table := .empty
  sent : List EmailDomainEvent := []
  calls : ℕ := 0

variable (env : DomainsEnv)

/-- One call to another system. -/
def call (sys : System) : Prog State Failure PUnit :=
  callOut (fun s => env.fails sys s.calls) (.failed sys) fun s => { s with calls := s.calls + 1 }

/-- `configuration.getRooty().getSender().write`. -/
def write (event : EmailDomainEvent) : Prog State Failure PUnit := do
  call env .rooty
  modify fun s => { s with sent := s.sent ++ [event] }

/-- `save`: the row gets an id; a duplicate is refused. -/
def save (name : String) : Prog State Failure EmailDomain := do
  let s ← get
  let domain : EmailDomain := ⟨env.uuid s.calls, env.toLowerCase name⟩
  call env .database
  match s.domains.create domain with
  | none => throw (.failed .database)
  | some domains => do
    modify fun s => { s with domains := domains }
    return domain

/-- `EmailDomainDAO.postCreate`. -/
def postCreate (domain : EmailDomain) : Prog State Failure PUnit :=
  write env (.newEmailDomain (env.toLowerCase domain.name))

/-- `EmailDomainDAO.create`. -/
def daoCreate (name : String) : Prog State Failure EmailDomain := do
  let before ← get
  let domain ← save env name
  match ← attempt (postCreate env domain) with
  | .ok _ => return domain
  | .error e => do
    if env.rollsBack then modify fun s => { s with domains := before.domains }
    throw e

/-- `super.delete`. -/
def deleteRow (uuid : String) : Prog State Failure PUnit := do
  call env .database
  modify fun s => { s with domains := s.domains.delete uuid }

/-- `EmailDomainDAO.delete`. -/
def daoDelete (uuid : String) : Prog State Failure PUnit := do
  let s ← get
  match s.domains.findByUuid uuid with
  | none => throw .nullPointer
  | some domain => do
    write env (.removeEmailDomain (env.toLowerCase domain.name))
    deleteRow env uuid

/-- `create`. -/
def create (apiKey domainName : String) : Prog State Failure (Answer EmailDomain) :=
  asAdmin env.sessions apiKey fun _ => do
    let name := env.toLowerCase domainName
    write env (.newEmailDomain name)
    let domain ← daoCreate env name
    return .ok domain

/-- `remove`. -/
def remove (apiKey domainName : String) : Prog State Failure (Answer Bool) :=
  asAdmin env.sessions apiKey fun _ => do
    let name := env.toLowerCase domainName
    let s ← get
    match s.domains.findByName name with
    | none => return .notFound name
    | some emailDomain => do
      write env (.removeEmailDomain name)
      daoDelete env emailDomain.uuid
      return .ok true

/-- A request. -/
inductive Request
  | create (apiKey domainName : String)
  | remove (apiKey domainName : String)

/-- The state after a request, however it ends. -/
def step (s : State) : Request → State
  | .create apiKey domainName => after (create env apiKey domainName) s
  | .remove apiKey domainName => after (remove env apiKey domainName) s

/-! ### How the calls end -/

section Ends

variable {env} {s : State}

/-- A message is written, unless the call fails. -/
theorem ends_write (event : EmailDomainEvent) (Q : Except Failure PUnit → State → Prop) :
    Ends (write env event) s Q ↔
      if env.fails .rooty s.calls = true then
        Q (.error (.failed .rooty)) { s with calls := s.calls + 1 }
      else Q (.ok ⟨⟩) { s with sent := s.sent ++ [event], calls := s.calls + 1 } := by
  simp only [write, ends_bind, call, ends_callOut]
  cases env.fails .rooty s.calls <;> exact Iff.rfl

/-- The save of a new name as call number `n` goes through, and is not undone. -/
def SaveStays (env : DomainsEnv) (n : ℕ) (domains : Table) : Prop :=
  env.fails .database n = false ∧ (∀ b ∈ domains.rows, env.uuid n ≠ b.uuid) ∧
    (env.rollsBack = true → env.fails .rooty (n + 1) = false)

instance (n : ℕ) (domains : Table) : Decidable (SaveStays env n domains) :=
  inferInstanceAs (Decidable (_ ∧ _ ∧ (_ → _)))

/-- **How `create` of the DAO ends**: it may announce the name once more, and the row is stored
when the save stays. -/
theorem daoCreate_ends {name : String} (hname : env.toLowerCase name = name) :
    Ends (daoCreate env name) s fun _ t => Emits State.sent (· = .newEmailDomain name) s t ∧
      t.domains.names = if name ∉ s.domains.names ∧ SaveStays env s.calls s.domains then
        insert name s.domains.names else s.domains.names := by
  simp only [daoCreate, save, ends_bind, ends_get, call, ends_callOut, hname]
  by_cases hfails : env.fails .database s.calls = true
  · have hnot : ¬ (name ∉ s.domains.names ∧ SaveStays env s.calls s.domains) := fun h => by
      rw [h.2.1] at hfails
      exact Bool.noConfusion hfails
    rw [if_pos hfails, if_neg hnot]
    exact ⟨.of_eq rfl, rfl⟩
  rw [if_neg hfails]
  rw [Bool.not_eq_true] at hfails
  cases hcreate : s.domains.create ⟨env.uuid s.calls, name⟩ with
  | none =>
    obtain ⟨b, hb, hshared⟩ := NamedTable.create_eq_none_iff.1 hcreate
    have hnot : ¬ (name ∉ s.domains.names ∧ SaveStays env s.calls s.domains) := by
      rintro ⟨hnew, -, huuid, -⟩
      rcases hshared with hu | hn
      · exact huuid b hb hu
      · exact hnew (NamedTable.mem_names.2 ⟨b, hb, hn.symm⟩)
    rw [if_neg hnot]
    exact ⟨.of_eq rfl, rfl⟩
  | some domains =>
    have hfree : ∀ b ∈ s.domains.rows, env.uuid s.calls ≠ b.uuid ∧ name ≠ b.name := by
      intro b hb
      by_contra hshared
      rw [not_and_or, not_not, not_not] at hshared
      rw [NamedTable.create_eq_none_iff.2 ⟨b, hb, hshared⟩] at hcreate
      exact absurd hcreate (Option.some_ne_none domains).symm
    have hnew : name ∉ s.domains.names := fun h => by
      obtain ⟨b, hb, hsame⟩ := NamedTable.mem_names.1 h
      exact (hfree b hb).2 hsame.symm
    have hnames : domains.names = insert name s.domains.names := NamedTable.names_create hcreate
    simp only [ends_bind, ends_modify, ends_pure, ends_attempt, postCreate, ends_write, hname]
    by_cases hannounces : env.fails .rooty (s.calls + 1) = true
    · rw [if_pos hannounces]
      by_cases hback : env.rollsBack = true
      · have hnot : ¬ (name ∉ s.domains.names ∧ SaveStays env s.calls s.domains) := fun h => by
          rw [h.2.2.2 hback] at hannounces
          exact Bool.noConfusion hannounces
        simp only [ends_bind, if_pos hback, ends_modify, ends_throw]
        rw [if_neg hnot]
        exact ⟨.of_eq rfl, rfl⟩
      · have hstays : name ∉ s.domains.names ∧ SaveStays env s.calls s.domains :=
          ⟨hnew, hfails, fun b hb => (hfree b hb).1, fun h => absurd h hback⟩
        simp only [if_neg hback, ends_throw]
        rw [if_pos hstays]
        exact ⟨.of_eq rfl, hnames⟩
    · have hstays : name ∉ s.domains.names ∧ SaveStays env s.calls s.domains :=
        ⟨hnew, hfails, fun b hb => (hfree b hb).1, fun _ => Bool.eq_false_iff.2 hannounces⟩
      rw [if_neg hannounces, if_pos hstays]
      exact ⟨.one rfl rfl, hnames⟩

/-- **How `delete` of the DAO ends**: it may announce the removal, and the row is deleted when
both its calls go through. -/
theorem daoDelete_ends {domain : EmailDomain} (hdomain : domain ∈ s.domains.rows) :
    Ends (daoDelete env domain.uuid) s fun _ t =>
      Emits State.sent (· = .removeEmailDomain (env.toLowerCase domain.name)) s t ∧
      t.domains.names = if env.fails .rooty s.calls = false ∧
        env.fails .database (s.calls + 1) = false then
        s.domains.names.erase domain.name else s.domains.names := by
  simp only [daoDelete, ends_bind, ends_get, NamedTable.findByUuid_eq_some.2 ⟨hdomain, rfl⟩,
    ends_write]
  cases hannounces : env.fails .rooty s.calls with
  | true => exact ⟨.of_eq rfl, rfl⟩
  | false =>
    rw [if_neg Bool.false_ne_true]
    simp only [deleteRow, ends_bind, call, ends_callOut]
    cases env.fails .database (s.calls + 1) with
    | true => exact ⟨.one rfl rfl, rfl⟩
    | false => exact ⟨.one rfl rfl, NamedTable.names_delete hdomain⟩

end Ends

end EmailDomainsResource

end CloudOs

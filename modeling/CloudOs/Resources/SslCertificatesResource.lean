/-
# `SslCertificatesResource`

An admin adds, overwrites and removes certificates.  The database keeps what there is to know
of each; the certificate itself is installed by rooty.

| request | does, in this order |
| --- | --- |
| `addOrOverwriteCert` | reads PEM and key; writes the row; asks rooty to install |
| `unlockCloudstead` | `addOrOverwriteCert`; asks rooty for each setting; asks whether ssh is allowed |
| `removeCertificate` | finds the row; tells rooty; deletes the row |

`SslCertificateBase`, which parses the PEM, and rooty are not in the repository: what `setPem`
and `setKey` keep, or that they throw, is a parameter, and so is what rooty makes of the `n`-th
call.  `installed` is a log of the model: what rooty has reported as installed, in order.
-/

import CloudOs.Lib.NamedTable
import CloudOs.Lib.Replay
import CloudOs.Lib.Runs
import CloudOs.Model.Answers
import CloudOs.Model.LdapContext

namespace CloudOs

open Prog

/-- `cloudos.model.SslCertificate`; `pem` is what `setPem` keeps of a PEM. -/
structure SslCertificate where
  uuid : String
  name : String
  description : Option String
  pem : String × String
  keySha : String
  deriving DecidableEq, Repr

/-- `rooty.toots.ssl.InstallSslCertData`. -/
structure InstallSslCertData where
  pem : Option String
  key : Option String
  deriving DecidableEq, Repr

/-- `cloudos.model.support.SslCertificateRequest`. -/
structure SslCertificateRequest where
  name : String
  description : Option String
  pem : Option String
  key : Option String

/-- `new InstallSslCertData().setKey(..).setPem(..)`. -/
def SslCertificateRequest.data (request : SslCertificateRequest) : InstallSslCertData :=
  ⟨request.pem, request.key⟩

/-- `cloudos.model.support.UnlockRequest`; what the body leaves out is `none`. -/
structure UnlockRequest where
  cert : Option SslCertificateRequest
  settings : Option (List (String × String))

namespace SslCertificatesResource

/-- A request to rooty that waits for its answer. -/
inductive RootyRequest
  | installSslCert (name : String) (data : InstallSslCertData)
  | vendorSettingUpdate (cookbook option value : String)
  | allowSsh
  deriving DecidableEq, Repr

/-- The message that rooty answers with. -/
structure RootyAnswer where
  isSuccess : Bool
  booleanResult : Bool := false
  results : Option String := none

/-- A system that the resource calls without an answer. -/
inductive System
  | rooty | database
  deriving DecidableEq, Repr

/-- How a request fails. -/
inductive Failure
  | failed (sys : System)
  | nullPointer
  deriving DecidableEq, Repr

/-- What a request cannot change. -/
structure CertificatesEnv where
  sessions : String → Option Account
  setPem : Option String → Option (String × String)
  setKey : Option String → Option String
  uuid : ℕ → String
  fails : System → ℕ → Bool
  request : RootyRequest → ℕ → Option RootyAnswer

/-- The table of the certificates. -/
abbrev Table : Type := NamedTable SslCertificate.uuid SslCertificate.name

/-- What a request can change: the table, what rooty installed, and the number of calls so
far. -/
structure State where
  certificates : Table := .empty
  installed : List (String × InstallSslCertData) := []
  calls : ℕ := 0

variable (env : CertificatesEnv)

/-- One call to another system. -/
def call (sys : System) : Prog State Failure PUnit :=
  callOut (fun s => env.fails sys s.calls) (.failed sys) fun s => { s with calls := s.calls + 1 }

/-- What an answer of rooty says was installed. -/
def reported : RootyRequest → RootyAnswer → List (String × InstallSslCertData)
  | .installSslCert name data, answer => if answer.isSuccess then [(name, data)] else []
  | _, _ => []

/-- `RootyService.request`: it may throw, as `RootyMain` does on a timeout. -/
def request (message : RootyRequest) : Prog State Failure RootyAnswer := fun s =>
  match env.request message s.calls with
  | none => (.error (.failed .rooty), { s with calls := s.calls + 1 })
  | some answer =>
    (.ok answer, { s with calls := s.calls + 1, installed := s.installed ++ reported message answer })

/-- `new SslCertificate()` with its setters; none of them is left out of the `try`. -/
def buildCert (uuid name : String) (request : SslCertificateRequest) : Option SslCertificate := do
  let pem ← env.setPem request.pem
  let keySha ← env.setKey request.key
  return ⟨uuid, name, request.description, pem, keySha⟩

/-- `certificateDAO.create` and `update`. -/
def store (write : Table → SslCertificate → Option Table) (cert : SslCertificate) :
    Prog State Failure SslCertificate := do
  call env .database
  let s ← get
  match write s.certificates cert with
  | none => throw (.failed .database)
  | some certificates => do
    modify fun s => { s with certificates }
    return cert

/-- The static `addOrOverwriteCert`.  What rooty answers is not looked at. -/
def addOrOverwrite (name : String) (certRequest : SslCertificateRequest) :
    Prog State Failure (Answer (Option SslCertificate)) := do
  let s ← get
  let found := s.certificates.findByName name
  let uuid := found.elim (env.uuid s.calls) SslCertificate.uuid
  match buildCert env uuid name certRequest with
  | none => return .invalid "\x7berr.cert.pem.invalid\x7d"
  | some cert => do
    let dbCert ← store env (if found.isNone then NamedTable.create else NamedTable.update) cert
    let _ ← request env (.installSslCert name certRequest.data)
    return .ok (some dbCert)

/-- `addOrOverwriteCert`. -/
def addOrOverwriteCert (apiKey name : String) (certRequest : SslCertificateRequest) :
    Prog State Failure (Answer (Option SslCertificate)) :=
  asAdmin env.sessions apiKey fun _ =>
    if name ≠ certRequest.name then return .invalid ""
    else addOrOverwrite env name certRequest

/-- `removeCertificate`. -/
def removeCertificate (apiKey name : String) :
    Prog State Failure (Answer (Option SslCertificate)) :=
  asAdmin env.sessions apiKey fun _ => do
    let s ← get
    match s.certificates.findByName name with
    | none => return .notFound name
    | some found => do
      call env .rooty
      call env .database
      modify fun s => { s with certificates := s.certificates.delete found.uuid }
      return .ok none

/-! ### `ConfigurationsResource` -/

/-- `getAllowSsh`; `Boolean.valueOf` is true of `"true"` in any case, and of nothing else. -/
def getAllowSsh : Prog State Failure Bool := do
  let answer ← request env .allowSsh
  return answer.results.any (asciiLowerCase · = "true")

/-- The loop of `unlockCloudstead`: the answer with which it returns, if it does. -/
def updateSettings : List (String × String) →
    Prog State Failure (Option (Answer (Option SslCertificate)))
  | [] => return none
  | (name, value) :: settings => do
    match ← attempt (request env (.vendorSettingUpdate "cloudos" name value)) with
    | .error _ => return some .serverError
    | .ok answer =>
      if !answer.booleanResult then return some (.invalid "\x7berr.unlock.stillLocked\x7d")
      else updateSettings settings

/-- The rest of `unlockCloudstead`, once the certificate is there. -/
def finishUnlock (settings : List (String × String)) :
    Prog State Failure (Answer (Option SslCertificate)) := do
  match ← updateSettings env settings with
  | some answer => return answer
  | none => do
    if ← getAllowSsh env then return .ok none
    else return .invalid "\x7berr.unlock.stillLocked\x7d"

/-- `unlockCloudstead`. -/
def unlockCloudstead (apiKey : String) (unlockRequest : UnlockRequest) :
    Prog State Failure (Answer (Option SslCertificate)) :=
  asAdmin env.sessions apiKey fun _ =>
    match unlockRequest.cert with
    | none => throw .nullPointer
    | some cert => do
      match ← addOrOverwrite env cert.name cert with
      | .ok _ =>
        match unlockRequest.settings with
        | none => throw .nullPointer
        | some settings => finishUnlock env settings
      | certResponse => return certResponse

/-- A request. -/
inductive Request
  | addOrOverwriteCert (apiKey name : String) (certRequest : SslCertificateRequest)
  | unlockCloudstead (apiKey : String) (unlockRequest : UnlockRequest)
  | removeCertificate (apiKey name : String)

/-- What a request runs. -/
def perform : Request → Prog State Failure (Answer (Option SslCertificate))
  | .addOrOverwriteCert apiKey name certRequest => addOrOverwriteCert env apiKey name certRequest
  | .unlockCloudstead apiKey unlockRequest => unlockCloudstead env apiKey unlockRequest
  | .removeCertificate apiKey name => removeCertificate env apiKey name

/-- The state after a request, however it ends. -/
def step (s : State) (r : Request) : State := after (perform env r) s

/-! ### How the calls end -/

section Ends

variable {env} {s : State}

/-- **What a request to rooty leaves**: the log grows by what the answer reports. -/
theorem request_leaves (message : RootyRequest) :
    Ends (request env message) s fun _ t => t.certificates = s.certificates ∧
      t.installed = s.installed ++ (env.request message s.calls).elim [] (reported message) := by
  simp only [Ends, exec, request]
  cases env.request message s.calls with
  | none => exact ⟨rfl, (List.append_nil _).symm⟩
  | some answer => exact ⟨rfl, rfl⟩

/-- Neither the certificates nor what is installed has changed. -/
def Same (s t : State) : Prop := t.certificates = s.certificates ∧ t.installed = s.installed

instance : Std.Refl Same := ⟨fun _ => ⟨rfl, rfl⟩⟩

instance : IsTrans State Same := ⟨fun _ _ _ h h' => ⟨h'.1.trans h.1, h'.2.trans h.2⟩⟩

/-- A request that installs nothing. -/
theorem respects_request {message : RootyRequest} (h : ∀ answer, reported message answer = []) :
    Respects Same (request env message) := by
  intro s
  refine (request_leaves message).mono fun r t ht => ⟨ht.1, ?_⟩
  rw [ht.2]
  cases env.request message s.calls with
  | none => exact List.append_nil _
  | some answer => rw [Option.elim_some, h, List.append_nil]

theorem respects_updateSettings :
    ∀ settings : List (String × String), Respects Same (updateSettings env settings)
  | [] => .pure _
  | (_, _) :: settings => by
    refine .bind (.attempt (respects_request fun _ => rfl)) fun r => ?_
    cases r with
    | error e => exact .pure _
    | ok answer =>
      dsimp only
      split_ifs
      · exact .pure _
      · exact respects_updateSettings settings

/-- The settings leave the certificates alone. -/
theorem respects_finishUnlock (settings : List (String × String)) :
    Respects Same (finishUnlock env settings) := by
  refine .bind (respects_updateSettings settings) fun r => ?_
  cases r with
  | some answer => exact .pure _
  | none =>
    refine .bind (.bind (respects_request fun _ => rfl) fun _ => .pure _) fun allowed => ?_
    split_ifs <;> exact .pure _

/-- The row that `addOrOverwrite` writes: none if the PEM is refused or the database does. -/
def written (env : CertificatesEnv) (s : State) (name : String) (certRequest : SslCertificateRequest) :
    Option SslCertificate :=
  let found := s.certificates.findByName name
  if env.fails .database s.calls = true ∨
      (found = none ∧ (s.certificates.findByUuid (env.uuid s.calls)).isSome) then none
  else buildCert env (found.elim (env.uuid s.calls) SslCertificate.uuid) name certRequest

/-- Call number `n` is an install of `data`, and rooty reports that it succeeded. -/
def ReportsInstalled (env : CertificatesEnv) (n : ℕ) (name : String) (data : InstallSslCertData) : Prop :=
  (env.request (.installSslCert name data) n).any (·.isSuccess) = true

instance (n : ℕ) (name : String) (data : InstallSslCertData) :
    Decidable (ReportsInstalled env n name data) := inferInstanceAs (Decidable (_ = _))

theorem elim_reported (n : ℕ) (name : String) (data : InstallSslCertData) :
    (env.request (.installSslCert name data) n).elim [] (reported (.installSslCert name data)) =
      if ReportsInstalled env n name data then [(name, data)] else [] := by
  cases hanswer : env.request (.installSslCert name data) n <;>
    simp [ReportsInstalled, hanswer, reported]

/-- A row that was built has the name and the id it was built for. -/
theorem buildCert_eq_some {uuid name : String} {certRequest : SslCertificateRequest}
    {cert : SslCertificate} (h : buildCert env uuid name certRequest = some cert) :
    cert.uuid = uuid ∧ cert.name = name ∧ env.setPem certRequest.pem = some cert.pem ∧
      env.setKey certRequest.key = some cert.keySha := by
  simp only [buildCert, Option.bind_eq_bind, Option.bind_eq_some_iff] at h
  obtain ⟨pem, hpem, keySha, hkey, hcert⟩ := h
  obtain rfl := Option.some.inj hcert
  exact ⟨rfl, rfl, hpem, hkey⟩

/-- The database refuses a new row whose id is taken; what it writes is found by its name. -/
theorem write_cases {table : Table} {found : Option SslCertificate} {fresh name : String}
    {cert : SslCertificate} (hfound : table.findByName name = found)
    (huuid : cert.uuid = found.elim fresh SslCertificate.uuid) (hname : cert.name = name) :
    ((found = none ∧ (table.findByUuid fresh).isSome) ∧
        (if found.isNone then NamedTable.create else NamedTable.update) table cert = none) ∨
      (¬ (found = none ∧ (table.findByUuid fresh).isSome) ∧ ∃ table',
        (if found.isNone then NamedTable.create else NamedTable.update) table cert = some table' ∧
          ∀ n, table'.findByName n = if name = n then some cert else table.findByName n) := by
  cases found with
  | some row =>
    obtain ⟨hrow, hrowname⟩ := NamedTable.findByName_eq_some.1 hfound
    have hsame : row.name = cert.name := hrowname.trans hname.symm
    obtain ⟨table', hupdate⟩ := NamedTable.exists_update hrow huuid.symm hsame
    refine Or.inr ⟨fun h => absurd h.1 (Option.some_ne_none row), table', hupdate, ?_⟩
    rw [← hname]
    exact NamedTable.findByName_update hupdate hrow huuid.symm hsame
  | none =>
    have hnew := NamedTable.findByName_eq_none.1 hfound
    cases hcreate : table.create cert with
    | none =>
      obtain ⟨b, hb, hshared | hshared⟩ := NamedTable.create_eq_none_iff.1 hcreate
      · refine Or.inl ⟨⟨rfl, Option.isSome_iff_exists.2 ⟨b, ?_⟩⟩, hcreate⟩
        exact NamedTable.findByUuid_eq_some.2 ⟨hb, hshared.symm.trans huuid⟩
      · exact absurd (NamedTable.mem_names.2 ⟨b, hb, hshared.symm.trans hname⟩) hnew
    | some table' =>
      refine Or.inr ⟨fun h => ?_, table', hcreate, ?_⟩
      · obtain ⟨b, hb⟩ := Option.isSome_iff_exists.1 h.2
        obtain ⟨hb, hbuuid⟩ := NamedTable.findByUuid_eq_some.1 hb
        have htaken := NamedTable.create_eq_none_iff.2 ⟨b, hb, Or.inl (huuid.trans hbuuid.symm)⟩
        exact absurd (hcreate.symm.trans htaken) (Option.some_ne_none table')
      · rw [← hname]
        exact NamedTable.findByName_create hcreate

/-- **How `addOrOverwrite` ends.**  Either no row is written, nothing is installed and the
answer is not OK; or a row is written, and then rooty is asked. -/
theorem addOrOverwrite_ends (name : String) (certRequest : SslCertificateRequest) :
    Ends (addOrOverwrite env name certRequest) s fun r t =>
      match written env s name certRequest with
      | none => Same s t ∧ isOk r = false
      | some row =>
        (∀ n, t.certificates.findByName n =
          if name = n then some row else s.certificates.findByName n) ∧
        t.installed = s.installed ++
          if ReportsInstalled env (s.calls + 1) name certRequest.data then
            [(name, certRequest.data)] else [] := by
  simp only [addOrOverwrite, ends_bind, ends_get, written]
  generalize hfound : s.certificates.findByName name = found
  cases hcert : buildCert env (found.elim (env.uuid s.calls) SslCertificate.uuid) name certRequest with
  | none =>
    simp only [ends_pure, ite_self]
    exact ⟨refl_of Same s, rfl⟩
  | some cert =>
    obtain ⟨huuid, hname, -, -⟩ := buildCert_eq_some hcert
    simp only [store, ends_bind, call, ends_callOut]
    cases hfails : env.fails .database s.calls with
    | true =>
      rw [if_pos (Or.inl rfl)]
      exact ⟨⟨rfl, rfl⟩, rfl⟩
    | false =>
      simp only [Bool.false_eq_true, if_false, false_or, ends_get]
      rcases write_cases hfound huuid hname with ⟨htaken, hwrite⟩ | ⟨hfree, table', hwrite, hrows⟩
      · rw [if_pos htaken, hwrite]
        exact ⟨⟨rfl, rfl⟩, rfl⟩
      · rw [if_neg hfree, hwrite]
        simp only [ends_bind, ends_modify, ends_pure]
        refine (request_leaves _).mono fun r t ht => ?_
        have hend : (∀ n, t.certificates.findByName n =
            if name = n then some cert else s.certificates.findByName n) ∧
            t.installed = s.installed ++
              if ReportsInstalled env (s.calls + 1) name certRequest.data then
                [(name, certRequest.data)] else [] := by
          refine ⟨fun n => by rw [ht.1]; exact hrows n, ht.2.trans ?_⟩
          rw [elim_reported]
        cases r with
        | ok answer => exact hend
        | error e => exact hend

/-- **How `removeCertificate` ends**: with the row gone, or with everything as it was. -/
theorem removeCertificate_ends (apiKey name : String) :
    Ends (removeCertificate env apiKey name) s fun r t => t.installed = s.installed ∧
      (isOk r = true ∧ (∀ n, t.certificates.findByName n =
          if name = n then none else s.certificates.findByName n) ∨
        isOk r = false ∧ t.certificates = s.certificates) := by
  refine ends_asAdmin (fun _ _ hrefused => ⟨rfl, Or.inr ⟨hrefused, rfl⟩⟩) fun _ _ _ => ?_
  simp only [ends_bind, ends_get]
  cases hfound : s.certificates.findByName name with
  | none => exact ⟨rfl, Or.inr ⟨rfl, rfl⟩⟩
  | some found =>
    obtain ⟨hrow, rfl⟩ := NamedTable.findByName_eq_some.1 hfound
    dsimp only
    rw [ends_bind, call, ends_callOut]
    cases env.fails .rooty s.calls with
    | true => exact ⟨rfl, Or.inr ⟨rfl, rfl⟩⟩
    | false =>
      change Ends (call env .database >>= fun _ => _) _ _
      rw [ends_bind, call, ends_callOut]
      cases env.fails .database (s.calls + 1) with
      | true => exact ⟨rfl, Or.inr ⟨rfl, rfl⟩⟩
      | false => exact ⟨rfl, Or.inl ⟨rfl, NamedTable.findByName_delete hrow⟩⟩

end Ends

end SslCertificatesResource

end CloudOs

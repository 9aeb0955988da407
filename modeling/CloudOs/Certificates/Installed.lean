/-
# Certificates and what is installed

The row of a certificate is meant to be about the certificate that rooty has installed under
its name: after a request that is answered OK it describes the last install that rooty reported,
and a request whose install fails leaves it as it was.

`addOrOverwriteCert` writes the row first, then asks rooty, and does not look at what rooty says.
`removeCertificate` installs nothing and is not affected:

| request | the row is out of step when |
| --- | --- |
| `addOrOverwriteCert`, `unlockCloudstead` | the row was written, changed, and rooty reports no install |
| `removeCertificate` | never |
-/

import CloudOs.Resources.SslCertificatesResource

namespace CloudOs

open Prog Replay SslCertificatesResource

namespace Certificates

/-- What is installed under each name after one more install. -/
def hearInstall (view : String → Option InstallSslCertData) (install : String × InstallSslCertData) :
    String → Option InstallSslCertData :=
  Function.update view install.1 (some install.2)

/-- The last install of a name that rooty reported. -/
def lastInstalled (s : State) : String → Option InstallSslCertData :=
  replay hearInstall (fun _ => none) s.installed

/-- The row is what the setters make of this PEM and key. -/
def Describes (env : CertificatesEnv) (row : SslCertificate) (data : InstallSslCertData) : Prop :=
  env.setPem data.pem = some row.pem ∧ env.setKey data.key = some row.keySha

/-- The row of `name` is about what is installed, when the request was answered OK, and is as it
was, when it installed nothing. -/
structure InStep (env : CertificatesEnv) (s t : State) (ok : Bool) (name : String) : Prop where
  ofOk : ok = true → ∃ row data, t.certificates.findByName name = some row ∧
    lastInstalled t name = some data ∧ Describes env row data
  ofFailed : t.installed = s.installed →
    t.certificates.findByName name = s.certificates.findByName name

/-- The record that a request is about matches what is installed. -/
def RecordMatches (env : CertificatesEnv) (s : State) (r : Request) : Prop :=
  let t := step env s r
  let ok := isOk (exec (perform env r) s).1
  match r with
  | .addOrOverwriteCert _ name _ => InStep env s t ok name
  | .unlockCloudstead _ unlockRequest => ∀ cert ∈ unlockRequest.cert, InStep env s t ok cert.name
  | .removeCertificate _ name => t.certificates.findByName name =
      if ok then none else s.certificates.findByName name

/-- A row that is written is the one that is there, or rooty reports the install. -/
def InstallSettled (env : CertificatesEnv) (s : State) (name : String) (certRequest : SslCertificateRequest) :
    Prop :=
  ∀ row ∈ written env s name certRequest, s.certificates.findByName name = some row ∨
    ReportsInstalled env (s.calls + 1) name certRequest.data

/-- Every install that a request of an admin asks for is settled. -/
def InstallsSettled (env : CertificatesEnv) (s : State) : Request → Prop
  | .addOrOverwriteCert apiKey name certRequest => IsAdminSession env.sessions apiKey →
      name = certRequest.name → InstallSettled env s name certRequest
  | .unlockCloudstead apiKey unlockRequest => IsAdminSession env.sessions apiKey →
      ∀ cert ∈ unlockRequest.cert, InstallSettled env s cert.name cert
  | .removeCertificate _ _ => True

/-- Every row describes what is installed under its name. -/
def RowsInstalled (env : CertificatesEnv) (s : State) : Prop :=
  ∀ name row, s.certificates.findByName name = some row →
    ∃ data, lastInstalled s name = some data ∧ Describes env row data

variable {env : CertificatesEnv} {s t : State}

/-- A request that wrote and installed nothing, and was not answered OK. -/
theorem InStep.of_same (h : Same s t) {ok : Bool} (hok : ok = false) (name : String) :
    InStep env s t ok name :=
  ⟨fun h' => absurd (hok.symm.trans h') Bool.false_ne_true, fun _ => by rw [h.1]⟩

theorem RowsInstalled.of_same (hs : RowsInstalled env s) (h : Same s t) : RowsInstalled env t := by
  intro name row hrow
  rw [h.1] at hrow
  rw [lastInstalled, h.2]
  exact hs name row hrow

/-- After an install that rooty reports, the name has that install, the others have theirs. -/
theorem lastInstalled_of_installed {name : String} {data : InstallSslCertData}
    (h : t.installed = s.installed ++ [(name, data)]) :
    lastInstalled t = Function.update (lastInstalled s) name (some data) := by
  rw [lastInstalled, h, replay_append]
  rfl

/-- A written row describes what it was asked to be. -/
theorem describes_of_written {name : String} {certRequest : SslCertificateRequest}
    {row : SslCertificate} (h : written env s name certRequest = some row) :
    Describes env row certRequest.data := by
  unfold written at h
  dsimp only at h
  split_ifs at h
  exact (buildCert_eq_some h).2.2

section Written

variable {name : String} {row : SslCertificate} (hs : RowsInstalled env s)
  (hrows : ∀ n, t.certificates.findByName n =
    if name = n then some row else s.certificates.findByName n)

include hs hrows

/-- The row was written and rooty reports the install. -/
theorem inStep_of_reported {data : InstallSslCertData}
    (hinstalled : t.installed = s.installed ++ [(name, data)]) (hrow : Describes env row data)
    (ok : Bool) : InStep env s t ok name ∧ RowsInstalled env t := by
  have hfound : t.certificates.findByName name = some row := by rw [hrows, if_pos rfl]
  have hlast := lastInstalled_of_installed hinstalled
  refine ⟨⟨fun _ => ⟨row, data, hfound, ?_, hrow⟩, fun h => ?_⟩, fun n b hb => ?_⟩
  · rw [hlast, Function.update_self]
  · rw [hinstalled] at h
    exact absurd (List.append_right_eq_self.1 h) (List.cons_ne_nil _ _)
  · rw [hrows] at hb
    rw [hlast]
    by_cases hn : name = n
    · subst hn
      rw [if_pos rfl] at hb
      obtain rfl := Option.some.inj hb
      exact ⟨data, Function.update_self .., hrow⟩
    · rw [if_neg hn] at hb
      rw [Function.update_of_ne (Ne.symm hn)]
      exact hs n b hb

/-- The row was written and rooty reports no install: it must be the one that was there. -/
theorem inStep_of_unreported (hinstalled : t.installed = s.installed) (ok : Bool) :
    (InStep env s t ok name ↔ s.certificates.findByName name = some row) ∧
      (s.certificates.findByName name = some row → RowsInstalled env t) := by
  have hfound : t.certificates.findByName name = some row := by rw [hrows, if_pos rfl]
  have hlast : lastInstalled t = lastInstalled s := by
    rw [lastInstalled, hinstalled, lastInstalled]
  refine ⟨⟨fun h => (h.ofFailed hinstalled).symm.trans hfound, fun hbefore => ?_⟩,
    fun hbefore n b hb => ?_⟩
  · refine ⟨fun _ => ?_, fun _ => hfound.trans hbefore.symm⟩
    obtain ⟨data, hdata, hrow⟩ := hs name row hbefore
    exact ⟨row, data, hfound, by rw [hlast, hdata], hrow⟩
  · rw [hlast]
    refine hs n b ?_
    rw [hrows] at hb
    split_ifs at hb with hn
    · rw [← hn, hbefore, hb]
    · exact hb

end Written

/-- **One `addOrOverwrite`**, followed by anything that changes no certificate and turns no other
answer into an OK one. -/
theorem addOrOverwrite_inStep (hs : RowsInstalled env s) (name : String)
    (certRequest : SslCertificateRequest) :
    Ends (addOrOverwrite env name certRequest) s fun r t => ∀ t' ok, Same t t' →
      (ok = true → isOk r = true) →
        (InStep env s t' ok name ↔ InstallSettled env s name certRequest) ∧
          (InstallSettled env s name certRequest → RowsInstalled env t') := by
  refine (addOrOverwrite_ends name certRequest).mono fun r t ht t' ok hsame hok => ?_
  cases hwritten : written env s name certRequest with
  | none =>
    rw [hwritten] at ht
    obtain ⟨hst, hr⟩ := ht
    have hsettled : InstallSettled env s name certRequest := fun row hrow =>
      absurd (hwritten.symm.trans hrow) (Option.some_ne_none row).symm
    have hokFalse : ok = false := Bool.eq_false_iff.2 fun h =>
      absurd (hr.symm.trans (hok h)) Bool.false_ne_true
    have hst' : Same s t' := trans_of Same hst hsame
    exact ⟨iff_of_true (.of_same hst' hokFalse name) hsettled, fun _ => hs.of_same hst'⟩
  | some row =>
    rw [hwritten] at ht
    obtain ⟨hrows, hinstalled⟩ := ht
    rw [← hsame.1] at hrows
    rw [← hsame.2] at hinstalled
    have hsettled : InstallSettled env s name certRequest ↔
        s.certificates.findByName name = some row ∨
          ReportsInstalled env (s.calls + 1) name certRequest.data := by
      simp [InstallSettled, hwritten]
    by_cases hreports : ReportsInstalled env (s.calls + 1) name certRequest.data
    · rw [if_pos hreports] at hinstalled
      obtain ⟨hinStep, hrows'⟩ :=
        inStep_of_reported hs hrows hinstalled (describes_of_written hwritten) ok
      exact ⟨iff_of_true hinStep (hsettled.2 (Or.inr hreports)), fun _ => hrows'⟩
    · rw [if_neg hreports, List.append_nil] at hinstalled
      rw [hsettled, or_iff_left hreports]
      exact inStep_of_unreported hs hrows hinstalled ok

/-! ### One request -/

/-- **One `addOrOverwriteCert`.** -/
theorem addOrOverwriteCert_matches (hs : RowsInstalled env s) (apiKey name : String)
    (certRequest : SslCertificateRequest) :
    Ends (addOrOverwriteCert env apiKey name certRequest) s fun r t =>
      (InStep env s t (isOk r) name ↔
        InstallsSettled env s (.addOrOverwriteCert apiKey name certRequest)) ∧
      (InstallsSettled env s (.addOrOverwriteCert apiKey name certRequest) →
        RowsInstalled env t) := by
  refine ends_asAdmin (fun hrefused a ha => ?_) fun _ _ hcaller => ?_
  · exact ⟨iff_of_true (.of_same (refl_of Same s) ha name) fun hcaller => absurd hcaller hrefused,
      fun _ => hs⟩
  · simp only [InstallsSettled, hcaller, true_implies]
    split_ifs with hname
    · exact ⟨iff_of_true (.of_same (refl_of Same s) rfl name) fun h => absurd h hname, fun _ => hs⟩
    · rw [not_not] at hname
      simp only [hname, true_implies]
      exact (addOrOverwrite_inStep hs certRequest.name certRequest).mono fun r t ht =>
        ht t (isOk r) (refl_of Same t) id

/-- **One `unlockCloudstead`.** -/
theorem unlockCloudstead_matches (hs : RowsInstalled env s) (apiKey : String)
    (unlockRequest : UnlockRequest) :
    Ends (unlockCloudstead env apiKey unlockRequest) s fun r t =>
      ((∀ cert ∈ unlockRequest.cert, InStep env s t (isOk r) cert.name) ↔
        InstallsSettled env s (.unlockCloudstead apiKey unlockRequest)) ∧
      (InstallsSettled env s (.unlockCloudstead apiKey unlockRequest) → RowsInstalled env t) := by
  refine ends_asAdmin (fun hrefused a ha => ?_) fun _ _ hcaller => ?_
  · exact ⟨iff_of_true (fun cert _ => .of_same (refl_of Same s) ha cert.name)
      fun hcaller => absurd hcaller hrefused, fun _ => hs⟩
  · simp only [InstallsSettled, hcaller, true_implies]
    cases hcert : unlockRequest.cert with
    | none => exact ⟨iff_of_true (by simp) (by simp), fun _ => hs⟩
    | some cert =>
      simp only [Option.mem_some_iff, forall_eq']
      rw [ends_bind]
      refine (addOrOverwrite_inStep hs cert.name cert).mono fun r t ht => ?_
      -- what follows changes no certificate, and is OK only after an OK
      rcases r with e | ⟨body⟩ | resource | _ | code | status | _
      case ok.ok =>
        cases unlockRequest.settings with
        | none => exact ht t false (refl_of Same t) fun _ => rfl
        | some settings =>
          exact (respects_finishUnlock settings t).mono fun r' t' hsame =>
            ht t' (isOk r') hsame fun _ => rfl
      all_goals exact ht t _ (refl_of Same t) id

/-- **One request.**  The record matches exactly when the install is settled, and then every row
still describes what is installed. -/
theorem recordMatches_iff (hs : RowsInstalled env s) (r : Request) :
    (RecordMatches env s r ↔ InstallsSettled env s r) ∧
      (InstallsSettled env s r → RowsInstalled env (step env s r)) := by
  cases r with
  | addOrOverwriteCert apiKey name certRequest =>
    exact addOrOverwriteCert_matches hs apiKey name certRequest
  | unlockCloudstead apiKey unlockRequest => exact unlockCloudstead_matches hs apiKey unlockRequest
  | removeCertificate apiKey name =>
    have hend : Ends (removeCertificate env apiKey name) s fun r t =>
        t.certificates.findByName name = (if isOk r then none else
          s.certificates.findByName name) ∧ RowsInstalled env t := by
      refine (removeCertificate_ends apiKey name).mono ?_
      rintro r t ⟨hinstalled, ⟨hr, hrows⟩ | ⟨hr, hcertificates⟩⟩
      · rw [if_pos hr]
        refine ⟨by rw [hrows, if_pos rfl], fun n row hrow => ?_⟩
        rw [hrows] at hrow
        split_ifs at hrow
        rw [lastInstalled, hinstalled]
        exact hs n row hrow
      · rw [hr, hcertificates]
        exact ⟨rfl, hs.of_same ⟨hcertificates, hinstalled⟩⟩
    exact ⟨iff_of_true hend.1 trivial, fun _ => hend.2⟩

/-! ### Runs -/

/-- **Certificate records match what is installed** in every request of the runs whose installs
are settled, and of no others. -/
theorem records_match_iff (env : CertificatesEnv) (requests : List Request) :
    Runs.Meets (step env) (RecordMatches env) {} requests ↔
      Runs.Meets (step env) (InstallsSettled env) {} requests := by
  have hempty : RowsInstalled env {} := fun name row hrow =>
    absurd hrow (Option.some_ne_none row).symm
  exact Runs.meets_congr (I := RowsInstalled env)
    (fun s r hs h => (recordMatches_iff hs r).2 ((recordMatches_iff hs r).1.1 h))
    (fun s r hs => (recordMatches_iff hs r).1) hempty

/-- A cloudstead whose rooty reports that an install failed. -/
def failingRooty : CertificatesEnv where
  sessions := fun apiKey =>
    if apiKey = "admin" then some ((Account.new "root").setAdmin true) else none
  setPem := fun pem => pem.map fun text => (text, text)
  setKey := id
  uuid := fun n => toString n
  fails := fun _ _ => false
  request := fun _ _ => some { isSuccess := false }

/-- **An OK answer and a record of what was not installed.** -/
theorem record_without_install :
    ¬ Runs.Meets (step failingRooty) (RecordMatches failingRooty) {}
      [.addOrOverwriteCert "admin" "box" ⟨"box", none, some "pem", some "key"⟩] := by
  rintro ⟨hmatches, -⟩
  have hnothing : (step failingRooty {} (.addOrOverwriteCert "admin" "box"
      ⟨"box", none, some "pem", some "key"⟩)).installed = [] := by
    decide +kernel
  have hstored : (step failingRooty {} (.addOrOverwriteCert "admin" "box"
      ⟨"box", none, some "pem", some "key"⟩)).certificates.findByName "box" ≠ none := by
    decide +kernel
  exact hstored (InStep.ofFailed hmatches hnothing)

end Certificates

end CloudOs

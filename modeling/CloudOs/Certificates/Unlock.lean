/-
# When a cloudstead is unlocked

`unlockCloudstead` stores and installs a certificate, sets the settings of the request one by one,
and at last asks whether ssh is allowed.  The first setting that is refused ends the request; those
before it stay as they were set.

| what is asked | number of the call | it goes on when |
| --- | --- | --- |
| the database | `n` | the row is written |
| rooty, to install | `n + 1` | an answer comes |
| rooty, setting `i` | `n + 2 + i` | the answer is true |
| rooty, whether ssh is allowed | `n + 2 +` number of settings | |

So the answer is OK when nothing in the table stops it (`unlockCloudstead_ends`), and the number of
calls says which settings were set.
-/

import CloudOs.Resources.SslCertificatesResource

namespace CloudOs

open Prog SslCertificatesResource

namespace Unlock

variable (env : CertificatesEnv)

/-- Call number `n` sets the setting, and rooty says that it is set. -/
def Sets (n : ℕ) (setting : String × String) : Prop :=
  (env.request (.vendorSettingUpdate "cloudos" setting.1 setting.2) n).any (·.booleanResult) = true

instance (n : ℕ) (setting : String × String) : Decidable (Sets env n setting) :=
  inferInstanceAs (Decidable (_ = _))

/-- How many settings are set, from call `n` on, before one is refused. -/
def settingsSet (n : ℕ) : List (String × String) → ℕ
  | [] => 0
  | setting :: settings => if Sets env n setting then settingsSet (n + 1) settings + 1 else 0

/-- Call number `n` asks whether ssh is allowed, and it is. -/
def AllowsSsh (n : ℕ) : Prop :=
  (env.request .allowSsh n).any (·.results.any (asciiLowerCase · = "true")) = true

/-- The certificate of the request is stored, and rooty answers when it is asked to install it. -/
def TakesCert (s : State) (cert : SslCertificateRequest) : Prop :=
  (written env s cert.name cert).isSome = true ∧
    (env.request (.installSslCert cert.name cert.data) (s.calls + 1)).isSome = true

/-- **What it takes to unlock.** -/
structure Unlocks (s : State) (apiKey : String) (unlockRequest : UnlockRequest) : Prop where
  admin : IsAdminSession env.sessions apiKey
  cert : ∃ cert ∈ unlockRequest.cert, TakesCert env s cert
  settings : ∃ settings ∈ unlockRequest.settings,
    (∀ i, ∀ setting ∈ settings[i]?, Sets env (s.calls + 2 + i) setting) ∧
      AllowsSsh env (s.calls + 2 + settings.length)

variable {env} {s : State}

/-- All settings are set when none is refused. -/
theorem settingsSet_eq_length (n : ℕ) (settings : List (String × String)) :
    settingsSet env n settings = settings.length ↔
      ∀ i, ∀ setting ∈ settings[i]?, Sets env (n + i) setting := by
  induction settings generalizing n with
  | nil => exact iff_of_true rfl fun i _ h => nomatch h
  | cons setting settings ih =>
    rw [settingsSet, List.length_cons]
    by_cases hsets : Sets env n setting
    · rw [if_pos hsets, Nat.add_right_cancel_iff, ih (n + 1)]
      constructor
      · intro h i
        cases i with
        | zero =>
          rintro first hfirst
          obtain rfl := Option.some.inj hfirst
          exact hsets
        | succ i =>
          rw [Nat.add_comm i 1, ← Nat.add_assoc, Nat.add_comm 1 i]
          exact h i
      · intro h i
        rw [Nat.add_assoc, Nat.add_comm 1 i]
        exact h (i + 1)
    · rw [if_neg hsets]
      exact iff_of_false (Nat.succ_ne_zero _).symm fun h => hsets (h 0 setting rfl)

@[simp] theorem ends_request (message : RootyRequest)
    (Q : Except Failure RootyAnswer → State → Prop) :
    Ends (request env message) s Q ↔ match env.request message s.calls with
      | none => Q (.error (.failed .rooty)) { s with calls := s.calls + 1 }
      | some answer => Q (.ok answer)
          { s with calls := s.calls + 1, installed := s.installed ++ reported message answer } := by
  simp only [Ends, exec, request]
  cases env.request message s.calls <;> exact Iff.rfl

/-- **How the loop ends**: behind the last setting, or with a refusal at the first that is not
set. -/
theorem updateSettings_ends (settings : List (String × String)) :
    Ends (updateSettings env settings) s fun r t =>
      (settingsSet env s.calls settings = settings.length ∧ r = .ok none ∧
        t.calls = s.calls + settings.length) ∨
      (settingsSet env s.calls settings ≠ settings.length ∧
        (∃ answer, r = .ok (some answer) ∧ isOk (ε := Failure) (.ok answer) = false) ∧
        t.calls = s.calls + settingsSet env s.calls settings + 1) := by
  induction settings generalizing s with
  | nil => exact Or.inl ⟨rfl, rfl, rfl⟩
  | cons setting settings ih =>
    have hrefused : ¬ Sets env s.calls setting → settingsSet env s.calls (setting :: settings) = 0 :=
      fun h => if_neg h
    simp only [updateSettings, ends_bind, ends_attempt, ends_request]
    cases hanswer : env.request (.vendorSettingUpdate "cloudos" setting.1 setting.2) s.calls with
    | none =>
      have hsets : ¬ Sets env s.calls setting := by simp [Sets, hanswer]
      rw [hrefused hsets]
      exact Or.inr ⟨(Nat.succ_ne_zero _).symm, ⟨_, rfl, rfl⟩, rfl⟩
    | some answer =>
      dsimp only
      cases hresult : answer.booleanResult with
      | false =>
        have hsets : ¬ Sets env s.calls setting := by simp [Sets, hanswer, hresult]
        rw [hrefused hsets, Bool.not_false, if_pos rfl]
        exact Or.inr ⟨(Nat.succ_ne_zero _).symm, ⟨_, rfl, rfl⟩, rfl⟩
      | true =>
        have hsets : Sets env s.calls setting := by simp [Sets, hanswer, hresult]
        have hset : settingsSet env s.calls (setting :: settings) =
            settingsSet env (s.calls + 1) settings + 1 := if_pos hsets
        rw [hset, List.length_cons, Bool.not_true, if_neg Bool.false_ne_true]
        refine ih.mono fun r t ht => ?_
        rcases ht with ⟨hall, hr, hcalls⟩ | ⟨hnot, hr, hcalls⟩
        · exact Or.inl ⟨congrArg Nat.succ hall, hr, hcalls.trans (by dsimp only; omega)⟩
        · exact Or.inr ⟨fun h => hnot (Nat.succ.inj h), hr, hcalls.trans (by dsimp only; omega)⟩

/-- **How the rest of `unlockCloudstead` ends.** -/
theorem finishUnlock_ends (settings : List (String × String)) :
    Ends (finishUnlock env settings) s fun r t =>
      (isOk r = true ↔ settingsSet env s.calls settings = settings.length ∧
        AllowsSsh env (s.calls + settings.length)) ∧
      t.calls = s.calls + settingsSet env s.calls settings + 1 := by
  rw [finishUnlock, ends_bind]
  refine (updateSettings_ends settings).mono fun r t ht => ?_
  rcases ht with ⟨hall, rfl, hcalls⟩ | ⟨hnot, ⟨answer, rfl, hrefused⟩, hcalls⟩
  · rw [hall, ← hcalls]
    simp only [getAllowSsh, ends_bind, ends_request, AllowsSsh]
    cases hanswer : env.request .allowSsh t.calls with
    | none => exact ⟨iff_of_false Bool.false_ne_true fun h => Bool.noConfusion h.2, trivial⟩
    | some answer =>
      simp only [Option.any_some, true_and]
      cases answer.results.any (asciiLowerCase · = "true") with
      | false => exact ⟨Iff.rfl, rfl⟩
      | true => exact ⟨Iff.rfl, rfl⟩
  · refine ⟨iff_of_false (fun hok => ?_) fun h => hnot h.1, hcalls⟩
    exact Bool.false_ne_true (hrefused.symm.trans hok)

/-- **How `addOrOverwrite` answers**: OK with the row that it wrote, when rooty answers; it has made
two calls then. -/
theorem addOrOverwrite_answers (name : String) (certRequest : SslCertificateRequest) :
    Ends (addOrOverwrite env name certRequest) s fun r t =>
      (written env s name certRequest = none ∧ isOk r = false) ∨
      (∃ row, written env s name certRequest = some row ∧ t.calls = s.calls + 2 ∧
        if (env.request (.installSslCert name certRequest.data) (s.calls + 1)).isSome = true then
          r = .ok (.ok (some row))
        else ∃ e, r = .error e) := by
  simp only [addOrOverwrite, ends_bind, ends_get, written]
  generalize hfound : s.certificates.findByName name = found
  cases hcert : buildCert env (found.elim (env.uuid s.calls) SslCertificate.uuid) name
    certRequest with
  | none =>
    simp only [ends_pure, ite_self]
    exact Or.inl ⟨trivial, rfl⟩
  | some cert =>
    obtain ⟨huuid, hname, -, -⟩ := buildCert_eq_some hcert
    simp only [store, ends_bind, SslCertificatesResource.call, ends_callOut]
    cases hfails : env.fails .database s.calls with
    | true =>
      rw [if_pos (Or.inl rfl)]
      exact Or.inl ⟨rfl, rfl⟩
    | false =>
      simp only [Bool.false_eq_true, if_false, false_or, ends_get]
      rcases write_cases hfound huuid hname with ⟨htaken, hwrite⟩ | ⟨hfree, table', hwrite, -⟩
      · rw [if_pos htaken, hwrite]
        exact Or.inl ⟨rfl, rfl⟩
      · rw [if_neg hfree, hwrite]
        simp only [ends_bind, ends_modify, ends_pure, ends_request]
        cases env.request (.installSslCert name certRequest.data) (s.calls + 1) with
        | none => exact Or.inr ⟨cert, rfl, trivial, _, rfl⟩
        | some answer => exact Or.inr ⟨cert, rfl, trivial, rfl⟩

/-- **When a cloudstead is unlocked.**  The answer is OK exactly when an admin asks, the certificate
is stored and rooty answers when it is to be installed, every setting is set in its turn, and ssh is
allowed after them.  Once rooty has answered about the certificate, the settings are asked for one by
one up to the first that is refused: three calls and one more for each setting that is set. -/
theorem unlockCloudstead_ends (apiKey : String) (unlockRequest : UnlockRequest) :
    Ends (unlockCloudstead env apiKey unlockRequest) s fun r t =>
      (isOk r = true ↔ Unlocks env s apiKey unlockRequest) ∧
      ∀ cert ∈ unlockRequest.cert, ∀ settings ∈ unlockRequest.settings,
        IsAdminSession env.sessions apiKey → TakesCert env s cert →
          t.calls = s.calls + 3 + settingsSet env (s.calls + 2) settings := by
  refine ends_asAdmin (fun hadmin a ha => ⟨iff_of_false (fun hok => ?_) fun h => hadmin h.admin,
    fun _ _ _ _ h => absurd h hadmin⟩) fun _ _ hadmin => ?_
  · exact Bool.false_ne_true (ha.symm.trans hok)
  cases hcert : unlockRequest.cert with
  | none =>
    refine ⟨iff_of_false Bool.false_ne_true fun h => ?_, fun _ h => nomatch h⟩
    obtain ⟨_, h, -⟩ := h.cert
    exact nomatch hcert.symm.trans h
  | some cert =>
    have hcertOf : ∀ {c}, c ∈ some cert → c = cert := fun h => (Option.some.inj h).symm
    -- an answer that is not OK, when the certificate is not taken
    have hrefused : ∀ (r : Except Failure (Answer (Option SslCertificate))) (t : State),
        isOk r = false → ¬ TakesCert env s cert →
          (isOk r = true ↔ Unlocks env s apiKey unlockRequest) ∧ ∀ c ∈ some cert,
            ∀ settings ∈ unlockRequest.settings, IsAdminSession env.sessions apiKey →
              TakesCert env s c → t.calls = s.calls + 3 + settingsSet env (s.calls + 2) settings := by
      intro r t hr hnot
      refine ⟨iff_of_false (fun hok => ?_) fun h => ?_, fun c hc _ _ _ htakes => ?_⟩
      · exact Bool.false_ne_true (hr.symm.trans hok)
      · obtain ⟨c, hc, htakes⟩ := h.cert
        rw [hcert] at hc
        exact hnot (hcertOf hc ▸ htakes)
      · exact absurd (hcertOf hc ▸ htakes) hnot
    dsimp only
    rw [ends_bind]
    refine (addOrOverwrite_answers cert.name cert).mono fun r t ht => ?_
    rcases ht with ⟨hnone, hr⟩ | ⟨row, hrow, hcalls, hanswer⟩
    · have hnot : ¬ TakesCert env s cert := fun h => by simp [TakesCert, hnone] at h
      cases r with
      | error e => exact hrefused _ t rfl hnot
      | ok answer =>
        cases answer with
        | ok body => exact Bool.noConfusion hr
        | notFound resource => exact hrefused _ t rfl hnot
        | forbidden => exact hrefused _ t rfl hnot
        | invalid code => exact hrefused _ t rfl hnot
        | apiFailure status => exact hrefused _ t rfl hnot
        | serverError => exact hrefused _ t rfl hnot
    · split_ifs at hanswer with hinstall
      · subst hanswer
        have htakes : TakesCert env s cert := ⟨by rw [hrow]; rfl, hinstall⟩
        dsimp only
        cases hsettings : unlockRequest.settings with
        | none =>
          refine ⟨iff_of_false Bool.false_ne_true fun h => ?_, fun _ _ _ h => nomatch h⟩
          obtain ⟨_, h, -⟩ := h.settings
          exact nomatch hsettings.symm.trans h
        | some settings =>
          refine (finishUnlock_ends settings).mono fun r u hu => ?_
          rw [hcalls] at hu
          refine ⟨hu.1.trans ?_, ?_⟩
          · rw [settingsSet_eq_length]
            constructor
            · rintro ⟨hsets, hssh⟩
              exact ⟨hadmin, ⟨cert, hcert, htakes⟩, settings, hsettings, hsets, hssh⟩
            · rintro ⟨-, -, settings', hsettings', hall⟩
              obtain rfl := Option.some.inj (hsettings.symm.trans hsettings')
              exact hall
          · rintro c - settings' hsettings' - -
            obtain rfl := Option.some.inj hsettings'
            exact hu.2.trans (by omega)
      · obtain ⟨e, rfl⟩ := hanswer
        exact hrefused _ t rfl fun h => hinstall h.2

end Unlock

end CloudOs

/-
# Tokens that are issued, revoked and expire

A token of an account is issued by `initToken` and revoked by a `clear`.  What is meant:
an email-verification code is valid while it is set and not older than the
expiration, and the age of the reset token is the time since it was issued, or
`Long.MAX_VALUE` when none is set.

| what the code does | what follows |
| --- | --- |
| a `clear` leaves the time of issue | a revoked token still has an age |
| the validity test is `ctime + expiration < now` | a code is valid once it has expired |

`Standing` is what has happened to a token, and `Records` says how the two
attributes of the token show it.  `tokensHonest_iff` gives the histories on which the
two getters answer as meant.
-/

import CloudOs.Lib.Runs
import CloudOs.Model.Getters

namespace CloudOs

namespace Accounts

/-- A call that issues or revokes a token. -/
inductive TokenCall
  | initEmailVerificationCode (token : String)
  | clearEmailVerificationCode
  | initResetToken (token : String)
  | clearResetPasswordToken

namespace TokenCall

/-- The account after a call at a time. -/
def step (a : Account) : ℕ × TokenCall → Account
  | (now, initEmailVerificationCode token) => a.initEmailVerificationCode token now
  | (_, clearEmailVerificationCode) => a.clearEmailVerificationCode
  | (now, initResetToken token) => a.initResetToken token now
  | (_, clearResetPasswordToken) => a.clearResetPasswordToken

/-- The token that the call is about. -/
def field : TokenCall → Token
  | initEmailVerificationCode _ | clearEmailVerificationCode => .emailVerificationCode
  | initResetToken _ | clearResetPasswordToken => .resetPasswordToken

def issues : TokenCall → Bool
  | initEmailVerificationCode _ | initResetToken _ => true
  | clearEmailVerificationCode | clearResetPasswordToken => false

end TokenCall

/-- What has happened to a token, with the time of its last issue. -/
inductive Standing
  | never
  | current (issued : ℕ)
  | revoked (issued : ℕ)
  deriving DecidableEq, Repr

namespace Standing

/-- A revocation. -/
def revoke : Standing → Standing
  | never => never
  | current issued | revoked issued => revoked issued

/-- The standing of the token `field` after a call at a time. -/
def next (field : Token) (s : Standing) (c : ℕ × TokenCall) : Standing :=
  if c.2.field ≠ field then s else if c.2.issues then current c.1 else s.revoke

/-- The time since the token that is set was issued; `Long.MAX_VALUE` when none is. -/
def age (now : ℕ) : Standing → ℤ
  | current issued => now - issued
  | never | revoked _ => maxLong

/-- The time of the last issue is at most `now`. -/
def IssuedBy (now : ℕ) : Standing → Prop
  | never => True
  | current issued | revoked issued => issued ≤ now

end Standing

/-- Calls at times of the clock, and a time `now` that is not before any of them. -/
structure History where
  calls : List (ℕ × TokenCall)
  now : ℕ
  past : ∀ c ∈ calls, c.1 ≤ now
  isLong : now < 2 ^ 63

namespace History

/-- The account after the calls. -/
def after (h : History) (a : Account) : Account := Runs.run TokenCall.step a h.calls

def standing (h : History) (field : Token) : Standing :=
  Runs.run (Standing.next field) .never h.calls

end History

/-- The account has never had a token. -/
def Untokened (a : Account) : Prop :=
  ∀ field : Token, a.getSingle field.attr = none ∧ a.getSingle field.ctime = none

/-- **Tokens expire and are revoked properly.**  At the end of the history, the code is
valid for `expiration` exactly when it is set and was issued at most that long ago, and
the reset token has its own age, or none. -/
structure TokensHonest (a : Account) (h : History) (expiration : ℕ) : Prop where
  code : ∃ valid, (h.after a).isEmailVerificationCodeValid expiration h.now = .ok valid ∧
    (valid = true ↔
      ∃ c, h.standing .emailVerificationCode = .current c ∧ h.now - c ≤ expiration)
  age : (h.after a).getResetTokenAge h.now = .ok ((h.standing .resetPasswordToken).age h.now)

/-- When the validity test is right: nothing was ever issued; or the code is set and the
end of its time is no `long`; or it is revoked and its time is not over. -/
def CodeKept (now expiration : ℕ) : Standing → Prop
  | .never => True
  | .current c => 2 ^ 63 ≤ c + expiration
  | .revoked c => now ≤ c + expiration ∧ c + expiration < 2 ^ 63

/-- When the age is right: the token is set or was never issued, or `Long.MAX_VALUE`
milliseconds have passed. -/
def AgeKept (now : ℕ) : Standing → Prop
  | .never | .current _ => True
  | .revoked c => now = c + (2 ^ 63 - 1)

/-! ### What the attributes show -/

/-- The attributes of the token show its standing. -/
def Records (field : Token) (a : Account) : Standing → Prop
  | .never => a.getSingle field.attr = none ∧ a.getSingle field.ctime = none
  | .current c => (a.getSingle field.attr).isSome = true ∧
      a.getSingle field.ctime = some (toString c)
  | .revoked c => a.getSingle field.attr = none ∧ a.getSingle field.ctime = some (toString c)

theorem records_congr {field : Token} {a b : Account} {s : Standing}
    (hattr : b.getSingle field.attr = a.getSingle field.attr)
    (hctime : b.getSingle field.ctime = a.getSingle field.ctime) (h : Records field a s) :
    Records field b s := by
  cases s <;> simpa only [Records, hattr, hctime] using h

theorem records_initToken (field : Token) (a : Account) (token : String) (now : ℕ) :
    Records field (a.initToken field token now) (.current now) := by
  cases field <;> simp [Records, Account.initToken, Token.attr, Token.ctime]

/-- A revocation removes the token and leaves the time. -/
theorem records_revoke {field : Token} {a : Account} {s : Standing} (h : Records field a s) :
    Records field (a.remove field.attr) s.revoke := by
  cases field <;> cases s <;> simp_all [Records, Standing.revoke, Token.attr, Token.ctime]

/-- What a call does not concern stays. -/
theorem records_initToken_ne {field other : Token} (hne : other ≠ field) {a : Account} {s : Standing}
    (token : String) (now : ℕ) (h : Records field a s) :
    Records field (a.initToken other token now) s := by
  refine records_congr ?_ ?_ h
  · cases field <;> cases other <;> simp_all [Account.initToken, Token.attr, Token.ctime]
  · cases field <;> cases other <;> simp_all [Account.initToken, Token.attr, Token.ctime]

theorem records_remove_ne {field other : Token} (hne : other ≠ field) {a : Account} {s : Standing}
    (h : Records field a s) : Records field (a.remove other.attr) s := by
  refine records_congr ?_ ?_ h
  · cases field <;> cases other <;> simp_all [Token.attr]
  · cases field <;> cases other <;> simp_all [Token.attr, Token.ctime]

theorem TokenCall.step_of_issues {c : ℕ × TokenCall} (hc : c.2.issues = true) (a : Account) :
    ∃ token, TokenCall.step a c = a.initToken c.2.field token c.1 := by
  obtain ⟨now, call⟩ := c
  cases call with
  | initEmailVerificationCode token => exact ⟨token, rfl⟩
  | initResetToken token => exact ⟨token, rfl⟩
  | clearEmailVerificationCode => exact Bool.noConfusion hc
  | clearResetPasswordToken => exact Bool.noConfusion hc

theorem TokenCall.step_of_revokes {c : ℕ × TokenCall} (hc : c.2.issues = false) (a : Account) :
    TokenCall.step a c = a.remove c.2.field.attr := by
  obtain ⟨now, call⟩ := c
  cases call with
  | initEmailVerificationCode token => exact Bool.noConfusion hc
  | initResetToken token => exact Bool.noConfusion hc
  | clearEmailVerificationCode => rfl
  | clearResetPasswordToken => rfl

/-- One call keeps the record of both tokens. -/
theorem records_step (field : Token) (a : Account) (s : Standing) (c : ℕ × TokenCall)
    (h : Records field a s) : Records field (TokenCall.step a c) (s.next field c) := by
  unfold Standing.next
  cases hissues : c.2.issues with
  | true =>
    obtain ⟨token, hstep⟩ := TokenCall.step_of_issues hissues a
    rw [hstep, if_pos rfl]
    split_ifs with hfield
    · exact records_initToken_ne hfield token c.1 h
    · rw [ne_eq, not_not] at hfield
      exact hfield ▸ records_initToken c.2.field a token c.1
  | false =>
    rw [TokenCall.step_of_revokes hissues, if_neg Bool.false_ne_true]
    split_ifs with hfield
    · exact records_remove_ne hfield h
    · rw [ne_eq, not_not] at hfield
      rw [hfield]
      exact records_revoke h

/-- The attributes show the standing after every history. -/
theorem History.records {a : Account} (ha : Untokened a) (h : History) (field : Token) :
    Records field (h.after a) (h.standing field) :=
  Runs.run_simulation (R := Records field) (records_step field) h.calls (ha field)

theorem Standing.issuedBy_next {now : ℕ} {field : Token} {s : Standing} {c : ℕ × TokenCall}
    (hs : s.IssuedBy now) (hc : c.1 ≤ now) : (s.next field c).IssuedBy now := by
  unfold Standing.next
  split_ifs
  · exact hs
  · exact hc
  · cases s <;> exact hs

theorem History.issuedBy (h : History) (field : Token) : (h.standing field).IssuedBy h.now :=
  Runs.run_invariant (I := Standing.IssuedBy h.now) (fun _ _ => Standing.issuedBy_next) trivial
    (Runs.meets_of_mem Standing.never h.past)

/-! ### When the getters answer as meant -/

/-- A sum of two times that is no `long` turns negative. -/
theorem wrap_add {m n : ℕ} (hm : m < 2 ^ 63) (hn : n < 2 ^ 63) :
    wrap (m + n) = if m + n < 2 ^ 63 then (m + n : ℤ) else m + n - 2 ^ 64 := by
  have hmod : ((m : ℤ) + n) % (2 ^ 64 : ℕ) = m + n := Int.emod_eq_of_lt (by omega) (by omega)
  rw [wrap, Int.bmod_def, hmod]
  split_ifs <;> omega

theorem wrap_sub {m n : ℕ} (hm : m < 2 ^ 63) (hn : n ≤ m) : wrap (m - n) = m - n := by
  have hmod : ((m : ℤ) - n) % (2 ^ 64 : ℕ) = m - n := Int.emod_eq_of_lt (by omega) (by omega)
  rw [wrap, Int.bmod_def, hmod, if_pos (by omega)]

/-- The validity test reads the time of issue, and nothing else. -/
theorem isEmailVerificationCodeValid_of_ctime {a : Account} {c : ℕ} (hc : c < 2 ^ 63)
    (h : a.getSingle .emailVerificationCodeCtime = some (toString c)) (expiration now : ℤ) :
    a.isEmailVerificationCodeValid expiration now = .ok (wrap (c + expiration) < now) := by
  rw [Account.isEmailVerificationCodeValid, Account.getEmailVerificationCodeCtime, h,
    safeLong_toString hc]
  rfl

theorem getResetTokenAge_of_ctime {a : Account} {c : ℕ} (hc : c < 2 ^ 63)
    (h : a.getSingle .resetPasswordTokenCtime = some (toString c)) (now : ℤ) :
    a.getResetTokenAge now = .ok (wrap (now - c)) := by
  rw [Account.getResetTokenAge, h, safeLong_toString hc]
  rfl

theorem code_iff {a : Account} {s : Standing} {now expiration : ℕ} (hnow : now < 2 ^ 63)
    (hs : s.IssuedBy now) (he : expiration < 2 ^ 63) (h : Records .emailVerificationCode a s) :
    (∃ valid, a.isEmailVerificationCodeValid expiration now = .ok valid ∧
        (valid = true ↔ ∃ c, s = .current c ∧ now - c ≤ expiration))
      ↔ CodeKept now expiration s := by
  cases s with
  | never =>
    have hnone : a.isEmailVerificationCodeValid expiration now = .ok false := by
      rw [Account.isEmailVerificationCodeValid, Account.getEmailVerificationCodeCtime]
      rw [show a.getSingle .emailVerificationCodeCtime = none from h.2]
      rfl
    exact ⟨fun _ => trivial, fun _ => ⟨false, hnone, by simp⟩⟩
  | current c =>
    have hc : c ≤ now := hs
    rw [isEmailVerificationCodeValid_of_ctime (by omega) h.2]
    simp only [Except.ok.injEq, exists_eq_left', decide_eq_true_eq, Standing.current.injEq, CodeKept,
      wrap_add (show c < 2 ^ 63 by omega) he]
    split_ifs <;> omega
  | revoked c =>
    have hc : c ≤ now := hs
    rw [isEmailVerificationCodeValid_of_ctime (by omega) h.2]
    simp only [Except.ok.injEq, exists_eq_left', decide_eq_true_eq, reduceCtorEq, false_and,
      exists_false, iff_false, CodeKept, wrap_add (show c < 2 ^ 63 by omega) he]
    split_ifs <;> omega

theorem age_iff {a : Account} {s : Standing} {now : ℕ} (hnow : now < 2 ^ 63) (hs : s.IssuedBy now)
    (h : Records .resetPasswordToken a s) :
    a.getResetTokenAge now = .ok (s.age now) ↔ AgeKept now s := by
  cases s with
  | never =>
    refine ⟨fun _ => trivial, fun _ => ?_⟩
    rw [Account.getResetTokenAge, show a.getSingle .resetPasswordTokenCtime = none from h.2]
    rfl
  | current c =>
    have hc : c ≤ now := hs
    rw [getResetTokenAge_of_ctime (by omega) h.2, wrap_sub hnow hc]
    exact ⟨fun _ => trivial, fun _ => rfl⟩
  | revoked c =>
    have hc : c ≤ now := hs
    rw [getResetTokenAge_of_ctime (by omega) h.2, wrap_sub hnow hc]
    simp only [Except.ok.injEq, AgeKept, Standing.age, maxLong]
    omega

/-- **When tokens expire and are revoked properly.** -/
theorem tokensHonest_iff (a : Account) (ha : Untokened a) (h : History) (expiration : ℕ)
    (he : expiration < 2 ^ 63) : TokensHonest a h expiration ↔
      CodeKept h.now expiration (h.standing .emailVerificationCode) ∧
        AgeKept h.now (h.standing .resetPasswordToken) := by
  rw [← code_iff h.isLong (h.issuedBy _) he (h.records ha _),
    ← age_iff h.isLong (h.issuedBy _) (h.records ha _)]
  exact ⟨fun hhonest => ⟨hhonest.code, hhonest.age⟩, fun hboth => ⟨hboth.1, hboth.2⟩⟩

/-- A code that was revoked within its minute, and a reset token half a second old. -/
def tokenIssued : History where
  calls := [(1000, .initEmailVerificationCode "c"), (2000, .clearEmailVerificationCode),
    (2500, .initResetToken "t")]
  now := 3000
  past := by simp
  isLong := by decide

theorem tokensHonest_iff_issued : TokensHonest (Account.new "alice") tokenIssued 60000 :=
  (tokensHonest_iff _ (fun field => ⟨rfl, rfl⟩) tokenIssued 60000 (by decide)).2
    ⟨⟨by decide, by decide⟩, trivial⟩

/-- **A fresh code is not valid.**  It was issued a second ago and has a minute. -/
theorem fresh_code_not_valid : ¬ TokensHonest (Account.new "alice")
    ⟨[(1000, .initEmailVerificationCode "t")], 2000, by simp, by decide⟩ 60000 := by
  intro h
  obtain ⟨valid, hvalid, hiff⟩ := h.code
  have hfalse : (Runs.run TokenCall.step (Account.new "alice")
      [(1000, .initEmailVerificationCode "t")]).isEmailVerificationCodeValid 60000 2000
        = .ok false := by
    exact isEmailVerificationCodeValid_of_ctime (c := 1000) (by decide) rfl _ _
  have : valid = false := Except.ok.inj (hvalid.symm.trans hfalse)
  exact absurd (hiff.2 ⟨1000, rfl, by decide⟩) (by simp [this])

end Accounts

end CloudOs

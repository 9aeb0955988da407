/-
# What a search shows to others

Whoever searches without being an admin gets the results through
`DefaultSearchScrubber`, which removes attributes from the accounts among them.  No
sensitive attribute is meant to be seen: two lists of accounts that differ in
nothing else look the same.

| sensitive | after `scrubAccount` |
| --- | --- |
| uuid, two-factor id and flag, last login, email, admin flag | removed |
| password | the attribute is removed, the transient field stays |
| reset-password token, email-verification code | stay |

`getPassword` prefers the transient field, so that a password that was read into it
(`attrFromLdif`) is shown.
-/

import CloudOs.Model.Getters
import CloudOs.Model.LdapContext
import Mathlib.Data.List.Forall2

namespace CloudOs

/-- A result of a search. -/
inductive SearchResult
  | account (a : Account)
  | group (g : AccountGroup)

namespace DefaultSearchScrubber

def scrubAccount (a : Account) : Account :=
  ((((((a.remove .uuid).remove .twoFactorAuthId).remove .lastLogin).remove .password).remove
    .email).remove .twoFactor).remove .admin

/-- One result; a group stays as it is. -/
def scrubResult : SearchResult → SearchResult
  | .account a => .account (scrubAccount a)
  | .group g => .group g

/-- `scrub`; `none` is `null`. -/
def scrub (results : Option (List SearchResult)) : Option (List SearchResult) :=
  results.map (List.map scrubResult)

end DefaultSearchScrubber

namespace Account

/-- `attrFromLdif` of the line `name:value`; `inherited` is `LdapEntity.attrFromLdif`, which
takes every other attribute and a password in base 64. -/
def attrFromLdif (ctx : LdapContext) (inherited : String → String → Account → Account)
    (name value : String) (a : Account) : Account :=
  if ctx.equalsIgnoreCase name (ctx.ldapName .password) && !startsWith value ": " then
    a.setPassword (some value)
  else inherited name value a

end Account

namespace Search

open DefaultSearchScrubber

/-- The attributes that a search is not meant to show. -/
def sensitive : AccountAttr → Bool
  | .password | .uuid | .twoFactorAuthId | .twoFactor | .email | .lastLogin | .admin
  | .resetPasswordToken | .emailVerificationCode => true
  | _ => false

/-- The accounts differ in nothing but what is sensitive. -/
structure AgreesOutside (a b : Account) : Prop where
  name : a.name = b.name
  get : ∀ attr, sensitive attr = false → a.get attr = b.get attr

/-- What a caller sees of a result; `format` is `Bytes.format`. -/
def view (format : ℤ → String) : SearchResult → Getters ⊕ AccountGroup
  | .account a => .inl (a.getters format)
  | .group g => .inr g

/-- What a caller sees of a scrubbed search that found the accounts `l`. -/
def scrubbedViews (format : ℤ → String) (l : List Account) :
    Option (List (Getters ⊕ AccountGroup)) :=
  (scrub (some (l.map .account))).map (List.map (view format))

/-- The password in the transient field. -/
def transientText (a : Account) : Option String :=
  if empty a.transientPassword then none else a.transientPassword

/-- The secrets that the scrubber leaves. -/
structure SameLeftovers (a b : Account) : Prop where
  resetToken : a.getResetToken = b.getResetToken
  emailVerificationCode : a.getEmailVerificationCode = b.getEmailVerificationCode
  transient : transientText a = transientText b

/-- The attributes that the scrubber removes. -/
def scrubs : AccountAttr → Bool
  | .uuid | .twoFactorAuthId | .lastLogin | .password | .email | .twoFactor | .admin => true
  | _ => false

theorem getSingle_scrubAccount (a : Account) (attr : AccountAttr) :
    (scrubAccount a).getSingle attr = if scrubs attr then none else a.getSingle attr := by
  cases attr <;> simp [scrubAccount, scrubs]

theorem getPassword_scrubAccount (a : Account) :
    (scrubAccount a).getPassword = transientText a := by
  have htransient : (scrubAccount a).transientPassword = a.transientPassword := rfl
  rw [Account.getPassword, getSingle_scrubAccount, htransient]
  rfl

/-- **A password that was read from the directory is shown.** -/
theorem getPassword_attrFromLdif (ctx : LdapContext)
    (inherited : String → String → Account → Account) (a : Account) {name value : String}
    (hname : ctx.equalsIgnoreCase name (ctx.ldapName .password) = true)
    (hplain : startsWith value ": " = false) (hvalue : value ≠ "") :
    (scrubAccount (a.attrFromLdif ctx inherited name value)).getPassword = some value := by
  have hfull : empty (some value) = false := beq_eq_false_iff_ne.2 hvalue
  rw [getPassword_scrubAccount, Account.attrFromLdif, hname, hplain, Bool.not_false, Bool.and_self,
    if_pos rfl, Account.setPassword, hfull]
  simp only [Bool.false_eq_true, if_false, transientText]
  rw [if_neg]
  · rfl
  · exact Bool.eq_false_iff.1 hfull

/-- The getters read the name, the first value of each attribute and the password. -/
theorem getters_congr {a b : Account} (format : ℤ → String) (hname : a.name = b.name)
    (hsingle : ∀ attr, a.getSingle attr = b.getSingle attr) (hpassword : a.getPassword = b.getPassword) :
    a.getters format = b.getters format := by
  simp only [Account.getters, Account.getUuid, Account.getEmail, Account.isEmailVerified,
    Account.getEmailVerificationCode, Account.getEmailVerificationCodeCtime,
    Account.getResetToken, Account.getFirstName, Account.getLastName, Account.getFullName,
    Account.getLastNameFirstName, Account.getMobilePhone, Account.getMobilePhoneCountryCode,
    Account.getMobilePhoneCountryCodeString, Account.isAdmin, Account.isSuspended,
    Account.isTwoFactor, Account.getAuthId, Account.hasAuthId, Account.getAuthIdInt,
    Account.getLastLogin, Account.getLocale, Account.hasLocale, Account.getStorageQuota,
    Account.getStorageQuotaString, Account.hasPassword, hname, hsingle, hpassword,
    funext₂ fun e n => show a.isEmailVerificationCodeValid e n = b.isEmailVerificationCodeValid e n by
      simp only [Account.isEmailVerificationCodeValid, Account.getEmailVerificationCodeCtime, hsingle],
    funext fun n => show a.getResetTokenAge n = b.getResetTokenAge n by
      simp only [Account.getResetTokenAge, hsingle]]

/-- What is seen of two scrubbed accounts is the same if and only if the secrets that the
scrubber leaves are. -/
theorem getters_scrubAccount_iff {a b : Account} (h : AgreesOutside a b) (format : ℤ → String) :
    (scrubAccount a).getters format = (scrubAccount b).getters format ↔ SameLeftovers a b := by
  constructor
  · intro heq
    have htoken := congrArg Getters.resetToken heq
    have hcode := congrArg Getters.emailVerificationCode heq
    have hpassword := congrArg Getters.password heq
    simp only [Account.getters, Account.getResetToken, Account.getEmailVerificationCode,
      getSingle_scrubAccount, getPassword_scrubAccount] at htoken hcode hpassword
    exact ⟨htoken, hcode, hpassword⟩
  · intro hleft
    refine getters_congr format h.name (fun attr => ?_) ?_
    · rw [getSingle_scrubAccount, getSingle_scrubAccount]
      split_ifs with hscrubs
      · rfl
      -- what is not removed is either not sensitive or one of the two tokens
      cases hsensitive : sensitive attr with
      | false => exact congrArg List.head? (h.get attr hsensitive)
      | true =>
        cases attr <;>
          first
          | exact hleft.resetToken
          | exact hleft.emailVerificationCode
          | exact absurd rfl hscrubs
          | exact Bool.noConfusion hsensitive
    · rw [getPassword_scrubAccount, getPassword_scrubAccount, hleft.transient]

theorem scrubbedViews_eq (format : ℤ → String) (l : List Account) :
    scrubbedViews format l = some (l.map fun a => .inl ((scrubAccount a).getters format)) := by
  simp only [scrubbedViews, scrub, Option.map_some, List.map_map]
  rfl

/-- **When a search shows no secrets.**  Two lists of accounts that agree, entry by entry,
outside the sensitive attributes look the same if and only if, entry by entry, their reset
tokens, their verification codes and the passwords in their transient fields are the
same. -/
theorem scrubbed_indistinguishable_iff (format : ℤ → String) (l l' : List Account)
    (h : List.Forall₂ AgreesOutside l l') :
    scrubbedViews format l = scrubbedViews format l' ↔ List.Forall₂ SameLeftovers l l' := by
  rw [scrubbedViews_eq, scrubbedViews_eq, Option.some.injEq]
  induction h with
  | nil => simp
  | cons hab _ ih =>
    rw [List.map_cons, List.map_cons, List.cons.injEq, List.forall₂_cons, ih, Sum.inl.injEq,
      getters_scrubAccount_iff hab]

/-- Alice with another uuid, email and admin flag. -/
theorem scrubbed_indistinguishable_iff_alice :
    scrubbedViews toString [((Account.new "alice").set .uuid (some "1")).setAdmin true]
      = scrubbedViews toString [(Account.new "alice").set .email (some "a@b")] := by
  have hagree : AgreesOutside (((Account.new "alice").set .uuid (some "1")).setAdmin true)
      ((Account.new "alice").set .email (some "a@b")) := by
    refine ⟨rfl, fun attr hattr => ?_⟩
    cases attr <;> first | rfl | exact Bool.noConfusion hattr
  exact (scrubbed_indistinguishable_iff toString _ _ (.cons hagree .nil)).2
    (.cons ⟨rfl, rfl, rfl⟩ .nil)

/-- **A reset token is shown.** -/
theorem reset_token_shown : List.Forall₂ AgreesOutside
      [(Account.new "alice").set .resetPasswordToken (some "t")] [Account.new "alice"] ∧
    scrubbedViews toString [(Account.new "alice").set .resetPasswordToken (some "t")]
      ≠ scrubbedViews toString [Account.new "alice"] := by
  refine ⟨.cons ⟨rfl, fun attr hattr => ?_⟩ .nil, fun h => ?_⟩
  · cases attr <;> first | rfl | exact Bool.noConfusion hattr
  · rw [scrubbedViews_eq, scrubbedViews_eq] at h
    simp only [List.map_cons, List.map_nil, Option.some.injEq, List.cons.injEq, Sum.inl.injEq,
      and_true] at h
    have htoken := congrArg Getters.resetToken h
    exact absurd htoken (by decide)

end Search

end CloudOs

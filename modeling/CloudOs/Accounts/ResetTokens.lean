/-
# A reset token works once

`setPassword` clears the reset token of its argument and then calls `update`, which
loads the stored entry and merges the argument into it.  The cleared token is
absent from the argument, so the merge leaves the stored one alone: the token is
meant to be gone, and stays.

No update that carries no token removes it later either.  So the account is found by
the token afterwards exactly when it is found before, which is when the token's
text, read as the value of a filter, matches a token of the account.

`setPassword` of an account as it is stored suspends nobody, so that it always makes
the same calls; it completes exactly when they go through (`makes_setPassword`).
-/

import CloudOs.Dao.Calls
import CloudOs.Dao.Search
import CloudOs.Lib.Runs

namespace CloudOs

open Prog SearchFilter

namespace Accounts

variable {env : Env}

/-- The text `token`, read as the value of a filter. -/
def tokenPattern (token : String) : Option Pattern :=
  match scanValue (token.toList ++ [')']) with
  | some (p, [')']) => some p
  | _ => none

/-- The text `token`, read as the value of a filter, matches `v`. -/
def tokenMatches (token v : String) : Bool :=
  (tokenPattern token).any fun p => glob p (octets v.toList)

/-- The lookup by `token` finds the account under `dn`. -/
def Finds (dir : Directory env.ctx) (token dn : String) : Prop :=
  ∃ found, AccountDAO.findByResetPasswordToken dir token = .ok found ∧
    ∃ a ∈ found, env.ctx.userDN a.name = dn

/-- The reset tokens of the account under `dn`. -/
def tokensAt (dir : Directory env.ctx) (dn : String) : Option (List String) :=
  (dir.accountAt dn).map (·.get .resetPasswordToken)

/-- An update issues no reset token. -/
def IssuesNoToken (account : Account) : Prop := account.get .resetPasswordToken = []

def updateStep (env : Env) (w : World env.ctx) (account : Account) : World env.ctx :=
  after (AccountDAO.update env account) w

/-- **A reset token works once.**  When `setPassword` has completed, and after any updates that
issue no token, the lookup by the token does not find the account. -/
def WorksOnce (env : Env) (w : World env.ctx) (account : Account) (token newPassword : String) :
    Prop :=
  (exec (AccountDAO.setPassword env (some account) newPassword) w).1 = .ok ⟨⟩ →
    ∀ updates : List Account, (∀ a ∈ updates, IssuesNoToken a) →
      ¬ Finds (Runs.run (updateStep env)
        (after (AccountDAO.setPassword env (some account) newPassword) w) updates).directory token
          (env.ctx.userDN account.name)

/-- The calls of `setPassword`: the password and the entry are written, and the apps are told. -/
def setPasswordCalls (env : Env) : List (Option External) :=
  some .ldap :: some .ldap :: AccountDAO.broadcastCalls env (·.hasChangePassword)

/-! ### What the lookup finds -/

theorem selects_token (ctx : LdapContext) (a : Account) (p : Pattern) :
    (Filter.item "resetPasswordToken" p).selects (a.ldapEntry ctx)
      = (a.get .resetPasswordToken).any fun v => glob p (octets v.toList) := by
  rw [Filter.selects, matchesItem, ← ctx.ldapName_fixed .resetPasswordToken _ rfl,
    Account.ldapEntry_ldapName, List.any_map]
  rfl

theorem parse_token (token : String) : parse (rawEquality "resetPasswordToken" token)
    = (tokenPattern token).map (.item "resetPasswordToken") := by
  have hattr : isKeystring "resetPasswordToken".toList = true := by decide
  rw [parse_rawEquality hattr, tokenPattern]
  rcases scanValue (token.toList ++ [')']) with _ | ⟨p, rest⟩
  · rfl
  · match rest with
    | [] => rfl
    | [c] =>
      by_cases hc : c = ')'
      · subst hc; rfl
      · simp [hc]
    | c :: d :: rest =>
      by_cases hc : c = ')'
      · subst hc; rfl
      · simp

/-- The lookup finds the accounts with a token that the text matches. -/
theorem finds_iff (dir : Directory env.ctx) (token dn : String) :
    Finds dir token dn ↔
      ∃ vs, tokensAt dir dn = some vs ∧ vs.any (tokenMatches token) = true := by
  rw [Finds, AccountDAO.findByResetPasswordToken, AccountDAO.findByField,
    AccountDAO.formatBound_eq (Or.inr rfl)]
  simp only [bind, Except.bind, parse_token, tokensAt, Option.map_eq_some_iff]
  cases hpattern : tokenPattern token with
  | none => simp [tokenMatches, hpattern]
  | some p =>
    have hmatches : tokenMatches token = fun v => glob p (octets v.toList) := by
      funext v
      rw [tokenMatches, hpattern, Option.any_some]
    simp only [Option.map_some, pure, Except.pure, Except.ok.injEq, exists_eq_left', List.mem_filter,
      selects_token, hmatches]
    constructor
    · rintro ⟨a, ⟨ha, hmatch⟩, rfl⟩
      exact ⟨_, ⟨a, dir.accounts.mem_values.1 ha, rfl⟩, hmatch⟩
    · rintro ⟨_, ⟨a, ha, rfl⟩, hmatch⟩
      exact ⟨a, ⟨dir.accounts.mem_values_of_lookup ha, hmatch⟩, Directory.userDN_of_accountAt ha⟩

/-! ### No write takes a token away -/

/-- Writing an entry with the tokens it had. -/
theorem tokensAt_putAccount {dir : Directory env.ctx} {n : String} {e a : Account}
    (he : dir.findAccount n = some e) (hname : a.name = e.name)
    (ha : a.get .resetPasswordToken = e.get .resetPasswordToken) (dn : String) :
    tokensAt (dir.putAccount a) dn = tokensAt dir dn := by
  rw [tokensAt, tokensAt, Directory.accountAt_putAccount, hname, Directory.userDN_of_accountAt he]
  split_ifs with hdn
  · subst hdn
    rw [show dir.accountAt (env.ctx.userDN n) = some e from he]
    exact congrArg some ha
  · rfl

theorem get_merge_token (e : Account) {account : Account} (h : IssuesNoToken account) :
    (e.merge account).get .resetPasswordToken = e.get .resetPasswordToken := by
  rw [Account.get_merge, h]
  rfl

/-- An update that issues no token keeps every account's tokens, however it ends. -/
theorem tokensAt_updates {n : ℕ} {dir dir' : Directory env.ctx} {account : Account}
    {r : Except Exn Account} (hissues : IssuesNoToken account)
    (h : AccountDAO.Updates env n dir account r dir') (dn : String) :
    tokensAt dir' dn = tokensAt dir dn := by
  have hpassword : ∀ (a : Account) (p : Option String),
      (a.setPassword p).get .resetPasswordToken = a.get .resetPasswordToken := fun a p =>
    a.get_setPassword (by decide) p
  cases h with
  | unknown _ => rfl
  | refused _ _ _ => rfl
  | cannotSuspend _ _ _ => rfl
  | writes stored _ _ => exact tokensAt_putAccount stored (Account.merge_name _ _) (get_merge_token _ hissues) dn
  | failsToSuspend stored _ _ _ =>
    exact tokensAt_putAccount stored (Account.setPassword_name _ _) (hpassword _ _) dn
  | suspends stored _ _ _ =>
    refine tokensAt_putAccount stored (AccountDAO.suspended_name _ _ _) ?_ dn
    rw [AccountDAO.suspended, hpassword, get_merge_token _ hissues]

theorem tokensAt_updateStep {w : World env.ctx} {account : Account} (hissues : IssuesNoToken account)
    (dn : String) : tokensAt (updateStep env w account).directory dn = tokensAt w.directory dn := by
  refine Ends.after (P := fun t : World env.ctx => tokensAt t.directory dn = tokensAt w.directory dn) ?_
  refine (AccountDAO.update_updates account).mono fun r t hend => ?_
  obtain ⟨dir, hupdates, ht⟩ := hend
  rw [ht.directory]
  exact tokensAt_updates hissues hupdates dn

/-- The request that `setPassword` sends to `update` carries no token. -/
theorem issuesNoToken_cleared (account : Account) : IssuesNoToken (AccountDAO.cleared account) := by
  rw [IssuesNoToken, AccountDAO.cleared, Account.get_setPassword _ (by decide),
    Account.clearResetPasswordToken, Account.get_remove, if_pos rfl]

theorem tokensAt_setPassword (w : World env.ctx) (account : Account) (newPassword dn : String) :
    tokensAt (after (AccountDAO.setPassword env (some account) newPassword) w).directory dn
      = tokensAt w.directory dn := by
  refine Ends.after (P := fun t : World env.ctx => tokensAt t.directory dn = tokensAt w.directory dn) ?_
  refine (AccountDAO.setPassword_sets account newPassword).mono fun r t hend => ?_
  obtain ⟨dir, hsets, ht⟩ := hend
  rw [ht.directory]
  cases hsets with
  | refused => rfl
  | sets stored _ updates =>
    rw [tokensAt_updates (issuesNoToken_cleared account) updates]
    exact tokensAt_putAccount stored (Account.setPassword_name _ _)
      (Account.get_setPassword _ (by decide) _) dn

/-- The tokens after `setPassword` and any updates that issue none. -/
theorem tokensAt_run (w : World env.ctx) (account : Account) (newPassword dn : String)
    {updates : List Account} (hissues : ∀ a ∈ updates, IssuesNoToken a) :
    tokensAt (Runs.run (updateStep env)
      (after (AccountDAO.setPassword env (some account) newPassword) w) updates).directory dn
        = tokensAt w.directory dn :=
  Runs.run_invariant (I := fun t : World env.ctx => tokensAt t.directory dn = tokensAt w.directory dn)
    (fun _ _ ht ha => (tokensAt_updateStep ha dn).trans ht) (tokensAt_setPassword w account _ dn)
    (Runs.meets_of_mem _ hissues)

/-- After `setPassword` and any updates that issue no token the account is found by the tokens
that found it before. -/
theorem finds_run_iff {w : World env.ctx} {account : Account}
    (hstored : w.directory.findAccount account.name = some account) (token newPassword : String)
    {updates : List Account} (hissues : ∀ a ∈ updates, IssuesNoToken a) :
    Finds (Runs.run (updateStep env)
      (after (AccountDAO.setPassword env (some account) newPassword) w) updates).directory token
        (env.ctx.userDN account.name) ↔
      ∃ v ∈ account.get .resetPasswordToken, tokenMatches token v = true := by
  have hat : tokensAt w.directory (env.ctx.userDN account.name)
      = some (account.get .resetPasswordToken) := by
    rw [tokensAt, show w.directory.accountAt (env.ctx.userDN account.name) = some account from hstored]
    rfl
  rw [finds_iff, tokensAt_run w account newPassword _ hissues, hat]
  simp

/-! ### When it completes -/

/-- An update that does not suspend writes the entry, and nothing else. -/
theorem makes_update {w : World env.ctx} {e account : Account}
    (hstored : w.directory.findAccount account.name = some e)
    (hkeeps : ¬ AccountDAO.Suspends e account) :
    Makes (AccountDAO.update env account) w [some .ldap] (e.merge account)
      (w.directory.putAccount (e.merge account)) := by
  have hfound : (w.directory.findAccount (e.merge account).name).isNone = false := by
    rw [Account.merge_name, Directory.findAccount_name hstored]
    rfl
  have hsuspending : ¬ (!e.isSuspended && account.isSuspended) = true := by
    simpa [AccountDAO.Suspends] using hkeeps
  refine Makes.get_bind ?_
  simp only [hstored, if_neg hsuspending]
  exact (Makes.ldapRequest hfound).bind_pure rfl

/-- **The calls of `setPassword`**, of an account as it is stored. -/
theorem makes_setPassword {w : World env.ctx} {account : Account}
    (hstored : w.directory.findAccount account.name = some account) (newPassword : String) :
    Makes (AccountDAO.setPassword env (some account) newPassword) w (setPasswordCalls env) ⟨⟩
      ((w.directory.putAccount (account.setPassword (some newPassword))).putAccount
        ((account.setPassword (some newPassword)).stored.merge (AccountDAO.cleared account))) := by
  have hrefuses : (w.directory.findAccount account.name).isNone = false := by
    rw [hstored]
    rfl
  refine (Makes.ldapRequest hrefuses).bind fun t _ ht => ?_
  rw [hstored, Option.elim_some] at ht
  have hfound : t.directory.findAccount (AccountDAO.cleared account).name =
      some (account.setPassword (some newPassword)).stored := by
    rw [ht, AccountDAO.cleared_name, ← Account.setPassword_name account (some newPassword)]
    exact Directory.findAccount_putAccount _ _
  -- the account carries the flag that is stored
  have hkeeps : ¬ AccountDAO.Suspends (account.setPassword (some newPassword)).stored
      (AccountDAO.cleared account) := by
    rintro ⟨hwas, his⟩
    rw [Account.stored_isSuspended, Account.setPassword_isSuspended] at hwas
    rw [AccountDAO.cleared_isSuspended, hwas] at his
    exact Bool.noConfusion his
  rw [← ht]
  refine (makes_update hfound hkeeps).bind fun u _ hu => ?_
  rw [← hu]
  exact AccountDAO.makes_broadcast _ _ _

/-- `setPassword` completes when its calls go through. -/
theorem setPassword_completes_iff {w : World env.ctx} {account : Account}
    (hstored : w.directory.findAccount account.name = some account) (newPassword : String) :
    (exec (AccountDAO.setPassword env (some account) newPassword) w).1 = .ok ⟨⟩ ↔
      CallsGo env w.calls (setPasswordCalls env) := by
  have hok := (makes_setPassword hstored newPassword).ok_iff
  exact ⟨fun h => hok.1 ⟨_, h⟩, fun h => (hok.2 h).elim fun _ h => h⟩

/-- **When a reset token works once**: when its text matches no token of the stored account, so
that it did not work before either; or when a call of `setPassword` fails. -/
theorem worksOnce_iff (env : Env) (w : World env.ctx) (account : Account) (token newPassword : String)
    (hstored : w.directory.findAccount account.name = some account) :
    WorksOnce env w account token newPassword ↔
      (CallsGo env w.calls (setPasswordCalls env) →
        ∀ v ∈ account.get .resetPasswordToken, tokenMatches token v = false) := by
  rw [← setPassword_completes_iff hstored newPassword]
  constructor
  · intro honce hcompletes v hv
    have hnone := honce hcompletes [] (by simp)
    rw [finds_run_iff hstored token newPassword (by simp)] at hnone
    exact Bool.eq_false_iff.2 fun hmatch => hnone ⟨v, hv, hmatch⟩
  · intro hmatches hcompletes updates hissues hfound
    rw [finds_run_iff hstored token newPassword hissues] at hfound
    obtain ⟨v, hv, hmatch⟩ := hfound
    exact Bool.noConfusion ((hmatches hcompletes v hv).symm.trans hmatch)

/-- A token of letters and digits matches itself. -/
theorem tokenMatches_self {token : String} (h : ∀ c ∈ token.toList, isNormal c = true) :
    tokenMatches token token = true := by
  rw [tokenMatches, tokenPattern, scanValue_of_normal h]
  simp

/-- **An issued token keeps working**, whether `setPassword` completes or throws: `initResetToken`
issues letters and digits. -/
theorem finds_issued {w : World env.ctx} {account : Account}
    (hstored : w.directory.findAccount account.name = some account) {token : String}
    (htoken : token ∈ account.get .resetPasswordToken)
    (hnormal : ∀ c ∈ token.toList, isNormal c = true) (newPassword : String)
    {updates : List Account} (hissues : ∀ a ∈ updates, IssuesNoToken a) :
    Finds (Runs.run (updateStep env)
      (after (AccountDAO.setPassword env (some account) newPassword) w) updates).directory token
        (env.ctx.userDN account.name) := by
  rw [finds_run_iff hstored token newPassword hissues]
  exact ⟨token, htoken, tokenMatches_self hnormal⟩

/-- Alice, who has asked for a new password. -/
def forgetfulAlice : Account := (Account.new "alice").set .resetPasswordToken (some "secret")

def withAccount (a : Account) : World Env.mock.ctx := { directory := Directory.empty.putAccount a }

/-- Bob's token is the text of an escape, which stands for another character. -/
def escapedBob : Account := (Account.new "bob").set .resetPasswordToken (some "\\41")

theorem worksOnce_iff_other :
    (exec (AccountDAO.setPassword .mock (some escapedBob) "new") (withAccount escapedBob)).1 = .ok ⟨⟩ ∧
    "\\41" ∈ escapedBob.get .resetPasswordToken ∧
    WorksOnce .mock (withAccount escapedBob) escapedBob "\\41" "new" :=
  ⟨by decide +kernel, by decide +kernel,
    (worksOnce_iff .mock (withAccount escapedBob) escapedBob "\\41" "new" rfl).2
      fun _ => by decide +kernel⟩

/-- **The token still works.**  Alice's password is set, and her token finds her. -/
theorem reset_token_survives :
    (withAccount forgetfulAlice).directory.findAccount forgetfulAlice.name = some forgetfulAlice ∧
    (exec (AccountDAO.setPassword .mock (some forgetfulAlice) "new")
      (withAccount forgetfulAlice)).1 = .ok ⟨⟩ ∧
    ¬ WorksOnce .mock (withAccount forgetfulAlice) forgetfulAlice "secret" "new" := by
  have hcompletes : (exec (AccountDAO.setPassword .mock (some forgetfulAlice) "new")
      (withAccount forgetfulAlice)).1 = .ok ⟨⟩ := by decide +kernel
  refine ⟨rfl, hcompletes, fun honce => honce hcompletes [] (by simp) ?_⟩
  rw [finds_iff]
  exact ⟨["secret"], by decide +kernel, by decide +kernel⟩

end Accounts

end CloudOs

/-
# `AccountDAO`

The methods that write accounts, and for each of them what it can leave in the
directory.

* `create` adds the account and then enrols it in the built-in groups
  (`postCreate`); a failure between the writes leaves the earlier ones.
* `update` reads the stored entry, lays the attributes of its argument over it
  and writes it back.  An update that suspends the account changes the password
  first.
* `delete` of an unknown name returns silently.

`create` gives its request a random password when it has none, and the caller
reads that password from the request: the request is part of the result.
-/

import CloudOs.Dao.AccountGroupDAO

namespace CloudOs

open Prog

namespace AccountDAO

variable (env : Env)

def authenticate (loginRequest : LoginRequest) : Server env Account := do
  match ← attempt (CloudOs.authenticate env loginRequest.name loginRequest.password) with
  | .error _ => throw (.authentication .invalid)
  | .ok _ =>
    let w ← get
    match w.directory.findAccount loginRequest.name with
    | none => throw (.authentication .notFound)
    | some account => return account

/-- The three `broadcast` methods: a message to each app whose user management
has the script. -/
def broadcast (hasScript : AppRuntime → Bool) (type : AppScriptMessageType) (args : List String) :
    Server env PUnit := do
  let apps ← getAvailableRuntimes env
  apps.forM fun runtime =>
    if runtime.hasUserManagement && hasScript runtime then
      writeRooty env (.appScript runtime.name type args)
    else pure ⟨⟩

def broadcastNewAccount (account : Account) : Server env PUnit :=
  broadcast env (·.hasUserCreate) .user_create [account.name]

def broadcastDeleteAccount (account : Account) : Server env PUnit :=
  broadcast env (·.hasUserDelete) .user_delete [account.name]

def broadcastPasswordChange (account : Account) (newPassword : String) : Server env PUnit :=
  broadcast env (·.hasChangePassword) .user_change_password [account.name, newPassword]

/-- `checkAuth`; a `null` account fails inside the `try`. -/
def checkAuth (account : Option Account) (oldPassword : String) : Server env PUnit :=
  match account with
  | none => throw (.authentication .invalid)
  | some account => do
    match ← attempt (CloudOs.authenticate env account.name (some oldPassword)) with
    | .error _ => throw (.authentication .invalid)
    | .ok _ => return ⟨⟩

def changePassword (account : Option Account) (oldPassword newPassword : String) :
    Server env PUnit := do
  checkAuth env account oldPassword
  match account with
  | none => throw .nullPointer
  | some account => do
    CloudOs.changePassword env account.name oldPassword newPassword
    broadcastPasswordChange env account newPassword

/-- `update`; `findByDn(account.getDn())` reads the entry under the DN of the
argument's name. -/
def update (account : Account) : Server env Account := do
  let w ← get
  match w.directory.findAccount account.name with
  | none => throw (.die ("Cannot update non-existent account: " ++ env.ctx.userDN account.name))
  | some existing =>
    let isSuspending := !existing.isSuspended && account.isSuspended
    let existing := existing.merge account
    if isSuspending then do
      let newPassword := env.random (← draw env)
      let existing := existing.setPassword (some newPassword)
      adminChangePassword env account.name newPassword
      ldapmodifyAccount env existing
      return existing
    else do
      ldapmodifyAccount env existing
      return existing

def setPassword (account : Option Account) (newPassword : String) : Server env PUnit :=
  match account with
  | none => throw .nullPointer
  | some account => do
    adminChangePassword env account.name newPassword
    let account := account.clearResetPasswordToken.setPassword none
    let _ ← update env account
    broadcastPasswordChange env account newPassword

def postCreate (account : Account) : Server env PUnit := do
  let _ ← AccountGroupDAO.addToDefaultGroup env account
  if account.isAdmin then do
    let _ ← AccountGroupDAO.addToAdminGroup env account
    return ⟨⟩
  else return ⟨⟩

/-- The account that `create` makes of its request, with the verification code
`token` made at the time `now`. -/
def newAccount (request : Account) (token : String) (now : ℕ) : Account :=
  ((Account.new request.name).merge request).initEmailVerificationCode token now

theorem newAccount_name (request : Account) (token : String) (now : ℕ) :
    (newAccount request token now).name = request.name := rfl

/-- A new account has the attributes of its request, but for its own verification code. -/
theorem getSingle_newAccount (request : Account) (token : String) (now : ℕ) {attr : AccountAttr}
    (hcode : attr ≠ .emailVerificationCode) (hctime : attr ≠ .emailVerificationCodeCtime) :
    (newAccount request token now).getSingle attr = request.getSingle attr := by
  rw [newAccount, Account.initEmailVerificationCode, Account.getSingle_set, if_neg hctime,
    Account.getSingle_set, if_neg hcode, Account.getSingle_merge]
  exact Option.or_none

/-- A new account has the flags of its request. -/
theorem newAccount_isAdmin (request : Account) (token : String) (now : ℕ) :
    (newAccount request token now).isAdmin = request.isAdmin := by
  rw [Account.isAdmin, getSingle_newAccount _ _ _ (by decide) (by decide), Account.isAdmin]

theorem newAccount_isSuspended (request : Account) (token : String) (now : ℕ) :
    (newAccount request token now).isSuspended = request.isSuspended := by
  rw [Account.isSuspended, getSingle_newAccount _ _ _ (by decide) (by decide), Account.isSuspended]

/-- `AbstractLdapDAO.create`. -/
def ldapCreate (account : Account) : Server env PUnit := do
  ldapaddAccount env account
  postCreate env account

/-- What `create` does with a request that has a password. -/
def createAccount (request : Account) : Server env (Account × Account) := do
  let n ← draw env
  let account := newAccount request (env.random n) (env.currentTimeMillis n)
  match ← attempt (ldapCreate env account) with
  | .error e => throw (.dieOf "create: error creating account in LDAP: " e)
  | .ok _ => do
    writeRooty env (.newAccountEvent account.name account.isAdmin)
    broadcastNewAccount env account
    return (request, account)

/-- `create`: the request as it is afterwards, and the account. -/
def create (request : Account) : Server env (Account × Account) := do
  if request.hasPassword then createAccount env request
  else do
    let n ← draw env
    createAccount env (request.setPassword (some (env.random n)))

def delete (accountName : String) : Server env PUnit := do
  let w ← get
  match w.directory.findAccount accountName with
  | none => return ⟨⟩
  | some account =>
    match ← attempt (ldapdeleteAccount env account.name) with
    | .error e => throw (.dieOf
        "delete: account deleted in LDAP but account not deleted in storageEngine! " e)
    | .ok _ => do
      writeRooty env (.removeAccountEvent account.name account.isAdmin)
      broadcastDeleteAccount env account

/-! ### What they leave in the directory -/

section Ends

variable {env} {w : World env.ctx}

/-- The messages to the apps change no store. -/
theorem respects_broadcast (hasScript : AppRuntime → Bool) (type : AppScriptMessageType)
    (args : List String) : Respects World.Same (broadcast env hasScript type args) := by
  refine respects_getAvailableRuntimes.bind fun apps => Respects.forM (fun runtime => ?_) apps
  split_ifs
  · exact respects_writeRooty _
  · exact Respects.pure _

theorem respects_authenticate (name : String) (password : Option String) :
    Respects World.Same (CloudOs.authenticate env name password) := fun _ =>
  ends_ldapRequest (fun _ _ hs => hs) fun _ _ hs => hs

/-- The password that the directory has of an account; it binds with no other. -/
def Knows (e : Account) (password : Option String) : Prop :=
  e.hasPassword = true ∧ e.getPassword = password

/-- The directory compares with the stored password, and changes nothing. -/
theorem ends_authenticate (name : String) (password : Option String) :
    Ends (CloudOs.authenticate env name password) w fun r t => w.Same t ∧
      ∀ x, r = .ok x → ∀ e, w.directory.findAccount name = some e → Knows e password := by
  refine ends_ldapRequest (fun t _ hs => ⟨hs, fun _ h => of_error_eq_ok h⟩) fun t hr hs =>
    ⟨hs, fun _ _ e he => ?_⟩
  simpa [he, Knows] using hr

/-- **`authenticate`** makes one call, changes no store and returns the stored account, whose
password was given. -/
theorem authenticate_ends (loginRequest : LoginRequest) :
    Ends (authenticate env loginRequest) w fun r t => w.Same t ∧ t.calls = w.calls + 1 ∧
      ∀ e, r = .ok e → w.directory.findAccount loginRequest.name = some e ∧
        Knows e loginRequest.password ∧ env.fails .ldap w.calls = false := by
  simp only [authenticate, ends_bind, ends_attempt, CloudOs.authenticate, ends_ldapRequest_iff]
  split_ifs with hfails
  · exact ⟨⟨rfl, rfl, rfl⟩, rfl, fun _ h => of_error_eq_ok h⟩
  · obtain ⟨hbinds, hknows⟩ := not_or.1 hfails
    simp only [ends_get, World.onDirectory_directory, World.called_directory, id]
    cases he : w.directory.findAccount loginRequest.name with
    | none => exact ⟨⟨rfl, rfl, rfl⟩, rfl, fun _ h => of_error_eq_ok h⟩
    | some e =>
      refine ⟨⟨rfl, rfl, rfl⟩, rfl, fun e' h => ?_⟩
      obtain rfl := Except.ok.inj h
      exact ⟨rfl, by simpa [he, Knows] using hknows, Bool.eq_false_iff.2 hbinds⟩

theorem respects_checkAuth (account : Option Account) (oldPassword : String) :
    Respects World.Same (checkAuth env account oldPassword) := by
  cases account with
  | none => exact Respects.throw _
  | some account =>
    refine (respects_authenticate _ _).attempt.bind fun r => ?_
    cases r with
    | error e => exact Respects.throw _
    | ok u => exact Respects.pure _

/-- `adminChangePassword` writes nothing but a password. -/
theorem ends_adminChangePassword {name newPassword : String}
    {Q : Except Exn PUnit → World env.ctx → Prop}
    (hfail : ∀ t, w.Same t → Q (.error (.failed .ldap)) t)
    (hok : ∀ e t, w.directory.findAccount name = some e →
      w.Leaves (w.directory.putAccount (e.setPassword (some newPassword))) t → Q (.ok ⟨⟩) t) :
    Ends (adminChangePassword env name newPassword) w Q := by
  refine ends_ldapRequest (fun t _ hs => hfail t hs) fun t hr hs => ?_
  cases he : w.directory.findAccount name with
  | none => simp [he] at hr
  | some e => exact hok e t he (by simpa [he] using hs)

/-- The password of a stored account is changed unless the call fails. -/
theorem ends_adminChangePassword_iff {name : String} {e : Account}
    (he : w.directory.findAccount name = some e) (newPassword : String)
    (Q : Except Exn PUnit → World env.ctx → Prop) :
    Ends (adminChangePassword env name newPassword) w Q ↔
      if env.fails .ldap w.calls = true then Q (.error (.failed .ldap)) w.called
      else Q (.ok ⟨⟩) (w.called.onDirectory (·.putAccount (e.setPassword (some newPassword)))) := by
  simp only [adminChangePassword, ends_ldapRequest_iff, World.onDirectory, World.called_directory, he,
    Option.isNone_some, Bool.false_eq_true, or_false, Option.elim_some]

/-- The entry of a stored account is written unless the call fails. -/
theorem ends_ldapmodifyAccount_iff {a : Account} (ha : (w.directory.findAccount a.name).isSome = true)
    (Q : Except Exn PUnit → World env.ctx → Prop) :
    Ends (ldapmodifyAccount env a) w Q ↔
      if env.fails .ldap w.calls = true then Q (.error (.failed .ldap)) w.called
      else Q (.ok ⟨⟩) (w.called.onDirectory (·.putAccount a)) := by
  have hfound : (w.directory.findAccount a.name).isNone = false := by
    rw [← Option.not_isSome, ha, Bool.not_true]
  simp only [ldapmodifyAccount, ends_ldapRequest_iff, hfound, Bool.false_eq_true, or_false]

/-- An update with `account` is to suspend the stored account `e`. -/
def Suspends (e account : Account) : Prop := e.isSuspended = false ∧ account.isSuspended = true

instance (e account : Account) : Decidable (Suspends e account) := inferInstanceAs (Decidable (_ ∧ _))

theorem suspends_congr {e account account' : Account} (h : account'.isSuspended = account.isSuspended) :
    Suspends e account' ↔ Suspends e account := by rw [Suspends, Suspends, h]

/-- The first write of an update of the stored account `e` goes through; a suspension draws a
random password first.  The number of its first call is `n`. -/
def WritesEntry (env : Env) (n : ℕ) (e account : Account) : Prop :=
  env.fails .ldap (if Suspends e account then n + 1 else n) = false

/-- Every write of an update of the stored account `e` goes through. -/
def UpdateGoes (env : Env) (n : ℕ) (e account : Account) : Prop :=
  WritesEntry env n e account ∧ (Suspends e account → env.fails .ldap (n + 2) = false)

theorem writesEntry_congr {n : ℕ} {e account account' : Account}
    (h : account'.isSuspended = account.isSuspended) :
    WritesEntry env n e account' ↔ WritesEntry env n e account := by
  simp only [WritesEntry, suspends_congr h]

theorem updateGoes_congr {n : ℕ} {e account account' : Account}
    (h : account'.isSuspended = account.isSuspended) :
    UpdateGoes env n e account' ↔ UpdateGoes env n e account := by
  rw [UpdateGoes, UpdateGoes, writesEntry_congr h, suspends_congr h]

/-- The entry that an update which suspends writes; the random password is the `n`-th draw. -/
def suspended (env : Env) (n : ℕ) (e account : Account) : Account :=
  (e.merge account).setPassword (some (env.random n))

@[simp] theorem suspended_name (n : ℕ) (e account : Account) :
    (suspended env n e account).name = e.name := Account.setPassword_name _ _

/-- How `update` ends, from the directory `dir` after `n` calls: its answer, and the directory
that it leaves. -/
inductive Updates (env : Env) (n : ℕ) (dir : Directory env.ctx) (account : Account) :
    Except Exn Account → Directory env.ctx → Prop
  | unknown {x : Exn} (stored : dir.findAccount account.name = none) :
      Updates env n dir account (.error x) dir
  | refused {x : Exn} {e : Account} (stored : dir.findAccount account.name = some e)
      (keeps : ¬ Suspends e account) (fails : env.fails .ldap n = true) :
      Updates env n dir account (.error x) dir
  | writes {e : Account} (stored : dir.findAccount account.name = some e)
      (keeps : ¬ Suspends e account) (goes : env.fails .ldap n = false) :
      Updates env n dir account (.ok (e.merge account)) (dir.putAccount (e.merge account))
  | cannotSuspend {x : Exn} {e : Account} (stored : dir.findAccount account.name = some e)
      (suspends : Suspends e account) (fails : env.fails .ldap (n + 1) = true) :
      Updates env n dir account (.error x) dir
  | failsToSuspend {x : Exn} {e : Account} (stored : dir.findAccount account.name = some e)
      (suspends : Suspends e account) (changes : env.fails .ldap (n + 1) = false)
      (fails : env.fails .ldap (n + 2) = true) :
      Updates env n dir account (.error x) (dir.putAccount (e.setPassword (some (env.random n))))
  | suspends {e : Account} (stored : dir.findAccount account.name = some e)
      (suspends : Suspends e account) (changes : env.fails .ldap (n + 1) = false)
      (goes : env.fails .ldap (n + 2) = false) :
      Updates env n dir account (.ok (suspended env n e account))
        (dir.putAccount (suspended env n e account))

/-- **How `update` ends.** -/
theorem update_updates (account : Account) : Ends (update env account) w fun r t =>
    ∃ dir, Updates env w.calls w.directory account r dir ∧ w.Leaves dir t := by
  simp only [update, ends_bind, ends_get]
  cases he : w.directory.findAccount account.name with
  | none => exact ⟨_, .unknown he, ⟨rfl, rfl, rfl⟩⟩
  | some e =>
    dsimp only
    split_ifs with hsuspends
    · have hsuspends : Suspends e account := by simpa [Suspends] using hsuspends
      simp only [ends_bind, ends_draw]
      rw [ends_adminChangePassword_iff (w := w.called) he]
      split_ifs with hchanges
      · exact ⟨_, .cannotSuspend he hsuspends hchanges, ⟨rfl, rfl, rfl⟩⟩
      simp only [Bool.not_eq_true] at hchanges
      have hname : (e.setPassword (some (env.random w.calls))).name = (suspended env w.calls e account).name := by
        simp
      have hfound : ∀ dir : Directory env.ctx, ((dir.putAccount
          (e.setPassword (some (env.random w.calls)))).findAccount
            (suspended env w.calls e account).name).isSome = true := fun dir => by
        rw [← hname, Directory.findAccount_putAccount]
        rfl
      rw [ends_ldapmodifyAccount_iff (hfound _)]
      split_ifs with hgoes
      · exact ⟨_, .failsToSuspend he hsuspends hchanges hgoes, ⟨rfl, rfl, rfl⟩⟩
      · refine ⟨_, .suspends he hsuspends hchanges (Bool.eq_false_iff.2 hgoes), ⟨?_, rfl, rfl⟩⟩
        exact Directory.putAccount_putAccount _ (congrArg env.ctx.userDN hname)
    · have hkeeps : ¬ Suspends e account := by simpa [Suspends] using hsuspends
      have hfound : (w.directory.findAccount (e.merge account).name).isSome = true := by
        rw [Account.merge_name, Directory.findAccount_name he]
        rfl
      rw [ends_bind, ends_ldapmodifyAccount_iff hfound]
      split_ifs with hgoes
      · exact ⟨_, .refused he hkeeps hgoes, ⟨rfl, rfl, rfl⟩⟩
      · exact ⟨_, .writes he hkeeps (Bool.eq_false_iff.2 hgoes), ⟨rfl, rfl, rfl⟩⟩

/-- **`update`** changes nothing, or only the password of an account it fails to
suspend, or lays the request over the stored account and returns that. -/
theorem update_ends (account : Account) : Ends (update env account) w fun r t =>
    ((∃ x, r = .error x) ∧ w.Same t) ∨
    ∃ e, w.directory.findAccount account.name = some e ∧
      (((∃ x, r = .error x) ∧ ∃ a, e.SameButPassword a ∧ w.Leaves (w.directory.putAccount a) t) ∨
      ∃ a, r = .ok a ∧ e.Overlaid account a ∧ w.Leaves (w.directory.putAccount a) t) := by
  refine (update_updates account).mono fun r t hend => ?_
  obtain ⟨dir, hupdates, hs⟩ := hend
  cases hupdates with
  | unknown _ => exact Or.inl ⟨⟨_, rfl⟩, hs⟩
  | refused _ _ _ => exact Or.inl ⟨⟨_, rfl⟩, hs⟩
  | @writes e stored _ _ =>
    exact Or.inr ⟨e, stored, Or.inr ⟨_, rfl, Account.overlaid_merge account, hs⟩⟩
  | cannotSuspend _ _ _ => exact Or.inl ⟨⟨_, rfl⟩, hs⟩
  | @failsToSuspend _ e stored _ _ _ =>
    exact Or.inr ⟨e, stored, Or.inl ⟨⟨_, rfl⟩, _, Account.sameButPassword_setPassword _, hs⟩⟩
  | @suspends e stored _ _ _ =>
    exact Or.inr ⟨e, stored, Or.inr ⟨_, rfl, (Account.overlaid_merge account).setPassword _, hs⟩⟩

/-- **`changePassword`** changes nothing, or writes the new password of an account whose old
one was given. -/
theorem changePassword_changes (account : Option Account) (oldPassword newPassword : String) :
    Ends (changePassword env account oldPassword newPassword) w fun _ t => w.Same t ∨
      ∃ acc e, account = some acc ∧ w.directory.findAccount acc.name = some e ∧
        Knows e (some oldPassword) ∧
          w.Leaves (w.directory.putAccount (e.setPassword (some newPassword))) t := by
  simp only [changePassword, ends_bind]
  refine (respects_checkAuth account oldPassword w).mono fun r t hs => ?_
  cases r with
  | error e => exact Or.inl hs
  | ok u =>
    cases account with
    | none => exact Or.inl hs
    | some acc =>
      simp only [CloudOs.changePassword, ends_bind]
      refine (ends_authenticate _ _).mono fun r t' hend => ?_
      have hsame := hs.same_trans hend.1
      cases r with
      | error e => exact Or.inl hsame
      | ok u =>
        refine ends_adminChangePassword (fun v hv => Or.inl (hsame.same_trans hv)) fun e v he hv => ?_
        have hknows := hend.2 u rfl e (by rw [← he, hend.1.directory])
        rw [hsame.directory] at he hv
        refine (respects_broadcast _ _ _ v).mono fun _ x hx => Or.inr ?_
        exact ⟨acc, e, rfl, he, hknows, (hsame.trans hv).same_trans hx⟩

/-- **`changePassword`** writes nothing but the account's password. -/
theorem changePassword_ends (account : Option Account) (oldPassword newPassword : String) :
    Ends (changePassword env account oldPassword newPassword) w fun _ t => w.Same t ∨
      ∃ acc e a, account = some acc ∧ w.directory.findAccount acc.name = some e ∧
        e.SameButPassword a ∧ w.Leaves (w.directory.putAccount a) t := by
  refine (changePassword_changes account oldPassword newPassword).mono fun _ t h => h.imp_right ?_
  rintro ⟨acc, e, hacc, he, -, ht⟩
  exact ⟨acc, e, _, hacc, he, Account.sameButPassword_setPassword _, ht⟩

/-- What `setPassword` sends to `update`: the account without its reset token and its
password. -/
def cleared (account : Account) : Account := account.clearResetPasswordToken.setPassword none

@[simp] theorem cleared_name (account : Account) : (cleared account).name = account.name := by
  simp [cleared]

theorem getSingle_cleared (account : Account) {attr : AccountAttr} (hattr : attr ≠ .password) :
    (cleared account).getSingle attr =
      if attr = .resetPasswordToken then none else account.getSingle attr := by
  rw [cleared, Account.getSingle_setPassword _ hattr, Account.clearResetPasswordToken,
    Account.getSingle_remove]

theorem cleared_password (account : Account) : (cleared account).getSingle .password = none := by
  unfold cleared Account.setPassword
  dsimp only
  rw [if_pos (show empty none = true from rfl), Account.getSingle_remove, if_pos rfl]

@[simp] theorem cleared_isSuspended (account : Account) :
    (cleared account).isSuspended = account.isSuspended := by
  rw [Account.isSuspended, getSingle_cleared _ (by decide), if_neg (by decide), Account.isSuspended]

/-- How `setPassword` of an account ends, from the directory `dir` after `n` calls: the directory
that it leaves. -/
inductive SetsPassword (env : Env) (n : ℕ) (dir : Directory env.ctx) (account : Account)
    (newPassword : String) : Directory env.ctx → Prop
  | refused : SetsPassword env n dir account newPassword dir
  | sets {e : Account} {r : Except Exn Account} {dir' : Directory env.ctx}
      (stored : dir.findAccount account.name = some e) (changes : env.fails .ldap n = false)
      (updates : Updates env (n + 1) (dir.putAccount (e.setPassword (some newPassword)))
        (cleared account) r dir') : SetsPassword env n dir account newPassword dir'

/-- **How `setPassword` ends.** -/
theorem setPassword_sets (account : Account) (newPassword : String) :
    Ends (setPassword env (some account) newPassword) w fun _ t =>
      ∃ dir, SetsPassword env w.calls w.directory account newPassword dir ∧ w.Leaves dir t := by
  simp only [setPassword, ends_bind]
  cases he : w.directory.findAccount account.name with
  | none =>
    refine ends_adminChangePassword (fun t hs => ⟨_, .refused, hs⟩) fun e t he' _ => ?_
    exact absurd (he.symm.trans he') (Option.some_ne_none e).symm
  | some e =>
    rw [ends_adminChangePassword_iff he]
    split_ifs with hchanges
    · exact ⟨_, .refused, ⟨rfl, rfl, rfl⟩⟩
    refine (update_updates _).mono fun r t hend => ?_
    obtain ⟨dir, hupdates, hs⟩ := hend
    have hsets := SetsPassword.sets he (Bool.eq_false_iff.2 hchanges) hupdates
    have hleaves : w.Leaves dir t := ⟨hs.directory, hs.sessions, hs.keyFile⟩
    cases r with
    | error x => exact ⟨_, hsets, hleaves⟩
    | ok x => exact (respects_broadcast _ _ _ t).mono fun _ u hu => ⟨_, hsets, hleaves.same_trans hu⟩

/-- **`setPassword`** of a stored account writes nothing but its password: the
cleared reset token is absent from the request that `update` merges. -/
theorem setPassword_ends {account : Option Account}
    (h : ∀ acc, account = some acc → w.directory.findAccount acc.name = some acc)
    (newPassword : String) : Ends (setPassword env account newPassword) w fun _ t => w.Same t ∨
      ∃ acc a, account = some acc ∧ acc.SameButPassword a ∧
        w.Leaves (w.directory.putAccount a) t := by
  cases account with
  | none => exact Or.inl .refl
  | some acc =>
    refine (setPassword_sets acc newPassword).mono fun _ t hend => ?_
    obtain ⟨dir, hsets, ht⟩ := hend
    cases hsets with
    | refused => exact Or.inl ht
    | @sets e _ _ stored _ updates =>
      obtain rfl : acc = e := Option.some.inj ((h acc rfl).symm.trans stored)
      have hpassword := Account.sameButPassword_setPassword (a := acc) (some newPassword)
      have hstored := hpassword.stored
      have hfound := Directory.findAccount_putAccount w.directory (acc.setPassword (some newPassword))
      have hname : (cleared acc).name = (acc.setPassword (some newPassword)).name := by simp
      -- the update sends back what was read before, so that its overlay changes no attribute
      have hwrites : ∀ b, acc.SameButPassword b →
          w.Leaves ((w.directory.putAccount (acc.setPassword (some newPassword))).putAccount b) t →
          ∃ acc' a, some acc = some acc' ∧ acc'.SameButPassword a ∧
            w.Leaves (w.directory.putAccount a) t := by
        intro b hb hput
        rw [Directory.putAccount_putAccount _ (by rw [hb.name, hpassword.name])] at hput
        exact ⟨acc, b, rfl, hb, hput⟩
      have hoverlay : ∀ b, (acc.setPassword (some newPassword)).stored.Overlaid (cleared acc) b →
          acc.SameButPassword b := by
        intro b hb
        refine hstored.trans (hb.sameButPassword fun attr hattr => ?_)
        rw [hstored.getSingle attr hattr, getSingle_cleared acc hattr]
        split_ifs
        · exact Or.inl rfl
        · exact Or.inr rfl
      rw [← hname] at hfound
      cases updates with
      | unknown _ => exact Or.inr ⟨acc, _, rfl, hpassword, ht⟩
      | refused _ _ _ => exact Or.inr ⟨acc, _, rfl, hpassword, ht⟩
      | cannotSuspend _ _ _ => exact Or.inr ⟨acc, _, rfl, hpassword, ht⟩
      | writes stored' _ _ =>
        obtain rfl := Option.some.inj (hfound.symm.trans stored')
        exact Or.inr (hwrites _ (hoverlay _ (Account.overlaid_merge _)) ht)
      | failsToSuspend stored' _ _ _ =>
        obtain rfl := Option.some.inj (hfound.symm.trans stored')
        exact Or.inr (hwrites _ (hstored.trans (Account.sameButPassword_setPassword _)) ht)
      | suspends stored' _ _ _ =>
        obtain rfl := Option.some.inj (hfound.symm.trans stored')
        exact Or.inr (hwrites _ (hoverlay _ ((Account.overlaid_merge _).setPassword _)) ht)

/-- The built-in groups after an account was enrolled. -/
def enrolledAll (dir : Directory env.ctx) (account : Account) : Directory env.ctx :=
  let dir := dir.putGroup (AccountGroupDAO.enrolled dir AccountGroup.DEFAULT_GROUP_NAME account)
  if account.isAdmin then
    dir.putGroup (AccountGroupDAO.enrolled dir AccountGroup.ADMIN_GROUP_NAME account)
  else dir

/-- **`postCreate`** enrols the account in the built-in groups. -/
theorem postCreate_ends (account : Account) : Ends (postCreate env account) w fun r t =>
    (∃ dir, Relation.ReflTransGen (AccountGroupDAO.Enrolls account) w.directory dir ∧
      w.Leaves dir t) ∧
    (¬ LdapFails env → r = .ok ⟨⟩ ∧ w.Leaves (enrolledAll w.directory account) t) := by
  simp only [postCreate, ends_bind, AccountGroupDAO.addToDefaultGroup]
  refine (AccountGroupDAO.addToBuiltIn_ends rfl account).mono fun r t hend => ?_
  obtain ⟨⟨dir, hdir, hs⟩, hexact⟩ := hend
  cases r with
  | error x => exact ⟨⟨dir, hdir, hs⟩, fun hf => by simpa using (hexact hf).1⟩
  | ok g =>
    dsimp only
    split_ifs with hadmin
    · simp only [ends_bind, AccountGroupDAO.addToAdminGroup]
      refine (AccountGroupDAO.addToBuiltIn_ends rfl account).mono
        fun r u hend => ?_
      obtain ⟨⟨dir', hdir', hs'⟩, hexact'⟩ := hend
      have hall : ∃ dir, Relation.ReflTransGen (AccountGroupDAO.Enrolls account) w.directory dir ∧
          w.Leaves dir u := by
        rw [hs.directory] at hdir'
        exact ⟨dir', hdir.trans hdir', hs.trans hs'⟩
      cases r with
      | error x => exact ⟨hall, fun hf => by simpa using (hexact' hf).1⟩
      | ok g' =>
        refine ⟨hall, fun hf => ⟨rfl, ?_⟩⟩
        have hput := (hexact hf).2.trans (hexact' hf).2
        rw [(hexact hf).2.directory] at hput
        rw [enrolledAll, if_pos hadmin]
        exact hput
    · refine ⟨⟨dir, hdir, hs⟩, fun hf => ⟨rfl, ?_⟩⟩
      rw [enrolledAll, if_neg hadmin]
      exact (hexact hf).2

/-- The account was added to the directory of `w` and enrolled, which left `t`. -/
structure Added (w : World env.ctx) (account : Account) (t : World env.ctx) : Prop where
  free : (w.directory.findAccount account.name).isSome = true → env.ldapaddReplaces = true
  enrolls : ∃ dir, Relation.ReflTransGen (AccountGroupDAO.Enrolls account)
    (w.directory.putAccount account) dir ∧ w.Leaves dir t
  exact : ¬ LdapFails env → w.Leaves (enrolledAll (w.directory.putAccount account) account) t

theorem Added.accountAt {account : Account} {t : World env.ctx} (h : Added w account t)
    (dn : String) : t.directory.accountAt dn = (w.directory.putAccount account).accountAt dn := by
  obtain ⟨dir, hdir, ht⟩ := h.enrolls
  rw [ht.directory, AccountGroupDAO.Enrolls.accountAt hdir]

theorem Added.sessions {account : Account} {t : World env.ctx} (h : Added w account t) :
    t.sessions = w.sessions := by
  obtain ⟨dir, _, ht⟩ := h.enrolls
  exact ht.sessions

theorem Added.same_trans {account : Account} {t u : World env.ctx} (h : Added w account t)
    (hu : t.Same u) : Added w account u := by
  obtain ⟨dir, hdir, ht⟩ := h.enrolls
  exact ⟨h.free, ⟨dir, hdir, ht.same_trans hu⟩, fun hf => (h.exact hf).same_trans hu⟩

theorem Added.of_same {account : Account} {v t : World env.ctx} (hv : w.Same v)
    (h : Added v account t) : Added w account t := by
  obtain ⟨dir, hdir, ht⟩ := h.enrolls
  have hexact := h.exact
  have hfree := h.free
  rw [hv.directory] at hdir hexact hfree
  exact ⟨hfree, ⟨dir, hdir, hv.trans ht⟩, fun hf => hv.trans (hexact hf)⟩

/-- `ldapadd` of the name goes through as call number `n`. -/
def AddGoes (env : Env) (n : ℕ) (dir : Directory env.ctx) (name : String) : Prop :=
  env.fails .ldap n = false ∧ ((dir.findAccount name).isSome = true → env.ldapaddReplaces = true)

/-- `ldapadd` and `postCreate`. -/
theorem ldapCreate_ends (account : Account) : Ends (ldapCreate env account) w fun r t =>
    (¬ AddGoes env w.calls w.directory account.name ∧ (∃ x, r = .error x) ∧ w.Same t) ∨
    (AddGoes env w.calls w.directory account.name ∧ Added w account t) := by
  simp only [ldapCreate, ldapaddAccount, ends_bind, ends_ldapRequest_iff]
  split_ifs with hrefused
  · refine Or.inl ⟨fun hgoes => ?_, ⟨_, rfl⟩, ⟨rfl, rfl, rfl⟩⟩
    rcases hrefused with hfails | hexists
    · rw [hgoes.1] at hfails
      exact Bool.noConfusion hfails
    · simp only [Bool.and_eq_true, Bool.not_eq_true'] at hexists
      rw [hgoes.2 hexists.1] at hexists
      exact Bool.noConfusion hexists.2
  · simp only [not_or, Bool.not_eq_true, Bool.and_eq_false_imp, Bool.not_eq_false'] at hrefused
    refine (postCreate_ends account).mono fun r u hend => Or.inr ⟨hrefused, ?_⟩
    obtain ⟨⟨dir, hdir, hu⟩, hexact⟩ := hend
    exact ⟨hrefused.2, ⟨dir, hdir, ⟨hu.directory, hu.sessions, hu.keyFile⟩⟩, fun hf =>
      ⟨(hexact hf).2.directory, (hexact hf).2.sessions, (hexact hf).2.keyFile⟩⟩

theorem createAccount_ends (request : Account) : Ends (createAccount env request) w fun r t =>
    (¬ AddGoes env (w.calls + 1) w.directory request.name ∧ (∃ x, r = .error x) ∧ w.Same t) ∨
    (AddGoes env (w.calls + 1) w.directory request.name ∧
      Added w (newAccount request (env.random w.calls) (env.currentTimeMillis w.calls)) t ∧
      ∀ x, r = .ok x →
        x = (request, newAccount request (env.random w.calls) (env.currentTimeMillis w.calls))) := by
  simp only [createAccount, ends_bind, ends_draw, ends_attempt]
  refine (ldapCreate_ends _).mono fun r t ht => ?_
  rcases ht with ⟨hgoes, ⟨x, rfl⟩, hs⟩ | ⟨hgoes, hadded⟩
  · exact Or.inl ⟨hgoes, ⟨_, rfl⟩, (World.same_called w).same_trans hs⟩
  have hadded' := hadded.of_same (World.same_called w)
  cases r with
  | error x => exact Or.inr ⟨hgoes, hadded', fun _ h => of_error_eq_ok h⟩
  | ok x =>
    simp only [ends_bind]
    refine (respects_writeRooty _ t).mono fun r u hu => ?_
    cases r with
    | error x => exact Or.inr ⟨hgoes, hadded'.same_trans hu, fun _ h => of_error_eq_ok h⟩
    | ok x =>
      refine (respects_broadcast _ _ _ u).mono fun r v hv => ?_
      have hfinal := (hadded'.same_trans hu).same_trans hv
      cases r with
      | error x => exact Or.inr ⟨hgoes, hfinal, fun _ h => of_error_eq_ok h⟩
      | ok x => exact Or.inr ⟨hgoes, hfinal, fun _ hx => (Except.ok.inj hx).symm⟩

/-- The request as `create` uses it after `n` calls: it has a password. -/
def withPassword (env : Env) (n : ℕ) (request : Account) : Account :=
  if request.hasPassword then request else request.setPassword (some (env.random n))

/-- The number of the call after that draw, if there is one. -/
def afterPassword (n : ℕ) (request : Account) : ℕ := if request.hasPassword then n else n + 1

/-- The account that `create` makes of its request after `n` calls. -/
def created (env : Env) (n : ℕ) (request : Account) : Account :=
  newAccount (withPassword env n request) (env.random (afterPassword n request))
    (env.currentTimeMillis (afterPassword n request))

@[simp] theorem withPassword_name (n : ℕ) (request : Account) :
    (withPassword env n request).name = request.name := by
  unfold withPassword
  split_ifs
  · rfl
  · exact request.setPassword_name _

theorem getSingle_created (n : ℕ) (request : Account) {attr : AccountAttr}
    (hcode : attr ≠ .emailVerificationCode) (hctime : attr ≠ .emailVerificationCodeCtime) :
    (created env n request).getSingle attr = (withPassword env n request).getSingle attr :=
  getSingle_newAccount _ _ _ hcode hctime

theorem getSingle_withPassword (n : ℕ) (request : Account) {attr : AccountAttr}
    (hattr : attr ≠ .password) : (withPassword env n request).getSingle attr = request.getSingle attr := by
  unfold withPassword
  split_ifs
  · rfl
  · exact request.getSingle_setPassword hattr _

@[simp] theorem created_name (n : ℕ) (request : Account) : (created env n request).name = request.name :=
  withPassword_name n request

/-- **How `create` ends.** -/
theorem create_creates (request : Account) : Ends (create env request) w fun r t =>
    (¬ AddGoes env (afterPassword w.calls request + 1) w.directory request.name ∧
      (∃ x, r = .error x) ∧ w.Same t) ∨
    (AddGoes env (afterPassword w.calls request + 1) w.directory request.name ∧
      Added w (created env w.calls request) t ∧
      ∀ x, r = .ok x → x = (withPassword env w.calls request, created env w.calls request)) := by
  unfold create created withPassword afterPassword
  split_ifs
  · exact createAccount_ends request
  · simp only [ends_bind, ends_draw]
    refine (createAccount_ends _).mono fun r t ht => ?_
    rw [Account.setPassword_name] at ht
    rcases ht with ⟨hgoes, hx, hs⟩ | ⟨hgoes, hadded, hresult⟩
    · exact Or.inl ⟨hgoes, hx, (World.same_called w).same_trans hs⟩
    · exact Or.inr ⟨hgoes, hadded.of_same (World.same_called w), hresult⟩

/-- `account` was made of `request` by `create`. -/
def MadeFrom (request account : Account) : Prop :=
  ∃ request' token now, (request' = request ∨ ∃ p, request' = request.setPassword p) ∧
    account = newAccount request' token now

theorem MadeFrom.name {request account : Account} (h : MadeFrom request account) :
    account.name = request.name := by
  obtain ⟨_, token, now, rfl | ⟨p, rfl⟩, rfl⟩ := h
  · rfl
  · rw [newAccount_name, Account.setPassword_name]

theorem MadeFrom.isAdmin {request account : Account} (h : MadeFrom request account) :
    account.isAdmin = request.isAdmin := by
  obtain ⟨_, token, now, rfl | ⟨p, rfl⟩, rfl⟩ := h
  · exact newAccount_isAdmin _ _ _
  · rw [newAccount_isAdmin, Account.setPassword_isAdmin]

theorem MadeFrom.isSuspended {request account : Account} (h : MadeFrom request account) :
    account.isSuspended = request.isSuspended := by
  obtain ⟨_, token, now, rfl | ⟨p, rfl⟩, rfl⟩ := h
  · exact newAccount_isSuspended _ _ _
  · rw [newAccount_isSuspended, Account.setPassword_isSuspended]

theorem madeFrom_created (n : ℕ) (request : Account) : MadeFrom request (created env n request) := by
  refine ⟨_, _, _, ?_, rfl⟩
  unfold withPassword
  split_ifs
  · exact Or.inl rfl
  · exact Or.inr ⟨_, rfl⟩

/-- **`create`** changes nothing, or adds the account and enrols it. -/
theorem create_ends (request : Account) : Ends (create env request) w fun r t =>
    ((∃ x, r = .error x) ∧ w.Same t) ∨
    ∃ account, MadeFrom request account ∧ Added w account t ∧ ∀ x, r = .ok x → x.2 = account := by
  refine (create_creates request).mono fun r t ht => ht.imp (fun h => h.2) ?_
  rintro ⟨-, hadded, hresult⟩
  exact ⟨_, madeFrom_created _ _, hadded, fun x hx => by rw [hresult x hx]⟩

/-- **How `delete` ends.** -/
theorem delete_deletes (accountName : String) : Ends (delete env accountName) w fun _ t =>
    (w.directory.findAccount accountName = none ∧ w.Same t) ∨
    (env.fails .ldap w.calls = true ∧ w.Same t) ∨
    (env.fails .ldap w.calls = false ∧ (w.directory.findAccount accountName).isSome = true ∧
      w.Leaves (w.directory.eraseAccount (env.ctx.userDN accountName)) t) := by
  simp only [delete, ends_bind, ends_get]
  cases he : w.directory.findAccount accountName with
  | none => exact Or.inl ⟨rfl, .refl⟩
  | some e =>
    rw [ends_bind, ends_attempt, ldapdeleteAccount, ends_ldapRequest_iff,
      Directory.userDN_of_accountAt he]
    by_cases hfails : env.fails .ldap w.calls = true
    · rw [if_pos (Or.inl hfails)]
      exact Or.inr (Or.inl ⟨hfails, ⟨rfl, rfl, rfl⟩⟩)
    · rw [if_neg (not_or.2 ⟨hfails, Bool.false_ne_true⟩)]
      refine ((respects_writeRooty _).bind fun _ => respects_broadcast _ _ _) _ |>.mono fun _ u hu => ?_
      exact Or.inr (Or.inr ⟨Bool.eq_false_iff.2 hfails, rfl, ⟨hu.directory, hu.sessions, hu.keyFile⟩⟩)

/-- **`delete`** changes nothing, or removes the account. -/
theorem delete_ends (accountName : String) : Ends (delete env accountName) w fun _ t =>
    w.Same t ∨ ((w.directory.findAccount accountName).isSome = true ∧
      w.Leaves (w.directory.eraseAccount (env.ctx.userDN accountName)) t) := by
  refine (delete_deletes accountName).mono fun _ t h => ?_
  rcases h with ⟨_, hs⟩ | ⟨_, hs⟩ | ⟨_, hdeletes⟩
  · exact Or.inl hs
  · exact Or.inl hs
  · exact Or.inr hdeletes

/-! ### No method of the DAO calls the two-factor provider -/

theorem provider_broadcast (hasScript : AppRuntime → Bool) (type : AppScriptMessageType)
    (args : List String) : Respects World.SameProvider (broadcast env hasScript type args) := by
  refine provider_getAvailableRuntimes.bind fun apps => Respects.forM (fun runtime => ?_) apps
  split_ifs
  · exact provider_writeRooty _
  · exact Respects.pure _

theorem provider_update (account : Account) : Respects World.SameProvider (update env account) := by
  refine Respects.get.bind fun w => ?_
  cases w.directory.findAccount account.name with
  | none => exact Respects.throw _
  | some e =>
    dsimp only
    split_ifs
    · exact provider_draw.bind fun _ => (provider_ldapRequest _ _).bind fun _ =>
        (provider_ldapRequest _ _).bind fun _ => Respects.pure _
    · exact (provider_ldapRequest _ _).bind fun _ => Respects.pure _

theorem provider_ldapCreate (account : Account) :
    Respects World.SameProvider (ldapCreate env account) := by
  refine (provider_ldapRequest _ _).bind fun _ =>
    (AccountGroupDAO.provider_addToBuiltIn _ account).bind fun _ => ?_
  split_ifs
  · exact (AccountGroupDAO.provider_addToBuiltIn _ account).bind fun _ => Respects.pure _
  · exact Respects.pure _

theorem provider_createAccount (request : Account) :
    Respects World.SameProvider (createAccount env request) := by
  refine provider_draw.bind fun n => (provider_ldapCreate _).attempt.bind fun r => ?_
  cases r with
  | error x => exact Respects.throw _
  | ok x => exact (provider_writeRooty _).bind fun _ => (provider_broadcast _ _ _).bind fun _ =>
      Respects.pure _

theorem provider_create (request : Account) : Respects World.SameProvider (create env request) := by
  unfold create
  split_ifs
  · exact provider_createAccount request
  · exact provider_draw.bind fun n => provider_createAccount _

theorem provider_delete (accountName : String) :
    Respects World.SameProvider (delete env accountName) := by
  refine Respects.get.bind fun w => ?_
  cases w.directory.findAccount accountName with
  | none => exact Respects.pure _
  | some account =>
    refine (provider_ldapRequest _ _).attempt.bind fun r => ?_
    cases r with
    | error x => exact Respects.throw _
    | ok x => exact (provider_writeRooty _).bind fun _ => provider_broadcast _ _ _

end Ends

end AccountDAO

end CloudOs

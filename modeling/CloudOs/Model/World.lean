/-
# The server's state and the systems around it

`Directory` is the LDAP directory: accounts and groups, each under its DN.
`World` is everything a request can change.  `Env` is what a request cannot
change: the configuration, and the code that is called but is not part of the
repository, as parameters.

* `fails sys n` says whether the `n`-th call to an outside system fails.  A
  failed call throws and does nothing.  Every theorem is about every `fails`.
* `random`, `currentTimeMillis` and `sessionId` are what the `n`-th call draws.
* `ldapaddReplaces` says what `ldapadd` does with a DN that exists.  LDAP
  refuses it (`entryAlreadyExists`); `MockLdapService` replaces the entry.
* `deleteUserUnboxes` says what the two-factor provider's `deleteUser` does with a
  `null` id: it throws when it takes an `int`.
* `stackDepth` bounds the recursion of a Java thread.
* `linuxName` is the Linux name of the time zone with an id; there may be none.
* `isSameName`, `acceptsLogin` (what the login of the library's base class asks
  beyond the password), `containsCircularReference` and `checkpw` are functions
  of the libraries.

The directory performs the writes it is sent: a write changes the entry it
names and nothing else.  A stored account has no transient password.
-/

import CloudOs.Lib.KeyedMap
import CloudOs.Lib.Digraph
import CloudOs.Model.LdapContext
import CloudOs.Model.Getters

namespace CloudOs

/-- The directory: accounts under `userDN`, groups under `groupDN`. -/
structure Directory (ctx : LdapContext) where
  accounts : KeyedMap fun a : Account => ctx.userDN a.name
  groups : KeyedMap fun g : AccountGroup => ctx.groupDN g.name

namespace Directory

variable {ctx : LdapContext} (dir : Directory ctx)

/-- The empty directory. -/
def empty : Directory ctx := ⟨.empty, .empty⟩

/-- The account under a DN. -/
def accountAt (dn : String) : Option Account := dir.accounts.lookup dn

/-- The group under a DN. -/
def groupAt (dn : String) : Option AccountGroup := dir.groups.lookup dn

/-- `AccountDAO.findByName`. -/
def findAccount (name : String) : Option Account := dir.accountAt (ctx.userDN name)

/-- `AccountGroupDAO.findByName`. -/
def findGroup (name : String) : Option AccountGroup := dir.groupAt (ctx.groupDN name)

/-- Stores an account; its transient password is not stored. -/
def putAccount (a : Account) : Directory ctx := { dir with accounts := dir.accounts.put a.stored }

def eraseAccount (dn : String) : Directory ctx := { dir with accounts := dir.accounts.erase dn }

def putGroup (g : AccountGroup) : Directory ctx := { dir with groups := dir.groups.put g }

def eraseGroup (dn : String) : Directory ctx := { dir with groups := dir.groups.erase dn }

@[simp] theorem accountAt_empty (dn : String) : (empty : Directory ctx).accountAt dn = none := rfl

@[simp] theorem groupAt_empty (dn : String) : (empty : Directory ctx).groupAt dn = none := rfl

theorem accountAt_putAccount (a : Account) (dn : String) :
    (dir.putAccount a).accountAt dn
      = if dn = ctx.userDN a.name then some a.stored else dir.accountAt dn :=
  KeyedMap.lookup_put _ _ _

theorem groupAt_putGroup (g : AccountGroup) (dn : String) :
    (dir.putGroup g).groupAt dn = if dn = ctx.groupDN g.name then some g else dir.groupAt dn :=
  KeyedMap.lookup_put _ _ _

theorem accountAt_eraseAccount (dn d : String) :
    (dir.eraseAccount dn).accountAt d = if d = dn then none else dir.accountAt d :=
  KeyedMap.lookup_erase _ _ _

theorem groupAt_eraseGroup (dn d : String) :
    (dir.eraseGroup dn).groupAt d = if d = dn then none else dir.groupAt d :=
  KeyedMap.lookup_erase _ _ _

@[simp] theorem accountAt_putGroup (g : AccountGroup) (dn : String) :
    (dir.putGroup g).accountAt dn = dir.accountAt dn := rfl

@[simp] theorem accountAt_eraseGroup (dn d : String) :
    (dir.eraseGroup dn).accountAt d = dir.accountAt d := rfl

@[simp] theorem groupAt_putAccount (a : Account) (dn : String) :
    (dir.putAccount a).groupAt dn = dir.groupAt dn := rfl

@[simp] theorem groupAt_eraseAccount (dn d : String) :
    (dir.eraseAccount dn).groupAt d = dir.groupAt d := rfl

/-- No stored account has a transient password. -/
def WellStored : Prop := ∀ dn a, dir.accountAt dn = some a → a.transientPassword = none

/-- Looks up a stored account by its name. -/
theorem findAccount_putAccount (a : Account) :
    (dir.putAccount a).findAccount a.name = some a.stored := by
  rw [findAccount, accountAt_putAccount, if_pos rfl]

/-- Groups are found whatever the case of the name. -/
theorem findGroup_toLowerCase (name : String) :
    dir.findGroup (ctx.toLowerCase name) = dir.findGroup name := by
  rw [findGroup, findGroup, ctx.groupDN_toLowerCase]

theorem findGroup_putGroup (g : AccountGroup) : (dir.putGroup g).findGroup g.name = some g := by
  rw [findGroup, groupAt_putGroup, if_pos rfl]

theorem putAccount_putAccount {a b : Account} (h : ctx.userDN a.name = ctx.userDN b.name) :
    (dir.putAccount a).putAccount b = dir.putAccount b := by
  simp only [putAccount]
  rw [KeyedMap.put_put _ (u := a.stored) (v := b.stored) h]

theorem putGroup_putGroup {g h : AccountGroup} (hgh : ctx.groupDN g.name = ctx.groupDN h.name) :
    (dir.putGroup g).putGroup h = dir.putGroup h := by
  simp only [putGroup]
  rw [KeyedMap.put_put _ (u := g) (v := h) hgh]

/-- Names with one DN find one account. -/
theorem findAccount_congr {m n : String} (h : ctx.userDN m = ctx.userDN n) :
    dir.findAccount m = dir.findAccount n := congrArg dir.accountAt h

variable {dir}

theorem wellStored_empty : (empty : Directory ctx).WellStored := fun _ _ h =>
  absurd h (Option.some_ne_none _).symm

theorem WellStored.putAccount (h : dir.WellStored) (a : Account) : (dir.putAccount a).WellStored := by
  intro dn b hb
  rw [accountAt_putAccount] at hb
  split_ifs at hb
  · obtain rfl := Option.some.inj hb
    rfl
  · exact h dn b hb

theorem WellStored.eraseAccount (h : dir.WellStored) (dn : String) :
    (dir.eraseAccount dn).WellStored := by
  intro d b hb
  rw [accountAt_eraseAccount] at hb
  split_ifs at hb
  exact h d b hb

/-- An account stands under the DN of its name. -/
theorem userDN_of_accountAt {dn : String} {a : Account} (h : dir.accountAt dn = some a) :
    ctx.userDN a.name = dn := dir.accounts.key_of_lookup h

/-- A group stands under the DN of its name. -/
theorem groupDN_of_groupAt {dn : String} {g : AccountGroup} (h : dir.groupAt dn = some g) :
    ctx.groupDN g.name = dn := dir.groups.key_of_lookup h

/-- A stored account is found under its own name. -/
theorem findAccount_name {n : String} {a : Account} (h : dir.findAccount n = some a) :
    dir.findAccount a.name = some a := by
  rw [findAccount, userDN_of_accountAt h]
  exact h

/-- A stored group is found under its own name. -/
theorem findGroup_name {n : String} {g : AccountGroup} (h : dir.findGroup n = some g) :
    dir.findGroup g.name = some g := by
  rw [findGroup, groupDN_of_groupAt h]
  exact h

end Directory

/-- What a request can change. -/
structure World (ctx : LdapContext) where
  directory : Directory ctx := .empty
  sessions : String → Option Account := fun _ => none
  twoFactorUsers : List TwoFactorUser := []
  nextAuthId : ℕ := 0
  sent : List RootyMessage := []
  mail : List TemplatedMail := []
  keyFile : KeyFile := .missing
  calls : ℕ := 0

/-- What a request cannot change. -/
structure Env where
  ctx : LdapContext
  containsCircularReference : String → (AList fun _ : String => List String) → Bool
  isSameName : Account → Account → Bool
  acceptsLogin : LoginRequest → Account → Bool
  checkpw : String → String → Bool
  linuxName : ℤ → Option String
  hostname : String
  smtpUser : String
  availableRuntimes : List AppRuntime
  stackDepth : ℕ
  ldapaddReplaces : Bool
  deleteUserUnboxes : Bool
  random : ℕ → String
  currentTimeMillis : ℕ → ℕ
  sessionId : ℕ → String
  fails : External → ℕ → Bool

/-- A server on the mock directory with no failing system and no apps. -/
def Env.mock : Env where
  ctx := .mock
  containsCircularReference := Digraph.containsCircularReference
  isSameName := fun a b => a.name == b.name
  acceptsLogin := fun _ _ => true
  checkpw := fun password hash => password == hash
  linuxName := fun id => if id = 0 then some "UTC" else none
  hostname := "cloudstead.io"
  smtpUser := "mailer"
  availableRuntimes := []
  stackDepth := 100
  ldapaddReplaces := false
  deleteUserUnboxes := false
  random := fun _ => "rnd"
  currentTimeMillis := fun n => n
  sessionId := fun n => "session" ++ toString n
  fails := fun _ _ => false

namespace World

variable {ctx : LdapContext} (w : World ctx)

/-- One more call to an outside system. -/
def called : World ctx := { w with calls := w.calls + 1 }

/-- The directory rewritten. -/
def onDirectory (f : Directory ctx → Directory ctx) : World ctx :=
  { w with directory := f w.directory }

def putSession (id : String) (s : Option Account) : World ctx :=
  { w with sessions := Function.update w.sessions id s }

@[simp] theorem called_directory : w.called.directory = w.directory := rfl

@[simp] theorem called_sessions : w.called.sessions = w.sessions := rfl

@[simp] theorem onDirectory_directory (f : Directory ctx → Directory ctx) :
    (w.onDirectory f).directory = f w.directory := rfl

@[simp] theorem onDirectory_sessions (f : Directory ctx → Directory ctx) :
    (w.onDirectory f).sessions = w.sessions := rfl

@[simp] theorem putSession_directory (id : String) (s : Option Account) :
    (w.putSession id s).directory = w.directory := rfl

/-- The stores of `t` are those of `w`, but for the directory, which is `dir`.  What
was sent to other systems is not compared. -/
structure Leaves (dir : Directory ctx) (t : World ctx) : Prop where
  directory : t.directory = dir
  sessions : t.sessions = w.sessions
  keyFile : t.keyFile = w.keyFile

/-- The two worlds have the same stores. -/
abbrev Same (t : World ctx) : Prop := w.Leaves w.directory t

variable {w}

theorem Leaves.trans {dir dir' : Directory ctx} {t u : World ctx} (h : w.Leaves dir t)
    (h' : t.Leaves dir' u) : w.Leaves dir' u :=
  ⟨h'.directory, h'.sessions.trans h.sessions, h'.keyFile.trans h.keyFile⟩

theorem Leaves.same_trans {dir : Directory ctx} {t u : World ctx} (h : w.Leaves dir t)
    (h' : t.Same u) : w.Leaves dir u :=
  ⟨h'.directory.trans h.directory, h'.sessions.trans h.sessions, h'.keyFile.trans h.keyFile⟩

theorem Same.refl : w.Same w := ⟨rfl, rfl, rfl⟩

theorem same_called (w : World ctx) : w.Same w.called := ⟨rfl, rfl, rfl⟩

instance : Std.Refl (@Same ctx) := ⟨fun _ => Same.refl⟩

instance : IsTrans (World ctx) Same := ⟨fun _ _ _ => Leaves.same_trans⟩

/-- The two-factor provider has the same users in both worlds. -/
structure SameProvider (w t : World ctx) : Prop where
  twoFactorUsers : t.twoFactorUsers = w.twoFactorUsers
  nextAuthId : t.nextAuthId = w.nextAuthId

instance : Std.Refl (@SameProvider ctx) := ⟨fun _ => ⟨rfl, rfl⟩⟩

instance : IsTrans (World ctx) SameProvider := ⟨fun _ _ _ h h' =>
  ⟨h'.twoFactorUsers.trans h.twoFactorUsers, h'.nextAuthId.trans h.nextAuthId⟩⟩

end World

end CloudOs

/-
# An account is created, or nothing is

`AccountDAO.create` adds the entry first, and then enrols the account in the built-in groups,
sends an event and tells the apps.  What throws on the way is thrown on, and undoes nothing.
`setup` deletes the entry again when its update fails, and leaves the account's DN in the groups.

| what fails | the entry | the DN in the groups |
| --- | --- | --- |
| `ldapadd` | is not there | is not there |
| a later call of `create` | stays | stays as far as it came |
| the update of `setup` | is deleted, unless that fails too | stays |
| a later call of `setup` | stays | stays |

So a call that throws leaves no trace exactly when the entry was refused or every later call goes
through (`create_leavesNoTrace_iff`, `setup_leavesNoTrace_iff`).

The directory refuses a DN that exists.
-/

import CloudOs.Dao.Calls
import CloudOs.Groups.BuiltIn
import CloudOs.Resources.SetupResource

namespace CloudOs

open Prog AccountGroup AccountGroupDAO AccountDAO Groups

namespace Accounts

variable {env : Env} {w : World env.ctx}

/-! ### The calls of each step -/

/-- The calls that adding a member to the built-in group `n` makes. -/
def enrolCalls (dir : Directory env.ctx) (n : String) : List (Option External) :=
  if (dir.findGroup n).isSome then [some .ldap] else [some .ldap, some .ldap]

/-- The calls of `postCreate`. -/
def postCreateCalls (dir : Directory env.ctx) (account : Account) : List (Option External) :=
  enrolCalls dir DEFAULT_GROUP_NAME ++
    if account.isAdmin then enrolCalls dir ADMIN_GROUP_NAME else []

/-- The calls that `create` makes once the entry is there. -/
def createCalls (dir : Directory env.ctx) (account : Account) : List (Option External) :=
  postCreateCalls dir account ++ some .rooty :: broadcastCalls env (·.hasUserCreate)

theorem makes_ldapmodifyGroup {g : AccountGroup} (hg : (w.directory.findGroup g.name).isSome) :
    Makes (ldapmodifyGroup env g) w [some .ldap] ⟨⟩ (w.directory.putGroup g) :=
  Makes.ldapRequest (by simpa using hg)

theorem makes_addToBuiltIn (n : String) (account : Account) :
    Makes (addToBuiltIn env n account) w (enrolCalls w.directory n) (enrolled w.directory n account)
      (w.directory.putGroup (enrolled w.directory n account)) := by
  -- the group gets its member once it is there
  have hmodify : ∀ (g : AccountGroup) (v : World env.ctx), (v.directory.findGroup g.name).isSome →
      Makes (do
          ldapmodifyGroup env (g.addMember (env.ctx.userDN account.name))
          return g.addMember (env.ctx.userDN account.name) : Server env AccountGroup) v [some .ldap]
        (g.addMember (env.ctx.userDN account.name))
        (v.directory.putGroup (g.addMember (env.ctx.userDN account.name))) := by
    intro g v hg
    exact (makes_ldapmodifyGroup (by rwa [addMember_name])).bind_pure rfl
  refine Makes.get_bind ?_
  rw [enrolCalls, enrolled]
  cases hg : w.directory.findGroup n with
  | some g =>
    refine (Makes.pure g).bind fun t _ hdir => ?_
    have hstored : (t.directory.findGroup g.name).isSome := by
      rw [hdir, Directory.findGroup_name hg]
      rfl
    have hmakes := hmodify g t hstored
    rwa [hdir] at hmakes
  | none =>
    have hfresh : ((w.directory.findGroup (builtIn n).name).isSome && !env.ldapaddReplaces) = false := by
      rw [builtIn_name, hg]
      rfl
    refine (Makes.ldapRequest hfresh).bind fun t _ hdir => (Makes.pure (builtIn n)).bind fun u _ hu => ?_
    have hstored : (u.directory.findGroup (builtIn n).name).isSome := by
      rw [hu, hdir, Directory.findGroup_putGroup]
      rfl
    have hmakes := hmodify (builtIn n) u hstored
    rwa [hu, hdir, Directory.putGroup_putGroup _ (by rw [addMember_name])] at hmakes

theorem findGroup_putGroup_of_ne {dir : Directory env.ctx} {g : AccountGroup} {n : String}
    (h : env.ctx.groupDN n ≠ env.ctx.groupDN g.name) :
    (dir.putGroup g).findGroup n = dir.findGroup n := by
  rw [Directory.findGroup, Directory.groupAt_putGroup, if_neg h, ← Directory.findGroup]

theorem groupDN_enrolled (dir : Directory env.ctx) (n : String) (account : Account) :
    env.ctx.groupDN (enrolled dir n account).name = env.ctx.groupDN n := by
  rw [enrolled, addMember_name]
  cases hg : dir.findGroup n with
  | none => rfl
  | some g => exact Directory.groupDN_of_groupAt hg

theorem makes_postCreate (account : Account) :
    Makes (postCreate env account) w (postCreateCalls w.directory account) ⟨⟩
      (enrolledAll w.directory account) := by
  refine (makes_addToBuiltIn _ account).bind fun t _ hdir => ?_
  unfold enrolledAll
  dsimp only
  split_ifs with hadmin
  · have hstill : enrolCalls t.directory ADMIN_GROUP_NAME
        = enrolCalls w.directory ADMIN_GROUP_NAME := by
      rw [enrolCalls, enrolCalls, hdir, findGroup_putGroup_of_ne]
      rw [groupDN_enrolled]
      exact groupDN_default_ne_admin.symm
    rw [← hstill, ← hdir]
    exact (makes_addToBuiltIn ADMIN_GROUP_NAME account).bind_pure rfl
  · exact hdir ▸ .pure _

/-- The name is free, or the directory replaces what it has. -/
def MayAddAccount (dir : Directory env.ctx) (name : String) : Prop :=
  (dir.findAccount name).isSome = true → env.ldapaddReplaces = true

theorem makes_ldapCreate {account : Account} (h : MayAddAccount w.directory account.name) :
    Makes (ldapCreate env account) w (some .ldap :: postCreateCalls w.directory account) ⟨⟩
      (enrolledAll (w.directory.putAccount account) account) := by
  have hrefuses : ((w.directory.findAccount account.name).isSome && !env.ldapaddReplaces) = false := by
    cases hsome : (w.directory.findAccount account.name).isSome with
    | false => rfl
    | true => rw [h hsome, Bool.not_true, Bool.and_false]
  refine (Makes.ldapRequest hrefuses).bind fun t _ hdir => ?_
  have hmakes := makes_postCreate (w := t) account
  rw [hdir] at hmakes
  exact hmakes

theorem postCreateCalls_congr {dir : Directory env.ctx} {a b : Account}
    (h : a.isAdmin = b.isAdmin) : postCreateCalls dir a = postCreateCalls dir b := by
  rw [postCreateCalls, postCreateCalls, h]

theorem makes_createAccount {request : Account} (h : MayAddAccount w.directory request.name) :
    Makes (createAccount env request) w (none :: some .ldap :: createCalls w.directory request)
      (request, newAccount request (env.random w.calls) (env.currentTimeMillis w.calls))
      (enrolledAll (w.directory.putAccount
          (newAccount request (env.random w.calls) (env.currentTimeMillis w.calls)))
        (newAccount request (env.random w.calls) (env.currentTimeMillis w.calls))) := by
  refine Makes.draw.bind fun t _ hdir => ?_
  generalize haccount : newAccount request (env.random w.calls) (env.currentTimeMillis w.calls)
    = account
  have hname : account.name = request.name := haccount ▸ rfl
  have hadmin : account.isAdmin = request.isAdmin := by
    rw [← haccount, newAccount_isAdmin]
  have hfree : MayAddAccount t.directory account.name := by
    rw [hdir, hname]
    exact h
  have hmakes := makes_ldapCreate hfree
  rw [hdir, postCreateCalls_congr hadmin] at hmakes
  refine Makes.rethrow (fun e => rfl) hmakes fun u _ hu => ?_
  refine (Makes.writeRooty _).bind fun v _ hv => ?_
  rw [← hu, ← hv]
  exact (makes_broadcast (·.hasUserCreate) .user_create [account.name]).bind_pure rfl

/-- The draw of a password for a request that has none. -/
def passwordCalls (request : Account) : List (Option External) :=
  if request.hasPassword then [] else [none]

/-- The calls of `create`. -/
def addCalls (dir : Directory env.ctx) (request : Account) : List (Option External) :=
  passwordCalls request ++ none :: some .ldap :: createCalls dir request

/-- **The calls of `create`** under a name that the directory takes. -/
theorem makes_create {request : Account} (h : MayAddAccount w.directory request.name) :
    Makes (AccountDAO.create env request) w (addCalls w.directory request)
      (withPassword env w.calls request, created env w.calls request)
      (enrolledAll (w.directory.putAccount (created env w.calls request))
        (created env w.calls request)) := by
  unfold AccountDAO.create created withPassword afterPassword addCalls passwordCalls
  split_ifs
  · exact makes_createAccount h
  · refine Makes.draw.bind fun t hcalls hdir => ?_
    have hfree : MayAddAccount t.directory
        (request.setPassword (some (env.random w.calls))).name := by
      rw [hdir, Account.setPassword_name]
      exact h
    have hmakes := makes_createAccount hfree
    rw [hdir, hcalls] at hmakes
    have hadmin : createCalls w.directory (request.setPassword (some (env.random w.calls)))
        = createCalls w.directory request := by
      rw [createCalls, createCalls, postCreateCalls_congr (request.setPassword_isAdmin _)]
    rw [hadmin] at hmakes
    exact hmakes

theorem callsGo_addCalls_iff (request : Account) :
    CallsGo env w.calls (addCalls w.directory request) ↔
      env.fails .ldap (afterPassword w.calls request + 1) = false ∧
      CallsGo env (afterPassword w.calls request + 2) (createCalls w.directory request) := by
  unfold addCalls passwordCalls afterPassword
  split_ifs <;> exact Iff.rfl

/-! ### What a call that throws leaves -/

/-- From `w` to `t` no entry appears under the name, and no group comes to list its DN. -/
structure NoTrace (name : String) (w t : World env.ctx) : Prop where
  entry : t.directory.findAccount name = w.directory.findAccount name
  listed : ∀ n, InGroup t.directory n (env.ctx.userDN name) ↔
    InGroup w.directory n (env.ctx.userDN name)

theorem NoTrace.of_directory {name : String} {t : World env.ctx} (h : t.directory = w.directory) :
    NoTrace name w t := ⟨by rw [h], fun n => by rw [h]⟩

/-- A `create` that throws leaves no trace of the account. -/
def CreateLeavesNoTrace (env : Env) (w : World env.ctx) (request : Account) : Prop :=
  Ends (AccountDAO.create env request) w fun r t => ∀ e, r = .error e → NoTrace request.name w t

/-- A name that is added where the directory refuses what it has was free. -/
theorem free_of_addGoes (hrefuses : env.ldapaddReplaces = false) {n : ℕ} {dir : Directory env.ctx}
    {name : String} (h : AddGoes env n dir name) : dir.findAccount name = none := by
  cases he : dir.findAccount name with
  | none => rfl
  | some e =>
    have hreplaces := h.2 (by rw [he]; rfl)
    exact absurd (hrefuses.symm.trans hreplaces) Bool.noConfusion

/-- An account that was added leaves its entry. -/
theorem not_noTrace_of_added {account : Account} {t : World env.ctx} (h : Added w account t)
    (hfree : w.directory.findAccount account.name = none) : ¬ NoTrace account.name w t := by
  intro htrace
  have hentry := htrace.entry
  rw [hfree, Directory.findAccount, h.accountAt, ← Directory.findAccount,
    Directory.findAccount_putAccount] at hentry
  exact absurd hentry (Option.some_ne_none _)

/-- **What a `create` that throws leaves.**  It leaves no trace exactly when the entry was refused, or
every call after it goes through. -/
theorem create_leavesNoTrace_iff (hrefuses : env.ldapaddReplaces = false) (w : World env.ctx)
    (request : Account) :
    CreateLeavesNoTrace env w request ↔
      ¬ AddGoes env (afterPassword w.calls request + 1) w.directory request.name ∨
      CallsGo env (afterPassword w.calls request + 2) (createCalls w.directory request) := by
  by_cases hgoes : AddGoes env (afterPassword w.calls request + 1) w.directory request.name
  · rw [or_iff_right (not_not.2 hgoes)]
    refine ends_iff (((create_creates request).and (makes_create hgoes.2).ok_iff).mono fun r t hend => ?_)
    obtain ⟨hcreates, hok⟩ := hend
    rw [callsGo_addCalls_iff, and_iff_right hgoes.1] at hok
    rw [← hok]
    cases r with
    | ok a => exact iff_of_true (fun e he => of_error_eq_ok he.symm) ⟨a, rfl⟩
    | error e =>
      refine iff_of_false (fun h => ?_) not_exists_error_eq_ok
      rcases hcreates with ⟨hnot, -⟩ | ⟨-, hadded, -⟩
      · exact hnot hgoes
      · have hfree := free_of_addGoes hrefuses hgoes
        have htrace := not_noTrace_of_added hadded (by rwa [created_name])
        rw [created_name] at htrace
        exact htrace (h e rfl)
  · refine ends_iff ((create_creates request).mono fun r t hend => ?_)
    rcases hend with ⟨-, -, hsame⟩ | ⟨hadds, -⟩
    · exact iff_of_true (fun e _ => .of_directory hsame.directory) (Or.inl hgoes)
    · exact absurd hadds hgoes

end Accounts

end CloudOs

/-
# Runs of DAO operations

A run is a list of calls to the two DAOs, one after the other, each from the
state the one before has left.  A call that throws keeps what it has written.

`Writes op dir dir'` lists what one call can do to the directory.  It is proved
once of every call (`step_writes`), and the invariants of groups are proved by
cases on it.
-/

import CloudOs.Dao.AccountDAO
import CloudOs.Lib.Runs

namespace CloudOs

open Prog AccountGroupDAO

/-- A call of `AccountDAO` that writes. -/
inductive AccountOp
  | create (request : Account)
  | update (account : Account)
  | delete (accountName : String)

/-- A call of one of the two DAOs. -/
inductive DaoOp
  | onAccount (op : AccountOp)
  | createGroup (request : AccountGroupRequest) (recipients : List String)
  | updateGroup (request : AccountGroupRequest)
  | deleteGroup (name : String)
  | addToDefaultGroup (account : Account)
  | addToAdminGroup (account : Account)

variable (env : Env)

/-- The state after the call of `AccountDAO`, however it ends. -/
def AccountOp.step (w : World env.ctx) : AccountOp → World env.ctx
  | .create request => after (AccountDAO.create env request) w
  | .update account => after (AccountDAO.update env account) w
  | .delete accountName => after (AccountDAO.delete env accountName) w

/-- The state after the call, however it ends. -/
def DaoOp.step (w : World env.ctx) : DaoOp → World env.ctx
  | .onAccount op => op.step env w
  | .createGroup request recipients => after (AccountGroupDAO.create env request recipients) w
  | .updateGroup request => after (AccountGroupDAO.update env request) w
  | .deleteGroup name => after (AccountGroupDAO.delete env name) w
  | .addToDefaultGroup account => after (AccountGroupDAO.addToDefaultGroup env account) w
  | .addToAdminGroup account => after (AccountGroupDAO.addToAdminGroup env account) w

variable {env}

/-- What a call can do to the directory. -/
inductive Writes : DaoOp → Directory env.ctx → Directory env.ctx → Prop
  | nothing {op : DaoOp} {dir : Directory env.ctx} : Writes op dir dir
  | addsAccount {request a : Account} {dir dir' : Directory env.ctx} (name : a.name = request.name)
      (enrolls : Relation.ReflTransGen (Enrolls a) (dir.putAccount a) dir') :
      Writes (.onAccount (.create request)) dir dir'
  | updatesAccount {request e a : Account} {dir : Directory env.ctx}
      (stored : dir.findAccount request.name = some e) (name : a.name = e.name) :
      Writes (.onAccount (.update request)) dir (dir.putAccount a)
  | deletesAccount {accountName : String} {dir : Directory env.ctx}
      (stored : (dir.findAccount accountName).isSome = true) :
      Writes (.onAccount (.delete accountName)) dir (dir.eraseAccount (env.ctx.userDN accountName))
  | addsBuiltIns {request : AccountGroupRequest} {recipients : List String}
      {dir dir' : Directory env.ctx} (adds : Relation.ReflTransGen AddsBuiltIn dir dir') :
      Writes (.createGroup request recipients) dir dir'
  | createsGroup {request : AccountGroupRequest} {recipients : List String} {g : AccountGroup}
      {dir dir' : Directory env.ctx} (adds : Relation.ReflTransGen AddsBuiltIn dir dir')
      (mirrors : dir' = request.getMirrorList.foldl addMirror dir)
      (creates : Creates request recipients dir' g) :
      Writes (.createGroup request recipients) dir (dir'.putGroup g)
  | updatesGroup {request : AccountGroupRequest} {g g' : AccountGroup} {dir : Directory env.ctx}
      (recipients : request.recipients ≠ []) (updates : Updates request dir g g') :
      Writes (.updateGroup request) dir (dir.putGroup g')
  | emptiesGroup {request : AccountGroupRequest} {g : AccountGroup} {dir : Directory env.ctx}
      (recipients : request.recipients = []) (deletes : Deletes dir (env.ctx.getName request) g) :
      Writes (.updateGroup request) dir (dir.eraseGroup (env.ctx.groupDN (env.ctx.getName request)))
  | deletesGroup {name : String} {g : AccountGroup} {dir : Directory env.ctx}
      (deletes : Deletes dir name g) :
      Writes (.deleteGroup name) dir (dir.eraseGroup (env.ctx.groupDN name))
  | addsToDefaultGroup {account : Account} {dir dir' : Directory env.ctx}
      (enrolls : Relation.ReflTransGen (Enrolls account) dir dir') :
      Writes (.addToDefaultGroup account) dir dir'
  | addsToAdminGroup {account : Account} {dir dir' : Directory env.ctx}
      (enrolls : Relation.ReflTransGen (Enrolls account) dir dir') :
      Writes (.addToAdminGroup account) dir dir'

/-- A call that leaves the stores alone writes nothing. -/
theorem writes_of_same {op : DaoOp} {w t : World env.ctx} (h : w.Same t) :
    Writes op w.directory t.directory := h.directory ▸ .nothing

theorem ends_after {α : Type} {op : DaoOp} {m : Server env α} {w : World env.ctx}
    (h : Ends m w fun _ t => Writes op w.directory t.directory) :
    Writes op w.directory (after m w).directory := h

theorem AccountOp.step_writes (w : World env.ctx) (op : AccountOp) :
    Writes (.onAccount op) w.directory (op.step env w).directory := by
  cases op with
  | create request =>
    refine ends_after ((AccountDAO.create_ends request).mono fun _ t h => ?_)
    rcases h with ⟨_, hs⟩ | ⟨account, hmade, hadded, _⟩
    · exact writes_of_same hs
    · obtain ⟨dir, hdir, ht⟩ := hadded.enrolls
      exact ht.directory ▸ .addsAccount hmade.name hdir
  | update account =>
    refine ends_after ((AccountDAO.update_ends account).mono fun _ t h => ?_)
    rcases h with ⟨_, hs⟩ | ⟨e, he, ⟨_, a, ha, ht⟩ | ⟨a, _, ha, ht⟩⟩
    · exact writes_of_same hs
    · exact ht.directory ▸ .updatesAccount he ha.name
    · exact ht.directory ▸ .updatesAccount he ha.name
  | delete accountName =>
    refine ends_after ((AccountDAO.delete_ends accountName).mono fun _ t h => ?_)
    rcases h with hs | ⟨he, ht⟩
    · exact writes_of_same hs
    · exact ht.directory ▸ .deletesAccount he

/-- **What one call can do.** -/
theorem DaoOp.step_writes (w : World env.ctx) (op : DaoOp) :
    Writes op w.directory (op.step env w).directory := by
  cases op with
  | onAccount op => exact op.step_writes w
  | createGroup request recipients =>
    refine ends_after ((AccountGroupDAO.create_ends request recipients).mono fun _ t h => ?_)
    rcases h with ⟨dir, hadds, ht⟩ | ⟨dir, g, hadds, hdir, hcreates, ht⟩
    · exact ht.directory ▸ .addsBuiltIns hadds
    · exact ht.directory ▸ .createsGroup hadds hdir hcreates
  | updateGroup request =>
    refine ends_after ((AccountGroupDAO.update_ends request).mono fun _ t h => ?_)
    rcases h with hs | ⟨hempty, g, hdeletes, ht⟩ | ⟨hne, g, g', hupdates, ht⟩
    · exact writes_of_same hs
    · exact ht.directory ▸ .emptiesGroup hempty hdeletes
    · exact ht.directory ▸ .updatesGroup hne hupdates
  | deleteGroup name =>
    refine ends_after ((AccountGroupDAO.delete_ends name).mono fun _ t h => ?_)
    rcases h with hs | ⟨g, hdeletes, ht⟩
    · exact writes_of_same hs
    · exact ht.directory ▸ .deletesGroup hdeletes
  | addToDefaultGroup account =>
    refine ends_after ((addToBuiltIn_ends rfl account).mono fun _ t h => ?_)
    obtain ⟨⟨dir, hdir, ht⟩, -⟩ := h
    exact ht.directory ▸ .addsToDefaultGroup hdir
  | addToAdminGroup account =>
    refine ends_after ((addToBuiltIn_ends rfl account).mono fun _ t h => ?_)
    obtain ⟨⟨dir, hdir, ht⟩, -⟩ := h
    exact ht.directory ▸ .addsToAdminGroup hdir

end CloudOs

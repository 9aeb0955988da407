/-
# `AccountGroupsResource`

An admin creates, updates, reads and removes groups.  Groups stand in the directory; whoever
delivers mail learns of them from events, as each group is an alias for its members.

| request | does, in this order |
| --- | --- |
| `create` | `groupDAO.create`; builds the view; `NewEmailAliasEvent` |
| `update` | `groupDAO.update`, which may delete the group; `NewEmailAliasEvent` |
| `remove` | `groupDAO.delete`; `RemoveEmailAliasEvent` |
| `find` | `groupDAO.buildGroupMemberList`; builds the view |

`created` is a log of the model: the names of the groups that stand in the directory because
`create` has put them there.  `getFirstDnValue`, which reads a name off a DN, belongs to the LDAP
library and is a parameter.
-/

import CloudOs.Dao.AccountGroupDAO
import CloudOs.Model.Answers

namespace CloudOs

open Prog AccountGroup

/-- `AccountGroupMemberType`. -/
inductive AccountGroupMemberType
  | account | group
  deriving DecidableEq, Repr

/-- `cloudos.model.support.AccountGroupMemberView`. -/
structure AccountGroupMemberView where
  name : String
  type : AccountGroupMemberType
  deriving DecidableEq, Repr

/-- `cloudos.model.support.AccountGroupView`: what it copies of a group, which has no `info`, and
the members. -/
structure AccountGroupView where
  name : String
  mirrors : List String
  members : List AccountGroupMemberView
  deriving DecidableEq, Repr

/-- A message about a mail alias. -/
inductive EmailAliasEvent
  | newEmailAlias (name : String) (recipients : List String)
  | removeEmailAlias (name : String)
  deriving DecidableEq, Repr

namespace AccountGroupsResource

/-- What an OK answer carries. -/
inductive Body
  | view (v : AccountGroupView)
  | group (g : Option AccountGroup)
  | done

/-- What a request can change. -/
structure State (ctx : LdapContext) where
  world : World ctx := {}
  announced : List EmailAliasEvent := []
  created : List String := []

/-- A method of the resource. -/
abbrev Method (env : Env) (α : Type) := Prog (State env.ctx) Exn α

variable (env : Env) (getFirstDnValue : String → String)

/-- A method of another class, which knows nothing of the aliases. -/
def onWorld {α : Type} (m : Server env α) : Method env α :=
  zoom State.world (fun world s => { s with world }) m

/-- `announce(event)`. -/
def announce (event : EmailAliasEvent) : Method env PUnit := do
  onWorld env (call env .rooty)
  modify fun s => { s with announced := s.announced ++ [event] }

/-- `new AccountGroupMember(group.getDn(), dn, config)` and its view. -/
def memberView (dn : String) : Except Exn AccountGroupMemberView :=
  if startsWith dn (env.ctx.user_username ++ "=") then .ok ⟨getFirstDnValue dn, .account⟩
  else if startsWith dn (env.ctx.group_name ++ "=") then .ok ⟨getFirstDnValue dn, .group⟩
  else .error (.die ("AccountGroupMember: " ++ dn))

/-- `buildAccountGroupView`, with members. -/
def buildAccountGroupView (group : AccountGroup) (members : List String) :
    Except Exn AccountGroupView := do
  return ⟨group.name, group.getMirrors, ← members.mapM (memberView env getFirstDnValue)⟩

/-- The first lines of each method. -/
def withAdmin (apiKey : String) (body : Account → Method env (Answer Body)) :
    Method env (Answer Body) := do
  let s ← get
  asAdmin s.world.sessions apiKey body

/-- The check of the name in the request against the one in the path. -/
def checkName {α : Type} (groupName : String) (groupRequest : AccountGroupRequest)
    (rest : Method env α) : Method env α :=
  if !env.ctx.equalsIgnoreCase groupName (env.ctx.getName groupRequest) then
    throw (.invalidEx "\x7berr.name.mismatch\x7d"
      (some "group name in json was different from uri"))
  else rest

/-- The recipients of a `create`: an empty group that mirrors nothing gets the caller. -/
def recipientsOf (admin : Account) (groupRequest : AccountGroupRequest) : List String :=
  let recipients := groupRequest.recipients.map env.ctx.toLowerCase
  if recipients.isEmpty && !groupRequest.hasMirror then recipients ++ [admin.name] else recipients

/-- `create`. -/
def create (apiKey groupName : String) (groupRequest : AccountGroupRequest) :
    Method env (Answer Body) :=
  withAdmin env apiKey fun admin =>
    let groupName := env.ctx.toLowerCase groupName
    let recipients := recipientsOf env admin groupRequest
    checkName env groupName groupRequest do
      let created ← onWorld env (AccountGroupDAO.create env groupRequest recipients)
      modify fun s => { s with created := groupName :: s.created }
      let view ← reads fun _ => buildAccountGroupView env getFirstDnValue created created.getMembers
      announce env (.newEmailAlias groupName recipients)
      return .ok (.view view)

/-- `update`. -/
def update (apiKey groupName : String) (groupRequest : AccountGroupRequest) :
    Method env (Answer Body) :=
  withAdmin env apiKey fun _ =>
    let groupName := env.ctx.toLowerCase groupName
    checkName env groupName groupRequest do
      let s ← get
      match s.world.directory.findGroup groupName with
      | none => return .notFound groupName
      | some _ => do
        let group ← onWorld env (AccountGroupDAO.update env groupRequest)
        if group.isNone then
          modify fun s => { s with created := s.created.filter (· ≠ groupName) }
        announce env (.newEmailAlias groupName groupRequest.recipients)
        return .ok (.group group)

/-- `remove`. -/
def remove (apiKey groupName : String) : Method env (Answer Body) :=
  withAdmin env apiKey fun _ => do
    let groupName := env.ctx.toLowerCase groupName
    let s ← get
    match s.world.directory.findGroup groupName with
    | none => return .notFound groupName
    | some group => do
      onWorld env (AccountGroupDAO.delete env group.name)
      modify fun s => { s with created := s.created.filter (· ≠ groupName) }
      announce env (.removeEmailAlias groupName)
      return .ok .done

/-- `find`. -/
def find (apiKey groupName : String) : Method env (Answer Body) :=
  withAdmin env apiKey fun _ => do
    let groupName := env.ctx.toLowerCase groupName
    let s ← get
    match s.world.directory.findGroup groupName with
    | none => return .notFound groupName
    | some group => do
      let members ← reads fun s =>
        AccountGroupDAO.buildGroupMemberList s.world.directory env.stackDepth group
      let view ← reads fun _ => buildAccountGroupView env getFirstDnValue group members
      return .ok (.view view)

/-- What `LdapUtil.getFirstDnValue` reads off a plain DN: the text from the first `=` to the next
`,`. -/
def firstDnValue (dn : String) : String :=
  String.ofList (((dn.toList.dropWhile (· ≠ '=')).drop 1).takeWhile (· ≠ ','))

/-- A request that may change groups. -/
inductive Request
  | create (apiKey groupName : String) (groupRequest : AccountGroupRequest)
  | update (apiKey groupName : String) (groupRequest : AccountGroupRequest)
  | remove (apiKey groupName : String)

/-- The state after a request, however it ends. -/
def step (s : State env.ctx) : Request → State env.ctx
  | .create apiKey groupName groupRequest =>
    after (create env getFirstDnValue apiKey groupName groupRequest) s
  | .update apiKey groupName groupRequest => after (update env apiKey groupName groupRequest) s
  | .remove apiKey groupName => after (remove env apiKey groupName) s

/-! ### How the calls end -/

section Ends

variable {env getFirstDnValue} {s : State env.ctx}

@[simp] theorem ends_onWorld {α : Type} (m : Server env α)
    (Q : Except Exn α → State env.ctx → Prop) :
    Ends (onWorld env m) s Q ↔ Ends m s.world fun r world => Q r { s with world } := Iff.rfl

/-- An event is written, unless the call fails. -/
theorem ends_announce (event : EmailAliasEvent) (Q : Except Exn PUnit → State env.ctx → Prop) :
    Ends (announce env event) s Q ↔
      if env.fails .rooty s.world.calls = true then
        Q (.error (.failed .rooty)) { s with world := s.world.called }
      else Q (.ok ⟨⟩)
        { s with world := s.world.called, announced := s.announced ++ [event] } := by
  simp only [announce, ends_bind, ends_onWorld, ends_call]
  cases env.fails .rooty s.world.calls <;> exact Iff.rfl

/-- The DN of an account or a group has a view. -/
theorem memberView_ok {dn : String}
    (h : ∃ n, dn = env.ctx.userDN n ∨ dn = env.ctx.groupDN n) :
    ∃ v, memberView env getFirstDnValue dn = .ok v := by
  obtain ⟨n, hn⟩ := h
  unfold memberView
  split_ifs with huser hgroup
  · exact ⟨_, rfl⟩
  · exact ⟨_, rfl⟩
  · rcases hn with rfl | rfl
    · exact absurd (env.ctx.userDN_startsWith n) huser
    · exact absurd (env.ctx.groupDN_startsWith n) hgroup

theorem memberView_name {dn : String} {v : AccountGroupMemberView}
    (h : memberView env getFirstDnValue dn = .ok v) : v.name = getFirstDnValue dn := by
  unfold memberView at h
  split_ifs at h
  · obtain rfl := Except.ok.inj h
    rfl
  · obtain rfl := Except.ok.inj h
    rfl

/-- A group whose members are accounts and groups has a view. -/
theorem buildAccountGroupView_ok (g : AccountGroup) {members : List String}
    (h : ∀ dn ∈ members, ∃ n, dn = env.ctx.userDN n ∨ dn = env.ctx.groupDN n) :
    ∃ view, buildAccountGroupView env getFirstDnValue g members = .ok view := by
  have hviews : ∃ views, members.mapM (memberView env getFirstDnValue) = .ok views := by
    induction members with
    | nil => exact ⟨[], rfl⟩
    | cons dn members ih =>
      obtain ⟨v, hv⟩ := memberView_ok (h dn List.mem_cons_self)
      obtain ⟨views, hviews⟩ := ih fun d hd => h d (List.mem_cons_of_mem dn hd)
      refine ⟨v :: views, ?_⟩
      rw [List.mapM_cons, hv, hviews]
      rfl
  obtain ⟨views, hviews⟩ := hviews
  refine ⟨⟨g.name, g.getMirrors, views⟩, ?_⟩
  rw [buildAccountGroupView, hviews]
  rfl

/-- **A view** has the name of its group, and the names of the members. -/
theorem names_of_view {g : AccountGroup} {members : List String} {view : AccountGroupView}
    (h : buildAccountGroupView env getFirstDnValue g members = .ok view) :
    view.name = g.name ∧ view.members.map (·.name) = members.map getFirstDnValue := by
  obtain ⟨views, hviews, hview⟩ := exists_of_bind_eq_ok h
  obtain rfl := Except.ok.inj hview
  refine ⟨rfl, ?_⟩
  clear h hview
  rw [mapM_ok_iff] at hviews
  induction hviews with
  | nil => rfl
  | cons hmember _ ih =>
    rw [List.map_cons, List.map_cons, memberView_name hmember]
    exact congrArg _ ih

/-- **`find`** of a group that is stored answers an admin its view, if it has one. -/
theorem find_returns (apiKey : String) {groupName : String} {g : AccountGroup}
    (hg : s.world.directory.findGroup groupName = some g) :
    Ends (find env getFirstDnValue apiKey groupName) s fun r t => t = s ∧
      (¬ IsAdminSession s.world.sessions apiKey → isOk r = false) ∧
      (IsAdminSession s.world.sessions apiKey → r = do
        let members ←
          AccountGroupDAO.buildGroupMemberList s.world.directory env.stackDepth g
        let view ← buildAccountGroupView env getFirstDnValue g members
        return .ok (.view view)) := by
  unfold find withAdmin
  rw [ends_bind, ends_get]
  refine ends_asAdmin (fun hrefused a hnot => ⟨rfl, fun _ => hnot, fun h => absurd h hrefused⟩)
    fun admin hsession hcaller => ?_
  have hlower : s.world.directory.findGroup (env.ctx.toLowerCase groupName) = some g := by
    rw [Directory.findGroup_toLowerCase, hg]
  simp only [ends_bind, ends_get, hlower, ends_reads]
  cases AccountGroupDAO.buildGroupMemberList s.world.directory env.stackDepth g with
  | error e => exact ⟨trivial, fun h => absurd hcaller h, fun _ => rfl⟩
  | ok members =>
    dsimp only [bind, Except.bind]
    cases buildAccountGroupView env getFirstDnValue g members with
    | error e => exact ⟨trivial, fun h => absurd hcaller h, fun _ => rfl⟩
    | ok view => exact ⟨rfl, fun h => absurd hcaller h, fun _ => rfl⟩

/-- **`update`** by an admin of a group that is stored leaves the directory as the DAO does. -/
theorem ends_update {apiKey groupName : String} {groupRequest : AccountGroupRequest}
    {P : Directory env.ctx → Prop} (hcaller : IsAdminSession s.world.sessions apiKey)
    (hname : env.ctx.toLowerCase groupName = env.ctx.getName groupRequest)
    (hstored : (s.world.directory.findGroup groupName).isSome = true)
    (h : Ends (AccountGroupDAO.update env groupRequest) s.world fun _ w => P w.directory) :
    Ends (update env apiKey groupName groupRequest) s fun _ t => P t.world.directory := by
  unfold update withAdmin
  rw [ends_bind, ends_get]
  refine ends_asAdmin (fun hrefused => absurd hcaller hrefused) fun admin hsession _ => ?_
  obtain ⟨g, hg⟩ := Option.isSome_iff_exists.1 hstored
  have hlower : s.world.directory.findGroup (env.ctx.toLowerCase groupName) = some g := by
    rw [Directory.findGroup_toLowerCase, hg]
  have hsame : (!env.ctx.equalsIgnoreCase (env.ctx.toLowerCase groupName)
      (env.ctx.getName groupRequest)) = false := by
    simp [hname, LdapContext.equalsIgnoreCase]
  rw [checkName, hsame, if_neg Bool.false_ne_true]
  simp only [ends_bind, ends_get, hlower, ends_onWorld]
  refine h.mono fun r w hw => ?_
  have hannounce : ∀ (t : State env.ctx) (event : EmailAliasEvent) (body : Body),
      P t.world.directory → Ends (do announce env event; return Answer.ok body : Method env _) t
        fun _ t => P t.world.directory := by
    intro t event body ht
    simp only [ends_bind, ends_announce]
    split_ifs
    · exact ht
    · exact ht
  cases r with
  | error e => exact hw
  | ok group =>
    cases group with
    | none => exact hannounce _ _ _ hw
    | some g => exact hannounce _ _ _ hw

end Ends

end AccountGroupsResource

end CloudOs

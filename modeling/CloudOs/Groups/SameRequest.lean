/-
# One request, created and updated

`create` and `update` build the stored group field by field from the same request.

| field | `create` | `update` |
| --- | --- | --- |
| members | the recipients | the recipients; without any, the group is deleted |
| mirrors | the request's | the request's behind those of the stored group |
| description | the request's | the request's |
| storage quota | none | the request's |

`Means` is what the request asks for.  `create` gives it to a request without a quota,
whose group has an effective member; `update` gives it to a group that had no mirrors
(`create_update_mean_iff`).  The second of the two calls changes what the first one left,
unless the request has recipients and neither mirrors nor a quota.
-/

import CloudOs.Groups.AllOrNothing

namespace CloudOs

open Prog AccountGroup AccountGroupDAO

namespace Groups

variable {env : Env} {w : World env.ctx} {dir : Directory env.ctx}
  {request : AccountGroupRequest} {recipients dns : List String}

/-- The group is what the request asks for, with the DNs its recipients resolve to. -/
structure Means (request : AccountGroupRequest) (dns : List String) (g : AccountGroup) : Prop where
  members : ∀ m, m ∈ g.getMembers ↔ m ∈ dns
  mirrors : g.getMirrors = request.getMirrorList
  description : g.getSingle .description = request.description
  storageQuota : g.getSingle .storageQuota = request.storageQuota

/-- A valid request: its mirrors exist, its recipients resolve to `dns` and make no circle, and
there are recipients or mirrors.  `recipients` is the list that `create` is given, in which the
resource has lowered the case of the names. -/
structure ValidRequest (request : AccountGroupRequest) (recipients dns : List String)
    (dir : Directory env.ctx) : Prop where
  mirrors : ∀ m ∈ request.getMirrorList, (dir.findGroup m).isSome
  resolves : request.recipients.mapM (findAccountOrGroupDN dir) = .ok dns
  given : recipients.mapM (findAccountOrGroupDN dir) = .ok dns
  noCycle : createsCircularReference dir env.containsCircularReference (env.ctx.getName request)
    recipients = .ok false
  notEmpty : request.recipients ≠ [] ∨ request.getMirrorList ≠ []

/-! ### The fields of the two groups -/

/-- The group that `create` adds. -/
def createdGroup (env : Env) (request : AccountGroupRequest) (dns : List String) : AccountGroup :=
  (newGroup env request).setMembers dns.dedup

/-- The group that `create` adds has no quota. -/
theorem createdGroup_get_storageQuota : (createdGroup env request dns).get .storageQuota = [] := by
  rw [createdGroup, setMembers_get _ (by decide)]
  simp [newGroup, setMirrors, setDescription, LdapEntity.appendAll, LdapEntity.set, AccountGroup.new,
    LdapEntity.new, LdapEntity.get, LdapEntity.put]

theorem createdGroup_getMirrors :
    (createdGroup env request dns).getMirrors = request.getMirrorList := by
  rw [createdGroup, setMembers_getMirrors]
  simp [newGroup]

theorem createdGroup_get_description :
    (createdGroup env request dns).get .description = request.description.toList := by
  rw [createdGroup, setMembers_get _ (by decide)]
  simp [newGroup, setMirrors, setDescription, LdapEntity.appendAll, LdapEntity.set]

theorem createdGroup_means_iff : Means request dns (createdGroup env request dns) ↔
    request.storageQuota = none := by
  have hquota : (createdGroup env request dns).getSingle .storageQuota = none :=
    congrArg List.head? createdGroup_get_storageQuota
  constructor
  · intro h
    rw [← h.storageQuota, hquota]
  · intro h
    refine ⟨fun m => ?_, createdGroup_getMirrors, ?_, hquota.trans h.symm⟩
    · rw [createdGroup, mem_setMembers, List.mem_dedup]
    · rw [LdapEntity.getSingle, ← LdapEntity.get, createdGroup_get_description, Option.head?_toList]

/-- The group that `update` writes keeps the mirrors it had. -/
theorem updatedGroup_means_iff (g : AccountGroup) :
    Means request dns (updatedGroup request g dns.dedup) ↔ g.getMirrors = [] := by
  constructor
  · intro h
    have hmirrors := h.mirrors
    simpa [updatedGroup] using hmirrors
  · intro h
    refine ⟨fun m => ?_, ?_, ?_, ?_⟩
    · simp [updatedGroup]
    · simp [updatedGroup, h]
    · simp [updatedGroup, setMirrors, setStorageQuota, setDescription, LdapEntity.appendAll,
        LdapEntity.set]
    · simp [updatedGroup, setMirrors, setStorageQuota, LdapEntity.appendAll, LdapEntity.set]

/-! ### A valid request in the two methods -/

theorem foldl_addMirror_of_stored {mirrors : List String}
    (h : ∀ m ∈ mirrors, (dir.findGroup m).isSome) : mirrors.foldl addMirror dir = dir := by
  induction mirrors with
  | nil => rfl
  | cons mirror mirrors ih =>
    obtain ⟨hmirror, hmirrors⟩ := List.forall_mem_cons.1 h
    rw [List.foldl_cons, addMirror, if_pos hmirror]
    exact ih hmirrors

theorem additions_of_stored {mirrors : List String}
    (h : ∀ m ∈ mirrors, (dir.findGroup m).isSome) : additions dir mirrors = 0 := by
  induction mirrors with
  | nil => rfl
  | cons mirror mirrors ih =>
    obtain ⟨hmirror, hmirrors⟩ := List.forall_mem_cons.1 h
    rw [additions_cons_stored hmirror]
    exact ih hmirrors

/-- The search depends on the names through their DNs. -/
theorem createsCircularReference_congr {search : String → (AList fun _ : String => List String) → Bool}
    {group : String} {l l' : List String}
    (h : l.mapM (findAccountOrGroupDN dir) = l'.mapM (findAccountOrGroupDN dir)) :
    createsCircularReference dir search group l = createsCircularReference dir search group l' := by
  rw [createsCircularReference, createsCircularReference, h]

/-- What `create` needs of the state to go through with a valid request. -/
structure Accepts (env : Env) (w : World env.ctx) (request : AccountGroupRequest)
    (recipients : List String) : Prop where
  notUser : w.directory.findAccount (env.ctx.getName request) = none
  hasMembers : ∃ members, buildRecipientList w.directory env.stackDepth (newGroup env request)
    recipients true = .ok members ∧ members ≠ []
  taken : env.fails .ldap w.calls = false

/-- Names that resolve to equally many DNs are equally many. -/
theorem ne_nil_of_resolves {l l' : List String} (h : l.mapM (findAccountOrGroupDN dir) = .ok dns)
    (h' : l'.mapM (findAccountOrGroupDN dir) = .ok dns) (hl : l ≠ []) : l' ≠ [] := by
  have hlength := (mapM_ok_iff.1 h).length_eq.trans (mapM_ok_iff.1 h').length_eq.symm
  intro hl'
  rw [hl', List.length_nil, List.length_eq_zero_iff] at hlength
  exact hl hlength

theorem ValidRequest.createGoes_iff (h : ValidRequest request recipients dns w.directory)
    (hfresh : w.directory.findGroup (env.ctx.getName request) = none) :
    CreateGoes env w request recipients ↔ Accepts env w request recipients := by
  have hdir := foldl_addMirror_of_stored h.mirrors
  have hnone := additions_of_stored h.mirrors
  constructor
  · rintro ⟨-, hchecks, htaken⟩
    rw [hdir] at hchecks
    rw [hnone, Nat.add_zero] at htaken
    exact ⟨hchecks.notUser, hchecks.hasMembers, htaken⟩
  · rintro ⟨huser, hmembers, htaken⟩
    refine ⟨⟨fun m hm => Or.inl (h.mirrors m hm), fun k hk => ?_⟩, ?_, ?_⟩
    · rw [hnone] at hk
      exact absurd hk (Nat.not_lt_zero k)
    · rw [hdir]
      refine ⟨?_, hfresh, huser, h.noCycle, hmembers⟩
      rcases h.notEmpty with hrecipients | hmirrors
      · exact Or.inr (ne_nil_of_resolves h.resolves h.given hrecipients)
      · refine Or.inl (decide_eq_true fun hempty => hmirrors ?_)
        rw [AccountGroupRequest.getMirrorList, hempty]
        rfl
    · rwa [hnone]

/-- **`create` with a valid request**: it adds the new group, or throws and changes no group. -/
theorem ValidRequest.create_ends (h : ValidRequest request recipients dns w.directory)
    (hfresh : w.directory.findGroup (env.ctx.getName request) = none) :
    Ends (create env request recipients) w fun r t =>
      ((∃ g, r = .ok g) ↔ Accepts env w request recipients) ∧
      ((∃ g, r = .ok g) → t.calls = w.calls + 1 ∧
        t.directory = w.directory.putGroup (createdGroup env request dns)) ∧
      (¬ (∃ g, r = .ok g) → ∀ dn, t.directory.groupAt dn = w.directory.groupAt dn) := by
  have hdir := foldl_addMirror_of_stored h.mirrors
  have hnone : ¬ FirstAdded env w request.getMirrorList := by
    rintro ⟨m, hm, -⟩
    have hmissing := List.find?_some hm
    have hstored := h.mirrors m (List.mem_of_find?_eq_some hm)
    rw [Option.isNone_iff_eq_none.1 hmissing] at hstored
    exact absurd hstored Bool.false_ne_true
  refine (((create_ok_iff request recipients).and (create_error_adds_iff request recipients)).and
    (create_returns request recipients)).mono fun r t hend => ?_
  obtain ⟨⟨⟨hok, hcalls⟩, herror⟩, hreturns⟩ := hend
  rw [h.createGoes_iff hfresh] at hok
  rw [additions_of_stored h.mirrors] at hcalls
  refine ⟨hok, fun hgoes => ⟨hcalls hgoes, ?_⟩, fun hthrows => ?_⟩
  · obtain ⟨g, rfl⟩ := hgoes
    obtain ⟨dir', -, hdir', hcreates, hleaves⟩ := hreturns
    rw [hdir] at hdir'
    subst hdir'
    obtain ⟨dns', hdns', rfl⟩ := hcreates.written
    rw [h.given] at hdns'
    rw [hleaves.directory, Except.ok.inj hdns', createdGroup]
  · cases r with
    | ok g => exact absurd ⟨g, rfl⟩ hthrows
    | error e => exact (herror e rfl).2 (Or.inr hnone)

/-- `update` of the stored group `g` writes nothing. -/
def Refuses (env : Env) (n : ℕ) (dir : Directory env.ctx) (request : AccountGroupRequest)
    (g : AccountGroup) : Prop :=
  env.fails .ldap n = true ∨
    (request.recipients = [] ∧ ¬ Deletes dir (env.ctx.getName request) g)

/-- `delete` of the stored group `g`. -/
theorem delete_ends_of_stored {name : String} {g : AccountGroup}
    (hg : w.directory.findGroup name = some g) : Ends (delete env name) w fun _ t =>
      (env.fails .ldap w.calls = true ∨ ¬ Deletes w.directory name g →
        t.directory = w.directory) ∧
      (¬ (env.fails .ldap w.calls = true ∨ ¬ Deletes w.directory name g) →
        t.directory = w.directory.eraseGroup (env.ctx.groupDN name)) := by
  simp only [delete, ends_bind, ends_get, hg]
  split_ifs with hmirrored hbuiltIn
  · refine ⟨fun _ => rfl, fun h => absurd (Or.inr fun hdeletes => ?_) h⟩
    rw [hdeletes.notMirrored] at hmirrored
    exact absurd hmirrored Bool.false_ne_true
  · refine ⟨fun _ => rfl, fun h => absurd (Or.inr fun hdeletes => ?_) h⟩
    rw [hdeletes.notBuiltIn] at hbuiltIn
    exact absurd hbuiltIn Bool.false_ne_true
  · have hdeletes : Deletes w.directory name g := ⟨hg, by simpa using hmirrored, by simpa using hbuiltIn⟩
    rw [ldapdeleteGroup, ends_ldapRequest_iff]
    cases env.fails .ldap w.calls with
    | true => exact ⟨fun _ => rfl, fun h => absurd (Or.inl rfl) h⟩
    | false =>
      exact ⟨fun h => absurd (h.resolve_left Bool.false_ne_true) (not_not.2 hdeletes), fun _ => rfl⟩

/-- **`update` with a valid request** of a stored group: it writes nothing, removes the group, or
writes it. -/
theorem update_valid_ends {g : AccountGroup}
    (hg : w.directory.findGroup (env.ctx.getName request) = some g)
    (hresolves : request.recipients.mapM (findAccountOrGroupDN w.directory) = .ok dns)
    (hcycle : createsCircularReference w.directory env.containsCircularReference
      (env.ctx.getName request) request.recipients = .ok false) :
    Ends (update env request) w fun _ t =>
      (Refuses env w.calls w.directory request g → t.directory = w.directory) ∧
      (¬ Refuses env w.calls w.directory request g → t.directory
        = if request.recipients = [] then
            w.directory.eraseGroup (env.ctx.groupDN (env.ctx.getName request))
          else w.directory.putGroup (updatedGroup request g dns.dedup)) := by
  by_cases hempty : request.recipients = []
  · rw [if_pos hempty]
    simp only [update, ends_bind, ends_get, hg]
    rw [if_pos (by simp [hempty]), ends_bind]
    have hrefuses : Refuses env w.calls w.directory request g ↔
        env.fails .ldap w.calls = true ∨ ¬ Deletes w.directory (env.ctx.getName request) g := by
      rw [Refuses, and_iff_right hempty]
    rw [hrefuses]
    refine (delete_ends_of_stored hg).mono fun r t hend => ?_
    cases r with
    | error e => exact hend
    | ok u => exact hend
  · rw [if_neg hempty]
    refine (update_writes hg hempty).mono fun r t hend => ?_
    rcases hend with ⟨dns', hdns', -, htaken, ht⟩ | ⟨hrefused, ht⟩
    · rw [hresolves] at hdns'
      obtain rfl := Except.ok.inj hdns'
      have hgoes : ¬ Refuses env w.calls w.directory request g := by
        rintro (hfails | ⟨h, -⟩)
        · rw [htaken] at hfails
          exact absurd hfails Bool.false_ne_true
        · exact hempty h
      exact ⟨fun h => absurd h hgoes, fun _ => ht⟩
    · exact ⟨fun _ => ht, fun h => absurd (Or.inl (hrefused dns hresolves hcycle)) h⟩

/-! ### The group after the second call -/

/-- A new group changes nothing in how the recipients resolve. -/
theorem resolves_putGroup {g : AccountGroup} {l : List String}
    (hnew : dir.groupAt (env.ctx.groupDN g.name) = none)
    (h : l.mapM (findAccountOrGroupDN dir) = .ok dns) :
    l.mapM (findAccountOrGroupDN (dir.putGroup g)) = .ok dns := by
  rw [mapM_ok_iff] at h ⊢
  refine h.imp fun recipient dn hdn => ?_
  unfold findAccountOrGroupDN at hdn ⊢
  rw [Directory.findAccount, Directory.accountAt_putGroup]
  rw [Directory.findAccount] at hdn
  cases ha : dir.accountAt (env.ctx.userDN recipient) with
  | some a => rwa [ha] at hdn
  | none =>
    rw [ha] at hdn
    rw [Directory.findGroup, Directory.groupAt_putGroup]
    rw [Directory.findGroup] at hdn
    split_ifs with heq
    · rw [heq, hnew] at hdn
      exact of_error_eq_ok hdn
    · exact hdn

/-- Two maps that differ in one key at most. -/
theorem insert_congr {k : String} {map map' : AList fun _ : String => List String}
    (h : map.erase k = map'.erase k) (v : List String) : map.insert k v = map'.insert k v := by
  have hentries : List.kerase k map.entries = List.kerase k map'.entries :=
    congrArg AList.entries h
  exact AList.ext (by rw [AList.entries_insert, AList.entries_insert, hentries])

theorem erase_insert_self (k : String) (v : List String) (map : AList fun _ : String => List String) :
    (map.insert k v).erase k = map.erase k := by
  refine AList.ext ?_
  change List.kerase k (⟨k, v⟩ :: List.kerase k map.entries) = List.kerase k map.entries
  exact List.kerase_cons_eq rfl

theorem erase_insert_ne {k k' : String} (h : k ≠ k') (v : List String)
    (map : AList fun _ : String => List String) :
    (map.insert k' v).erase k = (map.erase k).insert k' v := by
  refine AList.ext ?_
  change List.kerase k (⟨k', v⟩ :: List.kerase k' map.entries)
    = ⟨k', v⟩ :: List.kerase k' (List.kerase k map.entries)
  rw [List.kerase_cons_ne h, List.kerase_kerase]

/-- The members of one group do not matter where that group is replaced. -/
theorem erase_foldl_addEdge {k : String} (l : List (String × String)) {map map' :
    AList fun _ : String => List String} (h : map.erase k = map'.erase k) :
    (l.foldl addEdge map).erase k = (l.foldl addEdge map').erase k := by
  induction l generalizing map map' with
  | nil => exact h
  | cons e l ih =>
    refine ih ?_
    unfold addEdge
    by_cases hk : k = e.1
    · subst hk
      rw [erase_insert_self, erase_insert_self, h]
    · have hlookup : map.lookup e.1 = map'.lookup e.1 := by
        rw [← AList.lookup_erase_ne (Ne.symm hk), h, AList.lookup_erase_ne (Ne.symm hk)]
      rw [erase_insert_ne hk, erase_insert_ne hk, h, hlookup]

theorem erase_foldl_addEdge_of_forall {k : String} {l : List (String × String)}
    (hl : ∀ e ∈ l, e.1 = k) (map : AList fun _ : String => List String) :
    (l.foldl addEdge map).erase k = map.erase k := by
  induction l generalizing map with
  | nil => rfl
  | cons e l ih =>
    obtain ⟨he, hl⟩ := List.forall_mem_cons.1 hl
    rw [List.foldl_cons, ih hl, addEdge, he, erase_insert_self]

/-- The members of a new group, before those of the others. -/
theorem findAllMembers_putGroup {g : AccountGroup}
    (hnew : dir.groupAt (env.ctx.groupDN g.name) = none)
    (hmembers : ∀ m ∈ g.getMembers, ∃ n, m = env.ctx.userDN n ∨ m = env.ctx.groupDN n)
    {all : List (String × String)} (h : findAllMembers dir = .ok all) :
    findAllMembers (dir.putGroup g)
      = .ok (g.getMembers.map (fun m => (env.ctx.groupDN g.name, m)) ++ all) := by
  have hvalues : (dir.putGroup g).groups.values = g :: dir.groups.values := by
    refine congrArg (g :: ·) (List.filter_eq_self.2 fun g' hg' => decide_eq_true fun heq => ?_)
    have hat : dir.groupAt (env.ctx.groupDN g'.name) = some g' := dir.groups.mem_values.1 hg'
    have hdn : env.ctx.groupDN g'.name = env.ctx.groupDN g.name := heq
    rw [hdn, hnew] at hat
    exact absurd hat (Option.some_ne_none g').symm
  have hnewMember : ∀ p ∈ g.getMembers.map (fun m => (env.ctx.groupDN g.name, m)),
      @newAccountGroupMember env.ctx p.1 p.2 = .ok p := by
    intro p hp
    obtain ⟨m, hm, rfl⟩ := List.mem_map.1 hp
    obtain ⟨n, rfl | rfl⟩ := hmembers m hm
    · simp [newAccountGroupMember, env.ctx.userDN_startsWith]
    · simp [newAccountGroupMember, env.ctx.groupDN_startsWith]
  have hedges : (g.getMembers.map (fun m => (env.ctx.groupDN g.name, m))).mapM
      (fun p => @newAccountGroupMember env.ctx p.1 p.2)
        = .ok (g.getMembers.map (fun m => (env.ctx.groupDN g.name, m))) :=
    mapM_ok_iff.2 (List.forall₂_same.2 hnewMember)
  unfold findAllMembers at h ⊢
  rw [hvalues, List.flatMap_cons, List.mapM_append, hedges, h]
  rfl

/-- **A new group with these members changes nothing in the search for a circle.** -/
theorem createsCircularReference_putGroup {g : AccountGroup}
    {search : String → (AList fun _ : String => List String) → Bool} {group : String} {b : Bool}
    (hname : env.ctx.groupDN g.name = env.ctx.groupDN group)
    (hnew : dir.groupAt (env.ctx.groupDN g.name) = none)
    (hmembers : ∀ m ∈ g.getMembers, ∃ n, m = env.ctx.userDN n ∨ m = env.ctx.groupDN n)
    (h : createsCircularReference dir search group recipients = .ok b) :
    createsCircularReference (dir.putGroup g) search group recipients = .ok b := by
  unfold createsCircularReference at h ⊢
  obtain ⟨all, hall, h⟩ := exists_of_bind_eq_ok h
  obtain ⟨dns, hdns, h⟩ := exists_of_bind_eq_ok h
  have hmap : ((g.getMembers.map (fun m => (env.ctx.groupDN g.name, m)) ++ all).foldl addEdge
      ∅).erase (env.ctx.groupDN group) = (all.foldl addEdge ∅).erase (env.ctx.groupDN group) := by
    rw [List.foldl_append]
    refine erase_foldl_addEdge all (erase_foldl_addEdge_of_forall (fun e he => ?_) ∅)
    obtain ⟨m, -, rfl⟩ := List.mem_map.1 he
    exact hname
  rw [findAllMembers_putGroup hnew hmembers hall, resolves_putGroup hnew hdns]
  simp only [bind, Except.bind] at h ⊢
  rw [insert_congr hmap]
  exact h

/-- Entries with the same name and the same values are the same. -/
theorem eq_of_get_eq {g g' : AccountGroup} (hname : g.name = g'.name)
    (hget : ∀ attr, g.get attr = g'.get attr) : g = g' := by
  cases g
  cases g'
  exact congrArg₂ LdapEntity.mk hname (funext hget)

/-- The second call writes the group that the first one added exactly when the request has neither
mirrors nor a quota. -/
theorem updatedGroup_createdGroup_iff :
    updatedGroup request (createdGroup env request dns) dns.dedup = createdGroup env request dns ↔
      request.getMirrorList = [] ∧ request.storageQuota = none := by
  constructor
  · intro h
    have hmirrors := congrArg getMirrors h
    have hquota := congrArg (fun g => LdapEntity.get g .storageQuota) h
    rw [createdGroup_getMirrors] at hmirrors
    rw [createdGroup_get_storageQuota] at hquota
    refine ⟨by simpa [updatedGroup, createdGroup_getMirrors] using hmirrors, ?_⟩
    simpa [updatedGroup, setMirrors, setStorageQuota, LdapEntity.appendAll, LdapEntity.set] using hquota
  · rintro ⟨hmirrors, hquota⟩
    have hmembers : (createdGroup env request dns).setMembers dns.dedup
        = createdGroup env request dns :=
      setMembers_eq_self _ fun m => (mem_setMembers _).symm
    rw [updatedGroup, hmembers, hmirrors, hquota]
    refine eq_of_get_eq rfl fun attr => ?_
    cases attr <;> simp [setMirrors, setStorageQuota, setDescription, LdapEntity.appendAll,
      LdapEntity.set, createdGroup_get_description, createdGroup_get_storageQuota]

/-! ### The two calls -/

/-- The group that is stored under the name is what the request asks for. -/
def Stores (request : AccountGroupRequest) (dns : List String) (dir : Directory env.ctx) : Prop :=
  ∃ g, dir.findGroup (env.ctx.getName request) = some g ∧ Means request dns g

/-- `create` leaves what the request asks for. -/
def CreateMeans (env : Env) (w : World env.ctx) (request : AccountGroupRequest)
    (recipients dns : List String) : Prop :=
  Ends (create env request recipients) w fun _ t => Stores request dns t.directory

/-- `update` leaves what the request asks for. -/
def UpdateMeans (env : Env) (w : World env.ctx) (request : AccountGroupRequest)
    (dns : List String) : Prop :=
  Ends (update env request) w fun _ t => Stores request dns t.directory

/-- An `update` after a `create` that went through changes no group. -/
def UpdateAddsNothing (env : Env) (w : World env.ctx) (request : AccountGroupRequest)
    (recipients : List String) : Prop :=
  Ends (create env request recipients) w fun r t => (∃ g, r = .ok g) →
    Ends (update env request) t fun _ u => ∀ dn, u.directory.groupAt dn = t.directory.groupAt dn

theorem stores_iff {g : AccountGroup} (h : dir.findGroup (env.ctx.getName request) = some g) :
    Stores request dns dir ↔ Means request dns g := by
  simp only [Stores, h, Option.some.injEq, exists_eq_left']

theorem not_stores (h : dir.findGroup (env.ctx.getName request) = none) :
    ¬ Stores request dns dir := by
  rintro ⟨g, hg, -⟩
  exact absurd (h.symm.trans hg) (Option.some_ne_none g).symm

theorem createdGroup_name : (createdGroup env request dns).name = env.ctx.getName request := by
  rw [createdGroup, setMembers_name]
  rfl

theorem findGroup_createdGroup (dir : Directory env.ctx) :
    (dir.putGroup (createdGroup env request dns)).findGroup (env.ctx.getName request)
      = some (createdGroup env request dns) := by
  have hfound := Directory.findGroup_putGroup dir (createdGroup env request dns)
  rwa [createdGroup_name] at hfound

theorem createMeans_iff (h : ValidRequest request recipients dns w.directory)
    (hfresh : w.directory.findGroup (env.ctx.getName request) = none) :
    CreateMeans env w request recipients dns ↔
      request.storageQuota = none ∧ Accepts env w request recipients := by
  refine ends_iff ((h.create_ends hfresh).mono fun r t hend => ?_)
  obtain ⟨hok, hgoes, hthrows⟩ := hend
  rw [← hok]
  by_cases hr : ∃ g, r = .ok g
  · rw [and_iff_left hr, (hgoes hr).2, stores_iff (findGroup_createdGroup _), createdGroup_means_iff]
  · have hnone : t.directory.findGroup (env.ctx.getName request) = none := (hthrows hr _).trans hfresh
    exact iff_of_false (not_stores hnone) fun hand => hr hand.2

theorem updateMeans_iff {g : AccountGroup}
    (hg : w.directory.findGroup (env.ctx.getName request) = some g)
    (hresolves : request.recipients.mapM (findAccountOrGroupDN w.directory) = .ok dns)
    (hcycle : createsCircularReference w.directory env.containsCircularReference
      (env.ctx.getName request) request.recipients = .ok false) :
    UpdateMeans env w request dns ↔
      (Refuses env w.calls w.directory request g ∧ Means request dns g) ∨
      (¬ Refuses env w.calls w.directory request g ∧ request.recipients ≠ [] ∧
        g.getMirrors = []) := by
  refine ends_iff ((update_valid_ends hg hresolves hcycle).mono fun r t hend => ?_)
  obtain ⟨hrefused, hwritten⟩ := hend
  by_cases hrefuses : Refuses env w.calls w.directory request g
  · rw [hrefused hrefuses, stores_iff hg]
    simp only [hrefuses, true_and, not_true_eq_false, false_and, or_false]
  · have ht := hwritten hrefuses
    simp only [hrefuses, not_false_eq_true, true_and, false_and, false_or]
    by_cases hempty : request.recipients = []
    · rw [if_pos hempty] at ht
      refine iff_of_false ?_ fun hand => hand.1 hempty
      rw [ht]
      exact not_stores (by rw [Directory.findGroup, Directory.groupAt_eraseGroup, if_pos rfl])
    · rw [if_neg hempty] at ht
      have hname : (updatedGroup request g dns.dedup).name = g.name := by simp [updatedGroup]
      have hfound := Directory.findGroup_putGroup w.directory (updatedGroup request g dns.dedup)
      rw [hname, Directory.findGroup, Directory.groupDN_of_groupAt hg, ← Directory.findGroup] at hfound
      rw [ht, stores_iff hfound, updatedGroup_means_iff, and_iff_right hempty]

theorem updateAddsNothing_iff (h : ValidRequest request recipients dns w.directory)
    (hfresh : w.directory.findGroup (env.ctx.getName request) = none) :
    UpdateAddsNothing env w request recipients ↔ (Accepts env w request recipients →
      Refuses env (w.calls + 1) (w.directory.putGroup (createdGroup env request dns)) request
        (createdGroup env request dns) ∨
      (request.recipients ≠ [] ∧ request.getMirrorList = [] ∧ request.storageQuota = none)) := by
  refine ends_iff ((h.create_ends hfresh).mono fun r t hend => ?_)
  obtain ⟨hok, hgoes, -⟩ := hend
  rw [← hok]
  refine imp_congr_right fun hr => ?_
  obtain ⟨hcalls, hdir⟩ := hgoes hr
  have hname : env.ctx.groupDN (createdGroup env request dns).name
      = env.ctx.groupDN (env.ctx.getName request) := by rw [createdGroup_name]
  have hnew : w.directory.groupAt (env.ctx.groupDN (createdGroup env request dns).name) = none := by
    rw [hname]
    exact hfresh
  have hdns : ∀ m ∈ (createdGroup env request dns).getMembers,
      ∃ n, m = env.ctx.userDN n ∨ m = env.ctx.groupDN n := by
    intro m hm
    rw [createdGroup, mem_setMembers, List.mem_dedup] at hm
    obtain ⟨recipient, -, hrecipient⟩ := mem_of_mapM_ok h.resolves hm
    exact ⟨recipient, findAccountOrGroupDN_ok hrecipient⟩
  have hresolves := resolves_putGroup hnew h.resolves
  have hgiven := resolves_putGroup hnew h.given
  have hcycle := createsCircularReference_putGroup hname hnew hdns h.noCycle
  rw [createsCircularReference_congr (hgiven.trans hresolves.symm)] at hcycle
  have hfound : (w.directory.putGroup (createdGroup env request dns)).findGroup
      (env.ctx.getName request) = some (createdGroup env request dns) := findGroup_createdGroup _
  rw [← hdir] at hresolves hcycle hfound
  refine ends_iff ((update_valid_ends hfound hresolves hcycle).mono fun r u hend => ?_)
  obtain ⟨hrefused, hwritten⟩ := hend
  rw [hcalls, hdir] at hrefused hwritten
  rw [hdir] at hfound ⊢
  by_cases hrefuses : Refuses env (w.calls + 1)
      (w.directory.putGroup (createdGroup env request dns)) request (createdGroup env request dns)
  · exact iff_of_true (fun dn => by rw [hrefused hrefuses]) (Or.inl hrefuses)
  have hu := hwritten hrefuses
  by_cases hempty : request.recipients = []
  · rw [if_pos hempty] at hu
    refine iff_of_false (fun hall => ?_) fun hor => (hor.resolve_left hrefuses).1 hempty
    have hgone := hall (env.ctx.groupDN (env.ctx.getName request))
    rw [hu, Directory.groupAt_eraseGroup, if_pos rfl, ← Directory.findGroup, hfound] at hgone
    exact absurd hgone.symm (Option.some_ne_none _)
  · rw [if_neg hempty] at hu
    have hname' : (updatedGroup request (createdGroup env request dns) dns.dedup).name
        = (createdGroup env request dns).name := by simp [updatedGroup]
    rw [or_iff_right hrefuses, and_iff_right hempty, ← updatedGroup_createdGroup_iff]
    constructor
    · intro hall
      have hwrites := hall (env.ctx.groupDN (env.ctx.getName request))
      rw [hu, Directory.groupAt_putGroup, hname', hname, if_pos rfl, ← Directory.findGroup, hfound]
        at hwrites
      exact Option.some.inj hwrites
    · intro heq dn
      rw [hu, heq, Directory.putGroup_putGroup _ rfl]

/-- **One request, two meanings.**  With a valid request, `create` leaves what the request asks for
exactly when it goes through and the request has no quota; `update` does exactly when it writes a
group that had no mirrors, or when it refuses to write and the group was right before; and an
`update` after the `create` adds nothing exactly when it is refused, or the request has recipients
and neither mirrors nor a quota. -/
theorem create_update_mean_iff (env : Env) (w : World env.ctx) (request : AccountGroupRequest)
    (recipients dns : List String) (h : ValidRequest request recipients dns w.directory) :
    (w.directory.findGroup (env.ctx.getName request) = none →
      (CreateMeans env w request recipients dns ↔
        request.storageQuota = none ∧ Accepts env w request recipients) ∧
      (UpdateAddsNothing env w request recipients ↔ (Accepts env w request recipients →
        Refuses env (w.calls + 1) (w.directory.putGroup (createdGroup env request dns)) request
          (createdGroup env request dns) ∨
        (request.recipients ≠ [] ∧ request.getMirrorList = [] ∧ request.storageQuota = none)))) ∧
    ∀ g, w.directory.findGroup (env.ctx.getName request) = some g →
      (UpdateMeans env w request dns ↔
        (Refuses env w.calls w.directory request g ∧ Means request dns g) ∨
        (¬ Refuses env w.calls w.directory request g ∧ request.recipients ≠ [] ∧
          g.getMirrors = [])) := by
  refine ⟨fun hfresh => ⟨createMeans_iff h hfresh, updateAddsNothing_iff h hfresh⟩, fun g hg => ?_⟩
  have hcycle := h.noCycle
  rw [createsCircularReference_congr (h.given.trans h.resolves.symm)] at hcycle
  exact updateMeans_iff hg h.resolves hcycle

/-- A directory with the account `alice` and the group `ops`, whose member she is. -/
def aliceInOps : World Env.mock.ctx where
  directory := (Directory.empty.putAccount (Account.new "alice")).putGroup
    ((AccountGroup.new "ops").addMember (Env.mock.ctx.userDN "alice"))

/-- `dev` for alice. -/
def devOfAlice : AccountGroupRequest := { name := "dev", recipients := ["alice"] }

/-- `dev` for alice, which mirrors `ops` and has a quota. -/
def devWithQuota : AccountGroupRequest :=
  { name := "dev", mirrors := some "ops", recipients := ["alice"], storageQuota := some "5gb" }

theorem validRequest_devOfAlice :
    ValidRequest devOfAlice ["alice"] [Env.mock.ctx.userDN "alice"] aliceInOps.directory :=
  ⟨by decide +kernel, by decide +kernel, by decide +kernel, by decide +kernel, by decide⟩

theorem validRequest_devWithQuota :
    ValidRequest devWithQuota ["alice"] [Env.mock.ctx.userDN "alice"] aliceInOps.directory :=
  ⟨by decide +kernel, by decide +kernel, by decide +kernel, by decide +kernel, by decide +kernel⟩

theorem create_means_devOfAlice :
    CreateMeans .mock aliceInOps devOfAlice ["alice"] [Env.mock.ctx.userDN "alice"] := by
  have haccepts : Accepts .mock aliceInOps devOfAlice ["alice"] :=
    ⟨by decide +kernel, ⟨[Env.mock.ctx.userDN "alice"], by decide +kernel, by decide⟩, rfl⟩
  have hboth := create_update_mean_iff .mock aliceInOps devOfAlice ["alice"]
    [Env.mock.ctx.userDN "alice"] validRequest_devOfAlice
  exact (hboth.1 (by decide +kernel)).1.2 ⟨rfl, haccepts⟩

/-- The group `dev` as it is to be. -/
def devStored : AccountGroup :=
  (((AccountGroup.new "dev").setMembers [Env.mock.ctx.userDN "alice"]).setMirrors
    ["ops"]).setStorageQuota (some "5gb")

/-- The directory with that group. -/
def devInOps : World Env.mock.ctx where
  directory := aliceInOps.directory.putGroup devStored

/-- **A quota lost, a mirror doubled.**  The valid request `devWithQuota` creates a group without
a quota; and it gives a group that is what it asks for already the mirror `ops` once more. -/
theorem create_update_differ :
    ¬ CreateMeans .mock aliceInOps devWithQuota ["alice"] [Env.mock.ctx.userDN "alice"] ∧
    Means devWithQuota [Env.mock.ctx.userDN "alice"] devStored ∧
    ¬ UpdateMeans .mock devInOps devWithQuota [Env.mock.ctx.userDN "alice"] := by
  refine ⟨fun h => ?_, ⟨?_, rfl, rfl, rfl⟩, fun h => ?_⟩
  · have hfresh : aliceInOps.directory.findGroup (Env.mock.ctx.getName devWithQuota) = none := by
      decide +kernel
    have hquota := ((createMeans_iff validRequest_devWithQuota hfresh).1 h).1
    exact absurd hquota (Option.some_ne_none _)
  · have hmembers : devStored.getMembers = [Env.mock.ctx.userDN "alice"] := by decide +kernel
    rw [hmembers]
    exact fun m => Iff.rfl
  · have hg : devInOps.directory.findGroup (Env.mock.ctx.getName devWithQuota) = some devStored :=
      Directory.findGroup_putGroup _ _
    have hresolves : devWithQuota.recipients.mapM (findAccountOrGroupDN devInOps.directory)
        = .ok [Env.mock.ctx.userDN "alice"] := by decide +kernel
    have hcycle : createsCircularReference devInOps.directory Env.mock.containsCircularReference
        (Env.mock.ctx.getName devWithQuota) devWithQuota.recipients = .ok false := by decide +kernel
    rcases (updateMeans_iff (w := devInOps) hg hresolves hcycle).1 h with
      ⟨hfails | ⟨hempty, -⟩, -⟩ | ⟨-, -, hmirrors⟩
    · exact Bool.false_ne_true hfails
    · exact List.cons_ne_nil "alice" [] hempty
    · have hops : devStored.getMirrors = ["ops"] := by decide +kernel
      exact List.cons_ne_nil "ops" [] (hops.symm.trans hmirrors)

end Groups

end CloudOs

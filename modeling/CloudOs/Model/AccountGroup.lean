/-
# `AccountGroup` and `AccountGroupRequest`

`cloudos.model.AccountGroup` keeps its members as DNs and its mirrors as group
names.  `addMember` appends a DN that is not there yet; `setMembers` removes
what is not in its argument and then adds what is missing.  `setMirrors` calls
`appendAll`: mirrors are added to those already present.

`cloudos.model.support.AccountGroupRequest` carries the mirrors in one text,
separated by commas or spaces, and recipients as names of accounts or groups.
`getName`, which lowers the case of its name, is in `LdapContext`.
-/

import CloudOs.Model.LdapEntity

namespace CloudOs

/-- The attributes of a group, under their Java names. -/
inductive GroupAttr
  | uuid | members | mirror | description | storageQuota
  deriving DecidableEq, Repr

/-- `cloudos.model.AccountGroup`. -/
abbrev AccountGroup := LdapEntity GroupAttr

namespace AccountGroup

def DEFAULT_GROUP_NAME : String := "cloudos-users"

def ADMIN_GROUP_NAME : String := "cloudos-admins"

/-- `AccountGroupDAO.isDefaultGroup`. -/
def isDefaultGroup (groupName : String) : Bool :=
  groupName == DEFAULT_GROUP_NAME || groupName == ADMIN_GROUP_NAME

/-- `new AccountGroup(config())` named `name`. -/
def new (name : String) : AccountGroup := LdapEntity.new name

@[simp] theorem new_name (name : String) : (new name).name = name := rfl

variable (g : AccountGroup)

def getMirrors : List String := g.get .mirror

def setMirrors (values : List String) : AccountGroup := g.appendAll .mirror values

def hasMirror : Bool := !g.getMirrors.isEmpty

def setDescription (value : Option String) : AccountGroup := g.set .description value

def setStorageQuota (value : Option String) : AccountGroup := g.set .storageQuota value

def getMembers : List String := g.get .members

def addMember (dn : String) : AccountGroup :=
  if dn ∈ g.getMembers then g else g.append .members dn

def removeMember (dn : String) : AccountGroup := g.removeValue .members dn

/-- The first loop reads the members as they were when it started. -/
def setMembers (memberDNs : List String) : AccountGroup :=
  let g := g.getMembers.foldl (fun g dn => if dn ∈ memberDNs then g else g.removeMember dn) g
  memberDNs.foldl addMember g

/-- `new AccountGroup(ldap(), name, description)` for the two built-in groups;
their description is a translated text that nothing reads. -/
def builtIn (name : String) : AccountGroup := new name

@[simp] theorem builtIn_name (name : String) : (builtIn name).name = name := rfl

@[simp] theorem new_getMembers (name : String) : (new name).getMembers = [] := rfl

@[simp] theorem new_getMirrors (name : String) : (new name).getMirrors = [] := rfl

@[simp] theorem builtIn_getMembers (name : String) : (builtIn name).getMembers = [] := rfl

@[simp] theorem builtIn_getMirrors (name : String) : (builtIn name).getMirrors = [] := rfl

@[simp] theorem addMember_name (dn : String) : (g.addMember dn).name = g.name := by
  unfold addMember
  split_ifs <;> rfl

@[simp] theorem mem_addMember {dn m : String} :
    m ∈ (g.addMember dn).getMembers ↔ m ∈ g.getMembers ∨ m = dn := by
  unfold addMember
  split_ifs with h
  · exact ⟨Or.inl, fun hm => hm.elim id fun he => he ▸ h⟩
  · simp [getMembers, LdapEntity.append]

@[simp] theorem addMember_getMirrors (dn : String) :
    (g.addMember dn).getMirrors = g.getMirrors := by
  unfold addMember
  split_ifs
  · rfl
  · simp [getMirrors, LdapEntity.append]

@[simp] theorem removeMember_name (dn : String) : (g.removeMember dn).name = g.name := rfl

@[simp] theorem mem_removeMember {dn m : String} :
    m ∈ (g.removeMember dn).getMembers ↔ m ∈ g.getMembers ∧ m ≠ dn := by
  simp [getMembers, removeMember, LdapEntity.removeValue]

@[simp] theorem removeMember_getMirrors (dn : String) :
    (g.removeMember dn).getMirrors = g.getMirrors := by
  simp [getMirrors, removeMember, LdapEntity.removeValue]

/-- Adding the DNs of a list one by one. -/
theorem foldl_addMember (l : List String) :
    (l.foldl addMember g).name = g.name ∧ (l.foldl addMember g).getMirrors = g.getMirrors ∧
      ∀ m, m ∈ (l.foldl addMember g).getMembers ↔ m ∈ g.getMembers ∨ m ∈ l := by
  induction l generalizing g with
  | nil => simp
  | cons dn l ih =>
    obtain ⟨hname, hmirrors, hmem⟩ := ih (g.addMember dn)
    refine ⟨by simp [hname], by simp [hmirrors], fun m => ?_⟩
    rw [List.foldl_cons, hmem, mem_addMember, List.mem_cons, or_assoc]

/-- Removing the DNs of a list that are not to be kept. -/
theorem foldl_removeMember (keep l : List String) :
    let g' := l.foldl (fun g dn => if dn ∈ keep then g else g.removeMember dn) g
    g'.name = g.name ∧ g'.getMirrors = g.getMirrors ∧
      ∀ m, m ∈ g'.getMembers ↔ m ∈ g.getMembers ∧ (m ∈ l → m ∈ keep) := by
  induction l generalizing g with
  | nil => simp
  | cons dn l ih =>
    obtain ⟨hname, hmirrors, hmem⟩ := ih (if dn ∈ keep then g else g.removeMember dn)
    simp only [List.foldl_cons]
    refine ⟨hname.trans (by split_ifs <;> rfl), hmirrors.trans (by split_ifs <;> simp), fun m => ?_⟩
    rw [hmem]
    split_ifs with h
    · simp only [List.mem_cons]
      constructor
      · rintro ⟨hm, hl⟩
        exact ⟨hm, fun hd => hd.elim (fun he => he ▸ h) hl⟩
      · rintro ⟨hm, hl⟩
        exact ⟨hm, fun hd => hl (Or.inr hd)⟩
    · simp only [List.mem_cons, mem_removeMember]
      constructor
      · rintro ⟨⟨hm, hne⟩, hl⟩
        exact ⟨hm, fun hd => hd.elim (fun he => absurd he hne) hl⟩
      · rintro ⟨hm, hl⟩
        exact ⟨⟨hm, fun he => h (he ▸ hl (Or.inl he))⟩, fun hd => hl (Or.inr hd)⟩

@[simp] theorem setMembers_name (l : List String) : (g.setMembers l).name = g.name := by
  rw [setMembers, (foldl_addMember _ l).1, (foldl_removeMember g l _).1]

@[simp] theorem setMembers_getMirrors (l : List String) :
    (g.setMembers l).getMirrors = g.getMirrors := by
  rw [setMembers, (foldl_addMember _ l).2.1, (foldl_removeMember g l _).2.1]

/-- **`setMembers` leaves exactly the DNs of its argument.** -/
@[simp] theorem mem_setMembers {l : List String} {m : String} :
    m ∈ (g.setMembers l).getMembers ↔ m ∈ l := by
  rw [setMembers, (foldl_addMember _ l).2.2, (foldl_removeMember g l _).2.2]
  constructor
  · rintro (⟨hm, hl⟩ | hm)
    · exact hl hm
    · exact hm
  · exact Or.inr

/-- A loop that has nothing to change on any element. -/
theorem foldl_eq_self {f : AccountGroup → String → AccountGroup} {l : List String}
    (h : ∀ dn ∈ l, f g dn = g) : l.foldl f g = g := by
  induction l with
  | nil => rfl
  | cons dn l ih =>
    rw [List.foldl_cons, h dn List.mem_cons_self]
    exact ih fun d hd => h d (List.mem_cons_of_mem dn hd)

/-- Members that are all there, with no others, stay what they are. -/
theorem setMembers_eq_self {l : List String} (h : ∀ m, m ∈ l ↔ m ∈ g.getMembers) :
    g.setMembers l = g := by
  have hremove : g.getMembers.foldl (fun g dn => if dn ∈ l then g else g.removeMember dn) g = g :=
    foldl_eq_self g fun dn hdn => if_pos ((h dn).2 hdn)
  rw [setMembers, hremove]
  exact foldl_eq_self g fun dn hdn => if_pos ((h dn).1 hdn)

/-- A loop whose body leaves an attribute alone. -/
theorem foldl_get {attr : GroupAttr} {f : AccountGroup → String → AccountGroup}
    (hf : ∀ g dn, (f g dn).get attr = g.get attr) (l : List String) :
    (l.foldl f g).get attr = g.get attr := by
  induction l generalizing g with
  | nil => rfl
  | cons dn l ih => rw [List.foldl_cons, ih, hf]

/-- `setMembers` writes no other attribute. -/
theorem setMembers_get {attr : GroupAttr} (hattr : attr ≠ .members) (l : List String) :
    (g.setMembers l).get attr = g.get attr := by
  have hadd : ∀ (g : AccountGroup) dn, (g.addMember dn).get attr = g.get attr := by
    intro g dn
    unfold addMember
    split_ifs
    · rfl
    · rw [LdapEntity.append, LdapEntity.get_put, if_neg hattr]
  have hremove : ∀ (g : AccountGroup) dn,
      (if dn ∈ l then g else g.removeMember dn).get attr = g.get attr := by
    intro g dn
    split_ifs
    · rfl
    · rw [removeMember, LdapEntity.removeValue, LdapEntity.get_put, if_neg hattr]
  rw [setMembers, foldl_get _ hadd, foldl_get _ hremove]

@[simp] theorem setDescription_name (v : Option String) : (g.setDescription v).name = g.name := rfl

@[simp] theorem setDescription_getMembers (v : Option String) :
    (g.setDescription v).getMembers = g.getMembers := by
  simp [getMembers, setDescription, LdapEntity.set]

@[simp] theorem setDescription_getMirrors (v : Option String) :
    (g.setDescription v).getMirrors = g.getMirrors := by
  simp [getMirrors, setDescription, LdapEntity.set]

@[simp] theorem setStorageQuota_name (v : Option String) : (g.setStorageQuota v).name = g.name :=
  rfl

@[simp] theorem setStorageQuota_getMembers (v : Option String) :
    (g.setStorageQuota v).getMembers = g.getMembers := by
  simp [getMembers, setStorageQuota, LdapEntity.set]

@[simp] theorem setStorageQuota_getMirrors (v : Option String) :
    (g.setStorageQuota v).getMirrors = g.getMirrors := by
  simp [getMirrors, setStorageQuota, LdapEntity.set]

@[simp] theorem setMirrors_name (l : List String) : (g.setMirrors l).name = g.name := rfl

@[simp] theorem setMirrors_getMembers (l : List String) :
    (g.setMirrors l).getMembers = g.getMembers := by
  simp [getMembers, setMirrors, LdapEntity.appendAll]

@[simp] theorem setMirrors_getMirrors (l : List String) :
    (g.setMirrors l).getMirrors = g.getMirrors ++ l := by
  simp [getMirrors, setMirrors, LdapEntity.appendAll]

end AccountGroup

/-- `StringUtil.split`: the non-empty pieces between delimiters. -/
def splitOn (delims : List Char) (s : String) : List String :=
  ((s.toList.splitOnP (· ∈ delims)).filter (· ≠ [])).map String.ofList

/-- `cloudos.model.support.AccountGroupRequest`; `name` is the field. -/
structure AccountGroupRequest where
  name : String
  mirrors : Option String := none
  recipients : List String := []
  description : Option String := none
  storageQuota : Option String := none

namespace AccountGroupRequest

variable (r : AccountGroupRequest)

def hasMirror : Bool := r.mirrors.getD "" ≠ ""

def getMirrorList : List String := splitOn [' ', ','] (r.mirrors.getD "")

example : getMirrorList { name := "staff", mirrors := some "ops, dev,qa" } = ["ops", "dev", "qa"] := by
  decide

end AccountGroupRequest

end CloudOs

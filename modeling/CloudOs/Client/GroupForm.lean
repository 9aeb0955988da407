/-
# The form of a group: `App.GroupRoute`, `App.GroupController`

The page of a group is opened and saved in these steps, each in the words of its own layer:

| step | from | to |
| --- | --- | --- |
| `GET /groups/{g}` | the stored group | a view: its name and the members, mirrored ones included |
| `App.Group.findByName` | the view | name and members; nothing else is kept |
| `toStringFromArray` | the members | a text: their names, with `, ` between them |
| `Validator.validateGroup` | name and text | whether both are there |
| `toArrayFromString` | the text | names: the pieces between commas, trimmed |
| `POST /groups/{g}` | name and names | the stored group |

A reply that is an error has neither name nor members, so the form is empty and not valid.

The text has the pieces of the names (`toArrayFromString_toStringFromArray`), and the names
themselves if they are plain (`members_comeBack`).
-/

import CloudOs.Lib.Texts
import CloudOs.Resources.AccountGroupsResource

namespace CloudOs

open Prog AccountGroupsResource Texts

namespace GroupPage

/-- `App.GroupMembers.toStringFromArray`, of the members' names. -/
def toStringFromArray (names : List String) : String :=
  String.ofList ([',', ' '].intercalate (names.map String.toList))

/-- `recipient_names`, trimmed: the pieces of a text between its commas. -/
def recipientNames (text : String) : List String :=
  (text.toList.splitOn ',').map fun name => String.ofList (trim name)

/-- `App.GroupMembers.toArrayFromString`. -/
def toArrayFromString (text : String) : List String :=
  if text.toList = [] then [] else recipientNames text

/-- The fields of the form. -/
structure GroupForm where
  name : String
  recipients : String

/-- `App.GroupRoute.model`. -/
def GroupForm.ofView (view : AccountGroupView) : GroupForm :=
  ⟨view.name, toStringFromArray (view.members.map AccountGroupMemberView.name)⟩

/-- `Validator.validateGroup` finds nothing missing. -/
def GroupForm.isValid (form : GroupForm) : Bool :=
  !isBlank form.name && !isBlank form.recipients

/-- `_formData`, as `_commit_edit` sends it. -/
def GroupForm.data (form : GroupForm) : AccountGroupRequest :=
  { name := form.name, recipients := toArrayFromString form.recipients }

variable (env : Env) (getFirstDnValue : String → String)

/-- The page of a group is opened, and `doEditGroup` runs on the untouched form.  The answer is
that of the `POST`, if there is one. -/
def openAndSave (apiKey groupName : String) :
    Method env (Option (Answer AccountGroupsResource.Body)) := do
  match ← attempt (find env getFirstDnValue apiKey groupName) with
  | .ok (.ok (.view view)) =>
    let form := GroupForm.ofView view
    if form.isValid then
      let answer ← update env apiKey form.name form.data
      return some answer
    else return none
  | _ => return none

/-! ### From the list to the text and back -/

/-- The pieces of a joined text are those of its first part and those of the rest. -/
theorem recipientNames_join (name rest : String) :
    recipientNames (String.ofList (name.toList ++ [',', ' '] ++ rest.toList)) =
      recipientNames name ++ recipientNames rest := by
  have hsplit : (name.toList ++ ',' :: ' ' :: rest.toList).splitOn ',' =
      name.toList.splitOn ',' ++ (' ' :: rest.toList).splitOn ',' := by
    simp only [List.splitOn_eq_splitOnP]
    exact List.splitOnP_append_cons _ _ (by decide)
  have hspace : ((' ' :: rest.toList).splitOn ',').map (fun name => String.ofList (trim name)) =
      recipientNames rest := by
    rw [recipientNames, List.splitOn_cons_eq_if_modifyHead, if_neg (by decide)]
    cases h : rest.toList.splitOn ',' with
    | nil => rfl
    | cons piece pieces => simp [trim_cons_space]
  rw [recipientNames, String.toList_ofList, List.append_assoc]
  refine (congrArg (List.map _) hsplit).trans ?_
  rw [List.map_append, hspace]
  rfl

/-- The pieces of the text of a list with an element are the pieces of its elements. -/
theorem recipientNames_toStringFromArray (name : String) (names : List String) :
    recipientNames (toStringFromArray (name :: names)) =
      (name :: names).flatMap recipientNames := by
  induction names generalizing name with
  | nil => simp [toStringFromArray, List.intercalate]
  | cons next names ih =>
    have hjoin : toStringFromArray (name :: next :: names) =
        String.ofList (name.toList ++ [',', ' '] ++
          (toStringFromArray (next :: names)).toList) := by
      simp [toStringFromArray, List.intercalate]
    rw [hjoin, recipientNames_join, ih]
    rfl

/-- **The names that come back** from a text with something in it are the pieces of the names
that it was made of. -/
theorem toArrayFromString_toStringFromArray {names : List String}
    (h : (toStringFromArray names).toList ≠ []) :
    toArrayFromString (toStringFromArray names) = names.flatMap recipientNames := by
  rw [toArrayFromString, if_neg h]
  cases names with
  | nil => exact absurd rfl h
  | cons name names => exact recipientNames_toStringFromArray name names

/-- A name without commas, and without white space around it, is one piece. -/
theorem recipientNames_of_plain {name : String} (hcomma : ',' ∉ name.toList)
    (htrim : trim name.toList = name.toList) : recipientNames name = [name] := by
  rw [recipientNames, List.splitOn_eq_singleton hcomma, List.map_singleton, htrim,
    String.ofList_toList]

/-- A name that stands for itself in the text. -/
structure IsPlain (name : String) : Prop where
  nonEmpty : name ≠ ""
  noComma : ',' ∉ name.toList
  noLeadingSpace : ∀ c ∈ name.toList.head?, isJsSpace c = false
  noTrailingSpace : ∀ c ∈ name.toList.getLast?, isJsSpace c = false

theorem IsPlain.trim_eq {name : String} (h : IsPlain name) : trim name.toList = name.toList :=
  trim_eq_self h.noLeadingSpace h.noTrailingSpace

/-- The text of a list that begins with a name is not empty. -/
theorem toStringFromArray_ne_nil {name : String} (hname : name ≠ "") (names : List String) :
    (toStringFromArray (name :: names)).toList ≠ [] := by
  intro h
  refine hname (String.toList_injective ?_)
  cases names with
  | nil => simpa [toStringFromArray] using h
  | cons next names => simp [toStringFromArray, List.intercalate] at h

/-- **Member lists survive the text field.**  The names of plain members come back, in order. -/
theorem members_comeBack (members : List AccountGroupMemberView)
    (hplain : ∀ m ∈ members, IsPlain m.name) :
    toArrayFromString (toStringFromArray (members.map AccountGroupMemberView.name)) =
      members.map AccountGroupMemberView.name := by
  cases members with
  | nil => rfl
  | cons m members =>
    have hne := hplain m List.mem_cons_self
    rw [List.map_cons, toArrayFromString_toStringFromArray
      (toStringFromArray_ne_nil hne.nonEmpty _), ← List.map_cons]
    -- every name is one piece
    have hpieces : ∀ n ∈ (m :: members).map AccountGroupMemberView.name,
        recipientNames n = [n] := by
      intro n hn
      obtain ⟨m', hm', rfl⟩ := List.mem_map.1 hn
      exact recipientNames_of_plain (hplain m' hm').noComma (hplain m' hm').trim_eq
    rw [List.flatMap_congr hpieces, List.flatMap_singleton']

theorem members_comeBack_alice :
    toArrayFromString (toStringFromArray
      ([⟨"alice", .account⟩, ⟨"dev team", .group⟩].map AccountGroupMemberView.name)) =
        ["alice", "dev team"] := by
  have halice : IsPlain "alice" := ⟨by decide, by decide, by simp [isJsSpace], by simp [isJsSpace]⟩
  have hteam : IsPlain "dev team" :=
    ⟨by decide, by decide, by simp [isJsSpace], by simp [isJsSpace]⟩
  refine members_comeBack [⟨"alice", .account⟩, ⟨"dev team", .group⟩] ?_
  exact List.forall_mem_cons.2 ⟨halice, List.forall_mem_singleton.2 hteam⟩

end GroupPage

end CloudOs

/-
# `SearchResource`

Whoever has a session searches accounts and groups, page by page; who is no admin gets the results
through the scrubber.  An admin downloads all results of a search as a table.

| request | page | answer |
| --- | --- | --- |
| `search` | as it is asked for | the results |
| `download` | the first, of any size | a row of the fields, and one for each result |

The searches of the directory, the getters by name, the format of dates and the writer of rows are
libraries and parameters.  A getter that fails, and a null, leave a missing cell; a date that is no
number is not caught.
-/

import CloudOs.Lib.Csv
import CloudOs.Resources.AccountGroupsResource

namespace CloudOs

/-- What is read of `ResultPage`. -/
structure ResultPage where
  pageNumber : ℤ := 1
  pageSize : ℤ := 10
  filter : Option String := none
  sortField : Option String := none
  sortOrder : Option String := none
  bounds : List (String × String) := []
  scrubs : Bool := false
  deriving DecidableEq, Repr

namespace SearchResource

open AccountGroupsResource Prog

/-- A result. -/
inductive Found
  | account (a : Account)
  | group (view : AccountGroupView)

/-- What a getter returns: its text, and the number that it is. -/
structure Value where
  text : String
  number : Option ℤ := none
  deriving DecidableEq, Repr

/-- How a download ends before its last row. -/
inductive WriteError
  | thrown (x : Exn)
  | classCast
  deriving DecidableEq, Repr

/-- What a search cannot change. -/
structure SearchEnv extends Env where
  sessions : String → Option Account
  getFirstDnValue : String → String
  BOUND_BASE : String
  accountParentDN : String
  groupParentDN : String
  searchAccounts : ResultPage → Except Exn (List Account)
  searchGroups : ResultPage → Except Exn (List AccountGroup)
  get : Found → String → Except Exn (Option Value)
  printDate : ℤ → String
  writeNext : List (Option String) → String

variable (env : SearchEnv)

def DATE_PREFIX : String := "DATETIME:"

def ACCOUNT_FIELDS : List String :=
  ["name", "firstName", "lastName", "admin", "suspended", "storageQuota", DATE_PREFIX ++ "ctime",
    DATE_PREFIX ++ "lastLogin", "email", "mobilePhone", "mobilePhoneCountryCode"]

def GROUP_FIELDS : List String :=
  ["name", "info.description", "info.storageQuota", "memberCount", DATE_PREFIX ++ "ctime"]

/-- `SearchResource.Type`. -/
inductive SearchType
  | accounts | groups
  deriving DecidableEq, Repr

/-- `Type.valueOf`. -/
def SearchType.valueOf (type : String) : Except Exn SearchType :=
  if type = "accounts" then .ok .accounts
  else if type = "groups" then .ok .groups
  else .error (.illegalArgument ("No enum constant cloudos.resources.SearchResource.Type." ++ type))

def csvFields (type : String) : Except Exn (List String) := do
  match ← SearchType.valueOf type with
  | .accounts => return ACCOUNT_FIELDS
  | .groups => return GROUP_FIELDS

/-- The base of a search that has none. -/
def withBase (dn : String) (page : ResultPage) : ResultPage :=
  if page.bounds.any (·.1 == env.BOUND_BASE) then page
  else { page with bounds := page.bounds ++ [(env.BOUND_BASE, dn)] }

/-- `toGroupViews`; a view without members has an empty list of them. -/
def toGroupViews (groups : List AccountGroup) : Except Exn (List AccountGroupView) :=
  groups.mapM fun group => buildAccountGroupView env.toEnv env.getFirstDnValue group []

/-- The `search` that both requests share. -/
def searchResults (type : String) (page : ResultPage) (account : Account) :
    Except Exn (List Found) := do
  let page := if !account.isAdmin then { page with scrubs := true } else page
  match ← SearchType.valueOf type with
  | .accounts =>
    let accounts ← env.searchAccounts (withBase env env.accountParentDN page)
    return accounts.map .account
  | .groups =>
    let groups ← env.searchGroups (withBase env env.groupParentDN page)
    let views ← toGroupViews env groups
    return views.map .group

/-- `search`. -/
def search (apiKey type : String) (page : ResultPage) : Except Exn (Answer (List Found)) :=
  match env.sessions apiKey with
  | none => .ok (.notFound apiKey)
  | some account => do
    let results ← searchResults env type page account
    return .ok results

/-- `CsvOutput`. -/
structure CsvOutput where
  type : String
  page : ResultPage
  account : Account

/-- `Integer.MAX_VALUE`. -/
def MAX_VALUE : ℤ := 2147483647

/-- `download`; what it answers with is written later. -/
def download (apiKey type : String) (page : Option ResultPage) : Except Exn (Answer CsvOutput) :=
  match env.sessions apiKey with
  | none => .ok (.notFound apiKey)
  | some account =>
    if !account.isAdmin then .ok .forbidden
    else
      match page with
      | none => .error .nullPointer
      | some page => .ok (.ok ⟨type, { page with pageNumber := 1, pageSize := MAX_VALUE }, account⟩)

/-- The field that a column is read from, and whether it is a date. -/
def fieldOf (field : String) : String × Bool :=
  if startsWith field DATE_PREFIX then
    (String.ofList (field.toList.drop DATE_PREFIX.toList.length), true)
  else (field, false)

/-- One cell of a row. -/
def cell (result : Found) (field : String) : Except WriteError (Option String) :=
  match env.get result (fieldOf field).1 with
  | .error _ => .ok none
  | .ok none => .ok none
  | .ok (some rawValue) =>
    if (fieldOf field).2 then
      match rawValue.number with
      | none => .error .classCast
      | some n => .ok (some (env.printDate n))
    else .ok (some rawValue.text)

/-- One row. -/
def line (fields : List String) (result : Found) : Except WriteError (List (Option String)) :=
  fields.mapM (cell env result)

/-- `CsvOutput.write`. -/
def write (output : CsvOutput) : Except WriteError String := do
  let results ← (searchResults env output.type output.page output.account).mapError .thrown
  let fields ← (csvFields output.type).mapError .thrown
  let lines ← results.mapM (line env fields)
  return String.join (env.writeNext (fields.map some) :: lines.map env.writeNext)

/-! ### Reading a download -/

/-- The format of `CSVWriter`. -/
def csv : Csv.Dialect Char where
  separator := ','
  quote := '"'
  lineEnd := '\n'
  separator_ne_quote := by decide
  lineEnd_ne_quote := by decide
  lineEnd_ne_separator := by decide

/-- A row as texts of characters. -/
def chars (row : List (Option String)) : List (Option (List Char)) :=
  row.map (Option.map String.toList)

/-- What `CSVWriter` does: cells in quotes, with the quotes in them doubled, and nothing for a
null. -/
def WritesRows (env : SearchEnv) : Prop :=
  ∀ row, (env.writeNext row).toList = Csv.printRow csv (chars row)

variable {env}

/-- The rows that a download writes. -/
theorem toList_join_writeNext (hwrites : WritesRows env) (rows : List (List (Option String))) :
    (String.join (rows.map env.writeNext)).toList = Csv.print csv (rows.map chars) := by
  induction rows with
  | nil => rfl
  | cons row rows ih =>
    rw [List.map_cons, String.join_cons, String.toList_append, ih, hwrites, List.map_cons]
    rfl

/-- There is no row without cells. -/
theorem csvFields_ne_nil {type : String} {fields : List String} (h : csvFields type = .ok fields) :
    fields ≠ [] := by
  obtain ⟨searchType, -, h⟩ := exists_of_bind_eq_ok h
  cases searchType with
  | accounts =>
    obtain rfl := Except.ok.inj h
    exact List.cons_ne_nil _ _
  | groups =>
    obtain rfl := Except.ok.inj h
    exact List.cons_ne_nil _ _

theorem mapError_ok {ε ε' α : Type} {f : ε → ε'} {x : Except ε α} {a : α}
    (h : x.mapError f = .ok a) : x = .ok a := by
  cases x with
  | error e => exact of_error_eq_ok h
  | ok b => exact congrArg Except.ok (Except.ok.inj h)

/-- The row of a result: one cell for each field. -/
def IsRow (env : SearchEnv) (fields : List String) (result : Found) (row : List (Option String)) :
    Prop :=
  List.Forall₂ (fun field c => cell env result field = .ok c) fields row

/-- **A download can be read back.**  What an admin downloads is, for a reader of such tables, a row
of the fields, and then, for each result of the whole search, in the order of the search, the row of
its cells, with missing cells told from empty ones and whatever characters the cells hold. -/
theorem download_readable (hwrites : WritesRows env) {apiKey type : String}
    {page : Option ResultPage} {output : CsvOutput} {text : String}
    (hdownload : download env apiKey type page = .ok (.ok output))
    (hwrite : write env output = .ok text) :
    ∃ account p fields results rows, env.sessions apiKey = some account ∧
      account.isAdmin = true ∧ page = some p ∧ csvFields type = .ok fields ∧
      searchResults env type { p with pageNumber := 1, pageSize := MAX_VALUE } account =
        .ok results ∧
      List.Forall₂ (IsRow env fields) results rows ∧
      Csv.read csv text.toList = some (chars (fields.map some) :: rows.map chars) := by
  have hadmin : ∃ account p, env.sessions apiKey = some account ∧ account.isAdmin = true ∧
      page = some p ∧
      output = ⟨type, { p with pageNumber := 1, pageSize := MAX_VALUE }, account⟩ := by
    unfold download at hdownload
    split at hdownload
    · exact nomatch hdownload
    · next account hsession =>
      split_ifs at hdownload with hnot
      · exact nomatch hdownload
      · split at hdownload
        · exact nomatch hdownload
        · next p =>
          have houtput := Answer.ok.inj (Except.ok.inj hdownload)
          exact ⟨account, p, hsession, by simpa using hnot, rfl, houtput.symm⟩
  obtain ⟨account, p, hsession, hadmin, rfl, rfl⟩ := hadmin
  obtain ⟨results, hresults, hwrite⟩ := exists_of_bind_eq_ok hwrite
  obtain ⟨fields, hfields, hwrite⟩ := exists_of_bind_eq_ok hwrite
  obtain ⟨rows, hrows, hwrite⟩ := exists_of_bind_eq_ok hwrite
  have hlines : List.Forall₂ (IsRow env fields) results rows :=
    (mapM_ok_iff.1 hrows).imp fun _ _ h => mapM_ok_iff.1 h
  have hnonempty := csvFields_ne_nil (mapError_ok hfields)
  have htext : text.toList = Csv.print csv ((fields.map some :: rows).map chars) := by
    rw [← toList_join_writeNext hwrites, ← Except.ok.inj hwrite]
    rfl
  refine ⟨account, p, fields, results, rows, hsession, hadmin, rfl, mapError_ok hfields,
    mapError_ok hresults, hlines, ?_⟩
  rw [htext, Csv.read_print]
  · rfl
  · intro row hrow
    obtain ⟨cells, hcells, rfl⟩ := List.mem_map.1 hrow
    rw [chars, ne_eq, List.map_eq_nil_iff]
    rcases List.mem_cons.1 hcells with rfl | hcells
    · rwa [List.map_eq_nil_iff]
    · obtain ⟨result, -, hline⟩ := mem_of_mapM_ok hrows hcells
      rintro rfl
      exact hnonempty (List.forall₂_nil_right_iff.1 (mapM_ok_iff.1 hline))

/-! ### A download of two accounts -/

/-- The name and the last name of an account, one with a quote in it, one without a last name. -/
def getName : Found → String → Except Exn (Option Value)
  | .account a, "name" => .ok (some ⟨a.name, none⟩)
  | .account a, "lastName" => .ok (if a.name = "eve" then some ⟨"O\"Neil, \n", none⟩ else none)
  | .account _, "ctime" => .ok (some ⟨"0", some 0⟩)
  | _, field => .error (.illegalArgument field)

/-- A directory of two accounts. -/
def mockSearch : SearchEnv where
  toEnv := .mock
  sessions := fun apiKey =>
    if apiKey = "root" then some ((Account.new "root").setAdmin true) else none
  getFirstDnValue := id
  BOUND_BASE := "base"
  accountParentDN := "ou=people"
  groupParentDN := "ou=groups"
  searchAccounts := fun _ => .ok [Account.new "eve", Account.new "bob"]
  searchGroups := fun _ => .ok []
  get := getName
  printDate := fun _ => "1970-01-01 00:00:00"
  writeNext := fun row => String.ofList (Csv.printRow csv (chars row))

theorem writesRows_mockSearch : WritesRows mockSearch := fun _ => String.toList_ofList

theorem download_readable_mockSearch : ∃ text rows,
    (write mockSearch ⟨"accounts", { pageSize := MAX_VALUE }, (Account.new "root").setAdmin true⟩) =
      .ok text ∧
    Csv.read csv text.toList = some (chars (ACCOUNT_FIELDS.map some) :: rows) := by
  have hdownload : download mockSearch "root" "accounts" (some { pageNumber := 3, pageSize := 1 }) =
      .ok (.ok ⟨"accounts", { pageSize := MAX_VALUE }, (Account.new "root").setAdmin true⟩) := rfl
  have hwrite : ∃ text, write mockSearch
      ⟨"accounts", { pageSize := MAX_VALUE }, (Account.new "root").setAdmin true⟩ = .ok text :=
    ⟨_, rfl⟩
  obtain ⟨text, hwrite⟩ := hwrite
  obtain ⟨_, _, fields, _, rows, -, -, -, hfields, -, -, hread⟩ :=
    download_readable writesRows_mockSearch hdownload hwrite
  obtain rfl := Except.ok.inj hfields
  exact ⟨text, rows.map chars, hwrite, hread⟩

end SearchResource

end CloudOs

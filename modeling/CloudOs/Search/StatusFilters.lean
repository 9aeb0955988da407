/-
# Status filters and account predicates

An account is classified twice: by the filter that `formatBound` writes for a
status, which the directory evaluates, and by the getters of `Account`, which
`MockLdapService.matches` asks.

The getters read an absent flag as `false`.  A filter asks for `suspended=false`
or `admin=false`, and an equality does not match an absent attribute.  So the two
differ on entries without the flag:

| status | filter | the two agree unless |
| --- | --- | --- |
| `active` | last login present, `suspended=false` | it has a last login and no `suspended` |
| `invited` | last login absent, `suspended=false` | it has neither |
| `suspended` | `suspended=true` | never |
| `admins` | `admin=true`, `suspended=false` | it is an admin and has no `suspended` |
| `non_admins` | `admin=false` | it has no `admin` |
-/

import CloudOs.Dao.Search

namespace CloudOs

open SearchFilter AccountDAO

namespace Search

variable {ctx : LdapContext} {a : Account}

/-- The predicate of a status in `MockLdapService.matches`. -/
def matchesStatus (a : Account) : Status → Except Exn Bool
  | .active => .ok (a.hasLastLogin && !a.isSuspended)
  | .invited => .ok (!a.hasLastLogin && !a.isSuspended)
  | .suspended => .ok a.isSuspended
  | .admins => .ok (a.isAdmin && !a.isSuspended)
  | .non_admins => .ok !a.isAdmin
  | .created => .error (.die "matches: invalid bound=value (status=created)")

/-- The filter of the status is read as one that selects the entry exactly when the
predicate holds. -/
def Agrees (ctx : LdapContext) (a : Account) (s : Status) : Prop :=
  ∃ text f, formatBound ctx "status" s.name = .ok text ∧ parse text = some f ∧
    matchesStatus a s = .ok (f.selects (a.ldapEntry ctx))

/-- The flags are stored as `true` or `false`, and the time of the last login as a
number, each if it is there. -/
structure StoresFlags (a : Account) : Prop where
  admin : ∃ b : Option Bool, a.get .admin = (b.map ldapBoolean).toList
  suspended : ∃ b : Option Bool, a.get .suspended = (b.map ldapBoolean).toList
  lastLogin : ∃ t : Option ℕ, a.get .lastLogin = (t.map toString).toList

/-- The flag that the filter compares with `false` is there, where the rest of the
predicate holds. -/
def HasFlag (a : Account) : Status → Prop
  | .active => a.hasLastLogin = true → a.get .suspended ≠ []
  | .invited => a.hasLastLogin = false → a.get .suspended ≠ []
  | .suspended => True
  | .admins => a.isAdmin = true → a.get .suspended ≠ []
  | .non_admins => a.get .admin ≠ []
  | .created => False

/-! ### The filters -/

/-- `(attr=true)` or `(attr=false)`. -/
def flagFilter (ctx : LdapContext) (attr : AccountAttr) (b : Bool) : Filter :=
  .equality (ctx.ldapName attr) (octets (ldapBoolean b).toList)

/-- The filter of a status. -/
def statusFilter (ctx : LdapContext) : Status → Filter
  | .active => .and [.present (ctx.ldapName .lastLogin), flagFilter ctx .suspended false]
  | .invited => .and [.not (.present (ctx.ldapName .lastLogin)), flagFilter ctx .suspended false]
  | .suspended => flagFilter ctx .suspended true
  | .admins => .and [flagFilter ctx .admin true, flagFilter ctx .suspended false]
  | .non_admins => flagFilter ctx .admin false
  | .created => .and []

theorem print_flagFilter (attr : AccountAttr) (b : Bool) : (flagFilter ctx attr b).print =
    '(' :: ((ctx.ldapName attr).toList ++ '=' :: ((ldapBoolean b).toList ++ [')'])) := by
  have hvalue : printPattern ((octets (ldapBoolean b).toList).map some) = (ldapBoolean b).toList := by
    cases b <;> decide
  rw [flagFilter, Filter.equality, Filter.print, hvalue]

theorem print_present (attr : String) :
    (Filter.present attr).print = '(' :: (attr.toList ++ ['=', '*', ')']) := rfl

theorem wellFormed_statusFilter {s : Status} (hs : s ≠ .created) :
    (statusFilter ctx s).WellFormed := by
  have hkey := ctx.ldapName_isKeystring
  cases s <;> simp_all [statusFilter, flagFilter, Filter.equality, Filter.present,
    Filter.WellFormed, AllWellFormed]

/-- **What the directory reads.**  The text of a status is the text of its filter. -/
theorem formatBound_status (ctx : LdapContext) {s : Status} (hs : s ≠ .created) :
    ∃ text, formatBound ctx "status" s.name = .ok text ∧ parse text = some (statusFilter ctx s) := by
  refine ⟨String.ofList (statusFilter ctx s).print, ?_, parse_print (wellFormed_statusFilter hs)⟩
  simp only [formatBound, Status.valueOf_name]
  cases s with
  | created => exact absurd rfl hs
  | _ =>
    refine congrArg Except.ok (String.toList_inj.1 ?_)
    simp [statusFilter, Filter.print, printAll, print_flagFilter, print_present, ldapBoolean]

theorem agrees_iff_selects {s : Status} (hs : s ≠ .created) :
    Agrees ctx a s ↔ matchesStatus a s = .ok ((statusFilter ctx s).selects (a.ldapEntry ctx)) := by
  obtain ⟨text, htext, hparse⟩ := formatBound_status ctx hs
  constructor
  · rintro ⟨text', f, htext', hparse', hmatches⟩
    obtain rfl : text = text' := Except.ok.inj (htext.symm.trans htext')
    obtain rfl := Option.some.inj (hparse.symm.trans hparse')
    exact hmatches
  · exact fun hmatches => ⟨text, _, htext, hparse, hmatches⟩

/-! ### What they select -/

theorem selects_flagFilter {attr : AccountAttr} {b : Option Bool}
    (h : a.get attr = (b.map ldapBoolean).toList) (v : Bool) :
    (flagFilter ctx attr v).selects (a.ldapEntry ctx) = (b == some v) := by
  rw [flagFilter, selects_equality, Account.ldapEntry_ldapName, h]
  cases b with
  | none => simp
  | some b => cases b <;> cases v <;> decide

theorem selects_lastLogin {t : Option ℕ} (h : a.get .lastLogin = (t.map toString).toList) :
    (Filter.present (ctx.ldapName .lastLogin)).selects (a.ldapEntry ctx) = t.isSome := by
  rw [selects_present, Account.ldapEntry_ldapName, h]
  cases t <;> rfl

theorem getSingle_of_get {attr : AccountAttr} {v : Option String} (h : a.get attr = v.toList) :
    a.getSingle attr = v := by
  rw [LdapEntity.getSingle, ← LdapEntity.get, h]
  cases v <;> rfl

theorem isAdmin_of_get {b : Option Bool} (h : a.get .admin = (b.map ldapBoolean).toList) :
    a.isAdmin = (b == some true) := by
  rw [Account.isAdmin, getSingle_of_get h]
  cases b with
  | none => rfl
  | some b => cases b <;> decide

theorem isSuspended_of_get {b : Option Bool} (h : a.get .suspended = (b.map ldapBoolean).toList) :
    a.isSuspended = (b == some true) := by
  rw [Account.isSuspended, getSingle_of_get h]
  cases b with
  | none => rfl
  | some b => cases b <;> decide

theorem hasLastLogin_of_get {t : Option ℕ} (h : a.get .lastLogin = (t.map toString).toList) :
    a.hasLastLogin = t.isSome := by
  rw [Account.hasLastLogin, getSingle_of_get h]
  cases t with
  | none => rfl
  | some n => simp [empty]

/-- **One entry, one status.**  The filter and the predicate agree exactly when the flag
that the filter compares with `false` is there. -/
theorem agrees_iff (h : StoresFlags a) {s : Status} (hs : s ≠ .created) :
    Agrees ctx a s ↔ HasFlag a s := by
  obtain ⟨⟨b, hb⟩, ⟨c, hc⟩, ⟨t, ht⟩⟩ := h
  -- `suspended=false` says the same as `!isSuspended()` where the flag is there
  have hflag : ∀ p : Bool, (p && !c == some true) = (p && (c == some false && true))
      ↔ (p = true → (c.map ldapBoolean).toList ≠ []) := by
    intro p
    rcases c with _ | _ | _ <;> cases p <;> simp
  rw [agrees_iff_selects hs]
  cases s <;> simp only [matchesStatus, statusFilter, HasFlag, Filter.selects, selectsAll,
    selects_flagFilter hb, selects_flagFilter hc, selects_lastLogin ht, isAdmin_of_get hb,
    isSuspended_of_get hc, hasLastLogin_of_get ht, hb, hc, Except.ok.injEq]
  case created => exact absurd rfl hs
  case active => exact hflag t.isSome
  case invited => simpa only [Bool.not_eq_true'] using hflag (!t.isSome)
  case admins => exact hflag (b == some true)
  case non_admins => rcases b with _ | _ | _ <;> simp

/-! ### The administrators -/

/-- `findAdmins` finds every account that is an admin and not suspended. -/
def FindsAdmins (dir : Directory ctx) : Prop :=
  ∃ l, findAdmins dir = .ok l ∧
    ∀ a ∈ dir.accounts.values, a.isAdmin = true → a.isSuspended = false → a ∈ l

theorem findAdmins_eq (dir : Directory ctx) : findAdmins dir
    = .ok (dir.accounts.values.filter
        fun a => (statusFilter ctx .admins).selects (a.ldapEntry ctx)) := by
  obtain ⟨text, htext, hparse⟩ := formatBound_status ctx (s := .admins) (by decide)
  rw [findAdmins, findByField, htext]
  simp only [bind, Except.bind, hparse]
  rfl

theorem findsAdmins_iff {dir : Directory ctx} (h : ∀ a ∈ dir.accounts.values, StoresFlags a) :
    FindsAdmins dir ↔ ∀ a ∈ dir.accounts.values, HasFlag a .admins := by
  have hselects : ∀ a ∈ dir.accounts.values,
      ((a.isAdmin = true → a.isSuspended = false →
        (statusFilter ctx .admins).selects (a.ldapEntry ctx) = true) ↔ HasFlag a .admins) := by
    intro a ha
    obtain ⟨⟨b, hb⟩, ⟨c, hc⟩, -⟩ := h a ha
    simp only [statusFilter, HasFlag, Filter.selects, selectsAll, selects_flagFilter hb,
      selects_flagFilter hc, isAdmin_of_get hb, isSuspended_of_get hc, hc]
    rcases b with _ | _ | _ <;> rcases c with _ | _ | _ <;> simp
  rw [FindsAdmins, findAdmins_eq]
  constructor
  · rintro ⟨l, hl, hfinds⟩ a ha
    obtain rfl := Except.ok.inj hl
    exact (hselects a ha).1 fun hadmin hsuspended =>
      (List.mem_filter.1 (hfinds a ha hadmin hsuspended)).2
  · intro hflag
    exact ⟨_, rfl, fun a ha hadmin hsuspended =>
      List.mem_filter.2 ⟨ha, (hselects a ha).2 (hflag a ha) hadmin hsuspended⟩⟩

/-- **Status filters.**  For an entry with any of the flags, the filter of a status agrees
with the predicate over the getters exactly when the flag that the filter compares
with `false` is there; and `findAdmins` finds every administrator of a directory
exactly when no admin is without the `suspended` flag. -/
theorem statusFilters_agree_iff (ctx : LdapContext) :
    (∀ a, StoresFlags a → ∀ s, s ≠ .created → (Agrees ctx a s ↔ HasFlag a s)) ∧
      ∀ dir : Directory ctx, (∀ a ∈ dir.accounts.values, StoresFlags a) →
        (FindsAdmins dir ↔ ∀ a ∈ dir.accounts.values, HasFlag a .admins) :=
  ⟨fun _ h _ hs => agrees_iff h hs, fun _ h => findsAdmins_iff h⟩

/-- A suspended administrator with all flags, and a directory of an active one. -/
theorem statusFilters_agree_flagged :
    Agrees .mock (((Account.new "root").setAdmin true).setSuspended true) .admins ∧
      FindsAdmins (Directory.empty.putAccount
        (((Account.new "root").setAdmin true).setSuspended false) : Directory .mock) := by
  obtain ⟨hagrees, hfinds⟩ := statusFilters_agree_iff .mock
  constructor
  · have hflags : StoresFlags (((Account.new "root").setAdmin true).setSuspended true) :=
      ⟨⟨some true, rfl⟩, ⟨some true, rfl⟩, ⟨none, rfl⟩⟩
    exact (hagrees _ hflags .admins (by decide)).2 fun _ => by decide
  · refine (hfinds _ fun a ha => ?_).2 fun a ha _ => ?_
    · obtain rfl := List.mem_singleton.1 ha
      exact ⟨⟨some true, rfl⟩, ⟨some false, rfl⟩, ⟨none, rfl⟩⟩
    · obtain rfl := List.mem_singleton.1 ha
      decide

/-- **An administrator that the filter misses.**  An account that was made an admin and
never suspended nor reinstated has no `suspended` flag: the getters call it an
administrator, and `findAdmins` does not find it. -/
theorem findAdmins_misses : StoresFlags ((Account.new "root").setAdmin true) ∧
    ¬ Agrees .mock ((Account.new "root").setAdmin true) .admins ∧
    ¬ FindsAdmins (Directory.empty.putAccount ((Account.new "root").setAdmin true) :
      Directory .mock) := by
  have hflags : StoresFlags ((Account.new "root").setAdmin true) :=
    ⟨⟨some true, rfl⟩, ⟨none, rfl⟩, ⟨none, rfl⟩⟩
  have hmisses : ¬ HasFlag ((Account.new "root").setAdmin true) .admins :=
    fun h => h (by decide) rfl
  have hstored : ∀ a ∈ (Directory.empty.putAccount ((Account.new "root").setAdmin true) :
      Directory .mock).accounts.values, StoresFlags a := by
    intro a ha
    obtain rfl := List.mem_singleton.1 ha
    exact hflags
  refine ⟨hflags, fun h => ?_, fun h => ?_⟩
  · exact hmisses ((agrees_iff hflags (by decide)).1 h)
  · exact hmisses ((findsAdmins_iff hstored).1 h _ (List.mem_singleton.2 rfl))

end Search

end CloudOs

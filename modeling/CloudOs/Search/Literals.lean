/-
# Values in search filters

Four lookups write a value of the caller into a filter: by the id of an account or of
a group, by the reset token of an account, and by a mirror of a group.  Each is
meant to ask for the entries whose attribute is that value.

`formatBound` puts the value between `=` and `)` as it is.  The directory reads
`*` as a star, `\` as the start of an escape and a parenthesis as part of the
filter's shape, so that the lookup is the one that is meant exactly for the values
without NUL, `(`, `)`, `*` and `\`.
-/

import CloudOs.Dao.Search

namespace CloudOs

open SearchFilter

namespace Search

variable {ctx : LdapContext}

/-- A lookup by a value of the caller. -/
inductive Lookup
  | account | resetPasswordToken | group | mirror
  deriving DecidableEq, Repr

namespace Lookup

/-- The attribute that is compared, which is also the bound. -/
def attr (ctx : LdapContext) : Lookup → String
  | account => AccountDAO.idField ctx
  | resetPasswordToken => "resetPasswordToken"
  | group => AccountGroupDAO.idField ctx
  | mirror => "mirror"

/-- The filter text of the lookup. -/
def text (ctx : LdapContext) (l : Lookup) (value : String) : Except Exn String :=
  match l with
  | account | resetPasswordToken => AccountDAO.formatBound ctx (l.attr ctx) value
  | group | mirror => AccountGroupDAO.formatBound ctx (l.attr ctx) value

theorem attr_isKeystring (ctx : LdapContext) (l : Lookup) :
    isKeystring (l.attr ctx).toList = true := by
  cases l with
  | account => exact ctx.user_username_isKeystring
  | resetPasswordToken => exact (by decide : isKeystring "resetPasswordToken".toList = true)
  | group => exact ctx.group_name_isKeystring
  | mirror => exact (by decide : isKeystring "mirror".toList = true)

/-- Every lookup writes the value as it is. -/
theorem text_eq (l : Lookup) (value : String) :
    l.text ctx value = .ok (rawEquality (l.attr ctx) value) := by
  cases l with
  | account => exact AccountDAO.formatBound_eq (Or.inl rfl) value
  | resetPasswordToken => exact AccountDAO.formatBound_eq (Or.inr rfl) value
  | group => exact AccountGroupDAO.formatBound_eq (Or.inl rfl) value
  | mirror => exact AccountGroupDAO.formatBound_eq (Or.inr rfl) value

end Lookup

/-- **The lookup asks for the value.**  Its text is read as the equality assertion of the
attribute and the value; it selects the entries with this very value; and an account
found by a reset token has this very token. -/
structure AsksFor (ctx : LdapContext) (l : Lookup) (value : String) : Prop where
  reads : ∃ text, l.text ctx value = .ok text ∧
    parse text = some (.equality (l.attr ctx) (octets value.toList))
  selects : ∃ text f, l.text ctx value = .ok text ∧ parse text = some f ∧
    ∀ entry, f.selects entry = true ↔ octets value.toList ∈ entry (l.attr ctx)
  token : l = .resetPasswordToken → ∀ dir : Directory ctx, ∃ found,
    AccountDAO.findByResetPasswordToken dir value = .ok found ∧
      ∀ a ∈ found, value ∈ a.get .resetPasswordToken

/-- An account that the equality assertion selects has the token. -/
theorem mem_of_selects {a : Account} {token : String}
    (h : (Filter.equality "resetPasswordToken" (octets token.toList)).selects (a.ldapEntry ctx)
      = true) :
    token ∈ a.get .resetPasswordToken := by
  rw [selects_equality, decide_eq_true_eq, ← ctx.ldapName_fixed .resetPasswordToken _ rfl,
    Account.ldapEntry_ldapName] at h
  obtain ⟨v, hv, hoctets⟩ := List.mem_map.1 h
  rwa [← String.toList_inj.1 (octets_injective hoctets)]

theorem token_of_parse {token : String} (h : parse (rawEquality "resetPasswordToken" token)
      = some (.equality "resetPasswordToken" (octets token.toList))) (dir : Directory ctx) :
    ∃ found, AccountDAO.findByResetPasswordToken dir token = .ok found ∧
      ∀ a ∈ found, token ∈ a.get .resetPasswordToken := by
  refine ⟨dir.accounts.values.filter fun a => (Filter.equality "resetPasswordToken"
    (octets token.toList)).selects (a.ldapEntry ctx), ?_, fun a ha => ?_⟩
  · rw [AccountDAO.findByResetPasswordToken, AccountDAO.findByField,
      AccountDAO.formatBound_eq (Or.inr rfl)]
    simp only [bind, Except.bind, h]
    rfl
  · exact mem_of_selects (List.mem_filter.1 ha).2

/-- **Which values a lookup asks for**: those without NUL, `(`, `)`, `*` and `\`. -/
theorem asksFor_iff (ctx : LdapContext) (l : Lookup) (value : String) :
    AsksFor ctx l value ↔ ∀ c ∈ value.toList, isNormal c = true := by
  rw [← parse_equality_iff (l.attr_isKeystring ctx)]
  constructor
  · rintro ⟨⟨text, htext, hparse⟩, -, -⟩
    obtain rfl := Except.ok.inj ((l.text_eq value).symm.trans htext)
    exact hparse
  · intro hparse
    refine ⟨⟨_, l.text_eq value, hparse⟩, ⟨_, _, l.text_eq value, hparse, fun entry => ?_⟩, ?_⟩
    · rw [selects_equality, decide_eq_true_eq]
    · rintro rfl dir
      exact token_of_parse hparse dir

/-- A directory with one account, whose reset token is `secret`. -/
def withToken : Directory .mock :=
  Directory.empty.putAccount ((Account.new "alice").set .resetPasswordToken (some "secret"))

/-- **Any token will do.**  The token `*` finds an account whose token is another one. -/
theorem star_finds_any_token : ¬ AsksFor .mock .resetPasswordToken "*" := by
  intro h
  obtain ⟨found, hfound, htokens⟩ := h.token rfl withToken
  have hsecret : (AccountDAO.findByResetPasswordToken withToken "*").toOption.map
      (List.map (·.get AccountAttr.resetPasswordToken)) = some [["secret"]] := by decide +kernel
  rw [hfound] at hsecret
  have hmap : ["secret"] ∈ found.map (·.get AccountAttr.resetPasswordToken) := by
    rw [Option.some.inj hsecret]
    exact List.mem_singleton.2 rfl
  obtain ⟨a, ha, htoken⟩ := List.mem_map.1 hmap
  exact absurd (htoken ▸ htokens a ha) (by decide)

end Search

end CloudOs

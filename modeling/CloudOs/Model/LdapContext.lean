/-
# `LdapContext`: names, DNs and attribute names

The directory's layout is configuration (`LdapConfiguration`, read from
`LDAP_CONFIG`) and its naming rules are those of the LDAP library; neither is
part of the repository.  `LdapContext` holds what the code asks of them, with
the facts the code relies on as fields:

* `ldapName` is the attribute name behind a Java name (`typeForJava`); the
  tokens, codes and the verified flag of `Account` have fixed names.  No attribute
  that names an account is called `status`.
* `userDN` and `groupDN` build the DN of an account and of a group from its
  name.  DNs are compared ignoring case, so two names have one DN exactly when
  `toLowerCase` makes them equal.  A text of small letters and hyphens is in lower
  case.
* An account's DN begins with `user_username=`, a group's DN with `group_name=`
  and ends with `group_dn`; an account's DN does not.
-/

import CloudOs.Model.Account
import CloudOs.Model.AccountGroup
import CloudOs.Lib.SearchFilter
import Mathlib.Data.List.Nodup

namespace CloudOs

/-- `String.startsWith`. -/
def startsWith (s pre : String) : Bool := pre.toList.isPrefixOf s.toList

/-- `String.endsWith`. -/
def endsWith (s suf : String) : Bool := suf.toList.isSuffixOf s.toList

/-- A text of small ASCII letters and hyphens. -/
def isLower (s : String) : Bool := s.toList.all fun c => c.isLower || c == '-'

/-- The attribute names that `Account` spells out itself. -/
def AccountAttr.fixedName : AccountAttr → Option String
  | .emailVerified => some "emailVerified"
  | .emailVerificationCode => some "emailVerificationCode"
  | .emailVerificationCodeCtime => some "emailVerificationCodeCtime"
  | .resetPasswordToken => some "resetPasswordToken"
  | .resetPasswordTokenCtime => some "resetPasswordTokenCtime"
  | _ => none

structure LdapContext where
  user_username : String
  group_name : String
  group_dn : String
  ldapName : AccountAttr → String
  userDN : String → String
  groupDN : String → String
  toLowerCase : String → String
  ldapName_injective : Function.Injective ldapName
  ldapName_fixed : ∀ a n, a.fixedName = some n → ldapName a = n
  ldapName_isKeystring : ∀ a, SearchFilter.isKeystring (ldapName a).toList = true
  user_username_isKeystring : SearchFilter.isKeystring user_username.toList = true
  group_name_isKeystring : SearchFilter.isKeystring group_name.toList = true
  user_username_ne_status : user_username ≠ "status"
  toLowerCase_toLowerCase : ∀ s, toLowerCase (toLowerCase s) = toLowerCase s
  toLowerCase_of_lower : ∀ s, isLower s = true → toLowerCase s = s
  userDN_eq_iff : ∀ {m n}, userDN m = userDN n ↔ toLowerCase m = toLowerCase n
  groupDN_eq_iff : ∀ {m n}, groupDN m = groupDN n ↔ toLowerCase m = toLowerCase n
  userDN_startsWith : ∀ n, startsWith (userDN n) (user_username ++ "=") = true
  groupDN_startsWith : ∀ n, startsWith (groupDN n) (group_name ++ "=") = true
  groupDN_endsWith : ∀ n, endsWith (groupDN n) group_dn = true
  userDN_not_endsWith : ∀ n, endsWith (userDN n) group_dn = false

namespace LdapContext

variable (ctx : LdapContext)

/-- `String.equalsIgnoreCase`. -/
def equalsIgnoreCase (s t : String) : Bool := ctx.toLowerCase s == ctx.toLowerCase t

/-- `AccountGroup.hasMirror(name)`. -/
def hasMirror (g : AccountGroup) (name : String) : Bool :=
  g.getMirrors.any fun m => ctx.equalsIgnoreCase m name

/-- `AccountGroupRequest.getName`. -/
def getName (request : AccountGroupRequest) : String := ctx.toLowerCase request.name

/-- Whether a member DN is the DN of a group: the test of `buildGroupMemberList`. -/
def isGroupDn (dn : String) : Bool := endsWith dn ctx.group_dn

@[simp] theorem isGroupDn_groupDN (n : String) : ctx.isGroupDn (ctx.groupDN n) = true :=
  ctx.groupDN_endsWith n

@[simp] theorem isGroupDn_userDN (n : String) : ctx.isGroupDn (ctx.userDN n) = false :=
  ctx.userDN_not_endsWith n

theorem userDN_ne_groupDN (m n : String) : ctx.userDN m ≠ ctx.groupDN n := fun h => by
  have := ctx.isGroupDn_userDN m
  rw [h, isGroupDn_groupDN] at this
  exact absurd this (by decide)

@[simp] theorem userDN_toLowerCase (n : String) : ctx.userDN (ctx.toLowerCase n) = ctx.userDN n :=
  ctx.userDN_eq_iff.2 (ctx.toLowerCase_toLowerCase n)

@[simp] theorem groupDN_toLowerCase (n : String) :
    ctx.groupDN (ctx.toLowerCase n) = ctx.groupDN n :=
  ctx.groupDN_eq_iff.2 (ctx.toLowerCase_toLowerCase n)

theorem equalsIgnoreCase_iff {m n : String} :
    ctx.equalsIgnoreCase m n = true ↔ ctx.groupDN m = ctx.groupDN n := by
  rw [equalsIgnoreCase, beq_iff_eq, groupDN_eq_iff]

end LdapContext

/-! ### The layout of the mock directory -/

/-- `String.toLowerCase` on ASCII letters. -/
def asciiLowerCase (s : String) : String := String.ofList (s.toList.map Char.toLower)

theorem toLower_of_upper {c : Char} (h : c.val ≥ 'A'.val ∧ c.val ≤ 'Z'.val) :
    c.toLower.val = c.val + ('a'.val - 'A'.val) := congrArg Char.val (dif_pos h)

theorem toLower_of_not_upper {c : Char} (h : ¬ (c.val ≥ 'A'.val ∧ c.val ≤ 'Z'.val)) :
    c.toLower = c := dif_neg h

theorem toLower_toLower (c : Char) : c.toLower.toLower = c.toLower := by
  by_cases h : c.val ≥ 'A'.val ∧ c.val ≤ 'Z'.val
  · have hval := toLower_of_upper h
    have hlower : ¬ (c.toLower.val ≥ 'A'.val ∧ c.toLower.val ≤ 'Z'.val) := by
      rw [hval]
      simp only [UInt32.le_iff_toNat_le, ge_iff_le, UInt32.toNat_add] at h ⊢
      have hA : 'A'.val.toNat = 65 := rfl
      have hZ : 'Z'.val.toNat = 90 := rfl
      have hshift : ('a'.val - 'A'.val).toNat = 32 := rfl
      omega
    exact toLower_of_not_upper hlower
  · have hsame := toLower_of_not_upper h
    rw [hsame, hsame]

theorem asciiLowerCase_idem (s : String) : asciiLowerCase (asciiLowerCase s) = asciiLowerCase s := by
  have h : Char.toLower ∘ Char.toLower = Char.toLower := funext toLower_toLower
  simp [asciiLowerCase, h]

theorem toLower_of_lower {c : Char} (h : (c.isLower || c == '-') = true) : c.toLower = c := by
  rcases Bool.or_eq_true_iff.1 h with h | h
  · apply toLower_of_not_upper
    rintro ⟨-, hZ⟩
    have ha : 'a'.val ≤ c.val := of_decide_eq_true (Bool.and_eq_true_iff.1 h).1
    exact absurd (UInt32.le_trans ha hZ) (by decide)
  · rw [beq_iff_eq.1 h]
    rfl

theorem asciiLowerCase_of_lower {s : String} (h : isLower s = true) : asciiLowerCase s = s := by
  have hmap : s.toList.map Char.toLower = s.toList.map id :=
    List.map_congr_left fun c hc => toLower_of_lower (List.all_eq_true.1 h c hc)
  rw [asciiLowerCase, hmap, List.map_id, String.ofList_toList]

/-- A DN of the mock directory: `rdn`, the name in lower case, `base`. -/
def mockDN (rdn base n : String) : String := rdn ++ asciiLowerCase n ++ base

theorem mockDN_eq_iff {rdn base m n : String} :
    mockDN rdn base m = mockDN rdn base n ↔ asciiLowerCase m = asciiLowerCase n := by
  simp [mockDN]

theorem mockDN_startsWith (rdn base n : String) : startsWith (mockDN rdn base n) rdn = true := by
  simp [mockDN, startsWith]

theorem mockDN_suffix (rdn base n : String) : base.toList <:+ (mockDN rdn base n).toList :=
  ⟨(rdn ++ asciiLowerCase n).toList, by simp [mockDN]⟩

/-- The attribute names of the mock directory. -/
def mockLdapName : AccountAttr → String
  | .uuid => "nsuniqueid"
  | .email => "mail"
  | .password => "userPassword"
  | .firstName => "givenName"
  | .lastName => "sn"
  | .mobilePhone => "mobile"
  | .mobilePhoneCountryCode => "mobileCountryCode"
  | .locale => "preferredLanguage"
  | .emailVerified => "emailVerified"
  | .emailVerificationCode => "emailVerificationCode"
  | .emailVerificationCodeCtime => "emailVerificationCodeCtime"
  | .resetPasswordToken => "resetPasswordToken"
  | .resetPasswordTokenCtime => "resetPasswordTokenCtime"
  | .admin => "admin"
  | .suspended => "suspended"
  | .twoFactor => "twoFactor"
  | .twoFactorAuthId => "twoFactorAuthId"
  | .lastLogin => "lastLogin"
  | .storageQuota => "storageQuota"

/-- The layout that `MockLdapService` prints: accounts under `ou=People`, groups
under `ou=Groups`. -/
def LdapContext.mock : LdapContext where
  user_username := "uid"
  group_name := "cn"
  group_dn := "ou=Groups,dc=cloudstead,dc=io"
  ldapName := mockLdapName
  userDN := mockDN "uid=" ",ou=People,dc=cloudstead,dc=io"
  groupDN := mockDN "cn=" ",ou=Groups,dc=cloudstead,dc=io"
  toLowerCase := asciiLowerCase
  ldapName_injective := fun a b => (List.inj_on_of_nodup_map
    (show (AccountAttr.all.map mockLdapName).Nodup by decide)) a.mem_all b.mem_all
  ldapName_fixed := by
    intro a n h
    cases a <;> simp_all [AccountAttr.fixedName, mockLdapName]
  ldapName_isKeystring := by intro a; cases a <;> decide
  user_username_isKeystring := by decide
  group_name_isKeystring := by decide
  user_username_ne_status := by decide
  toLowerCase_toLowerCase := asciiLowerCase_idem
  toLowerCase_of_lower := fun _ => asciiLowerCase_of_lower
  userDN_eq_iff := mockDN_eq_iff
  groupDN_eq_iff := mockDN_eq_iff
  userDN_startsWith := mockDN_startsWith "uid=" _
  groupDN_startsWith := mockDN_startsWith "cn=" _
  groupDN_endsWith := fun n => List.isSuffixOf_iff_suffix.2
    (List.IsSuffix.trans (by decide) (mockDN_suffix "cn=" _ n))
  userDN_not_endsWith := fun n => by
    refine Bool.eq_false_iff.2 fun h => ?_
    have hsuf := List.suffix_of_suffix_length_le (List.isSuffixOf_iff_suffix.1 h)
      (mockDN_suffix "uid=" _ n) (by decide)
    exact absurd hsuf (by decide)

end CloudOs

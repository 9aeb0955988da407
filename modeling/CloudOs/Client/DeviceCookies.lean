/-
# The cookies of a device

The login page keeps an id and a name of the device in cookies: `setCookie` writes one, and
`getCookie` looks for it in what `document.cookie` lists.

| what | how |
| --- | --- |
| `setCookie` | `name=value; expires=…`, as it is |
| `document.cookie` | keeps what stands before the first `;`, without white space around it |
| `getCookie` | the first pair with `name=` anywhere in it, without as many characters |

So a value with a `;` is cut, and a cookie that is listed before the one looked for is taken for
it when its pair has `name=` in it.  A value comes back exactly when nothing of that kind happens,
or happens to bring the same value (`cookie_comesBack_iff`).
-/

import CloudOs.Lib.Cookies
import Mathlib.Data.List.Infix

namespace CloudOs

open Cookies

namespace DeviceCookies

/-- The code units of a text of the basic plane. -/
def js (s : String) : Text := s.toList.map unit

/-- What a page runs in: the document, the time, and the browser's way with dates and with the
attributes of cookies. -/
structure Page where
  doc : Document
  now : ℤ
  toUTCString : ℤ → Text
  attributes : Text → Attributes

/-- `setCookie`. -/
def setCookie (page : Page) (cname cvalue : Text) (exdays : ℕ) (jar : Jar) : Jar :=
  let expires := js "expires=" ++ page.toUTCString (page.now + exdays * 24 * 60 * 60 * 1000)
  receive page.attributes page.now page.doc
    (cname ++ js "=" ++ cvalue ++ js "; " ++ expires) jar

/-- The loop of `getCookie`. -/
def getCookieLoop (name : Text) : List Text → Text
  | [] => []
  | c :: ca =>
    if name <:+: stripSpaces c then (stripSpaces c).drop name.length else getCookieLoop name ca

/-- `getCookie`. -/
def getCookie (doc : Document) (jar : Jar) (cname : Text) : Text :=
  getCookieLoop (cname ++ js "=") ((cookieString doc jar).splitOn (unit ';'))

/-! ### What is found -/

/-- What the first pair with `name=` in it has behind as many characters. -/
def firstHit (cname : Text) (l : List Cookie) : Option Text :=
  (l.find? fun c => decide (cname ++ js "=" <:+: c.toPair.text)).map fun c =>
    c.toPair.text.drop (cname ++ js "=").length

theorem getCookieLoop_eq (name : Text) (pieces : List Text) : getCookieLoop name pieces =
    (((pieces.map stripSpaces).find? fun c => decide (name <:+: c)).map
      fun c => c.drop name.length).getD [] := by
  induction pieces with
  | nil => rfl
  | cons c pieces ih =>
    rw [getCookieLoop, List.map_cons, List.find?_cons]
    by_cases h : name <:+: stripSpaces c
    · rw [if_pos h, decide_eq_true h]
      rfl
    · rw [if_neg h, decide_eq_false h, ih]

/-- `getCookie` finds the first hit among the cookies that the document sees. -/
theorem getCookie_eq (doc : Document) (jar : Jar) (cname : Text) :
    getCookie doc jar cname = (firstHit cname (retrieve doc jar)).getD [] := by
  rw [getCookie, getCookieLoop_eq, cookieString]
  by_cases h : retrieve doc jar = []
  · rw [h]
    have hnot : ¬ cname ++ js "=" <:+: [] := by
      rw [List.infix_nil, List.append_eq_nil_iff, not_and]
      exact fun _ => by decide
    simp [serialize, firstHit, stripSpaces, hnot]
  · rw [pieces_serialize h, firstHit, List.find?_map, Option.map_map]
    rfl

/-- What is found has no `;` in it. -/
theorem semicolon_notMem_getCookie (doc : Document) (jar : Jar) (cname : Text) :
    unit ';' ∉ getCookie doc jar cname := by
  rw [getCookie_eq, firstHit]
  cases (retrieve doc jar).find? fun c => decide (cname ++ js "=" <:+: c.toPair.text) with
  | none => exact List.not_mem_nil
  | some c => exact fun h => semicolon_notMem_text c.toPair ((List.drop_sublist _ _).subset h)

theorem firstHit_append (cname : Text) (front back : List Cookie) :
    firstHit cname (front ++ back) = (firstHit cname front).or (firstHit cname back) := by
  rw [firstHit, List.find?_append, Option.map_or, ← firstHit, ← firstHit]

/-- The cookie itself is a hit, and has its value. -/
theorem firstHit_cons (c : Cookie) (l : List Cookie) : firstHit c.name (c :: l) = some c.value := by
  have htext : c.toPair.text = c.name ++ js "=" ++ c.value := by
    rw [Pair.text, List.append_assoc]
    rfl
  have hinfix : c.name ++ js "=" <:+: c.toPair.text := by
    rw [htext]
    exact (List.prefix_append _ _).isInfix
  rw [firstHit, List.find?_cons, decide_eq_true hinfix, Option.map_some, htext, List.drop_left]

/-! ### What is written -/

/-- A name without `=`, `;` and white space around it. -/
structure IsPlainName (cname : Text) : Prop where
  equals_notMem : unit '=' ∉ cname
  semicolon_notMem : unit ';' ∉ cname
  trim_eq : trim cname = cname

/-- The browser reads a date that `toUTCString` has written, to the second, or not at all. -/
def ReadsDates (page : Page) : Prop :=
  ∀ t, ∃ expiry, page.attributes (js " expires=" ++ page.toUTCString t) = { expiry } ∧
    ∀ x ∈ expiry, t < x + 1000

/-- The key of the cookies that a document sets. -/
def ownKey (doc : Document) (cname : Text) : Key := ⟨cname, doc.host, defaultPath doc.path⟩

/-- The document may not set the cookie: it has no name, or is there and `HttpOnly`. -/
def IsIgnored (doc : Document) (cname : Text) (jar : Jar) : Prop :=
  cname = [] ∨ isLocked jar (ownKey doc cname) = true

/-- **What is stored.**  A value without a `;` is stored without the white space around it, unless
the document may not set the cookie. -/
theorem setCookie_eq {page : Page} (hdates : ReadsDates page) {cname cvalue : Text} {exdays : ℕ}
    (jar : Jar) (hname : IsPlainName cname) (hvalue : unit ';' ∉ cvalue) (hdays : 0 < exdays) :
    (IsIgnored page.doc cname jar → setCookie page cname cvalue exdays jar = jar) ∧
    (¬ IsIgnored page.doc cname jar → ∃ c, setCookie page cname cvalue exdays jar = put c jar ∧
      c.key = ownKey page.doc cname ∧ c.value = trim cvalue ∧ sees page.doc c = true) := by
  obtain ⟨expiry, hattributes, hexpiry⟩ :=
    hdates (page.now + exdays * 24 * 60 * 60 * 1000)
  have hlater : expiry.any (fun x => decide (x ≤ page.now)) = false := by
    cases expiry with
    | none => rfl
    | some x =>
      have hx := hexpiry x rfl
      rw [Option.any_some, decide_eq_false_iff_not]
      omega
  have htext : setCookie page cname cvalue exdays jar =
      receive page.attributes page.now page.doc (cname ++ unit '=' :: cvalue ++ unit ';' ::
        (js " expires=" ++ page.toUTCString (page.now + exdays * 24 * 60 * 60 * 1000))) jar := by
    rw [setCookie, List.append_assoc, List.append_assoc, List.append_assoc]
    simp only [List.append_assoc, List.cons_append]
    rfl
  have hbehind : attributesOf (cname ++ unit '=' :: cvalue ++ unit ';' ::
      (js " expires=" ++ page.toUTCString (page.now + exdays * 24 * 60 * 60 * 1000))) =
        js " expires=" ++ page.toUTCString (page.now + exdays * 24 * 60 * 60 * 1000) := by
    refine attributesOf_append _ ?_
    rw [List.mem_append, List.mem_cons, not_or, not_or]
    exact ⟨hname.semicolon_notMem, by decide, hvalue⟩
  obtain ⟨hnone, hsome⟩ := parse_append
    (js " expires=" ++ page.toUTCString (page.now + exdays * 24 * 60 * 60 * 1000))
    hname.equals_notMem hname.semicolon_notMem hvalue hname.trim_eq
  rw [htext, receive, hbehind, hattributes]
  by_cases hnil : cname = []
  · rw [hnone hnil]
    exact ⟨fun _ => rfl, fun h => absurd (Or.inl hnil) h⟩
  obtain ⟨p, hparse, hp, hpvalue⟩ := hsome hnil
  have hmake : ∃ c, make page.doc p { expiry } = some c ∧ c.key = ownKey page.doc cname ∧
      c.value = trim cvalue :=
    ⟨_, rfl, congrArg (Key.mk · page.doc.host (defaultPath page.doc.path)) hp, hpvalue⟩
  obtain ⟨c, hc, hkey, hcvalue⟩ := hmake
  rw [hparse, Option.bind_some, hc]
  simp only [hkey, hlater, IsIgnored, hnil, false_or, Bool.false_eq_true, if_false]
  exact ⟨fun h => if_pos h, fun h => ⟨c, if_neg h, hkey, hcvalue, sees_make hc⟩⟩

/-- **A value comes back.**  Exactly when it has no `;`, and either the browser stores it, with no
white space to trim and with no earlier hit, or what is found instead is the value all the same. -/
theorem cookie_comesBack_iff {page : Page} (hdates : ReadsDates page) {cname cvalue : Text}
    {exdays : ℕ} (jar : Jar) (hname : IsPlainName cname) (hdays : 0 < exdays) :
    getCookie page.doc (setCookie page cname cvalue exdays jar) cname = cvalue ↔
      unit ';' ∉ cvalue ∧
        ((IsIgnored page.doc cname jar ∧
            (firstHit cname (retrieve page.doc jar)).getD [] = cvalue) ∨
          (¬ IsIgnored page.doc cname jar ∧
            (firstHit cname (earlier page.doc (ownKey page.doc cname) jar)).getD (trim cvalue) =
              cvalue)) := by
  by_cases hvalue : unit ';' ∈ cvalue
  · refine iff_of_false (fun h => ?_) fun h => h.1 hvalue
    exact semicolon_notMem_getCookie page.doc _ cname (h ▸ hvalue)
  obtain ⟨hignored, hstored⟩ := setCookie_eq hdates jar hname hvalue hdays
  by_cases hlocked : IsIgnored page.doc cname jar
  · rw [hignored hlocked, getCookie_eq]
    simp [hvalue, hlocked]
  obtain ⟨c, hset, hkey, hcvalue, hsees⟩ := hstored hlocked
  obtain ⟨later, hretrieve⟩ := retrieve_put jar hsees
  have hfound : getCookie page.doc (setCookie page cname cvalue exdays jar) cname =
      (firstHit cname (earlier page.doc (ownKey page.doc cname) jar)).getD (trim cvalue) := by
    obtain rfl : c.name = cname := congrArg Key.name hkey
    rw [hset, getCookie_eq, hretrieve, firstHit_append, firstHit_cons, hkey, hcvalue]
    cases firstHit c.name (earlier page.doc (ownKey page.doc c.name) jar) <;> rfl
  rw [hfound]
  simp [hvalue, hlocked]

/-! ### The login page -/

/-- A login page in the first millisecond of 1970: the dates are those of the browser for the end of
the year, and the longest cookie lives as long. -/
def loginPage : Page where
  doc := {
    host := js "cloud.example.com"
    isAddress := false
    path := js "/login"
    secure := true
    rooted := by decide }
  now := 0
  toUTCString t := if t = 31536000000 then js "Fri, 01 Jan 1971 00:00:00 GMT" else js "Invalid Date"
  attributes s := {
    expiry := if s = js " expires=Fri, 01 Jan 1971 00:00:00 GMT" then some 31536000000 else none }

theorem loginPage_readsDates : ReadsDates loginPage := by
  intro t
  refine ⟨_, rfl, fun x hx => ?_⟩
  by_cases ht : t = 31536000000
  · simp only [loginPage, if_pos ht] at hx
    rw [if_pos (by decide)] at hx
    have := Option.mem_some.1 hx
    omega
  · simp only [loginPage, if_neg ht] at hx
    rw [if_neg (by decide)] at hx
    exact absurd hx (Option.not_mem_none x)

theorem deviceName_plain : IsPlainName (js "deviceName") :=
  ⟨by decide, by decide, by decide⟩

/-- An older cookie that is listed before the new one, and is no hit. -/
def sessionCookie : Cookie where
  name := js "sessionId"
  value := js "c0ffee"
  name_ne := by decide
  trim_name := by decide
  equals_notMem := by decide
  semicolon_notMem_name := by decide
  trim_value := by decide
  semicolon_notMem_value := by decide
  domain := js "cloud.example.com"
  path := js "/"
  hostOnly := true
  secure := true
  httpOnly := false

/-- A user agent without a `;` comes back. -/
theorem deviceName_comesBack :
    getCookie loginPage.doc
        (setCookie loginPage (js "deviceName") (js "curl/7.38.0") 365 [sessionCookie])
        (js "deviceName") = js "curl/7.38.0" :=
  (cookie_comesBack_iff loginPage_readsDates [sessionCookie] deviceName_plain (by decide)).2
    ⟨by decide, Or.inr ⟨not_or.2 ⟨by decide, by decide +kernel⟩, by decide +kernel⟩⟩

/-- A cookie of another page of the site: its name ends as the one looked for. -/
def oldDeviceName : Cookie where
  name := js "olddeviceName"
  value := js "tablet"
  name_ne := by decide
  trim_name := by decide
  equals_notMem := by decide
  semicolon_notMem_name := by decide
  trim_value := by decide
  semicolon_notMem_value := by decide
  domain := js "cloud.example.com"
  path := js "/"
  hostOnly := true
  secure := false
  httpOnly := false

/-- A user agent is cut at its first `;`, and an older cookie whose name ends in `deviceName` is
taken for `deviceName`. -/
theorem userAgent_cut :
    (ReadsDates loginPage ∧ IsPlainName (js "deviceName") ∧
      getCookie loginPage.doc (setCookie loginPage (js "deviceName")
        (js "Mozilla/5.0 (X11; Linux x86_64)") 365 []) (js "deviceName") = js "Mozilla/5.0 (X11") ∧
    getCookie loginPage.doc (setCookie loginPage (js "deviceName") (js "curl/7.38.0") 365
      [oldDeviceName]) (js "deviceName") = js "me=tablet" :=
  ⟨⟨loginPage_readsDates, deviceName_plain, by decide +kernel⟩, by decide +kernel⟩

end DeviceCookies

end CloudOs

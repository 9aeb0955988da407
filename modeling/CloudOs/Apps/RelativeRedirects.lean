/-
# Relative redirects

A `Location` may be a relative reference, and `followRedirects` builds the URL to request next
from the parts of the last one.

| the reference | what is requested | its resolution (RFC 3986) |
| --- | --- | --- |
| `/path` | scheme, host, reference | scheme, authority, path without dots, query |
| `//authority/path` | scheme, host, reference | scheme, the other authority, path |
| `path` | scheme, host, `/`, directory, `/`, reference | scheme, authority, merged path |
| nothing, `?query` | the same | scheme, authority, path of the request |

So the port is lost, the other authority becomes a part of the path, and the slash of the
directory is doubled.  What is requested is the resolution exactly when the reference is an
absolute path without dot segments and the authority is nothing but a host
(`redirect_resolves_iff`).
-/

import CloudOs.Apps.Redirects

namespace CloudOs

open Prog InstalledAppLoader Texts URIUtil Uri

namespace Redirects

/-! ### Counting slashes -/

theorem hexDigit_slash : hexDigit '/' = none := by decide

theorem ne_slash_of_hexDigit {c : Char} {n : ℕ} (h : hexDigit c = some n) : c ≠ '/' := by
  rintro rfl
  exact absurd (hexDigit_slash.symm.trans h) (Option.some_ne_none n).symm

/-- Decoding keeps every slash. -/
theorem count_decodeFrom_le (part : Option Part) (s : List Char) :
    s.count '/' ≤ (decodeFrom part s).count '/' := by
  fun_induction decodeFrom part s with
  | case1 part => exact Nat.zero_le _
  | case2 part hi lo s h l hh hl ih =>
    have hhi := ne_slash_of_hexDigit hh
    have hlo := ne_slash_of_hexDigit hl
    simp [hhi, hlo]
    omega
  | case3 part hi lo s hnot ih =>
    simp only [List.count_append, List.count_cons] at ih ⊢
    omega
  | case4 part c s hnot ih =>
    simp only [List.count_append, List.count_cons] at ih ⊢
    omega

/-- The slashes that a path begins with. -/
def leading (s : List Char) : ℕ := (s.takeWhile (· = '/')).length

theorem leading_slash_cons (s : List Char) : leading ('/' :: s) = leading s + 1 := by
  rw [leading, List.takeWhile_cons_of_pos (by decide), List.length_cons, leading]

theorem leading_of_ne {c : Char} (s : List Char) (h : c ≠ '/') : leading (c :: s) = 0 := by
  rw [leading, List.takeWhile_cons_of_neg (by simpa using h), List.length_nil]

/-- The directory of a decoded path begins with the slashes of the path. -/
theorem leading_le_dir_decode (s : List Char) : leading s ≤ leading (dir (decode s)) := by
  induction s with
  | nil => exact Nat.zero_le _
  | cons c s ih =>
    by_cases hc : c = '/'
    · subst hc
      have hdecode : decode ('/' :: s) = '/' :: decode s := by simp [decode, decodeFrom, flush]
      rw [hdecode, dir_cons, leading_slash_cons, leading_slash_cons]
      exact Nat.add_le_add_right ih 1
    · rw [leading_of_ne s hc]
      exact Nat.zero_le _

theorem leading_append {s t : List Char} (h : ∀ c ∈ t.head?, c ≠ '/') :
    leading (s ++ t) = leading s := by
  induction s with
  | nil =>
    cases t with
    | nil => rfl
    | cons c t => exact leading_of_ne t (h c rfl)
  | cons c s ih =>
    by_cases hc : c = '/'
    · subst hc
      rw [List.cons_append, leading_slash_cons, leading_slash_cons, ih]
    · rw [List.cons_append, leading_of_ne _ hc, leading_of_ne _ hc]

/-! ### The hosts of requests -/

/-- An absolute URI of the web. -/
structure IsHttpUri (uri : String) : Prop where
  scheme : ∃ scheme, (toUri uri).scheme = some scheme ∧
    (scheme.map Char.toLower = "http".toList ∨ scheme.map Char.toLower = "https".toList)
  authority : (toUri uri).authority.isSome

/-- A relative reference. -/
def IsRelative (location : String) : Prop := (toUri location).scheme = none

theorem not_isUrl {location : String} (h : IsRelative location) : ¬ IsUrl location := by
  have hscheme : ∀ x s : List Char, location.toList = x ++ ':' :: s → x ≠ [] →
      ¬ x.all (fun c => c != ':' && c != '/' && c != '?' && c != '#') = true := by
    intro x s hlocation hx hall
    have hchars : ∀ c ∈ x, c ≠ ':' ∧ c ≠ '/' ∧ c ≠ '?' ∧ c ≠ '#' := by
      simpa [and_assoc] using hall
    have hsome := scheme_of_begins (s := s) hx hchars
    rw [← hlocation] at hsome
    exact absurd (h.symm.trans hsome) (Option.some_ne_none x).symm
  rintro (⟨s, hs⟩ | ⟨s, hs⟩)
  · exact hscheme "http".toList ("//".toList ++ s) hs.symm (by decide +kernel)
      (by decide +kernel)
  · exact hscheme "https".toList ("//".toList ++ s) hs.symm (by decide +kernel)
      (by decide +kernel)

/-- A host ends no authority. -/
theorem hostOf_stops {a host : List Char} (ha : ∀ c ∈ a, endsAuthority c = false)
    (h : hostOf a = some host) : ∀ c ∈ host, endsAuthority c = false := by
  have hserver : ∀ c ∈ afterUserInfo a, endsAuthority c = false := by
    intro c hc
    unfold afterUserInfo at hc
    cases hcut : (cut '@' a).2 with
    | none =>
      rw [hcut] at hc
      exact ha c hc
    | some server =>
      rw [hcut] at hc
      refine ha c ?_
      rw [← cut_append '@' a, hcut]
      exact List.mem_append_right _ (List.mem_cons_of_mem _ hc)
  unfold hostOf at h
  dsimp only at h
  generalize hhost : (if (afterUserInfo a).head? = some '[' then (cut ']' (afterUserInfo a)).1 ++ [']']
    else (cut ':' (afterUserInfo a)).1) = x at h
  rw [Option.ite_none_right_eq_some] at h
  obtain rfl := Option.some.inj h.2
  rw [← hhost]
  intro c hc
  split_ifs at hc
  · rcases List.mem_append.1 hc with hc | hc
    · exact hserver c (mem_of_mem_cut hc)
    · rw [List.mem_singleton.1 hc]
      decide
  · exact hserver c (mem_of_mem_cut hc)

/-- The text of a host, as it stands in a URL. -/
def hostText (uri : Reference) : List Char := (text (getHost uri)).toList

theorem hostText_stops {uri : String} : ∀ c ∈ hostText (toUri uri), endsAuthority c = false := by
  have hnull : ∀ c ∈ (text none).toList, endsAuthority c = false := by
    have hall : (text none).toList.all (fun c => !endsAuthority c) = true := by decide +kernel
    simpa only [List.all_eq_true, Bool.not_eq_true'] using hall
  rw [hostText, getHost]
  cases ha : (toUri uri).authority with
  | none => exact hnull
  | some a =>
    cases hhost : hostOf a with
    | none =>
      rw [Option.bind_some, hhost]
      exact hnull
    | some host =>
      rw [Option.bind_some, hhost, text, String.toList_ofList]
      exact hostOf_stops (authority_stops ha).1 hhost

/-- The text of a host is the authority when the authority is nothing but a host. -/
theorem hostText_eq_iff {uri : Reference} {a : List Char} (ha : uri.authority = some a) :
    hostText uri = a ↔ getHost uri = uri.authority := by
  rw [hostText, getHost, ha, Option.bind_some]
  cases hhost : hostOf a with
  | none =>
    refine iff_of_false ?_ (Option.some_ne_none a).symm
    rintro rfl
    exact absurd hhost (by decide +kernel)
  | some host => rw [text, String.toList_ofList, Option.some.injEq]

theorem count_of_stops {x : List Char} (h : ∀ c ∈ x, endsAuthority c = false) : x.count '/' = 0 :=
  List.count_eq_zero.2 fun hc => absurd (h '/' hc) (by decide)

theorem count_dropLast_dir (s : List Char) : s.count '/' ≤ (dir s).dropLast.count '/' + 1 := by
  by_cases h : '/' ∈ s
  · have hcount := congrArg (List.count '/') (dropLast_dir_append h)
    rw [List.count_append, List.count_singleton_self, count_dir] at hcount
    exact hcount.ge
  · rw [List.count_eq_zero.2 h]
    exact Nat.zero_le _

theorem part_head {c d : Char} {x : Option (List Char)} (h : d ∈ (part c x).head?) : d = c := by
  cases x with
  | none => exact absurd h (Option.not_mem_none d)
  | some s => exact (Option.some.inj h).symm

theorem parts_head {x y : Option (List Char)} {c : Char}
    (h : c ∈ (part '?' x ++ part '#' y).head?) : c = '?' ∨ c = '#' := by
  cases x with
  | none => exact Or.inr (part_head h)
  | some s => exact Or.inl (Option.some.inj h).symm

/-! ### What is requested, and what should be -/

section

variable {requestUri location : String} {scheme authority : List Char}

/-- The text of a target with a scheme and an authority. -/
theorem recompose_eq (path : List Char) (q f : Option (List Char)) :
    (⟨some scheme, some authority, path, q, f⟩ : Reference).recompose =
      scheme ++ ':' :: '/' :: '/' :: (authority ++ (path ++ (part '?' q ++ part '#' f))) := by
  simp [Reference.recompose, Reference.hierarchy, Reference.suffix, schemeText, authorityText]

/-- The text of a relative reference. -/
theorem toList_location (h : IsRelative location) : location.toList =
    authorityText (toUri location).authority ++ ((toUri location).path ++ (toUri location).suffix) := by
  have hparts := recompose_parse location.toList
  rw [← toUri, Reference.recompose, h, Reference.hierarchy] at hparts
  rw [← hparts]
  simp [schemeText]

theorem redirectTo_slash (hscheme : (toUri requestUri).scheme = some scheme)
    (hrelative : IsRelative location) (hslash : ['/'] <+: location.toList) :
    (redirectTo requestUri location).toList =
      scheme ++ ':' :: '/' :: '/' :: (hostText (toUri requestUri) ++ location.toList) := by
  rw [redirectTo, if_neg (not_isUrl hrelative), if_pos hslash, getScheme, hscheme]
  simp [text, hostText]

theorem redirectTo_other (hscheme : (toUri requestUri).scheme = some scheme)
    (hrelative : IsRelative location) (hslash : ¬ ['/'] <+: location.toList) :
    (redirectTo requestUri location).toList =
      scheme ++ ':' :: '/' :: '/' :: (hostText (toUri requestUri) ++
        '/' :: ((dir (decode (toUri requestUri).path)).dropLast ++ '/' :: location.toList)) := by
  rw [redirectTo, if_neg (not_isUrl hrelative), if_neg hslash, getScheme, hscheme]
  simp [text, hostText, dirname, getPath]

/-- What is requested is a target when the text behind the host is the text behind the authority
of the target. -/
theorem redirectTo_slash_eq_iff {path : List Char} {q f : Option (List Char)}
    (huri : (toUri requestUri).scheme = some scheme) (hrelative : IsRelative location)
    (hslash : ['/'] <+: location.toList) :
    (redirectTo requestUri location).toList =
        (⟨(toUri requestUri).scheme, some authority, path, q, f⟩ : Reference).recompose ↔
      hostText (toUri requestUri) ++ location.toList =
        authority ++ (path ++ (part '?' q ++ part '#' f)) := by
  rw [redirectTo_slash huri hrelative hslash, huri, recompose_eq, List.append_cancel_left_eq]
  simp

theorem redirectTo_other_eq_iff {path : List Char} {q f : Option (List Char)}
    (huri : (toUri requestUri).scheme = some scheme) (hrelative : IsRelative location)
    (hslash : ¬ ['/'] <+: location.toList) :
    (redirectTo requestUri location).toList =
        (⟨(toUri requestUri).scheme, some authority, path, q, f⟩ : Reference).recompose ↔
      hostText (toUri requestUri) ++
          '/' :: ((dir (decode (toUri requestUri).path)).dropLast ++ '/' :: location.toList) =
        authority ++ (path ++ (part '?' q ++ part '#' f)) := by
  rw [redirectTo_other huri hrelative hslash, huri, recompose_eq, List.append_cancel_left_eq]
  simp

/-- A network path is never resolved: its slashes stay in the path. -/
theorem redirectTo_network {b : List Char} (huri : (toUri requestUri).scheme = some scheme)
    (hrelative : IsRelative location) (hb : (toUri location).authority = some b) :
    (redirectTo requestUri location).toList ≠
      (resolve (toUri requestUri) (toUri location)).recompose := by
  have hlocation := toList_location hrelative
  rw [hb] at hlocation
  rw [resolve_network hrelative hb, Ne, redirectTo_slash_eq_iff huri hrelative
    ⟨_, hlocation.symm⟩, hlocation]
  intro h
  have hcount := congrArg (List.count '/') h
  have hhost := count_of_stops (@hostText_stops requestUri)
  have hdots := count_removeDotSegments_le (toUri location).path
  simp only [authorityText, List.count_cons_self, List.count_append, hhost, Reference.suffix,
    List.cons_append] at hcount
  omega

/-- An absolute path is resolved when the authority is nothing but a host, and the path has no
dot segments. -/
theorem redirectTo_absolute (huri : (toUri requestUri).scheme = some scheme)
    (ha : (toUri requestUri).authority = some authority) (hrelative : IsRelative location)
    (hnone : (toUri location).authority = none)
    (hpath : (toUri location).path.head? = some '/') :
    (redirectTo requestUri location).toList =
        (resolve (toUri requestUri) (toUri location)).recompose ↔
      getHost (toUri requestUri) = (toUri requestUri).authority ∧ ¬ HasDots (toUri location).path := by
  have hlocation := toList_location hrelative
  rw [hnone, authorityText, List.nil_append] at hlocation
  have hrooted : IsRooted (toUri location).path := fun c hc => by
    rw [Option.mem_def, hpath] at hc
    exact (Option.some.inj hc).symm
  have hslash : ['/'] <+: location.toList := by
    obtain ⟨t, ht⟩ := List.head?_eq_some_iff.1 hpath
    exact ⟨t ++ (toUri location).suffix, by rw [hlocation, ht]; rfl⟩
  have hstops : ∀ x : List Char, IsRooted x → ∀ c ∈ (x ++ (toUri location).suffix).head?,
      (!endsAuthority c) = false := by
    intro x hx c hc
    cases x with
    | nil => rcases parts_head hc with rfl | rfl <;> rfl
    | cons d x =>
      obtain rfl := hx c (by simpa using hc)
      rfl
  rw [resolve_absolute hrelative hnone hpath, ← hostText_eq_iff ha,
    ← removeDotSegments_eq_iff hrooted, ha, redirectTo_slash_eq_iff huri hrelative hslash, hlocation]
  constructor
  · intro h
    obtain ⟨hhost, hrest⟩ := append_inj_of_stop (p := fun c => !endsAuthority c)
      (fun c hc => by rw [hostText_stops c hc]; rfl)
      (fun c hc => by rw [(authority_stops ha).1 c hc]; rfl) (hstops _ hrooted)
      (hstops _ (isRooted_removeDotSegments hrooted)) h
    exact ⟨hhost, (List.append_cancel_right hrest).symm⟩
  · rintro ⟨hhost, hdots⟩
    rw [hhost, hdots]
    rfl

/-- The merged path has no more slashes than the two paths, and the one at the root. -/
theorem count_merge_le (base : Reference) (path : List Char) :
    (merge base path).count '/' ≤ max 1 (base.path.count '/') + path.count '/' := by
  rw [merge]
  split_ifs
  · rw [List.count_cons_self]
    omega
  · rw [List.count_append, count_dir]
    omega

/-- A relative path is never resolved: there is a slash too many. -/
theorem redirectTo_relative (huri : (toUri requestUri).scheme = some scheme)
    (ha : (toUri requestUri).authority = some authority) (hrelative : IsRelative location)
    (hslash : ¬ ['/'] <+: location.toList) (hnone : (toUri location).authority = none)
    (hne : (toUri location).path ≠ []) (hpath : (toUri location).path.head? ≠ some '/') :
    (redirectTo requestUri location).toList ≠
      (resolve (toUri requestUri) (toUri location)).recompose := by
  have hlocation := toList_location hrelative
  rw [resolve_relative hrelative hnone hne hpath, ha, Ne,
    redirectTo_other_eq_iff huri hrelative hslash, hlocation, hnone]
  intro h
  have hcount := congrArg (List.count '/') h
  have hhost := count_of_stops (@hostText_stops requestUri)
  have hauthority := count_of_stops (authority_stops ha).1
  have hdots := count_removeDotSegments_le (merge (toUri requestUri) (toUri location).path)
  have hmerge := count_merge_le (toUri requestUri) (toUri location).path
  have hdir := count_dropLast_dir (decode (toUri requestUri).path)
  have hdecode : (toUri requestUri).path.count '/' ≤ (decode (toUri requestUri).path).count '/' :=
    count_decodeFrom_le none _
  simp only [authorityText, List.count_cons_self, List.count_append, hhost, hauthority,
    Reference.suffix, List.nil_append] at hcount
  omega

/-- A reference without a path is never resolved: the directory ends with a slash, and the path
does not begin with as many as there are. -/
theorem redirectTo_empty (huri : (toUri requestUri).scheme = some scheme)
    (ha : (toUri requestUri).authority = some authority) (hrelative : IsRelative location)
    (hnone : (toUri location).authority = none) (hpath : (toUri location).path = []) :
    (redirectTo requestUri location).toList ≠
      (resolve (toUri requestUri) (toUri location)).recompose := by
  have hlocation := toList_location hrelative
  rw [hnone, hpath, authorityText, List.nil_append, List.nil_append] at hlocation
  have hslash : ¬ ['/'] <+: location.toList := by
    rintro ⟨t, ht⟩
    rw [← ht] at hlocation
    have hhead := @parts_head (toUri location).query (toUri location).fragment '/'
      (by rw [← Reference.suffix, ← hlocation]; rfl)
    exact absurd hhead (by decide)
  rw [resolve_empty hrelative hnone hpath, ha, Ne, redirectTo_other_eq_iff huri hrelative hslash,
    hlocation]
  intro h
  have hrooted : IsRooted (toUri requestUri).path := (authority_stops ha).2
  have hstops : ∀ c ∈ ((toUri requestUri).path ++ (part '?' ((toUri location).query.or
      (toUri requestUri).query) ++ part '#' (toUri location).fragment)).head?,
      (!endsAuthority c) = false := by
    intro c hc
    cases hp : (toUri requestUri).path with
    | nil =>
      rw [hp] at hc
      rcases parts_head hc with rfl | rfl <;> rfl
    | cons d p =>
      rw [hp] at hc hrooted
      obtain rfl := hrooted c hc
      rfl
  -- behind the authority, the request has a slash more than the resolution
  have hrest := (append_inj_of_stop (p := fun c => !endsAuthority c)
    (fun c hc => by rw [hostText_stops c hc]; rfl)
    (fun c hc => by rw [(authority_stops ha).1 c hc]; rfl)
    (fun c hc => by rw [← Option.some.inj hc]; rfl) hstops h).2
  have hnot : ∀ {x y : Option (List Char)}, ∀ c ∈ (part '?' x ++ part '#' y).head?, c ≠ '/' := by
    intro x y c hc
    rcases parts_head hc with rfl | rfl <;> decide
  have hleading := congrArg leading hrest
  rw [leading_slash_cons, leading_append hnot] at hleading
  cases hp : (toUri requestUri).path with
  | nil =>
    rw [hp] at hleading
    exact absurd hleading (Nat.succ_ne_zero _)
  | cons d p =>
    have hle := leading_le_dir_decode (toUri requestUri).path
    have hslash : '/' ∈ decode (toUri requestUri).path := by
      rw [← List.count_pos_iff]
      refine lt_of_lt_of_le ?_ (count_decodeFrom_le none _)
      rw [hp] at hrooted ⊢
      obtain rfl := hrooted d rfl
      rw [List.count_cons_self]
      exact Nat.succ_pos _
    rw [← List.singleton_append, ← List.append_assoc, dropLast_dir_append hslash, Reference.suffix,
      leading_append hnot] at hleading
    omega

/-- The reference is an absolute path. -/
def IsAbsolutePath (location : String) : Prop :=
  (toUri location).authority = none ∧ (toUri location).path.head? = some '/'

/-- **What is requested** is the resolution of the reference exactly for an absolute path without
dot segments, behind an authority that is nothing but a host. -/
theorem redirectTo_eq_iff (huri : IsHttpUri requestUri) (hrelative : IsRelative location) :
    redirectTo requestUri location =
        String.ofList (resolve (toUri requestUri) (toUri location)).recompose ↔
      IsAbsolutePath location ∧ getHost (toUri requestUri) = (toUri requestUri).authority ∧
        ¬ HasDots (toUri location).path := by
  obtain ⟨scheme, hscheme, -⟩ := huri.scheme
  obtain ⟨authority, ha⟩ := Option.isSome_iff_exists.1 huri.authority
  rw [← String.toList_inj, String.toList_ofList, IsAbsolutePath]
  cases hnone : (toUri location).authority with
  | some b =>
    refine iff_of_false (redirectTo_network hscheme hrelative hnone) fun h => ?_
    exact absurd h.1.1 (Option.some_ne_none b)
  | none =>
    by_cases hpath : (toUri location).path.head? = some '/'
    · rw [redirectTo_absolute hscheme ha hrelative hnone hpath]
      simp [hpath]
    · refine iff_of_false ?_ fun h => hpath h.1.2
      by_cases hempty : (toUri location).path = []
      · exact redirectTo_empty hscheme ha hrelative hnone hempty
      · refine redirectTo_relative hscheme ha hrelative ?_ hnone hempty hpath
        rintro ⟨t, ht⟩
        have hlocation := toList_location hrelative
        rw [hnone, authorityText, List.nil_append, ← ht] at hlocation
        obtain ⟨c, path, hcons⟩ := List.exists_cons_of_ne_nil hempty
        rw [hcons] at hlocation hpath
        obtain ⟨rfl, -⟩ := List.cons.inj hlocation
        exact hpath rfl

end

/-! ### The next request -/

variable {env : LoaderEnv}

/-- Requests that have been made stay made. -/
theorem followFrom_requests (n : ℕ) (response : BufferedResponse) (s : LoaderState) :
    Ends (followFrom env n response) s fun _ t => s.requests <+: t.requests := by
  induction n generalizing response s with
  | zero =>
    unfold followFrom
    cases response.redirectUri with
    | none => exact List.prefix_refl _
    | some location => exact List.prefix_append _ _
  | succ n ih =>
    unfold followFrom
    cases response.redirectUri with
    | none => exact List.prefix_refl _
    | some location =>
      rw [ends_bind, ends_proxyResponse]
      refine (ih _ (answered env (redirect response location) s)).mono fun r t h => ?_
      exact (List.prefix_append _ _).trans h

/-- The URL that `followRedirects` requests next for a response. -/
def nextUrl (env : LoaderEnv) (response : BufferedResponse) (s : LoaderState) : Option String :=
  ((after (followRedirects env (some response)) s).requests[s.requests.length]?).map (·.uri)

/-- The redirect is what is requested next. -/
theorem nextUrl_eq {response : BufferedResponse} {location : String}
    (h : response.redirectUri = some location) (s : LoaderState) :
    nextUrl env response s = some (redirectTo response.requestUri location) := by
  have hnext : Ends (followRedirects env (some response)) s fun _ t =>
      s.requests ++ [redirect response location] <+: t.requests := by
    rw [followRedirects, MAX_REDIRECTS, followFrom, h]
    simp only [ends_bind, ends_proxyResponse]
    exact followFrom_requests _ _ (answered env (redirect response location) s)
  obtain ⟨later, hlater⟩ := hnext
  rw [nextUrl, after, ← hlater]
  simp [redirect]

/-- A relative redirect is resolved: what is requested next is the target of the reference. -/
def Resolved (env : LoaderEnv) (response : BufferedResponse) (location : String)
    (s : LoaderState) : Prop :=
  nextUrl env response s =
    some (String.ofList (resolve (toUri response.requestUri) (toUri location)).recompose)

/-- **Relative redirects, and which ones are resolved.**  For every absolute request URI and every
relative reference, `followRedirects` requests the resolution exactly when the reference is an
absolute path without dot segments, and the authority of the request is nothing but a host. -/
theorem redirect_resolves_iff (env : LoaderEnv) (s : LoaderState) (response : BufferedResponse)
    (location : String) (hredirect : response.redirectUri = some location)
    (huri : IsHttpUri response.requestUri) (hrelative : IsRelative location) :
    Resolved env response location s ↔ IsAbsolutePath location ∧
      getHost (toUri response.requestUri) = (toUri response.requestUri).authority ∧
      ¬ HasDots (toUri location).path := by
  rw [Resolved, nextUrl_eq hredirect, Option.some.injEq]
  exact redirectTo_eq_iff huri hrelative

/-- The answer to a request that is redirected. -/
def redirecting (requestUri location : String) : BufferedResponse where
  requestUri := requestUri
  isSuccess := false
  is3xx := true
  redirectUri := some location
  location := some location
  document := ""

theorem redirect_resolves_login :
    Resolved (answering (redirecting "http://app.example.com/home" "/login"))
      (redirecting "http://app.example.com/home" "/login") "/login" {} := by
  refine (redirect_resolves_iff _ {} (redirecting "http://app.example.com/home" "/login") "/login" rfl
    ⟨⟨"http".toList, by decide +kernel, by decide +kernel⟩, by decide +kernel⟩ ?_).2 ?_
  · exact (show (toUri "/login").scheme = none by decide +kernel)
  · exact ⟨⟨by decide +kernel, by decide +kernel⟩, by decide +kernel, by decide +kernel⟩

/-- **A port that is lost.**  The login page of an app on port 3000 is looked for on port 80. -/
theorem redirect_loses_port :
    ¬ Resolved (answering (redirecting "http://127.0.0.1:3000/home" "/login"))
      (redirecting "http://127.0.0.1:3000/home" "/login") "/login" {} := by
  rw [Resolved, nextUrl_eq rfl]
  decide +kernel

end Redirects

end CloudOs

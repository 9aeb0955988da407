/-
# URI references

The generic syntax of URIs, as RFC 3986 has it.  A reference has five parts:

| part | from | up to |
| --- | --- | --- |
| scheme | the start | `:`, with no `/`, `?` or `#` before it |
| authority | `//` | the next `/`, `?` or `#` |
| path | | the next `?` or `#` |
| query | `?` | the next `#` |
| fragment | `#` | the end |

`parse` splits a text into them (appendix B) and `recompose` puts them together again (5.3):
`recompose_parse`.  `resolve` is the target of a reference that stands in a document with a base
URI (5.2).  It removes the segments `.` and `..` from paths, which leaves no more slashes
than there were, and leaves a path as it is exactly when it has none of them
(`count_removeDotSegments`, `removeDotSegments_eq_iff`).
-/

import Mathlib.Data.List.DropRight
import Mathlib.Data.Nat.Notation
import Mathlib.Tactic.SplitIfs

namespace Uri

/-- A URI reference in its parts. -/
structure Reference where
  scheme : Option (List Char)
  authority : Option (List Char)
  path : List Char
  query : Option (List Char)
  fragment : Option (List Char)
  deriving DecidableEq

/-- What stands before the first `c`, and what stands after it, if there is one. -/
def cut (c : Char) (s : List Char) : List Char × Option (List Char) :=
  (s.takeWhile (· ≠ c), (s.dropWhile (· ≠ c)).tail?)

/-- A part with the character that begins it. -/
def part (c : Char) : Option (List Char) → List Char
  | none => []
  | some s => c :: s

/-- The scheme with the colon that ends it. -/
def schemeText : Option (List Char) → List Char
  | none => []
  | some scheme => scheme ++ [':']

/-- The authority with the slashes before it. -/
def authorityText : Option (List Char) → List Char
  | none => []
  | some authority => '/' :: '/' :: authority

def splitScheme (s : List Char) : Option (List Char) × List Char :=
  match cut ':' s with
  | (scheme, some rest) => if scheme ≠ [] ∧ '/' ∉ scheme then (some scheme, rest) else (none, s)
  | (_, none) => (none, s)

/-- The text up to its first slash, and from there on. -/
def firstSegment (s : List Char) : List Char := s.takeWhile (· ≠ '/')

def afterSegment (s : List Char) : List Char := s.dropWhile (· ≠ '/')

def splitAuthority : List Char → Option (List Char) × List Char
  | '/' :: '/' :: s => (some (firstSegment s), afterSegment s)
  | s => (none, s)

/-- The parts of a text. -/
def parse (s : List Char) : Reference where
  scheme := (splitScheme (cut '?' (cut '#' s).1).1).1
  authority := (splitAuthority (splitScheme (cut '?' (cut '#' s).1).1).2).1
  path := (splitAuthority (splitScheme (cut '?' (cut '#' s).1).1).2).2
  query := (cut '?' (cut '#' s).1).2
  fragment := (cut '#' s).2

namespace Reference

/-- The query and the fragment, as they end a URI. -/
def suffix (r : Reference) : List Char := part '?' r.query ++ part '#' r.fragment

/-- The authority and the path. -/
def hierarchy (r : Reference) : List Char := authorityText r.authority ++ r.path

/-- The text of the parts. -/
def recompose (r : Reference) : List Char := schemeText r.scheme ++ (r.hierarchy ++ r.suffix)

end Reference

/-! ### Paths -/

/-- A path up to its last slash. -/
def dir (path : List Char) : List Char := path.rdropWhile (· ≠ '/')

/-- What a dot segment leaves of the input: the next slash, or its own one at the end. -/
def afterDot (s : List Char) : List Char := if afterSegment s = [] then ['/'] else afterSegment s

/-- The loop of 5.2.4, which takes a segment of the input at a time, with the slash before
it. -/
def removeDots : ℕ → List Char → List Char → List Char
  | 0, _, output => output
  | _ + 1, [], output => output
  | n + 1, c :: s, output =>
    if c = '/' then
      if firstSegment s = ['.'] then removeDots n (afterDot s) output
      else if firstSegment s = ['.', '.'] then removeDots n (afterDot s) (dir output).dropLast
      else removeDots n (afterSegment s) (output ++ '/' :: firstSegment s)
    else if firstSegment (c :: s) = ['.'] ∨ firstSegment (c :: s) = ['.', '.'] then
      removeDots n (afterSegment (c :: s)).tail output
    else removeDots n (afterSegment (c :: s)) (output ++ firstSegment (c :: s))

/-- The path without its segments `.` and `..` (5.2.4). -/
def removeDotSegments (path : List Char) : List Char := removeDots path.length path []

/-- The path of a reference, put in the place of the last segment of the base (5.2.3). -/
def merge (base : Reference) (path : List Char) : List Char :=
  if base.authority.isSome ∧ base.path = [] then '/' :: path else dir base.path ++ path

/-- **The target of a reference** (5.2.2). -/
def resolve (base r : Reference) : Reference :=
  if r.scheme.isSome then { r with path := removeDotSegments r.path }
  else if r.authority.isSome then
    { r with scheme := base.scheme, path := removeDotSegments r.path }
  else if r.path = [] then
    { base with query := r.query.or base.query, fragment := r.fragment }
  else if r.path.head? = some '/' then
    { r with scheme := base.scheme, authority := base.authority, path := removeDotSegments r.path }
  else
    { r with
      scheme := base.scheme, authority := base.authority,
      path := removeDotSegments (merge base r.path) }

section

variable {base r : Reference} (hscheme : r.scheme = none)

include hscheme

theorem resolve_network {authority : List Char} (h : r.authority = some authority) :
    resolve base r =
      ⟨base.scheme, some authority, removeDotSegments r.path, r.query, r.fragment⟩ := by
  simp [resolve, hscheme, h]

theorem resolve_empty (h : r.authority = none) (hpath : r.path = []) : resolve base r =
    ⟨base.scheme, base.authority, base.path, r.query.or base.query, r.fragment⟩ := by
  simp [resolve, hscheme, h, hpath]

theorem resolve_absolute (h : r.authority = none) (hpath : r.path.head? = some '/') :
    resolve base r =
      ⟨base.scheme, base.authority, removeDotSegments r.path, r.query, r.fragment⟩ := by
  have hne : r.path ≠ [] := fun hnil => by simp [hnil] at hpath
  simp [resolve, hscheme, h, hne, hpath]

theorem resolve_relative (h : r.authority = none) (hne : r.path ≠ [])
    (hpath : r.path.head? ≠ some '/') : resolve base r =
      ⟨base.scheme, base.authority, removeDotSegments (merge base r.path), r.query, r.fragment⟩ := by
  simp [resolve, hscheme, h, hne, hpath]

end

/-! ### The parts of a text -/

theorem firstSegment_append (s : List Char) : firstSegment s ++ afterSegment s = s :=
  List.takeWhile_append_dropWhile

theorem head?_afterSegment {s : List Char} {c : Char} (h : c ∈ (afterSegment s).head?) :
    c = '/' := by
  have hhead := List.head?_dropWhile_not (· ≠ '/') s
  rw [← afterSegment, Option.mem_def.1 h] at hhead
  simpa using hhead

theorem cut_append (c : Char) (s : List Char) : (cut c s).1 ++ part c (cut c s).2 = s := by
  have hrest : part c (s.dropWhile (· ≠ c)).tail? = s.dropWhile (· ≠ c) := by
    cases h : s.dropWhile (· ≠ c) with
    | nil => rfl
    | cons d t =>
      have hd := List.head?_dropWhile_not (· ≠ c) s
      rw [h] at hd
      obtain rfl : d = c := by simpa using hd
      rfl
  rw [cut, hrest]
  exact List.takeWhile_append_dropWhile

theorem notMem_takeWhile_ne (c : Char) (s : List Char) : c ∉ s.takeWhile (· ≠ c) := by
  intro h
  simpa using List.mem_takeWhile_imp h

theorem notMem_cut (c : Char) (s : List Char) : c ∉ (cut c s).1 := notMem_takeWhile_ne c s

theorem mem_of_mem_cut {c d : Char} {s : List Char} (h : d ∈ (cut c s).1) : d ∈ s :=
  (List.takeWhile_prefix _).subset h

/-- What stands before the query and the fragment. -/
theorem cut_cut_append (s : List Char) :
    (cut '?' (cut '#' s).1).1 ++ (parse s).suffix = s := by
  rw [Reference.suffix, ← List.append_assoc]
  exact (congrArg (· ++ _) (cut_append '?' _)).trans (cut_append '#' s)

theorem splitScheme_append (s : List Char) :
    schemeText (splitScheme s).1 ++ (splitScheme s).2 = s := by
  have hcut := cut_append ':' s
  rw [splitScheme]
  rcases h : cut ':' s with ⟨scheme, _ | rest⟩
  · rfl
  · rw [h] at hcut
    dsimp only
    split_ifs
    · simpa [schemeText, part] using hcut
    · rfl

theorem splitAuthority_append (s : List Char) :
    authorityText (splitAuthority s).1 ++ (splitAuthority s).2 = s := by
  unfold splitAuthority
  split
  · simp [authorityText, firstSegment_append]
  · rfl

/-- **The parts make up the text.** -/
theorem recompose_parse (s : List Char) : (parse s).recompose = s := by
  have hscheme := splitScheme_append (cut '?' (cut '#' s).1).1
  have hauthority := splitAuthority_append (splitScheme (cut '?' (cut '#' s).1).1).2
  rw [← hauthority] at hscheme
  have hall := cut_cut_append s
  rw [← hscheme, List.append_assoc] at hall
  exact hall

/-- What stands between two places is read off from what stops it. -/
theorem append_inj_of_stop {p : Char → Bool} {x y u v : List Char} (hx : ∀ c ∈ x, p c = true)
    (hy : ∀ c ∈ y, p c = true) (hu : ∀ c ∈ u.head?, p c = false) (hv : ∀ c ∈ v.head?, p c = false)
    (h : x ++ u = y ++ v) : x = y ∧ u = v := by
  have hstop : ∀ {z : List Char}, (∀ c ∈ z.head?, p c = false) → z.takeWhile p = [] := by
    intro z hz
    cases z with
    | nil => rfl
    | cons c z => rw [List.takeWhile_cons_of_neg (by simp [hz c rfl])]
  have htake := congrArg (List.takeWhile p) h
  rw [List.takeWhile_append_of_pos hx, List.takeWhile_append_of_pos hy, hstop hu, hstop hv,
    List.append_nil, List.append_nil] at htake
  subst htake
  exact ⟨rfl, List.append_cancel_left h⟩

/-- A character that ends an authority. -/
def endsAuthority (c : Char) : Bool := c == '/' || c == '?' || c == '#'

theorem splitScheme_subset (s : List Char) : (splitScheme s).2 ⊆ s := by
  intro c hc
  rw [← splitScheme_append s]
  exact List.mem_append_right _ hc

theorem authority_stops {s a : List Char} (h : (parse s).authority = some a) :
    (∀ c ∈ a, endsAuthority c = false) ∧ ∀ c ∈ (parse s).path.head?, c = '/' := by
  have hchars : ∀ c ∈ (splitScheme (cut '?' (cut '#' s).1).1).2, c ≠ '?' ∧ c ≠ '#' := by
    intro c hc
    have hquery := splitScheme_subset _ hc
    refine ⟨?_, ?_⟩
    · rintro rfl
      exact notMem_cut _ _ hquery
    · rintro rfl
      exact notMem_cut _ _ (mem_of_mem_cut hquery)
  unfold parse at h ⊢
  dsimp only at h ⊢
  generalize (splitScheme (cut '?' (cut '#' s).1).1).2 = t at h hchars
  unfold splitAuthority at h ⊢
  split at h
  · rename_i t
    obtain rfl := Option.some.inj h
    refine ⟨fun c hc => ?_, fun c hc => ?_⟩
    · obtain ⟨hquery, hfragment⟩ := hchars c (by simp [(List.takeWhile_prefix _).subset hc])
      have hslash : c ≠ '/' := fun hslash => notMem_takeWhile_ne '/' t (by rwa [hslash] at hc)
      simp [endsAuthority, hquery, hfragment, hslash]
    · exact head?_afterSegment hc
  · exact absurd h (Option.some_ne_none a).symm

/-- A text that begins as an absolute URI does has a scheme. -/
theorem scheme_of_begins {x s : List Char} (hx : x ≠ [])
    (hchars : ∀ c ∈ x, c ≠ ':' ∧ c ≠ '/' ∧ c ≠ '?' ∧ c ≠ '#') :
    (parse (x ++ ':' :: s)).scheme = some x := by
  have hbefore : ∀ {d : Char} {t : List Char}, (∀ c ∈ x, c ≠ d) → d ≠ ':' →
      (cut d (x ++ ':' :: t)).1 = x ++ ':' :: (cut d t).1 := by
    intro d t hd hcolon
    rw [cut, List.takeWhile_append_of_pos (by simpa using hd),
      List.takeWhile_cons_of_pos (by simpa using hcolon.symm)]
    rfl
  have hscheme : ∀ t, cut ':' (x ++ ':' :: t) = (x, some t) := by
    intro t
    have hd : ∀ c ∈ x, (decide (c ≠ ':')) = true := by simpa using fun c hc => (hchars c hc).1
    rw [cut, List.takeWhile_append_of_pos hd, List.dropWhile_append_of_pos hd,
      List.takeWhile_cons_of_neg (by simp), List.dropWhile_cons_of_neg (by simp), List.append_nil]
    rfl
  unfold parse
  rw [hbefore (fun c hc => (hchars c hc).2.2.2) (by decide),
    hbefore (fun c hc => (hchars c hc).2.2.1) (by decide), splitScheme, hscheme]
  dsimp only
  rw [if_pos ⟨hx, fun h => (hchars _ h).2.1 rfl⟩]

/-- What stands between the slashes and the next stop is the authority. -/
theorem authority_of_begins {x a s : List Char} (hx : x ≠ [])
    (hchars : ∀ c ∈ x, c ≠ ':' ∧ c ≠ '/' ∧ c ≠ '?' ∧ c ≠ '#')
    (ha : ∀ c ∈ a, endsAuthority c = false) :
    (parse (x ++ ':' :: '/' :: '/' :: (a ++ '/' :: s))).authority = some a := by
  have hstop : ∀ {d : Char}, endsAuthority d = true → ∀ c ∈ a, c ≠ d := by
    rintro d hd c hc rfl
    exact Bool.noConfusion ((ha c hc).symm.trans hd)
  have hcut : ∀ {d : Char} (t : List Char), endsAuthority d = true → d ≠ '/' → (∀ c ∈ x, c ≠ d) →
      d ≠ ':' → (cut d (x ++ ':' :: '/' :: '/' :: (a ++ '/' :: t))).1
        = x ++ ':' :: '/' :: '/' :: (a ++ '/' :: (cut d t).1) := by
    intro d t hd hslash hd' hcolon
    have hx' : ∀ c ∈ x, decide (c ≠ d) = true := by simpa using hd'
    have ha' : ∀ c ∈ a, decide (c ≠ d) = true := by simpa using hstop hd
    rw [cut, List.takeWhile_append_of_pos hx', List.takeWhile_cons_of_pos (by simpa using hcolon.symm),
      List.takeWhile_cons_of_pos (by simpa using hslash.symm),
      List.takeWhile_cons_of_pos (by simpa using hslash.symm), List.takeWhile_append_of_pos ha',
      List.takeWhile_cons_of_pos (by simpa using hslash.symm)]
    rfl
  have hscheme : ∀ t, cut ':' (x ++ ':' :: t) = (x, some t) := by
    intro t
    have hd : ∀ c ∈ x, decide (c ≠ ':') = true := by simpa using fun c hc => (hchars c hc).1
    rw [cut, List.takeWhile_append_of_pos hd, List.dropWhile_append_of_pos hd,
      List.takeWhile_cons_of_neg (by simp), List.dropWhile_cons_of_neg (by simp), List.append_nil]
    rfl
  unfold parse
  rw [hcut _ rfl (by decide) (fun c hc => (hchars c hc).2.2.2) (by decide),
    hcut _ rfl (by decide) (fun c hc => (hchars c hc).2.2.1) (by decide), splitScheme, hscheme]
  dsimp only
  rw [if_pos ⟨hx, fun h => (hchars _ h).2.1 rfl⟩]
  have hfirst : ∀ t, firstSegment (a ++ '/' :: t) = a := by
    intro t
    have hd : ∀ c ∈ a, decide (c ≠ '/') = true := by simpa using hstop rfl
    rw [firstSegment, List.takeWhile_append_of_pos hd, List.takeWhile_cons_of_neg (by simp),
      List.append_nil]
  exact congrArg some (hfirst _)
/-! ### Slashes -/

theorem count_firstSegment (s : List Char) : (firstSegment s).count '/' = 0 :=
  List.count_eq_zero.2 (notMem_takeWhile_ne '/' s)

theorem count_afterSegment (s : List Char) : (afterSegment s).count '/' = s.count '/' := by
  have hcount := congrArg (List.count '/') (firstSegment_append s)
  rwa [List.count_append, count_firstSegment, Nat.zero_add] at hcount

theorem count_dir (s : List Char) : (dir s).count '/' = s.count '/' := by
  rw [dir, List.rdropWhile, List.count_reverse, ← afterSegment, count_afterSegment,
    List.count_reverse]

theorem dir_cons (s : List Char) : dir ('/' :: s) = '/' :: dir s := by
  induction s using List.reverseRecOn with
  | nil => rfl
  | append_singleton s c ih =>
    rw [dir, dir, ← List.cons_append, List.rdropWhile_concat, List.rdropWhile_concat]
    split_ifs
    · exact ih
    · rfl

/-- The last slash is put back. -/
theorem dropLast_dir_append {s : List Char} (h : '/' ∈ s) : (dir s).dropLast ++ ['/'] = dir s := by
  have hne : dir s ≠ [] := by
    intro hnil
    have hcount := count_dir s
    rw [hnil] at hcount
    exact absurd hcount.symm (List.count_pos_iff.2 h).ne'
  have hlast : (dir s).getLast hne = '/' := by
    by_contra hc
    exact List.rdropWhile_last_not (· ≠ '/') s hne (decide_eq_true hc)
  rw [← hlast, List.dropLast_append_getLast]

theorem dropLast_dir_le (s : List Char) : (dir s).dropLast <+: s :=
  (List.dropLast_prefix _).trans (List.rdropWhile_prefix _ s)

/-- The dot segments take slashes away with them, and bring none. -/
theorem count_removeDots_le (n : ℕ) (input output : List Char) :
    (removeDots n input output).count '/' ≤ input.count '/' + output.count '/' := by
  have hrest : ∀ s : List Char, (afterDot s).count '/' ≤ ('/' :: s).count '/' := by
    intro s
    rw [List.count_cons_self, afterDot]
    split_ifs
    · rw [List.count_singleton_self]
      omega
    · rw [count_afterSegment]
      omega
  have hless : ∀ s : List Char, (dir s).dropLast.count '/' ≤ s.count '/' := fun s =>
    (dropLast_dir_le s).sublist.count_le _
  induction n generalizing input output with
  | zero => simp [removeDots]
  | succ n ih =>
    cases input with
    | nil => simp [removeDots]
    | cons c s =>
      rw [removeDots]
      by_cases hc : c = '/'
      · subst hc
        rw [if_pos rfl]
        split_ifs
        · exact (ih _ _).trans (Nat.add_le_add_right (hrest s) _)
        · exact (ih _ _).trans (Nat.add_le_add (hrest s) (hless output))
        · refine (ih _ _).trans ?_
          rw [count_afterSegment, List.count_append, List.count_cons_self, count_firstSegment,
            List.count_cons_self]
          omega
      · rw [if_neg hc]
        split_ifs
        · refine (ih _ _).trans (Nat.add_le_add_right ?_ _)
          rw [← count_afterSegment (c :: s)]
          exact (List.tail_sublist _).count_le _
        · refine (ih _ _).trans ?_
          rw [count_afterSegment, List.count_append, count_firstSegment]
          omega

theorem count_removeDotSegments_le (path : List Char) :
    (removeDotSegments path).count '/' ≤ path.count '/' :=
  count_removeDots_le _ _ _

/-! ### Paths without dots -/

/-- A segment that `removeDotSegments` takes out. -/
def IsDot (segment : List Char) : Prop := segment = ['.'] ∨ segment = ['.', '.']

/-- Some segment of the path is `.` or `..`. -/
def HasDots (path : List Char) : Prop := ∃ segment ∈ path.splitOn '/', IsDot segment

instance : DecidablePred IsDot := fun _ => inferInstanceAs (Decidable (_ ∨ _))

instance : DecidablePred HasDots := fun path =>
  inferInstanceAs (Decidable (∃ segment ∈ path.splitOn '/', IsDot segment))

theorem hasDots_slash_cons (s : List Char) : HasDots ('/' :: s) ↔ HasDots s := by
  have hsplit : ('/' :: s).splitOn '/' = [] :: s.splitOn '/' := by
    rw [List.splitOn_cons_eq_if_modifyHead, if_pos (by decide)]
  simp [HasDots, hsplit, IsDot]

/-- The segments of a path are the first one and those of the rest. -/
theorem hasDots_iff (s : List Char) :
    HasDots s ↔ IsDot (firstSegment s) ∨ HasDots (afterSegment s) := by
  have hfirst : '/' ∉ firstSegment s := notMem_takeWhile_ne '/' s
  conv_lhs => rw [← firstSegment_append s]
  cases h : afterSegment s with
  | nil =>
    rw [List.append_nil, HasDots, List.splitOn_eq_singleton hfirst]
    simp [HasDots, IsDot]
  | cons c t =>
    obtain rfl := head?_afterSegment (Option.mem_def.2 (congrArg List.head? h))
    rw [hasDots_slash_cons, HasDots, List.splitOn_append_cons_self_of_not_mem hfirst]
    simp [HasDots]

theorem length_afterSegment_le (s : List Char) : (afterSegment s).length ≤ s.length :=
  (List.dropWhile_suffix _).length_le

theorem length_split (s : List Char) :
    (firstSegment s).length + (afterSegment s).length = s.length := by
  rw [← List.length_append, firstSegment_append]

/-- After a dot segment less is left. -/
theorem length_afterDot_lt {s : List Char} (h : IsDot (firstSegment s)) :
    (afterDot s).length < ('/' :: s).length := by
  have hsplit := length_split s
  have hsegment : 0 < (firstSegment s).length := by
    rcases h with h | h <;> simp [h]
  rw [afterDot, List.length_cons]
  split_ifs
  · rw [List.length_singleton]
    omega
  · omega

theorem length_removeDots_le (n : ℕ) (input output : List Char) :
    (removeDots n input output).length ≤ input.length + output.length := by
  have hless : ∀ s : List Char, (dir s).dropLast.length ≤ s.length := fun s =>
    (dropLast_dir_le s).length_le
  induction n generalizing input output with
  | zero => simp [removeDots]
  | succ n ih =>
    cases input with
    | nil => simp [removeDots]
    | cons c s =>
      rw [removeDots]
      have hsplit := length_split s
      have hsplit' := length_split (c :: s)
      rw [List.length_cons] at hsplit'
      split_ifs with hc hone htwo
      · have hdot := length_afterDot_lt (Or.inl hone)
        have hstep := ih (afterDot s) output
        simp only [List.length_cons] at hdot ⊢
        omega
      · have hdot := length_afterDot_lt (Or.inr htwo)
        have hstep := ih (afterDot s) (dir output).dropLast
        have houtput := hless output
        simp only [List.length_cons] at hdot ⊢
        omega
      · have hstep := ih (afterSegment s) (output ++ '/' :: firstSegment s)
        simp only [List.length_append, List.length_cons] at hstep ⊢
        omega
      · have hstep := ih (afterSegment (c :: s)).tail output
        rw [List.length_tail] at hstep
        simp only [List.length_cons] at hstep ⊢
        omega
      · have hstep := ih (afterSegment (c :: s)) (output ++ firstSegment (c :: s))
        simp only [List.length_append, List.length_cons] at hstep ⊢
        omega

/-- A path of whole segments. -/
def IsRooted (path : List Char) : Prop := ∀ c ∈ path.head?, c = '/'

theorem isRooted_afterSegment (s : List Char) : IsRooted (afterSegment s) := fun _ =>
  head?_afterSegment

/-- A path of segments that are no dots stays as it is. -/
theorem removeDots_of_not_hasDots {n : ℕ} {input : List Char} (output : List Char)
    (hn : input.length ≤ n) (hrooted : IsRooted input) (h : ¬ HasDots input) :
    removeDots n input output = output ++ input := by
  induction n generalizing input output with
  | zero =>
    obtain rfl := List.length_eq_zero_iff.1 (Nat.le_zero.1 hn)
    exact (List.append_nil output).symm
  | succ n ih =>
    cases input with
    | nil => exact (List.append_nil output).symm
    | cons c s =>
      obtain rfl : c = '/' := hrooted c rfl
      rw [hasDots_slash_cons, hasDots_iff, not_or, IsDot, not_or] at h
      obtain ⟨⟨hone, htwo⟩, hrest⟩ := h
      have hlength := length_afterSegment_le s
      rw [List.length_cons] at hn
      rw [removeDots, if_pos rfl, if_neg hone, if_neg htwo,
        ih _ (by omega) (isRooted_afterSegment s) hrest, List.append_assoc, List.cons_append,
        firstSegment_append]

/-- A dot segment makes a path shorter. -/
theorem length_removeDots_lt {n : ℕ} {input : List Char} (output : List Char)
    (hn : input.length ≤ n) (hrooted : IsRooted input) (h : HasDots input) :
    (removeDots n input output).length < input.length + output.length := by
  induction n generalizing input output with
  | zero =>
    obtain rfl := List.length_eq_zero_iff.1 (Nat.le_zero.1 hn)
    exact absurd h (by decide)
  | succ n ih =>
    cases input with
    | nil => exact absurd h (by decide)
    | cons c s =>
      obtain rfl : c = '/' := hrooted c rfl
      have hsplit := length_split s
      rw [List.length_cons] at hn
      rw [hasDots_slash_cons, hasDots_iff] at h
      rw [removeDots, if_pos rfl]
      split_ifs with hone htwo
      · have hdot := length_afterDot_lt (Or.inl hone)
        have hle := length_removeDots_le n (afterDot s) output
        omega
      · have hdot := length_afterDot_lt (Or.inr htwo)
        have hle := length_removeDots_le n (afterDot s) (dir output).dropLast
        have hless := (dropLast_dir_le output).length_le
        omega
      · have hrest := h.resolve_left (not_or.2 ⟨hone, htwo⟩)
        have hstep := ih (output ++ '/' :: firstSegment s) (by omega) (isRooted_afterSegment s) hrest
        simp only [List.length_append, List.length_cons] at hstep ⊢
        omega

/-- **What stays as it is**: the paths with no segment `.` or `..`. -/
theorem removeDotSegments_eq_iff {path : List Char} (h : IsRooted path) :
    removeDotSegments path = path ↔ ¬ HasDots path := by
  constructor
  · intro heq hdots
    have hlt := length_removeDots_lt [] le_rfl h hdots
    rw [← removeDotSegments, heq] at hlt
    exact absurd hlt (by simp)
  · exact removeDots_of_not_hasDots [] le_rfl h

theorem IsRooted.of_prefix {s t : List Char} (h : IsRooted t) (hs : s <+: t) : IsRooted s := by
  obtain ⟨u, rfl⟩ := hs
  intro c hc
  exact h c (by rw [List.head?_append, Option.mem_def.1 hc]; rfl)

theorem IsRooted.append {s t : List Char} (hs : IsRooted s) (ht : IsRooted t) :
    IsRooted (s ++ t) := by
  cases s with
  | nil => exact ht
  | cons c s => exact hs

theorem isRooted_nil : IsRooted [] := fun _ h => absurd h (Option.not_mem_none _)

theorem isRooted_slash_cons (s : List Char) : IsRooted ('/' :: s) := fun _ h =>
  (Option.some.inj h).symm

/-- Rooted paths stay rooted. -/
theorem isRooted_removeDots (n : ℕ) {input output : List Char} (hinput : IsRooted input)
    (houtput : IsRooted output) : IsRooted (removeDots n input output) := by
  have hdot : ∀ s, IsRooted (afterDot s) := by
    intro s
    rw [afterDot]
    split_ifs
    · exact isRooted_slash_cons []
    · exact isRooted_afterSegment s
  induction n generalizing input output with
  | zero => exact houtput
  | succ n ih =>
    cases input with
    | nil => exact houtput
    | cons c s =>
      obtain rfl : c = '/' := hinput c rfl
      rw [removeDots, if_pos rfl]
      split_ifs
      · exact ih (hdot s) houtput
      · exact ih (hdot s) (houtput.of_prefix (dropLast_dir_le output))
      · exact ih (isRooted_afterSegment s) (houtput.append (isRooted_slash_cons _))

theorem isRooted_removeDotSegments {path : List Char} (h : IsRooted path) :
    IsRooted (removeDotSegments path) := isRooted_removeDots _ h isRooted_nil

end Uri

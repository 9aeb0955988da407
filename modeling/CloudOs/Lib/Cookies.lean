/-
# The cookies of a document

What a browser keeps of cookies and shows to a document, as RFC 6265 has it.

| step | section | what it does |
| --- | --- | --- |
| `parse` | 5.2 | reads name and value before the first `;`, and trims them |
| `receive` | 5.3 | puts the cookie in the place of one with the same name, domain and path |
| `retrieve` | 5.4 | lists what the document may see: longer paths first, then older cookies |
| `serialize` | 5.4 | puts `; ` between the pairs |

A document is no part of an HTTP request, so it neither sees nor sets a cookie that is `HttpOnly`.
Texts are lists of code units.  What the attributes behind the pair say is read by the browser, and
comes as `Attributes`.

The cookie that a document sets stands behind those with a longer path and the older ones with a
path of the same length (`retrieve_put`), and the pieces between the semicolons are the pairs
(`pieces_serialize`).
-/

import Mathlib.Data.List.DropRight
import Mathlib.Data.List.Sort
import Mathlib.Tactic.SplitIfs

namespace Cookies

abbrev Text := List UInt16

/-- The code unit of a character of the basic plane. -/
def unit (c : Char) : UInt16 := UInt16.ofNat c.toNat

/-- White space that is trimmed. -/
def isSpace (c : UInt16) : Bool := c == unit ' ' || c == unit '\t'

def trim (s : Text) : Text := (s.dropWhile isSpace).rdropWhile isSpace

/-- A name and a value that a cookie can have. -/
structure Pair where
  name : Text
  value : Text
  name_ne : name ≠ []
  trim_name : trim name = name
  equals_notMem : unit '=' ∉ name
  semicolon_notMem_name : unit ';' ∉ name
  trim_value : trim value = value
  semicolon_notMem_value : unit ';' ∉ value

/-- A cookie that is kept. -/
structure Cookie extends Pair where
  domain : Text
  path : Text
  hostOnly : Bool
  secure : Bool
  httpOnly : Bool

/-- The cookies of a browser, the oldest one first. -/
abbrev Jar := List Cookie

/-- What identifies a cookie. -/
structure Key where
  name : Text
  domain : Text
  path : Text
  deriving DecidableEq

def Cookie.key (c : Cookie) : Key := ⟨c.name, c.domain, c.path⟩

/-- What the attributes behind a pair say. -/
structure Attributes where
  domain : Option Text := none
  path : Option Text := none
  secure : Bool := false
  httpOnly : Bool := false
  expiry : Option ℤ := none

/-- A document that reads and sets cookies. -/
structure Document where
  host : Text
  isAddress : Bool
  path : Text
  secure : Bool
  rooted : path.head? = some (unit '/')

/-! ### Domains and paths -/

/-- 5.1.3. -/
def domainMatches (doc : Document) (domain : Text) : Bool :=
  doc.host == domain || (!doc.isAddress && (unit '.' :: domain).isSuffixOf doc.host)

/-- 5.1.4: the path up to its last slash, which itself is kept at the root only. -/
def defaultPath (path : Text) : Text :=
  if path.count (unit '/') ≤ 1 then [unit '/'] else (path.rdropWhile (· != unit '/')).dropLast

/-- 5.1.4. -/
def pathMatches (path cookiePath : Text) : Bool :=
  path == cookiePath || (cookiePath.isPrefixOf path &&
    (cookiePath.getLast? == some (unit '/') ||
      (path.drop cookiePath.length).head? == some (unit '/')))

/-! ### Setting -/

theorem trim_sublist (s : Text) : trim s ⊆ s := fun _ h =>
  (List.dropWhile_sublist _).subset ((List.rdropWhile_prefix _ _).subset h)

theorem dropWhile_trim (s : Text) : (trim s).dropWhile isSpace = trim s := by
  rw [List.dropWhile_eq_self_iff]
  intro hlength
  have hprefix := List.rdropWhile_prefix isSpace (s.dropWhile isSpace)
  have hget := hprefix.getElem hlength
  have hhead := List.head_dropWhile_not isSpace (l := s) (List.ne_nil_of_length_pos
    (hlength.trans_le hprefix.length_le))
  rw [List.head_eq_getElem] at hhead
  rw [Bool.not_eq_true]
  exact (congrArg isSpace hget).trans hhead

theorem trim_trim (s : Text) : trim (trim s) = trim s := by
  rw [trim, dropWhile_trim]
  exact List.rdropWhile_idempotent _ _

/-- What stands before the first `;`. -/
def pairOf (s : Text) : Text := s.takeWhile (· != unit ';')

def nameOf (s : Text) : Text := trim ((pairOf s).takeWhile (· != unit '='))

def valueOf (s : Text) : Text := trim (((pairOf s).dropWhile (· != unit '=')).drop 1)

theorem notMem_takeWhile (c : UInt16) (s : Text) : c ∉ s.takeWhile (· != c) := by
  intro h
  simpa using List.mem_takeWhile_imp h

/-- The name and the value that a text begins with, if there is a name. -/
def parse (s : Text) : Option Pair :=
  if h : unit '=' ∈ pairOf s ∧ nameOf s ≠ [] then
    some {
      name := nameOf s
      value := valueOf s
      name_ne := h.2
      trim_name := trim_trim _
      equals_notMem := fun hc => notMem_takeWhile _ _ (trim_sublist _ hc)
      semicolon_notMem_name := fun hc =>
        notMem_takeWhile _ _ ((List.takeWhile_prefix _).subset (trim_sublist _ hc))
      trim_value := trim_trim _
      semicolon_notMem_value := fun hc => notMem_takeWhile _ _
        ((List.dropWhile_sublist _).subset ((List.drop_sublist _ _).subset (trim_sublist _ hc))) }
  else none

/-- What stands behind the pair. -/
def attributesOf (s : Text) : Text := (s.dropWhile (· != unit ';')).drop 1

theorem takeWhile_append {c : UInt16} {s : Text} (t : Text) (h : c ∉ s) :
    (s ++ c :: t).takeWhile (· != c) = s := by
  rw [List.takeWhile_append_of_pos fun a ha => bne_iff_ne.2 (ne_of_mem_of_not_mem ha h),
    List.takeWhile_cons_of_neg (by simp), List.append_nil]

theorem dropWhile_append {c : UInt16} {s : Text} (t : Text) (h : c ∉ s) :
    (s ++ c :: t).dropWhile (· != c) = c :: t := by
  rw [List.dropWhile_append_of_pos fun a ha => bne_iff_ne.2 (ne_of_mem_of_not_mem ha h),
    List.dropWhile_cons_of_neg (by simp)]

theorem attributesOf_append {s : Text} (t : Text) (h : unit ';' ∉ s) :
    attributesOf (s ++ unit ';' :: t) = t := by
  rw [attributesOf, dropWhile_append t h]
  rfl

/-- A name and a value before a `;` are read as they are, but for the white space around them. -/
theorem parse_append {name value : Text} (rest : Text) (hequals : unit '=' ∉ name)
    (hname : unit ';' ∉ name) (hvalue : unit ';' ∉ value) (htrim : trim name = name) :
    (name = [] → parse (name ++ unit '=' :: value ++ unit ';' :: rest) = none) ∧
    (name ≠ [] → ∃ p, parse (name ++ unit '=' :: value ++ unit ';' :: rest) = some p ∧
      p.name = name ∧ p.value = trim value) := by
  have hpair : pairOf (name ++ unit '=' :: value ++ unit ';' :: rest) =
      name ++ unit '=' :: value := by
    refine takeWhile_append rest ?_
    rw [List.mem_append, List.mem_cons, not_or, not_or]
    exact ⟨hname, by decide, hvalue⟩
  have hnameOf : nameOf (name ++ unit '=' :: value ++ unit ';' :: rest) = name := by
    rw [nameOf, hpair, takeWhile_append value hequals, htrim]
  have hvalueOf : valueOf (name ++ unit '=' :: value ++ unit ';' :: rest) = trim value := by
    rw [valueOf, hpair, dropWhile_append value hequals]
    rfl
  constructor
  · intro hnil
    rw [parse, dif_neg]
    exact fun h => h.2 (hnameOf.trans hnil)
  · intro hne
    rw [parse, dif_pos ⟨by rw [hpair]; exact List.mem_append_right _ List.mem_cons_self,
      hnameOf.trans_ne hne⟩]
    exact ⟨_, rfl, hnameOf, hvalueOf⟩

/-- Puts a cookie in the place of one with its key, or at the end. -/
def put (c : Cookie) : Jar → Jar
  | [] => [c]
  | d :: jar => if d.key = c.key then c :: jar else d :: put c jar

/-- The cookie that a document sets, unless it belongs to another domain or is `HttpOnly`. -/
def make (doc : Document) (pair : Pair) (attributes : Attributes) : Option Cookie :=
  if attributes.httpOnly || attributes.domain.any (!domainMatches doc ·) then none
  else some {
    pair with
    domain := attributes.domain.getD doc.host
    path := attributes.path.getD (defaultPath doc.path)
    hostOnly := attributes.domain.isNone
    secure := attributes.secure
    httpOnly := false }

/-- The jar has a cookie under the key that no document may replace. -/
def isLocked (jar : Jar) (key : Key) : Bool :=
  (jar.find? fun c => decide (c.key = key)).any Cookie.httpOnly

/-- 5.3: a document sets a cookie.  One that has expired already is taken out. -/
def receive (attributes : Text → Attributes) (now : ℤ) (doc : Document) (s : Text) (jar : Jar) :
    Jar :=
  match (parse s).bind fun pair => make doc pair (attributes (attributesOf s)) with
  | none => jar
  | some c =>
    if isLocked jar c.key then jar
    else if (attributes (attributesOf s)).expiry.any (· ≤ now) then
      jar.filter fun d => decide (d.key ≠ c.key)
    else put c jar

/-! ### Reading -/

/-- The document may see the cookie. -/
def sees (doc : Document) (c : Cookie) : Bool :=
  (if c.hostOnly then doc.host == c.domain else domainMatches doc c.domain) &&
    pathMatches doc.path c.path && (!c.secure || doc.secure) && !c.httpOnly

/-- A cookie with a path as long stands first. -/
def ByPath (a b : Cookie) : Prop := b.path.length ≤ a.path.length

instance : DecidableRel ByPath := fun _ _ => inferInstanceAs (Decidable (_ ≤ _))

def retrieve (doc : Document) (jar : Jar) : List Cookie :=
  (jar.filter (sees doc)).insertionSort ByPath

def Pair.text (p : Pair) : Text := p.name ++ unit '=' :: p.value

def serialize (cookies : List Cookie) : Text :=
  [unit ';', unit ' '].intercalate (cookies.map fun c => c.toPair.text)

/-- What a document reads. -/
def cookieString (doc : Document) (jar : Jar) : Text := serialize (retrieve doc jar)

/-! ### Where a cookie stands -/

/-- What stands before the cookie with a key, and what stands behind it. -/
def before (key : Key) (jar : Jar) : Jar := jar.takeWhile fun c => decide (c.key ≠ key)

def behind (key : Key) (jar : Jar) : Jar := (jar.dropWhile fun c => decide (c.key ≠ key)).drop 1

theorem put_eq (c : Cookie) (jar : Jar) : put c jar = before c.key jar ++ c :: behind c.key jar := by
  induction jar with
  | nil => rfl
  | cons d jar ih =>
    rw [put, before, behind]
    by_cases h : d.key = c.key
    · rw [if_pos h, List.takeWhile_cons_of_neg (by simpa using h),
        List.dropWhile_cons_of_neg (by simpa using h)]
      rfl
    · rw [if_neg h, List.takeWhile_cons_of_pos (by simpa using h),
        List.dropWhile_cons_of_pos (by simpa using h), ih]
      rfl

/-- The cookies that a document sees before the one with a key: the older ones with a path as long,
and those with a longer path. -/
def earlier (doc : Document) (key : Key) (jar : Jar) : List Cookie :=
  (((before key jar).filter (sees doc)).filter (fun c => key.path.length ≤ c.path.length) ++
    ((behind key jar).filter (sees doc)).filter fun c => key.path.length < c.path.length).insertionSort
      ByPath

/-- An element that precedes another one is inserted before it. -/
theorem orderedInsert_append {e c : Cookie} (front back : List Cookie) (h : ByPath e c) :
    (front ++ c :: back).orderedInsert ByPath e = front.orderedInsert ByPath e ++ c :: back := by
  induction front with
  | nil => rw [List.nil_append, List.orderedInsert_cons, if_pos h]; rfl
  | cons d front ih =>
    rw [List.cons_append, List.orderedInsert_cons, List.orderedInsert_cons]
    split_ifs
    · rfl
    · rw [ih]
      rfl

/-- An element that precedes nothing of the front is inserted behind it. -/
theorem orderedInsert_append_of_not {e : Cookie} {front : List Cookie} (back : List Cookie)
    (hfront : ∀ d ∈ front, ¬ ByPath e d) :
    (front ++ back).orderedInsert ByPath e = front ++ back.orderedInsert ByPath e := by
  induction front with
  | nil => rfl
  | cons d front ih =>
    rw [List.cons_append, List.orderedInsert_cons, if_neg (hfront d List.mem_cons_self),
      ih fun d hd => hfront d (List.mem_cons_of_mem _ hd)]
    rfl

/-- The longer paths stand first. -/
theorem insertionSort_longer (n : ℕ) (l : List Cookie) : ∃ back,
    l.insertionSort ByPath =
      (l.filter fun d => decide (n < d.path.length)).insertionSort ByPath ++ back ∧
    ∀ d ∈ back, d.path.length ≤ n := by
  induction l with
  | nil => exact ⟨[], rfl, fun d hd => absurd hd List.not_mem_nil⟩
  | cons e l ih =>
    obtain ⟨back, hsort, hback⟩ := ih
    rw [List.insertionSort_cons, hsort]
    by_cases he : n < e.path.length
    · refine ⟨back, ?_, hback⟩
      rw [List.filter_cons_of_pos (by simpa using he), List.insertionSort_cons]
      cases back with
      | nil => rw [List.append_nil, List.append_nil]
      | cons d back =>
        exact orderedInsert_append _ _ ((hback d List.mem_cons_self).trans he.le)
    · refine ⟨back.orderedInsert ByPath e, ?_, fun d hd => ?_⟩
      · rw [List.filter_cons_of_neg (by simpa using he)]
        refine orderedInsert_append_of_not _ fun d hd hlonger => he ?_
        rw [List.mem_insertionSort, List.mem_filter, decide_eq_true_eq] at hd
        exact hd.2.trans_le hlonger
      · rcases (List.mem_orderedInsert _).1 hd with rfl | hd
        · exact not_lt.1 he
        · exact hback d hd

/-- **Where an element of a sorted list stands**: behind the older ones with a path as long, and
behind those with a longer path. -/
theorem insertionSort_split (c : Cookie) (front back : List Cookie) : ∃ later,
    (front ++ c :: back).insertionSort ByPath =
      (front.filter (fun d => decide (c.path.length ≤ d.path.length)) ++
        back.filter fun d => decide (c.path.length < d.path.length)).insertionSort ByPath ++
      c :: later := by
  induction front with
  | nil =>
    obtain ⟨later, hsort, hlater⟩ := insertionSort_longer c.path.length back
    refine ⟨later, ?_⟩
    rw [List.nil_append, List.insertionSort_cons, hsort, List.filter_nil, List.nil_append,
      orderedInsert_append_of_not]
    · cases later with
      | nil => rfl
      | cons d later =>
        rw [List.orderedInsert_cons]
        exact congrArg _ (if_pos (hlater d List.mem_cons_self))
    · intro d hd hlonger
      rw [List.mem_insertionSort, List.mem_filter, decide_eq_true_eq] at hd
      exact absurd hlonger (not_le.2 hd.2)
  | cons e front ih =>
    obtain ⟨later, hsort⟩ := ih
    rw [List.cons_append, List.insertionSort_cons, hsort]
    by_cases he : c.path.length ≤ e.path.length
    · refine ⟨later, ?_⟩
      rw [List.filter_cons_of_pos (by simpa using he), List.cons_append, List.insertionSort_cons]
      exact orderedInsert_append _ _ he
    · refine ⟨later.orderedInsert ByPath e, ?_⟩
      rw [List.filter_cons_of_neg (by simpa using he), orderedInsert_append_of_not,
        List.orderedInsert_cons, if_neg (show ¬ ByPath e c from he)]
      intro d hd hlonger
      rw [List.mem_insertionSort, List.mem_append, List.mem_filter, List.mem_filter,
        decide_eq_true_eq, decide_eq_true_eq] at hd
      refine he ?_
      rcases hd with hd | hd
      · exact hd.2.trans hlonger
      · exact hd.2.le.trans hlonger

/-- **What a document sees of a cookie that was put**: those that stand before it are the earlier
ones. -/
theorem retrieve_put {doc : Document} {c : Cookie} (jar : Jar) (h : sees doc c = true) :
    ∃ later, retrieve doc (put c jar) = earlier doc c.key jar ++ c :: later := by
  rw [retrieve, put_eq, List.filter_append, List.filter_cons_of_pos h]
  exact insertionSort_split c _ _

/-- A document is below its default path. -/
theorem pathMatches_defaultPath (doc : Document) :
    pathMatches doc.path (defaultPath doc.path) = true := by
  obtain ⟨t, ht⟩ := List.head?_eq_some_iff.1 doc.rooted
  rw [defaultPath]
  split_ifs
  · rw [pathMatches, ht]
    simp [List.isPrefixOf]
  · have hne : doc.path.rdropWhile (· != unit '/') ≠ [] := by
      rw [Ne, List.rdropWhile_eq_nil_iff]
      intro h
      have hslash := h (unit '/') (by rw [ht]; exact List.mem_cons_self)
      exact absurd hslash (by simp)
    have hlast : (doc.path.rdropWhile (· != unit '/')).getLast hne = unit '/' := by
      by_contra hc
      exact List.rdropWhile_last_not _ _ hne (bne_iff_ne.2 hc)
    have hdir := List.dropLast_append_getLast hne
    rw [hlast] at hdir
    obtain ⟨rest, hrest⟩ := List.rdropWhile_prefix (· != unit '/') doc.path
    rw [← hdir, List.append_assoc] at hrest
    rw [pathMatches]
    generalize (doc.path.rdropWhile (· != unit '/')).dropLast = front at hrest
    rw [← hrest]
    simp

/-- A document sees the cookies that it sets. -/
theorem sees_make {doc : Document} {pair : Pair} {expiry : Option ℤ} {c : Cookie}
    (h : make doc pair { expiry } = some c) : sees doc c = true := by
  obtain rfl := Option.some.inj h
  simp [sees, pathMatches_defaultPath]

/-! ### The pieces of the text -/

/-- A text without the spaces that it begins with. -/
def stripSpaces (s : Text) : Text := s.dropWhile (· == unit ' ')

theorem stripSpaces_text (p : Pair) : stripSpaces p.text = p.text := by
  have htrim := dropWhile_trim p.name
  rw [p.trim_name] at htrim
  obtain ⟨c, name, hname⟩ := List.exists_cons_of_ne_nil p.name_ne
  rw [hname, List.dropWhile_eq_self_iff] at htrim
  have hspace : ¬ isSpace c = true := htrim (Nat.succ_pos _)
  rw [stripSpaces, Pair.text, hname, List.cons_append, List.dropWhile_cons_of_neg]
  exact fun h => hspace (by rw [isSpace, h, Bool.true_or])

theorem semicolon_notMem_text (p : Pair) : unit ';' ∉ p.text := by
  rw [Pair.text, List.mem_append, List.mem_cons, not_or, not_or]
  exact ⟨p.semicolon_notMem_name, by decide, p.semicolon_notMem_value⟩

/-- **The pieces are the pairs.**  Between the semicolons stand the pairs, behind a space. -/
theorem pieces_serialize {l : List Cookie} (h : l ≠ []) :
    ((serialize l).splitOn (unit ';')).map stripSpaces = l.map fun c => c.toPair.text := by
  induction l with
  | nil => exact absurd rfl h
  | cons c l ih =>
    cases l with
    | nil => simp [serialize, List.intercalate, List.splitOn_eq_singleton (semicolon_notMem_text _),
        stripSpaces_text]
    | cons d l =>
      have hjoin : serialize (c :: d :: l) =
          c.toPair.text ++ unit ';' :: unit ' ' :: serialize (d :: l) := by
        simp [serialize, List.intercalate]
      rw [hjoin, List.splitOn_append_cons_self_of_not_mem (semicolon_notMem_text _),
        List.splitOn_cons_eq_if_modifyHead, if_neg (by decide), List.map_cons, stripSpaces_text,
        List.map_cons (l := d :: l), ← ih (List.cons_ne_nil _ _)]
      cases (serialize (d :: l)).splitOn (unit ';') with
      | nil => rfl
      | cons piece pieces => rfl

end Cookies

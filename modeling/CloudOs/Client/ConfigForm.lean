/-
# The configuration form of an app: `App.AppstoreConfigBasicRoute`

The page reads the configuration of an app, shows a field for each item, and writes all fields back.

| step | what it does with an item |
| --- | --- |
| `read_app_config` | the item is a name in `items`; if it has a value, `values` has an entry |
| `model` | `values[item] \|\| ""`, and `""` if there are no `values` |
| `write_app_config` | `values[name] = value`, in a new object |
| `JSON.stringify` | writes the entries that are texts |

So an item that has no value is sent with an empty text.  `AppDAO.setConfiguration` preserves the
settings that are missing in what is sent, and this one is not missing.

An object has more than its entries: under `__proto__`, and under the names of the methods that
every object inherits, it reads what is no text, and what is assigned to `__proto__` makes no entry.
`keepsSettings_iff` has the configurations that come back.
-/

import Mathlib.Data.List.Infix
import Mathlib.Data.List.Forall2
import Mathlib.Logic.Function.Basic

namespace CloudOs

namespace ConfigForm

/-- The `values` of a category; an entry is `null` or a text. -/
inductive Values
  | undefined
  | null
  | object (entries : String → Option (Option String))

structure Category where
  name : String
  items : List String
  values : Values

/-- `AppConfiguration`, as it is sent. -/
structure AppConfiguration where
  categories : List Category

/-- What a category has under a name; an entry that is `null` is no value. -/
def Category.valueOf (c : Category) (item : String) : Option String :=
  match c.values with
  | .object entries => (entries item).join
  | _ => none

/-- The value of a field: a text, or what every object has under that name. -/
inductive FieldValue
  | text (s : String)
  | inherited
  deriving DecidableEq, Repr

structure FormItem where
  name : String
  value : FieldValue
  isPassword : Bool
  deriving DecidableEq, Repr

structure FormCategory where
  name : String
  items : List FormItem
  item_names : List String
  deriving DecidableEq, Repr

/-! ### The form is built -/

/-- The methods of `Object.prototype`. -/
def objectMethods : List String :=
  ["constructor", "hasOwnProperty", "isPrototypeOf", "propertyIsEnumerable", "toLocaleString",
    "toString", "valueOf", "__defineGetter__", "__defineSetter__", "__lookupGetter__",
    "__lookupSetter__"]

variable (methods : List String)

/-- `values[item] || ""`, or `""` without `values`; `null` has no properties. -/
def Values.read : Values → String → Option FieldValue
  | .undefined, _ => some (.text "")
  | .null, _ => none
  | .object entries, item =>
    match entries item with
    | some v => some (.text (v.getD ""))
    | none => some (if item = "__proto__" ∨ item ∈ methods then .inherited else .text "")

def isPassword (item : String) : Bool := decide ("password".toList <:+: item.toList)

def formItem (values : Values) (item : String) : Option FormItem :=
  (values.read methods item).map fun value => ⟨item, value, isPassword item⟩

def formCategory (c : Category) : Option FormCategory :=
  (c.items.mapM (formItem methods c.values)).map fun items => ⟨c.name, items, c.items⟩

def hasConfig (config : AppConfiguration) : Bool := !config.categories.isEmpty

/-- `App.AppstoreConfigBasicRoute.model`, once the configuration is read; `none` when it throws. -/
def model (config : AppConfiguration) : Option (List FormCategory) :=
  if hasConfig config then config.categories.mapM (formCategory methods) else some []

/-! ### The form is written -/

/-- `values[item.name] = item.value`. -/
def assign (values : String → Option FieldValue) (item : FormItem) : String → Option FieldValue :=
  if item.name = "__proto__" then values else Function.update values item.name (some item.value)

/-- What `JSON.stringify` writes of a value. -/
def FieldValue.json : FieldValue → Option String
  | .text s => some s
  | .inherited => none

def writeCategory (c : FormCategory) : Category where
  name := c.name
  items := c.item_names
  values := .object fun name =>
    (c.items.foldl assign (fun _ => none) name).bind fun value => value.json.map some

/-- The data of `Api.write_app_config`. -/
def write_app_config (form : List FormCategory) : AppConfiguration := ⟨form.map writeCategory⟩

/-! ### What comes back -/

/-- Two categories with the same name, items and values. -/
structure SameSettings (a b : Category) : Prop where
  name : b.name = a.name
  items : b.items = a.items
  valueOf : ∀ item, b.valueOf item = a.valueOf item

/-- The form is built, and writes the configuration that it was built from. -/
def KeepsSettings (config : AppConfiguration) : Prop :=
  ∃ form, model methods config = some form ∧
    List.Forall₂ SameSettings config.categories (write_app_config form).categories

/-- An item reads a method, so that nothing is written. -/
def ReadsMethod (c : Category) (item : String) : Prop :=
  item ∈ methods ∧ ∃ entries, c.values = .object entries ∧ entries item = none

/-- Every item has a value, and every value is one of an item. -/
structure IsFilled (c : Category) : Prop where
  readable : c.values = .null → c.items = []
  ofItems : ∀ item, (c.valueOf item).isSome → item ∈ c.items ∧ item ≠ "__proto__"
  filled : ∀ item ∈ c.items, item ≠ "__proto__" →
    (c.valueOf item).isSome ∨ ReadsMethod methods c item

variable {methods}

/-- A loop that can throw on an element ends well if it does not. -/
theorem exists_mapM_iff {α β : Type} {f : α → Option β} {R : α → β → Prop} {l : List α} :
    (∃ l', l.mapM f = some l' ∧ List.Forall₂ R l l') ↔ ∀ a ∈ l, ∃ b, f a = some b ∧ R a b := by
  induction l with
  | nil => simp
  | cons a l ih =>
    rw [List.forall_mem_cons, ← ih, List.mapM_cons]
    constructor
    · rintro ⟨l', hl', hR⟩
      obtain ⟨b, hb, hl'⟩ := Option.bind_eq_some_iff.1 hl'
      obtain ⟨bs, hbs, hl'⟩ := Option.bind_eq_some_iff.1 hl'
      obtain rfl := Option.some.inj hl'
      obtain ⟨hab, hR⟩ := List.forall₂_cons.1 hR
      exact ⟨⟨b, hb, hab⟩, bs, hbs, hR⟩
    · rintro ⟨⟨b, hb, hab⟩, bs, hbs, hR⟩
      refine ⟨b :: bs, ?_, .cons hab hR⟩
      rw [hb, hbs]
      rfl

/-- The entries of the new object are the fields of the items, but for `__proto__`. -/
theorem foldl_assign (g : String → FieldValue) (p : String → Bool) (items : List String)
    (values : String → Option FieldValue) (name : String) :
    (items.map fun item => (⟨item, g item, p item⟩ : FormItem)).foldl assign values name =
      if name ∈ items ∧ name ≠ "__proto__" then some (g name) else values name := by
  induction items generalizing values with
  | nil => simp
  | cons item items ih =>
    rw [List.map_cons, List.foldl_cons, ih, assign]
    by_cases hmem : name ∈ items ∧ name ≠ "__proto__"
    · rw [if_pos hmem, if_pos ⟨List.mem_cons_of_mem item hmem.1, hmem.2⟩]
    · rw [if_neg hmem]
      by_cases hname : name = item
      · subst hname
        by_cases hproto : name = "__proto__"
        · simp [hproto]
        · simp [hproto]
      · have hnot : ¬ (name ∈ item :: items ∧ name ≠ "__proto__") := fun h =>
          hmem ⟨(List.mem_cons.1 h.1).resolve_left hname, h.2⟩
        rw [if_neg hnot]
        split_ifs
        · rfl
        · exact Function.update_of_ne hname _ _

/-- The field of an item, when there is something to read it from. -/
def Category.field (methods : List String) (c : Category) (item : String) : FieldValue :=
  (c.values.read methods item).getD (.text "")

theorem formItem_of_ne_null {c : Category} (h : c.values ≠ .null) (item : String) :
    formItem methods c.values item = some ⟨item, c.field methods item, isPassword item⟩ := by
  rw [formItem, Category.field]
  cases hvalues : c.values with
  | undefined => rfl
  | null => exact absurd hvalues h
  | object entries =>
    rw [Values.read]
    cases entries item <;> rfl

theorem formCategory_of_ne_null {c : Category} (h : c.values ≠ .null) :
    formCategory methods c = some ⟨c.name,
      c.items.map fun item => ⟨item, c.field methods item, isPassword item⟩, c.items⟩ := by
  rw [formCategory, funext (formItem_of_ne_null h)]
  exact congrArg (Option.map _) (List.mapM_pure (m := Option))

/-- What is written of a form. -/
theorem valueOf_writeCategory (c : Category) (item : String) :
    (writeCategory ⟨c.name, c.items.map fun item => ⟨item, c.field methods item, isPassword item⟩,
      c.items⟩).valueOf item =
        if item ∈ c.items ∧ item ≠ "__proto__" then (c.field methods item).json else none := by
  rw [Category.valueOf, writeCategory]
  dsimp only
  rw [foldl_assign]
  split_ifs with h
  · rw [Option.bind_some]
    cases (c.field methods item).json <;> rfl
  · rfl

/-- A value comes back as it was; an item without one stays so if it reads a method. -/
theorem json_field_iff {c : Category} (h : c.values ≠ .null) {item : String}
    (hproto : item ≠ "__proto__") : (c.field methods item).json = c.valueOf item ↔
      (c.valueOf item).isSome ∨ ReadsMethod methods c item := by
  rw [Category.field, Category.valueOf, ReadsMethod]
  cases hvalues : c.values with
  | undefined => simp [Values.read, FieldValue.json]
  | null => exact absurd hvalues h
  | object entries =>
    rw [Values.read]
    cases hentry : entries item with
    | none =>
      by_cases hmethod : item ∈ methods
      · simp [hproto, hmethod, hentry, FieldValue.json]
      · simp [hproto, hmethod, hentry, FieldValue.json]
    | some v =>
      cases v with
      | none => simp [hentry, FieldValue.json]
      | some text => simp [hentry, FieldValue.json]

/-- **One category** comes back when it is filled. -/
theorem exists_formCategory_iff (c : Category) :
    (∃ form, formCategory methods c = some form ∧ SameSettings c (writeCategory form)) ↔
      IsFilled methods c := by
  by_cases h : c.values = .null
  · have hvalueOf : ∀ item, c.valueOf item = none := fun item => by rw [Category.valueOf, h]
    constructor
    · rintro ⟨form, hform, -⟩
      -- the first item would throw
      have hitems : c.items = [] := by
        cases hitems : c.items with
        | nil => rfl
        | cons item items => simp [formCategory, hitems, h, formItem, Values.read] at hform
      refine ⟨fun _ => hitems, fun item hvalue => ?_, fun item hitem => ?_⟩
      · simp [hvalueOf] at hvalue
      · simp [hitems] at hitem
    · intro hfilled
      have hitems := hfilled.readable h
      refine ⟨⟨c.name, [], []⟩, by simp [formCategory, hitems], rfl, hitems.symm, fun item => ?_⟩
      rw [hvalueOf]
      rfl
  · rw [formCategory_of_ne_null h]
    constructor
    · rintro ⟨form, hform, hsame⟩
      obtain rfl := Option.some.inj hform
      refine ⟨fun hnull => absurd hnull h, fun item hvalue => ?_, fun item hitem hproto => ?_⟩
      · rw [← hsame.valueOf, valueOf_writeCategory] at hvalue
        by_contra hnot
        simp [hnot] at hvalue
      · have hvalue := hsame.valueOf item
        rw [valueOf_writeCategory, if_pos ⟨hitem, hproto⟩] at hvalue
        exact (json_field_iff h hproto).1 hvalue
    · intro hfilled
      refine ⟨_, rfl, rfl, rfl, fun item => ?_⟩
      rw [valueOf_writeCategory]
      split_ifs with hitem
      · exact (json_field_iff h hitem.2).2 (hfilled.filled item hitem.1 hitem.2)
      · have hnone : ¬ (c.valueOf item).isSome := fun hvalue => hitem (hfilled.ofItems item hvalue)
        exact (Option.not_isSome_iff_eq_none.1 hnone).symm

/-- **What the form keeps.**  A configuration comes back exactly when every category is filled. -/
theorem keepsSettings_iff (methods : List String) (config : AppConfiguration) :
    KeepsSettings methods config ↔ ∀ c ∈ config.categories, IsFilled methods c := by
  have hmodel : model methods config = config.categories.mapM (formCategory methods) := by
    rw [model, hasConfig]
    cases config.categories <;> rfl
  rw [KeepsSettings, hmodel]
  simp only [write_app_config, List.forall₂_map_right_iff]
  rw [exists_mapM_iff]
  exact forall₂_congr fun c _ => exists_formCategory_iff c

/-- A mail server whose password is not set. -/
def smtp : Category where
  name := "smtp"
  items := ["host", "password"]
  values := .object fun item => if item = "host" then some (some "mail") else none

/-- **The password is overwritten.**  The category is written with the empty text for its password,
which had no value. -/
theorem unset_item_written : smtp.valueOf "password" = none ∧
    (formCategory objectMethods smtp).map (fun form => (writeCategory form).valueOf "password") =
      some (some "") ∧
    ¬ KeepsSettings objectMethods ⟨[smtp]⟩ := by
  refine ⟨by decide, by decide, ?_⟩
  rintro ⟨form, hform, hsame⟩
  have hmodel : model objectMethods ⟨[smtp]⟩ = some [⟨"smtp", [⟨"host", .text "mail", false⟩,
      ⟨"password", .text "", true⟩], ["host", "password"]⟩] := by decide
  obtain rfl := Option.some.inj (hmodel.symm.trans hform)
  exact absurd ((List.forall₂_cons.1 hsame).1.valueOf "password") (by decide)

end ConfigForm

end CloudOs

/-
# `LdapEntity`: a named entry with multi-valued attributes

`Account` and `AccountGroup` extend `LdapEntity` of the cobbzilla-wizard
library, which is not part of the repository.  The entity of this file has the
operations that the two classes and their DAOs call, with the behaviour they
rely on:

| operation | effect |
| --- | --- |
| `get`, `getSingle` | all values of an attribute, its first value or `null` |
| `set` | the attribute has this one value afterwards; `null` removes it |
| `append`, `appendAll` | adds values to those present |
| `remove(attr)`, `remove(attr, value)` | removes the attribute, removes one value |
| `merge(other)` | overlays the attributes present in `other`, leaves the others alone |

An attribute without values is absent.  The name is what the entry's DN is made
of; `merge` keeps the receiver's.  `clean`, which resets the record of pending
changes, changes no value and is left out.
-/

import Mathlib.Logic.Function.Basic
import Mathlib.Tactic.SplitIfs

namespace CloudOs

/-- An LDAP entry: its name, and the values of each attribute. -/
structure LdapEntity (Attr : Type) where
  name : String
  attrs : Attr → List String

namespace LdapEntity

variable {Attr : Type} [DecidableEq Attr] (e other : LdapEntity Attr)

/-- A new entry: no attribute has a value. -/
def new (name : String) : LdapEntity Attr := ⟨name, fun _ => []⟩

def get (a : Attr) : List String := e.attrs a

def getSingle (a : Attr) : Option String := (e.attrs a).head?

/-- The values of one attribute replaced. -/
def put (a : Attr) (vs : List String) : LdapEntity Attr :=
  { e with attrs := Function.update e.attrs a vs }

def set (a : Attr) (v : Option String) : LdapEntity Attr := e.put a v.toList

def append (a : Attr) (v : String) : LdapEntity Attr := e.put a (e.get a ++ [v])

def appendAll (a : Attr) (vs : List String) : LdapEntity Attr := e.put a (e.get a ++ vs)

def remove (a : Attr) : LdapEntity Attr := e.put a []

/-- `remove(attr, value)`: the other values stay. -/
def removeValue (a : Attr) (v : String) : LdapEntity Attr := e.put a ((e.get a).filter (· ≠ v))

def merge : LdapEntity Attr :=
  { e with attrs := fun a => if (other.attrs a).isEmpty then e.attrs a else other.attrs a }

omit [DecidableEq Attr] in
@[simp] theorem getSingle_new (name : String) (a : Attr) :
    (new name : LdapEntity Attr).getSingle a = none := rfl

@[simp] theorem put_name (a : Attr) (vs : List String) : (e.put a vs).name = e.name := rfl

@[simp] theorem get_put (a b : Attr) (vs : List String) :
    (e.put a vs).get b = if b = a then vs else e.get b := by
  simp [get, put, Function.update_apply]

@[simp] theorem getSingle_put (a b : Attr) (vs : List String) :
    (e.put a vs).getSingle b = if b = a then vs.head? else e.getSingle b := by
  simp only [getSingle, put, Function.update_apply]
  split_ifs <;> rfl

omit [DecidableEq Attr] in
@[simp] theorem merge_name : (e.merge other).name = e.name := rfl

omit [DecidableEq Attr] in
@[simp] theorem get_merge (a : Attr) :
    (e.merge other).get a = if (other.get a).isEmpty then e.get a else other.get a := rfl

omit [DecidableEq Attr] in
/-- A merged attribute has the argument's value where there is one. -/
@[simp] theorem getSingle_merge (a : Attr) :
    (e.merge other).getSingle a = (other.getSingle a).or (e.getSingle a) := by
  simp only [getSingle, merge]
  cases other.attrs a <;> simp

end LdapEntity

end CloudOs

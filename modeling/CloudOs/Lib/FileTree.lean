/-
# Directories of files

A directory is a function from the paths below it to what stands there: nothing, a
directory, or a file with its content.  The empty path is the directory itself.

| operation | what stands below the directory after it |
| --- | --- |
| `write p c` | the file `c` at `p` |
| `writeAll ws` | the files `ws`, written in order |
| `graft n t` | the directory or file `t` under the name `n`, in place of what stood there |
| `overlay t` | what stands in `t`, and what stood there where `t` has nothing |

Two directories have the same files when every path holds the same file in both; the
directories that stand around the files are not compared (`SameFiles`).
-/

import Mathlib.Logic.Function.Basic
import Mathlib.Tactic.SplitIfs

/-- What stands at a path. -/
inductive FileNode (α : Type*)
  | dir
  | file (content : α)

/-- A directory, by the paths below it. -/
abbrev FileTree (α : Type*) := List String → Option (FileNode α)

namespace FileTree

variable {α : Type*} (t : FileTree α)

/-- Nothing. -/
def empty : FileTree α := fun _ => none

/-- The file at a path. -/
def fileAt (p : List String) : Option α :=
  match t p with
  | some (.file c) => some c
  | _ => none

/-- Something stands at the path. -/
def hasPath (p : List String) : Bool := (t p).isSome

/-- A directory stands at the path. -/
def isDirectory (p : List String) : Bool :=
  match t p with
  | some .dir => true
  | _ => false

/-- What stands below a path. -/
def below (p : List String) : FileTree α := fun q => t (p ++ q)

def write (p : List String) (c : α) : FileTree α := Function.update t p (some (.file c))

def writeAll (ws : List (List String × α)) : FileTree α := ws.foldl (fun t w => write t w.1 w.2) t

/-- Puts `s` under the name `n`. -/
def graft (n : String) (s : FileTree α) : FileTree α
  | [] => t []
  | m :: p => if m = n then s p else t (m :: p)

/-- Puts what stands in `s` over it. -/
def overlay (s : FileTree α) : FileTree α := fun p => (s p).or (t p)

/-- The directories down to the path `p`, and `t` below it. -/
def mount (p : List String) : FileTree α := fun q =>
  if p <+: q then t (q.drop p.length) else if q <+: p then some .dir else none

/-- A single file. -/
def single (c : α) : FileTree α
  | [] => some (.file c)
  | _ => none

/-- The directory with these entries. -/
def ofEntries (entries : List (String × FileTree α)) : FileTree α
  | [] => some .dir
  | n :: p => (entries.lookup n).bind fun s => s p

/-- Every path holds the same file in both. -/
def SameFiles (t u : FileTree α) : Prop := ∀ p, t.fileAt p = u.fileAt p

@[simp] theorem fileAt_empty (p : List String) : (empty : FileTree α).fileAt p = none := rfl

theorem fileAt_congr {t u : FileTree α} {p q : List String} (h : t p = u q) :
    t.fileAt p = u.fileAt q := by
  rw [fileAt, h, fileAt]

@[simp] theorem fileAt_below (p q : List String) : (t.below p).fileAt q = t.fileAt (p ++ q) := rfl

@[simp] theorem fileAt_write_self (p : List String) (c : α) : (t.write p c).fileAt p = some c := by
  rw [fileAt, write, Function.update_self]

theorem write_of_ne {p q : List String} (h : q ≠ p) (c : α) : t.write p c q = t q :=
  Function.update_of_ne h _ _

theorem fileAt_write (p q : List String) (c : α) :
    (t.write p c).fileAt q = if q = p then some c else t.fileAt q := by
  split_ifs with h
  · rw [h, fileAt_write_self]
  · exact fileAt_congr (t.write_of_ne h c)

@[simp] theorem writeAll_nil : t.writeAll [] = t := rfl

@[simp] theorem writeAll_cons (w : List String × α) (ws : List (List String × α)) :
    t.writeAll (w :: ws) = (t.write w.1 w.2).writeAll ws := rfl

theorem writeAll_append (ws vs : List (List String × α)) :
    t.writeAll (ws ++ vs) = (t.writeAll ws).writeAll vs := List.foldl_append

/-- Writes elsewhere leave a path alone. -/
theorem writeAll_of_notMem {p : List String} : ∀ {ws : List (List String × α)} (t : FileTree α),
    (∀ w ∈ ws, w.1 ≠ p) → t.writeAll ws p = t p
  | [], _, _ => rfl
  | w :: ws, t, h => by
    rw [writeAll_cons, writeAll_of_notMem _ fun v hv => h v (List.mem_cons_of_mem w hv),
      t.write_of_ne (h w List.mem_cons_self).symm]

/-- The last write to a path stands there. -/
theorem fileAt_writeAll : ∀ (ws : List (List String × α)) (t : FileTree α) (p : List String),
    (t.writeAll ws).fileAt p = (ws.reverse.lookup p).or (t.fileAt p)
  | [], _, _ => rfl
  | w :: ws, t, p => by
    rw [writeAll_cons, fileAt_writeAll ws, List.reverse_cons, List.lookup_append, Option.or_assoc,
      fileAt_write]
    by_cases h : p = w.1
    · rw [if_pos h, List.lookup_cons, beq_iff_eq.2 h]
      rfl
    · rw [if_neg h, List.lookup_cons, beq_eq_false_iff_ne.2 h]
      rfl

@[simp] theorem graft_nil (n : String) (s : FileTree α) : t.graft n s [] = t [] := rfl

@[simp] theorem graft_self (n : String) (s : FileTree α) (p : List String) :
    t.graft n s (n :: p) = s p := if_pos rfl

theorem graft_of_ne {m n : String} (h : m ≠ n) (s : FileTree α) (p : List String) :
    t.graft n s (m :: p) = t (m :: p) := if_neg h

theorem hasPath_graft_of_ne {m n : String} (h : m ≠ n) (s : FileTree α) :
    (t.graft n s).hasPath [m] = t.hasPath [m] := by
  rw [hasPath, graft_of_ne _ h, hasPath]

theorem isDirectory_graft_of_ne {m n : String} (h : m ≠ n) (s : FileTree α) :
    (t.graft n s).isDirectory [m] = t.isDirectory [m] := by
  rw [isDirectory, graft_of_ne _ h, isDirectory]

theorem below_graft_of_ne {m n : String} (h : m ≠ n) (s : FileTree α) :
    (t.graft n s).below [m] = t.below [m] := funext fun p => graft_of_ne t h s p

/-- What is put in place last stays. -/
theorem graft_graft (n : String) (s u : FileTree α) : (t.graft n s).graft n u = t.graft n u := by
  funext p
  cases p with
  | nil => rfl
  | cons m p =>
    by_cases h : m = n
    · rw [h, graft_self, graft_self]
    · rw [graft_of_ne _ h, graft_of_ne _ h, graft_of_ne _ h]

/-- Putting back what stands there changes nothing. -/
theorem graft_below (n : String) : t.graft n (t.below [n]) = t := by
  funext p
  cases p with
  | nil => rfl
  | cons m p =>
    by_cases h : m = n
    · rw [h, graft_self]
      rfl
    · rw [graft_of_ne _ h]

@[simp] theorem overlay_empty : t.overlay empty = t := rfl

@[simp] theorem empty_overlay : (empty : FileTree α).overlay t = t := by
  funext p
  exact Option.or_none

theorem overlay_assoc (s u : FileTree α) : (t.overlay s).overlay u = t.overlay (s.overlay u) := by
  funext p
  exact Option.or_assoc.symm

/-- What is put over it twice is put over it once. -/
theorem overlay_overlay (s : FileTree α) : (t.overlay s).overlay s = t.overlay s := by
  funext p
  show (s p).or ((s p).or (t p)) = (s p).or (t p)
  cases s p <;> rfl

theorem SameFiles.refl : SameFiles t t := fun _ => rfl

variable {t}

theorem SameFiles.symm {u : FileTree α} (h : SameFiles t u) : SameFiles u t := fun p => (h p).symm

theorem SameFiles.trans {u v : FileTree α} (h : SameFiles t u) (h' : SameFiles u v) :
    SameFiles t v := fun p => (h p).trans (h' p)

end FileTree

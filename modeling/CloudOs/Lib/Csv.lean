/-
# Rows of quoted cells

A table is written row by row.  A cell is written in quotes, with every quote in it doubled; a cell
that is missing is written as nothing, so that it is told from an empty one.

| what | how it is written |
| --- | --- |
| a cell | quote, the cell with its quotes doubled, quote |
| a missing cell | nothing |
| a row | its cells, with the separator between them, and the end of the line |

`read` is a reader of such a text, one character after the other; it also takes cells without quotes.
What is written is read back, whatever stands in the cells (`read_print`).
-/

import Mathlib.Data.List.Basic

namespace Csv

/-- The three characters of the format, which are different. -/
structure Dialect (α : Type*) where
  separator : α
  quote : α
  lineEnd : α
  separator_ne_quote : separator ≠ quote
  lineEnd_ne_quote : lineEnd ≠ quote
  lineEnd_ne_separator : lineEnd ≠ separator

variable {α : Type*} [DecidableEq α] (d : Dialect α)

/-- A cell with its quotes doubled. -/
def escape (cell : List α) : List α := cell.flatMap fun c => if c = d.quote then [c, c] else [c]

def printCell : Option (List α) → List α
  | none => []
  | some cell => d.quote :: (escape d cell ++ [d.quote])

/-- The cells of a row, with the separator between them. -/
def printCells : List (Option (List α)) → List α
  | [] => []
  | [cell] => printCell d cell
  | cell :: cells => printCell d cell ++ d.separator :: printCells cells

def printRow (row : List (Option (List α))) : List α := printCells d row ++ [d.lineEnd]

def print (rows : List (List (Option (List α)))) : List α := rows.flatMap (printRow d)

/-- Where the reader stands: at the start of a cell, in a cell without quotes, between quotes, or
behind a quote. -/
inductive Mode (α : Type*)
  | start
  | plain (cell : List α)
  | quoted (cell : List α)
  | closed (cell : List α)

/-- The reader behind the cells `row` of a row.  The text has to end at the end of a line. -/
def readFrom : Mode α → List (Option (List α)) → List α → Option (List (List (Option (List α))))
  | .start, [], [] => some []
  | _, _, [] => none
  | .start, row, c :: cs =>
    if c = d.quote then readFrom (.quoted []) row cs
    else if c = d.separator then readFrom .start (row ++ [none]) cs
    else if c = d.lineEnd then (readFrom .start [] cs).map ((row ++ [none]) :: ·)
    else readFrom (.plain [c]) row cs
  | .plain cell, row, c :: cs =>
    if c = d.quote then none
    else if c = d.separator then readFrom .start (row ++ [some cell]) cs
    else if c = d.lineEnd then (readFrom .start [] cs).map ((row ++ [some cell]) :: ·)
    else readFrom (.plain (cell ++ [c])) row cs
  | .quoted cell, row, c :: cs =>
    if c = d.quote then readFrom (.closed cell) row cs else readFrom (.quoted (cell ++ [c])) row cs
  | .closed cell, row, c :: cs =>
    if c = d.quote then readFrom (.quoted (cell ++ [c])) row cs
    else if c = d.separator then readFrom .start (row ++ [some cell]) cs
    else if c = d.lineEnd then (readFrom .start [] cs).map ((row ++ [some cell]) :: ·)
    else none

/-- The rows of a text. -/
def read (text : List α) : Option (List (List (Option (List α)))) := readFrom d .start [] text

variable {d}

/-- Between quotes, an escaped cell is taken in. -/
theorem readFrom_escape (cell taken : List α) (row : List (Option (List α))) (rest : List α) :
    readFrom d (.quoted taken) row (escape d cell ++ rest) =
      readFrom d (.quoted (taken ++ cell)) row rest := by
  induction cell generalizing taken with
  | nil => rw [List.append_nil]; rfl
  | cons c cell ih =>
    have hescape : escape d (c :: cell) = (if c = d.quote then [c, c] else [c]) ++ escape d cell :=
      List.flatMap_cons
    rw [hescape]
    have hgoal := ih (taken ++ [c])
    rw [List.append_assoc, List.singleton_append] at hgoal
    split_ifs with hquote
    · simp only [List.cons_append, List.nil_append, readFrom, if_pos hquote]
      exact hgoal
    · simp only [List.cons_append, List.nil_append, readFrom, if_neg hquote]
      exact hgoal

/-- A cell is read up to the separator. -/
theorem readFrom_printCell_separator (cell : Option (List α)) (row : List (Option (List α)))
    (rest : List α) : readFrom d .start row (printCell d cell ++ d.separator :: rest) =
      readFrom d .start (row ++ [cell]) rest := by
  cases cell with
  | none =>
    simp only [printCell, List.nil_append, readFrom, if_neg d.separator_ne_quote, if_true]
  | some cell =>
    simp only [printCell, List.cons_append, List.append_assoc, readFrom, if_true,
      readFrom_escape, List.nil_append, if_neg d.separator_ne_quote]

/-- A cell is read up to the end of the line. -/
theorem readFrom_printCell_lineEnd (cell : Option (List α)) (row : List (Option (List α)))
    (rest : List α) : readFrom d .start row (printCell d cell ++ d.lineEnd :: rest) =
      (readFrom d .start [] rest).map ((row ++ [cell]) :: ·) := by
  cases cell with
  | none =>
    simp only [printCell, List.nil_append, readFrom, if_neg d.lineEnd_ne_quote,
      if_neg d.lineEnd_ne_separator, if_true]
  | some cell =>
    simp only [printCell, List.cons_append, List.append_assoc, readFrom, if_true,
      readFrom_escape, List.nil_append, if_neg d.lineEnd_ne_quote, if_neg d.lineEnd_ne_separator]

/-- The cells of a row are read, and then the rest of the text. -/
theorem readFrom_printCells (cells : List (Option (List α))) (hcells : cells ≠ [])
    (row : List (Option (List α))) (rest : List α) :
    readFrom d .start row (printCells d cells ++ d.lineEnd :: rest) =
      (readFrom d .start [] rest).map ((row ++ cells) :: ·) := by
  induction cells generalizing row with
  | nil => exact absurd rfl hcells
  | cons cell cells ih =>
    cases cells with
    | nil => exact readFrom_printCell_lineEnd cell row rest
    | cons next cells =>
      rw [printCells, List.append_assoc, List.cons_append, readFrom_printCell_separator,
        ih (List.cons_ne_nil _ _), List.append_assoc, List.singleton_append]
      exact fun h => nomatch h

/-- **What is written is read back.**  Rows with at least one cell come back as they were, whatever
their cells hold. -/
theorem read_print (rows : List (List (Option (List α)))) (hrows : ∀ row ∈ rows, row ≠ []) :
    read d (print d rows) = some rows := by
  induction rows with
  | nil => rfl
  | cons row rows ih =>
    have hrow := hrows row List.mem_cons_self
    have hrest := ih fun r hr => hrows r (List.mem_cons_of_mem row hr)
    have hprint : print d (row :: rows) = printCells d row ++ d.lineEnd :: print d rows := by
      rw [print, List.flatMap_cons, printRow, List.append_assoc, List.singleton_append]
      rfl
    rw [read] at hrest ⊢
    rw [hprint, readFrom_printCells row hrow, hrest]
    rfl

end Csv

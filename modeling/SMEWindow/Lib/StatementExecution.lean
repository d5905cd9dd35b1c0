import SMEWindow.Lib.IdentityTable
import SMEWindow.Lib.InsertStatement
import Mathlib.Data.List.Perm.Basic
import Mathlib.Logic.Function.Basic

/-!
# Executing the text of a statement

A database gets a text and makes of it what the text says, whatever its author had in mind.
An INSERT adds all its rows, a SELECT by one column returns the identities of the rows
that match; what any other text does is up to the engine. A text that was put together from
fixed parts and literals does what was meant if the quotes in its literals are doubled.

## Main definitions

* `Lib.StatementExecution.Tables` — tables by their names, with the columns of their rows
* `Lib.StatementExecution.Engine` — what a database adds to the meaning of the statements
* `Engine.execute` — the effect of a text

## Main results

* `execute_of_parse` — the text of one row adds this row
* `execute_of_parseSelect` — the text of a selection changes nothing
* `perm_of_foldl_add_eq` — rows that lead to the same tables are rows of the same tables
-/

set_option autoImplicit false

namespace Lib.StatementExecution

open Lib.IdentityTable Lib.InsertStatement

/-- The columns of a row, and the texts that they were given. -/
abbrev Record := List (String × String)

/-- The tables of a database, by their names. -/
abbrev Tables := String → Table Record

/-- A database without rows. -/
def noRows : Tables := fun _ => .empty

/-- A row on its way into a table; its identity skips `gap` values. -/
structure Addition where
  table : String
  gap : ℕ
  record : Record
  deriving DecidableEq, Repr

/-- The tables with one more row. -/
def add (d : Tables) (addition : Addition) : Tables :=
  Function.update d addition.table ((d addition.table).insert addition.gap addition.record)

/-- What a database engine makes of statements. -/
structure Engine where
  /-- The value that is stored in a column of a table equals a literal. -/
  same : (table column stored literal : String) → Bool
  /-- A value equals the literal that it was given by. -/
  same_self : ∀ table column value, same table column value value = true
  /-- The tables and the identities that are returned after any other text, if the text is
  not refused. -/
  other : List Char → Tables → Option (Tables × List ℕ)

/-- The row has a value in the column, which equals the literal. -/
def Engine.selects (engine : Engine) (table column literal : String) (record : Record) : Bool :=
  match record.lookup column with
  | none => false
  | some stored => engine.same table column stored literal

/-- A row of values for the columns of the statement. -/
def rowAddition (gap : ℕ) (insert : Insert) : Addition :=
  ⟨String.ofList insert.table, gap, insert.record⟩

/-- The tables and the identities that are returned after a text, unless it is refused. -/
def Engine.execute (engine : Engine) (gap : ℕ) (text : List Char) (d : Tables) :
    Option (Tables × List ℕ) :=
  match parseRows text with
  | some inserts =>
    -- every row needs as many values as there are columns
    if inserts.all fun insert => insert.values.length = insert.columns.length then
      some ((inserts.map (rowAddition gap)).foldl add d, [])
    else none
  | none =>
    match parseSelect text with
    | some select =>
      some (d, (d (String.ofList select.table)).select
        (engine.selects (String.ofList select.table) (String.ofList select.key)
          (String.ofList select.value)))
    | none => engine.other text d

variable {engine : Engine} {gap : ℕ} {text : List Char} {d : Tables} {table : String}

@[simp] theorem add_same (d : Tables) (addition : Addition) :
    add d addition addition.table = (d addition.table).insert addition.gap addition.record :=
  Function.update_self ..

theorem add_of_ne (d : Tables) {addition : Addition} (h : table ≠ addition.table) :
    add d addition table = d table := Function.update_of_ne h ..

/-- The text of one row adds this row. -/
theorem execute_of_parse {insert : Insert} (h : parse text = some insert)
    (hlength : insert.values.length = insert.columns.length) :
    engine.execute gap text d = some (add d (rowAddition gap insert), []) := by
  rw [Engine.execute, parseRows_of_parse h]
  simp [hlength]

/-- The text of a selection changes nothing. -/
theorem execute_of_parseSelect {select : Select} (h : parseSelect text = some select) :
    engine.execute gap text d = some (d, (d (String.ofList select.table)).select
      (engine.selects (String.ofList select.table) (String.ofList select.key)
        (String.ofList select.value))) := by
  rw [Engine.execute, parseRows_eq_none h, h]

theorem selects_of_lookup {column stored literal : String} {record : Record}
    (h : record.lookup column = some stored) :
    engine.selects table column literal record = engine.same table column stored literal := by
  rw [Engine.selects, h]

/-! ### How many rows there are -/

theorem length_rows_add (d : Tables) (addition : Addition) (table : String) :
    (add d addition table).rows.length =
      (d table).rows.length + [addition.table].count table := by
  by_cases h : table = addition.table
  · rw [h, add_same, List.count_singleton_self]
    exact List.length_append
  · rw [add_of_ne d h, List.count_singleton, if_neg (by simpa using Ne.symm h), Nat.add_zero]

theorem length_rows_foldl_add (additions : List Addition) (d : Tables) (table : String) :
    (additions.foldl add d table).rows.length =
      (d table).rows.length + (additions.map Addition.table).count table := by
  induction additions generalizing d with
  | nil => rfl
  | cons addition additions ih =>
    have hcons : (addition :: additions).map Addition.table =
        [addition.table] ++ additions.map Addition.table := rfl
    rw [List.foldl_cons, ih, length_rows_add, hcons, List.count_append, Nat.add_assoc]

/-- Rows that lead to the same tables are rows of the same tables. -/
theorem perm_of_foldl_add_eq {additions additions' : List Addition}
    (h : additions.foldl add d = additions'.foldl add d) :
    (additions.map Addition.table).Perm (additions'.map Addition.table) := by
  refine List.perm_iff_count.mpr fun table => ?_
  have hlength := length_rows_foldl_add additions d table
  rw [h, length_rows_foldl_add] at hlength
  omega

end Lib.StatementExecution

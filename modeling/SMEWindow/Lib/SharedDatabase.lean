import SMEWindow.Lib.StatementExecution

/-!
# Programs that share a database

Any number of programs execute one statement after the other. Whichever of them moves
next, its statement does to the tables what its text says, all at once; and the program
goes on with the identities that the statement returns. Of each row that comes into a
table it is recorded whose statement has brought it there.

## Main definitions

* `Lib.SharedDatabase.State` — the tables, the rows that were added, and the programs
* `State.execute` — one statement of one program
* `Lib.SharedDatabase.Accounts` — a row of a table was there before or was added

## Main results

* `Accounts.executed_add` — a statement that adds a row keeps the account
-/

set_option autoImplicit false

namespace Lib.SharedDatabase

open Lib.IdentityTable Lib.StatementExecution

/-- A row of a table, its identity and the program whose statement has added it. -/
structure Added (ι : Type*) where
  owner : ι
  table : String
  id : ℕ
  record : Record

/-- The database and the programs. -/
structure State (ι π : Type*) where
  tables : Tables
  added : List (Added ι)
  pc : ι → π

/-- The order in which a selection returns its rows. -/
structure Order where
  ids : List ℕ → List ℕ
  perm : ∀ found, (ids found).Perm found

/-- Rows are returned as they are found. -/
def Order.id : Order := ⟨fun found => found, .refl⟩

/-- The latest row is returned first. -/
def Order.reverse : Order := ⟨List.reverse, List.reverse_perm⟩

theorem Order.reverse_ids (found : List ℕ) : Order.reverse.ids found = found.reverse := rfl

variable {ι π : Type*}

/-- The rows of the tables that were not there before. -/
def addedRows (names : List String) (i : ι) (d d' : Tables) : List (Added ι) :=
  names.flatMap fun table => ((d table).added (d' table)).map fun row => ⟨i, table, row.1, row.2⟩

/-- Every row of a table was there before or has been added since. -/
structure Accounts (d : Tables) (s : State ι π) : Prop where
  origin : ∀ table, ∀ row ∈ (s.tables table).rows, row ∈ (d table).rows ∨
    ∃ a ∈ s.added, a.table = table ∧ row = (a.id, a.record)
  stored : ∀ a ∈ s.added, (a.id, a.record) ∈ (s.tables a.table).rows

section Steps

variable [DecidableEq ι] (engine : Engine) (names : List String) (s : State ι π) (i : ι)

/-- The program goes on without the database. -/
def State.goto (pc : π) : State ι π := { s with pc := Function.update s.pc i pc }

/-- The state after a statement has changed the tables. -/
def State.executed (tables : Tables) (pc : π) : State ι π where
  tables := tables
  added := addedRows names i s.tables tables ++ s.added
  pc := Function.update s.pc i pc

/-- The state after a statement, which may be refused, and on whose result it depends how
the program goes on. -/
def State.execute (gap : ℕ) (text : List Char) (refused : π) (next : List ℕ → π) : State ι π :=
  match engine.execute gap text s.tables with
  | none => s.goto i refused
  | some (tables, ids) => s.executed names i tables (next ids)

variable {engine names s i} {pc : π} {tables : Tables} {j : ι}

@[simp] theorem State.goto_pc : (s.goto i pc).pc i = pc := Function.update_self ..

theorem State.goto_pc_of_ne (h : j ≠ i) : (s.goto i pc).pc j = s.pc j := Function.update_of_ne h ..

@[simp] theorem State.executed_pc : (s.executed names i tables pc).pc i = pc :=
  Function.update_self ..

theorem State.executed_pc_of_ne (h : j ≠ i) : (s.executed names i tables pc).pc j = s.pc j :=
  Function.update_of_ne h ..

theorem State.execute_of_eq_some {gap : ℕ} {text : List Char} {refused : π} {next : List ℕ → π}
    {ids : List ℕ} (h : engine.execute gap text s.tables = some (tables, ids)) :
    s.execute engine names i gap text refused next = s.executed names i tables (next ids) := by
  rw [State.execute, h]

end Steps

/-! ### What one row changes -/

section Rows

variable {names : List String} {i : ι} {d : Tables} {addition : Addition} {a : Added ι}

theorem addedRows_self (names : List String) (i : ι) (d : Tables) :
    addedRows names i d d = [] := by
  simp [addedRows, Table.added_self]

/-- The row that has been added to a table. -/
def newRow (i : ι) (d : Tables) (addition : Addition) : Added ι :=
  ⟨i, addition.table, (d addition.table).insertedId addition.gap, addition.record⟩

theorem mem_addedRows_add (h : addition.table ∈ names) :
    a ∈ addedRows names i d (add d addition) ↔ a = newRow i d addition := by
  constructor
  · intro ha
    obtain ⟨table, -, hrow⟩ := List.mem_flatMap.mp ha
    by_cases htable : table = addition.table
    · rw [htable, add_same, Table.added_insert, List.map_singleton, List.mem_singleton] at hrow
      exact hrow
    · rw [add_of_ne d htable, Table.added_self] at hrow
      cases hrow
  · rintro rfl
    refine List.mem_flatMap.mpr ⟨addition.table, h, ?_⟩
    rw [add_same, Table.added_insert]
    exact List.mem_singleton_self _

variable [DecidableEq ι] {s : State ι π} {pc : π}

/-- A statement that leaves the tables as they are. -/
theorem State.executed_self : s.executed names i s.tables pc = s.goto i pc := by
  rw [State.executed, State.goto, addedRows_self, List.nil_append]

theorem State.mem_added_executed_add (h : addition.table ∈ names) :
    a ∈ (s.executed names i (add s.tables addition) pc).added ↔
      a = newRow i s.tables addition ∨ a ∈ s.added := by
  rw [State.executed, List.mem_append, mem_addedRows_add h]

end Rows

/-! ### The account -/

namespace Accounts

variable {names : List String} {i : ι} {d : Tables} {addition : Addition} {s : State ι π} {pc : π}

theorem init (d : Tables) (pc : ι → π) : Accounts d ⟨d, [], pc⟩ where
  origin _ _ hrow := .inl hrow
  stored _ ha := (List.not_mem_nil ha).elim

variable [DecidableEq ι]

theorem goto (h : Accounts d s) : Accounts d (s.goto i pc) := ⟨h.origin, h.stored⟩

/-- A statement that adds a row keeps the account. -/
theorem executed_add (h : Accounts d s) (hmem : addition.table ∈ names) :
    Accounts d (s.executed names i (add s.tables addition) pc) := by
  have hnew : newRow i s.tables addition ∈
      (s.executed names i (add s.tables addition) pc).added :=
    (State.mem_added_executed_add hmem).mpr (.inl rfl)
  have hold : ∀ a ∈ s.added, a ∈ (s.executed names i (add s.tables addition) pc).added :=
    fun a ha => (State.mem_added_executed_add hmem).mpr (.inr ha)
  constructor
  · intro table row hrow
    have hbefore : row ∈ (s.tables table).rows →
        row ∈ (d table).rows ∨ ∃ a ∈ (s.executed names i (add s.tables addition) pc).added,
          a.table = table ∧ row = (a.id, a.record) := by
      intro hrow
      rcases h.origin table row hrow with horigin | ⟨a, ha, hrest⟩
      · exact .inl horigin
      · exact .inr ⟨a, hold a ha, hrest⟩
    -- only the one table has a row more
    by_cases htable : table = addition.table
    · subst htable
      have hrow' : row ∈ (add s.tables addition addition.table).rows := hrow
      rw [add_same] at hrow'
      rcases Table.mem_rows_insert.mp hrow' with hrow' | hrow'
      · exact hbefore hrow'
      · exact .inr ⟨_, hnew, rfl, hrow'⟩
    · have hrow' : row ∈ (add s.tables addition table).rows := hrow
      rw [add_of_ne _ htable] at hrow'
      exact hbefore hrow'
  · intro a ha
    change (a.id, a.record) ∈ (add s.tables addition a.table).rows
    rcases (State.mem_added_executed_add hmem).mp ha with rfl | ha
    · rw [newRow, add_same]
      exact Table.mem_rows_insert.mpr (.inr rfl)
    · by_cases htable : a.table = addition.table
      · rw [htable, add_same]
        refine Table.mem_rows_insert.mpr (.inl ?_)
        rw [← htable]
        exact h.stored a ha
      · rw [add_of_ne _ htable]
        exact h.stored a ha

end Accounts

end Lib.SharedDatabase

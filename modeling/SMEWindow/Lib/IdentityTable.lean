import Mathlib.Data.List.Pairwise
import Mathlib.Order.Nat
import Mathlib.Tactic.Common

/-!
# Tables with an identity column

A table whose rows carry an identity value: every insertion gets a value larger
than all before it, possibly leaving a gap. Rows are kept in the order of their
identity, which is the order in which a selection returns them.

## Main definitions

* `Lib.IdentityTable.Table` — rows in increasing order of their identity
* `Table.insert`, `Table.select` — add a row; the identities of matching rows
* `Table.added` — the rows that have been added

## Main results

* `mem_rows_insert` — what a table holds after an insertion
* `select_insert_of_wanted` — what is selected after an insertion
-/

set_option autoImplicit false

namespace Lib.IdentityTable

/-- Rows in increasing order of their identity, all below the next one. -/
structure Table (α : Type*) where
  rows : List (ℕ × α)
  next : ℕ
  sorted : rows.Pairwise fun r s => r.1 < s.1
  lt_next : ∀ r ∈ rows, r.1 < next

namespace Table

variable {α : Type*} (t : Table α) (gap : ℕ) (a : α)

/-- A table without rows. -/
def empty : Table α := ⟨[], 0, .nil, by simp⟩

/-- The identity of a row that is inserted after `gap` values were skipped. -/
def insertedId : ℕ := t.next + gap

/-- Add a row. -/
def insert : Table α where
  rows := t.rows ++ [(t.insertedId gap, a)]
  next := t.insertedId gap + 1
  sorted := by
    refine List.pairwise_append.mpr ⟨t.sorted, List.pairwise_singleton _ _, ?_⟩
    intro r hr s hs
    have hlt := t.lt_next r hr
    rw [List.mem_singleton.mp hs, insertedId]
    omega
  lt_next := by
    intro r hr
    rcases List.mem_append.mp hr with hr | hr
    · have hlt := t.lt_next r hr
      rw [insertedId]
      omega
    · rw [List.mem_singleton.mp hr]
      exact Nat.lt_succ_self _

/-- The identities of the matching rows, in increasing order. -/
def select (wanted : α → Bool) : List ℕ := (t.rows.filter fun r => wanted r.2).map (·.1)

/-- The rows of a table that were not there before. -/
def added [DecidableEq α] (t' : Table α) : List (ℕ × α) := t'.rows.filter fun r => r ∉ t.rows

variable {t gap a}

theorem mem_rows_insert {r : ℕ × α} :
    r ∈ (t.insert gap a).rows ↔ r ∈ t.rows ∨ r = (t.insertedId gap, a) := by
  rw [insert, List.mem_append, List.mem_singleton]

theorem lt_insertedId {r : ℕ × α} (hr : r ∈ t.rows) : r.1 < t.insertedId gap :=
  (t.lt_next r hr).trans_le (Nat.le_add_right _ _)

theorem added_self [DecidableEq α] : t.added t = [] := by
  simp [added]

theorem added_insert [DecidableEq α] : t.added (t.insert gap a) = [(t.insertedId gap, a)] := by
  have hnew : (t.insertedId gap, a) ∉ t.rows := fun hmem => (lt_insertedId hmem).false
  simp [added, insert, hnew]

theorem mem_select {wanted : α → Bool} {id : ℕ} :
    id ∈ t.select wanted ↔ ∃ a, (id, a) ∈ t.rows ∧ wanted a = true := by
  simp [select]

/-- A row that is inserted is selected last. -/
theorem select_insert_of_wanted {wanted : α → Bool} (h : wanted a = true) :
    (t.insert gap a).select wanted = t.select wanted ++ [t.insertedId gap] := by
  simp [select, insert, h]

end Table

end Lib.IdentityTable

import SMEWindow.Lib.LittleEndian

/-!
# Computations that read memory

A computation over memory is what it read, range by range, and how it ended. An error
ends it, so whatever is read after a check that fails is not in the trace. A computation
is safe if all it read lies in front of a bound.

## Main definitions

* `Lib.MemoryTrace.Traced` — the ranges that are read, and the result
* `Traced.Safe` — every byte that is read lies inside

## Main results

* `Traced.safe_bind_iff` — what is safe in steps
* `Traced.safe_read_iff` — a range lies inside if it is empty or ends inside
-/

set_option autoImplicit false

namespace Lib.MemoryTrace

/-- Consecutive bytes. -/
structure Range where
  start : ℕ
  length : ℕ
  deriving DecidableEq, Repr

/-- Every byte of the range lies in front of `size`. -/
def Range.Inside (size : ℕ) (range : Range) : Prop := ∀ i < range.length, range.start + i < size

theorem Range.inside_iff {size : ℕ} {range : Range} :
    range.Inside size ↔ range.length = 0 ∨ range.start + range.length ≤ size := by
  constructor
  · intro h
    by_cases hlength : range.length = 0
    · exact .inl hlength
    · have hlast := h (range.length - 1) (by omega)
      exact .inr (by omega)
  · intro h i hi
    omega

/-- The bytes of a range. -/
def bytesAt (memory : ℕ → UInt8) (start length : ℕ) : List UInt8 :=
  (List.range length).map fun i => memory (start + i)

@[simp] theorem length_bytesAt (memory : ℕ → UInt8) (start length : ℕ) :
    (bytesAt memory start length).length = length := by
  rw [bytesAt, List.length_map, List.length_range]

/-- The bytes of a field inside a range. -/
theorem take_drop_bytesAt (memory : ℕ → UInt8) (start : ℕ) {length offset width : ℕ}
    (h : offset + width ≤ length) :
    ((bytesAt memory start length).drop offset).take width =
      bytesAt memory (start + offset) width := by
  apply List.ext_getElem
  · rw [List.length_take, List.length_drop, length_bytesAt, length_bytesAt]
    omega
  · intro i hi hi'
    simp [bytesAt, Nat.add_assoc]

/-- A computation that reads memory. -/
structure Traced (ε α : Type) where
  /-- What it read, in order. -/
  ranges : List Range
  result : Except ε α

namespace Traced

variable {ε α β : Type} {size : ℕ}

/-- The next step is taken unless there was an error. -/
def bind (x : Traced ε α) (f : α → Traced ε β) : Traced ε β :=
  match x.result with
  | .error e => ⟨x.ranges, .error e⟩
  | .ok a => ⟨x.ranges ++ (f a).ranges, (f a).result⟩

instance : Monad (Traced ε) where
  pure a := ⟨[], .ok a⟩
  bind := bind

/-- End with an error. -/
def throw (e : ε) : Traced ε α := ⟨[], .error e⟩

/-- Read a range, whether it is inside or not. -/
def read (memory : ℕ → UInt8) (start length : ℕ) : Traced ε (List UInt8) :=
  ⟨[⟨start, length⟩], .ok (bytesAt memory start length)⟩

/-- Everything that is read lies in front of `size`. -/
def Safe (size : ℕ) (x : Traced ε α) : Prop := ∀ range ∈ x.ranges, range.Inside size

@[simp] theorem safe_pure (a : α) : (pure a : Traced ε α).Safe size :=
  fun _ h => absurd h List.not_mem_nil

@[simp] theorem safe_throw (e : ε) : (throw e : Traced ε α).Safe size :=
  fun _ h => absurd h List.not_mem_nil

theorem safe_read_iff {memory : ℕ → UInt8} {start length : ℕ} :
    (read memory start length : Traced ε (List UInt8)).Safe size ↔
      length = 0 ∨ start + length ≤ size := by
  rw [Safe, read, List.forall_mem_singleton, Range.inside_iff]

/-- A computation is safe if its first step is, and the next step after every result. -/
theorem safe_bind_iff {x : Traced ε α} {f : α → Traced ε β} :
    (x >>= f).Safe size ↔ x.Safe size ∧ ∀ a, x.result = .ok a → (f a).Safe size := by
  change (x.bind f).Safe size ↔ _
  rw [bind]
  cases hresult : x.result with
  | error e => exact ⟨fun h => ⟨h, fun a ha => (nomatch ha)⟩, fun h => h.1⟩
  | ok a =>
    simp only [Except.ok.injEq, forall_eq']
    exact List.forall_mem_append

@[simp] theorem result_pure (a : α) : (pure a : Traced ε α).result = .ok a := rfl

@[simp] theorem result_read (memory : ℕ → UInt8) (start length : ℕ) :
    (read memory start length : Traced ε (List UInt8)).result =
      .ok (bytesAt memory start length) := rfl

theorem result_bind_eq_ok_iff {x : Traced ε α} {f : α → Traced ε β} {b : β} :
    (x >>= f).result = .ok b ↔ ∃ a, x.result = .ok a ∧ (f a).result = .ok b := by
  change (x.bind f).result = .ok b ↔ _
  rw [bind]
  cases hresult : x.result with
  | error e => exact ⟨fun h => (nomatch h), fun ⟨_, h, _⟩ => (nomatch h)⟩
  | ok a => simp

end Traced

end Lib.MemoryTrace

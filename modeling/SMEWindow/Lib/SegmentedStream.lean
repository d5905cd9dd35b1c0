import Mathlib.Data.List.Basic
import Mathlib.Logic.Function.Iterate
import Mathlib.Order.Monotone.Basic
import Mathlib.Tactic.Common

/-!
# Byte streams that arrive in segments

A reliable transport delivers the bytes of its peer in order, but cuts them at
places of its own choosing: a read returns at least one byte while bytes remain,
and at most what was asked for. The cuts are a parameter of the stream, so that
a statement about every stream is a statement about every segmentation. A peer
that has closed leaves an empty stream, from which every read returns nothing.

## Main definitions

* `Lib.SegmentedStream.Segmentation` — how many bytes wait at each read
* `Lib.SegmentedStream.Stream` — the unread bytes of one connection
* `Stream.read`, `Stream.readInto` — one read, and one read into a fresh buffer
* `Stream.consumed` — how many bytes a number of equal reads have taken
* `Stream.NoShortReads` — the transport cuts none of these reads

## Main results

* `consumed_succ_le`, `exists_consumed_eq_length` — reads in a row take what there
  is, one bounded piece at a time
-/

set_option autoImplicit false

namespace Lib.SegmentedStream

/-- How many bytes have arrived when each read is served. -/
structure Segmentation where
  /-- The bytes waiting at the `i`-th read. -/
  waiting : ℕ → ℕ
  /-- A read is served as soon as there is something to return. -/
  waiting_pos : ∀ i, 0 < waiting i

/-- The transport that has always delivered at least `count + 1` bytes. -/
def Segmentation.ample (count : ℕ) : Segmentation where
  waiting _ := count + 1
  waiting_pos _ := count.succ_pos

/-- The receiving end of a connection whose peer sends nothing more. -/
structure Stream where
  /-- The bytes that have not been read yet. -/
  unread : List UInt8
  /-- The number of reads so far. -/
  reads : ℕ
  cut : Segmentation

namespace Stream

variable (net : Stream) (count : ℕ)

/-- A connection before its first read. -/
def opened (bytes : List UInt8) (cut : Segmentation) : Stream := ⟨bytes, 0, cut⟩

/-- The number of bytes the next read returns. -/
def delivered : ℕ := min (net.cut.waiting net.reads) (min count net.unread.length)

/-- One read of at most `count` bytes. -/
def read : List UInt8 × Stream :=
  (net.unread.take (net.delivered count),
    { net with unread := net.unread.drop (net.delivered count), reads := net.reads + 1 })

/-- Zeros behind the data, up to the size of a fresh buffer. -/
def fill (data : List UInt8) : List UInt8 := data ++ List.replicate (count - data.length) 0

/-- One read into a fresh buffer of `count` bytes, whose rest stays zero. -/
def readInto : List UInt8 × Stream := (fill count (net.read count).1, (net.read count).2)

theorem delivered_le_count : net.delivered count ≤ count :=
  (min_le_right _ _).trans (min_le_left _ _)

theorem delivered_le_length : net.delivered count ≤ net.unread.length :=
  (min_le_right _ _).trans (min_le_right _ _)

theorem delivered_pos (hcount : 0 < count) (hunread : net.unread ≠ []) :
    0 < net.delivered count :=
  lt_min (net.cut.waiting_pos _) (lt_min hcount (List.length_pos_iff.mpr hunread))

/-- A read that returns what was asked for found it waiting. -/
theorem le_waiting_of_delivered_eq (h : net.delivered count = count) :
    count ≤ net.cut.waiting net.reads := by
  rw [← h]
  exact min_le_left _ _

/-- A read is cut short only by the transport or by the end of the stream. -/
theorem delivered_eq_count (hlength : count ≤ net.unread.length)
    (hwaiting : count ≤ net.cut.waiting net.reads) : net.delivered count = count := by
  rw [delivered, min_eq_left hlength, min_eq_right hwaiting]

@[simp] theorem read_fst : (net.read count).1 = net.unread.take (net.delivered count) := rfl

@[simp] theorem read_unread :
    (net.read count).2.unread = net.unread.drop (net.delivered count) := rfl

theorem fill_of_length_eq {data : List UInt8} (h : data.length = count) :
    fill count data = data := by
  simp [fill, h]

/-- A read that the transport does not cut takes a whole field. -/
theorem readInto_append {field rest : List UInt8} {reads count : ℕ} {cut : Segmentation}
    (hcount : field.length = count) (hwaiting : count ≤ cut.waiting reads) :
    readInto ⟨field ++ rest, reads, cut⟩ count = (field, ⟨rest, reads + 1, cut⟩) := by
  subst hcount
  have hdelivered : delivered ⟨field ++ rest, reads, cut⟩ field.length = field.length :=
    delivered_eq_count _ _ (by simp) hwaiting
  simp only [readInto, read, hdelivered, List.take_left, List.drop_left, fill_of_length_eq]

/-! ### Reads in a row -/

/-- The stream after `k` reads of at most `count` bytes. -/
def afterReads (k : ℕ) : Stream := (fun net : Stream => (net.read count).2)^[k] net

/-- The number of bytes `k` reads of at most `count` bytes have taken. -/
def consumed (k : ℕ) : ℕ := net.unread.length - (net.afterReads count k).unread.length

theorem afterReads_succ (k : ℕ) :
    net.afterReads count (k + 1) = ((net.afterReads count k).read count).2 :=
  Function.iterate_succ_apply' _ _ _

theorem length_afterReads_le (k : ℕ) :
    (net.afterReads count k).unread.length ≤ net.unread.length := by
  induction k with
  | zero => exact le_rfl
  | succ k ih =>
    rw [afterReads_succ, read_unread, List.length_drop]
    omega

@[simp] theorem consumed_zero : net.consumed count 0 = 0 := Nat.sub_self _

theorem consumed_le_length (k : ℕ) : net.consumed count k ≤ net.unread.length := Nat.sub_le _ _

theorem consumed_succ (k : ℕ) :
    net.consumed count (k + 1) =
      net.consumed count k + (net.afterReads count k).delivered count := by
  have hbefore := net.length_afterReads_le count k
  have hdelivered := (net.afterReads count k).delivered_le_length count
  rw [consumed, consumed, afterReads_succ, read_unread, List.length_drop]
  omega

theorem afterReads_unread (k : ℕ) :
    (net.afterReads count k).unread = net.unread.drop (net.consumed count k) := by
  induction k with
  | zero => simp [afterReads]
  | succ k ih => rw [afterReads_succ, read_unread, consumed_succ, ih, List.drop_drop]

/-- One more read takes at most `count` bytes. -/
theorem consumed_succ_le (k : ℕ) :
    net.consumed count (k + 1) ≤ net.consumed count k + count := by
  rw [consumed_succ]
  exact Nat.add_le_add_left (delivered_le_count _ _) _

/-- Enough reads take everything. -/
theorem exists_consumed_eq_length (hcount : 0 < count) :
    ∃ k, net.consumed count k = net.unread.length := by
  -- Every read takes at least one byte while some remain, so `k` reads take `k` bytes or all.
  have hprogress : ∀ k, min k net.unread.length ≤ net.consumed count k := by
    intro k
    induction k with
    | zero => simp
    | succ k ih =>
      rw [consumed_succ]
      by_cases hempty : (net.afterReads count k).unread = []
      · have hall : net.consumed count k = net.unread.length := by
          rw [consumed, hempty, List.length_nil, Nat.sub_zero]
        omega
      · have hpos := (net.afterReads count k).delivered_pos count hcount hempty
        omega
  refine ⟨net.unread.length, le_antisymm (net.consumed_le_length count _) ?_⟩
  simpa using hprogress net.unread.length

/-- Reads of `count` bytes are shortened by the end of the stream only. -/
def NoShortReads : Prop :=
  ∀ k, (net.afterReads count k).delivered count =
    min count (net.afterReads count k).unread.length

variable {net count} in
theorem NoShortReads.consumed_eq (h : net.NoShortReads count) (k : ℕ) :
    net.consumed count k = min (k * count) net.unread.length := by
  induction k with
  | zero => simp
  | succ k ih =>
    rw [consumed_succ, h k, afterReads_unread, List.length_drop, ih, Nat.succ_mul]
    omega

/-! ### Streams that nothing cuts -/

/-- A connection of which every byte has arrived before the first read. -/
def whole (bytes : List UInt8) : Stream := opened bytes (.ample bytes.length)

/-- Every unread byte has arrived, so that only the end of the stream shortens a read. -/
def Arrived : Prop := ∀ i, net.unread.length ≤ net.cut.waiting i

theorem arrived_whole (bytes : List UInt8) : (whole bytes).Arrived := fun _ => Nat.le_succ _

variable {net count}

theorem Arrived.delivered_eq (h : net.Arrived) :
    net.delivered count = min count net.unread.length :=
  min_eq_right ((min_le_right _ _).trans (h _))

theorem Arrived.read_eq (h : net.Arrived) :
    net.read count =
      (net.unread.take count, ⟨net.unread.drop count, net.reads + 1, net.cut⟩) := by
  rw [read, h.delivered_eq]
  rcases le_total count net.unread.length with hle | hle
  · rw [min_eq_left hle]
  · rw [min_eq_right hle, List.take_of_length_le hle, List.drop_of_length_le hle,
      List.take_length, List.drop_length]

theorem Arrived.readInto_fst (h : net.Arrived) :
    (net.readInto count).1 = fill count (net.unread.take count) := by
  rw [readInto, h.read_eq]

theorem Arrived.read_snd_unread (h : net.Arrived) :
    (net.read count).2.unread = net.unread.drop count := by
  rw [h.read_eq]

theorem Arrived.read (h : net.Arrived) : (net.read count).2.Arrived := by
  intro i
  rw [h.read_snd_unread, List.length_drop]
  exact (Nat.sub_le _ _).trans (h i)

theorem Arrived.readInto (h : net.Arrived) : (net.readInto count).2.Arrived := h.read

theorem Arrived.readInto_snd_unread (h : net.Arrived) :
    (net.readInto count).2.unread = net.unread.drop count := h.read_snd_unread

theorem Arrived.afterReads (h : net.Arrived) (k : ℕ) : (net.afterReads count k).Arrived := by
  induction k with
  | zero => exact h
  | succ k ih =>
    rw [afterReads_succ]
    exact ih.read

theorem Arrived.noShortReads (h : net.Arrived) : net.NoShortReads count :=
  fun k => (h.afterReads k).delivered_eq

end Stream

end Lib.SegmentedStream

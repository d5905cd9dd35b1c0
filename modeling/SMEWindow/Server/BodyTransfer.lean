import SMEWindow.Server.Acceptance
import SMEWindow.Server.HeaderExchange

/-!
# The file on its way from `FileSend` to the body loop

The sender counts its blocks in advance; the receiver counts the bytes it got.
Up to 2 GiB the two agree, wherever the transport cuts the file. Beyond that the
same length is a 64-bit number on the wire, a 32-bit number to compare with, a
32-bit count and a 32-bit block number, and each of the four wraps at a place of
its own.

## Main definitions

* `Server.CopiesWhole` — the body loop copies a file and stops at its last byte
* `Server.Carried` — with no short reads, sender and receiver both get through
  the file

## Main results

* `fileSend_copiesWhole` — a file of less than 2 GiB arrives whole under every
  segmentation
* `carried_iff` — which lengths survive the four conversions
-/

set_option autoImplicit false

namespace SMEWindow.Server

open Lib.LittleEndian Lib.Loop Lib.SegmentedStream NetLib

variable {content : List UInt8} {body : Stream} {k : ℕ}

/-! ### Files of less than 2 GiB -/

/-- The body loop, started with the length of `content`, makes `k` reads, each
of which finds a byte of the content, and leaves exactly the content in the
file. -/
structure CopiesWhole (content : List UInt8) (body : Stream) (k : ℕ) : Prop where
  receiveBody_eq : receiveBody (k + 1) (Int32.ofNat content.length) body =
    some (receiveBlock^[k] ⟨0, [], body⟩)
  file_eq : (receiveBlock^[k] ⟨0, [], body⟩).file = content
  /-- The count has not overflowed: it is the number of bytes in the file. -/
  totalLength_eq : ∀ j ≤ k, (receiveBlock^[j] ⟨0, [], body⟩).totalLength.toInt =
    (receiveBlock^[j] ⟨0, [], body⟩).file.length
  unread_ne_nil : ∀ j < k, (receiveBlock^[j] ⟨0, [], body⟩).net.unread ≠ []

/-- A length that 32 bits hold is counted exactly when everything has been read. -/
theorem countedAfter_ofNat_iff (hlength : body.unread.length < 2 ^ 31) :
    CountedAfter (Int32.ofNat body.unread.length) body k ↔
      body.consumed blockLength k = body.unread.length := by
  have hle := body.consumed_le_length blockLength k
  rw [countedAfter_iff, Int32.toInt_ofNat_of_lt hlength, Int.bmod_def]
  split_ifs <;> omega

/-- The loop stops with the read that takes the last byte. -/
theorem exists_copiesWhole (hlength : body.unread.length < 2 ^ 31) :
    ∃ k, CopiesWhole body.unread body k := by
  have hall := body.exists_consumed_eq_length blockLength (by decide)
  have hbefore : ∀ j < Nat.find hall, body.consumed blockLength j ≠ body.unread.length :=
    fun j hj => Nat.find_min hall hj
  refine ⟨Nat.find hall, ?_, ?_, ?_, ?_⟩
  · apply whileFuel_eq_some_iff.mpr
    refine ⟨Nat.find hall, Nat.lt_succ_self _, ?_, rfl⟩
    rw [endsAfter_iff_completeAfter]
    refine ⟨fun j hj => ?_, ?_⟩
    · rw [countedAfter_ofNat_iff hlength]
      exact hbefore j hj
    · rw [countedAfter_ofNat_iff hlength]
      exact Nat.find_spec hall
  · rw [receiveBlock_iterate, Nat.find_spec hall]
    exact List.take_length
  · intro j _
    have hle := body.consumed_le_length blockLength j
    rw [receiveBlock_iterate, Int32.toInt_ofNat_of_lt (by omega), List.length_take,
      min_eq_left hle]
  · -- a read is issued only while bytes of the content are left
    intro j hj hempty
    rw [receiveBlock_iterate, Stream.afterReads_unread, List.drop_eq_nil_iff] at hempty
    exact hbefore j hj (le_antisymm (body.consumed_le_length blockLength j) hempty)

/-- **A file of less than 2 GiB arrives whole, wherever it is cut.** The sender's
loop ends after one block more than the file has full blocks, having written the
content once and in order. However the transport cuts these bytes, the body loop
started with their number writes the content to the file, its count never
overflows, and no read is issued after the last content byte. -/
theorem fileSend_copiesWhole (content : List UInt8) (hlength : content.length < 2 ^ 31) :
    EndsAfter (fun s : FileSending => s.i.toInt64 < blockCount (Int64.ofNat content.length))
      sendBlock ⟨0, content, []⟩ (content.length / 1024 + 1) ∧
    fileSend (content.length / 1024 + 2) (Int64.ofNat content.length) content = some content ∧
    ∀ body : Stream, body.unread = content → ∃ k, CopiesWhole content body k := by
  obtain ⟨hends, hsent⟩ := endsAfter_sendBlock content (by omega)
  refine ⟨hends, ?_, ?_⟩
  · refine Option.map_eq_some_iff.mpr ⟨_, ?_, hsent⟩
    exact whileFuel_eq_some_iff.mpr ⟨_, Nat.lt_succ_self _, hends, rfl⟩
  · rintro body rfl
    exact exists_copiesWhole hlength

/-- The theorem speaks about short files as about long ones. -/
theorem fileSend_copiesWhole_sample :
    EndsAfter (fun s : FileSending => s.i.toInt64 < blockCount (Int64.ofNat 3))
      sendBlock ⟨0, [1, 2, 3], []⟩ 1 ∧
    fileSend 2 (Int64.ofNat 3) [1, 2, 3] = some [1, 2, 3] ∧
    ∀ body : Stream, body.unread = [1, 2, 3] → ∃ k, CopiesWhole [1, 2, 3] body k :=
  fileSend_copiesWhole [1, 2, 3] (by decide)

/-! ### Files of any length -/

/-- With no short reads, the sender's loop ends after sending the file, and the
body loop, driven by the length it decodes, stops with exactly the file. -/
def Carried (request : Request) : Prop :=
  (∃ fuel, fileSend fuel request.fileLength request.content = some request.content) ∧
    ∀ body : Stream, body.unread = request.content → body.NoShortReads blockLength →
      ∃ fuel s, receiveBody fuel (toInt32 (getBytes64 request.fileLength)) body = some s ∧
        s.file = request.content

/-- The low 32 bits of the length are among the 1023 numbers before `2 ^ 31`, at
which only the last, partial block of the file can be counted. -/
def CaughtAtTheEnd (length : ℕ) : Prop :=
  2 ^ 31 - 1024 < length % 2 ^ 32 ∧ length % 2 ^ 32 < 2 ^ 31

/-- Without short reads, the body loop copies exactly the file if 32 bits hold
its length, or if the wrapped count meets the wrapped length at the very end. -/
theorem exists_receiveBody_content_iff {request : Request}
    (hcontent : body.unread = request.content) (hfull : body.NoShortReads blockLength) :
    (∃ fuel s, receiveBody fuel (toInt32 (getBytes64 request.fileLength)) body = some s ∧
        s.file = request.content) ↔
      request.content.length < 2 ^ 31 ∨ CaughtAtTheEnd request.content.length := by
  -- the file is a prefix of the content, so it is the content when the lengths agree
  have htake : ∀ k, request.content = body.unread.take (body.consumed blockLength k) ↔
      body.consumed blockLength k = request.content.length := by
    intro k
    have hle := body.consumed_le_length blockLength k
    rw [hcontent] at hle ⊢
    rw [eq_comm, List.take_eq_self_iff]
    omega
  rw [exists_receiveBody_file_iff, toInt32_fileLength]
  simp only [htake]
  rw [exists_completeAfter_iff _ hfull, hcontent, Int32.toInt_ofNat']
  refine (countable_and_copiedLength_eq_iff le_rfl).trans ?_
  rw [CaughtAtTheEnd]
  omega

/-- **Which lengths survive the four conversions.** For every length the 64-bit
field can hold and with no short reads, the sender's loop ends after sending the
file and the receiver's stops after exactly the file if and only if the length
fits into 32 bits, or its low 32 bits are among the 1023 numbers before `2 ^ 31`
and its blocks can be numbered. -/
theorem carried_iff (request : Request) :
    Carried request ↔ request.content.length < 2 ^ 31 ∨
      (CaughtAtTheEnd request.content.length ∧ request.content.length < 2 ^ 41 - 1024) := by
  have hsender := exists_fileSend_iff request.content_fits
  constructor
  · rintro ⟨hsent, hreceived⟩
    have hnumbered := hsender.mp hsent
    have hwhole := (exists_receiveBody_content_iff rfl
      (Stream.arrived_whole request.content).noShortReads).mp (hreceived _ rfl
        (Stream.arrived_whole request.content).noShortReads)
    exact hwhole.imp_right fun hcaught => ⟨hcaught, hnumbered⟩
  · intro hlength
    refine ⟨hsender.mpr (by omega), fun body hcontent hfull => ?_⟩
    rw [exists_receiveBody_content_iff hcontent hfull]
    exact hlength.imp_right And.left

/-- A report of exactly 2 GiB. -/
def twoGibibytes : Request where
  FileName := "a.dmp"
  apikey := 7
  content := List.replicate (2 ^ 31) 0
  name_fits := by decide
  content_fits := by rw [List.length_replicate]; decide

/-- Of a file of 2 GiB, whose length reads as a negative number, no byte is
received. -/
theorem not_carried_twoGibibytes : ¬ Carried twoGibibytes := by
  rintro ⟨-, hreceived⟩
  have harrived := Stream.arrived_whole twoGibibytes.content
  have hwhole := (exists_receiveBody_content_iff rfl harrived.noShortReads).mp
    (hreceived _ rfl harrived.noShortReads)
  have hlength : twoGibibytes.content.length = 2 ^ 31 := List.length_replicate
  rw [hlength] at hwhole
  exact absurd hwhole (by unfold CaughtAtTheEnd; decide)

end SMEWindow.Server

import SMEWindow.Server.Receiver

/-!
# When a call of `Receive` returns

The body loop compares a 32-bit count with the announced length and never looks
for the end of the stream. A peer that closes early leaves it reading nothing
for ever. Otherwise it ends, except that a length among the last 1023 before
`2 ^ 31` can be stepped over: a block may carry the count past `2 ^ 31`, where
it turns negative. What follows the loop may end the process.

## Main definitions

* `Server.Announced` — the body holds what was announced, and the count can be
  caught at it

## Main results

* `returns_iff_announced` — a call returns exactly when every header it accepts
  announces no more than what follows, and storing the file does not end the process
-/

set_option autoImplicit false

namespace SMEWindow.Server

open Lib.SegmentedStream

variable {env : Environment} {body : Stream} {fileLength : Int32}

/-- Lengths up to this one are caught before the count can pass `2 ^ 31`. -/
def lastCaughtLength : Int := 2 ^ 31 - 1024

/-- The body holds at least the announced length, and if this is one of the
largest, some read ends between it and `2 ^ 31`, modulo `2 ^ 32`. -/
def Announced (fileLength : Int32) (body : Stream) : Prop :=
  fileLength.toInt ≤ body.unread.length ∧
    (lastCaughtLength < fileLength.toInt → ∃ k,
      fileLength.toInt ≤ (body.consumed blockLength k % 2 ^ 32 : ℕ) ∧
        body.consumed blockLength k % 2 ^ 32 < 2 ^ 31)

/-- The count is the number of bytes modulo `2 ^ 32`, taken as signed. -/
theorem countedAfter_iff {k : ℕ} :
    CountedAfter fileLength body k ↔
      fileLength.toInt ≤ ((body.consumed blockLength k : ℕ) : Int).bmod (2 ^ 32) := by
  rw [CountedAfter, Int32.le_iff_toInt_le, Int32.toInt_ofNat']
  exact Iff.rfl

theorem le_consumed_of_countedAfter {k : ℕ} (hpos : 0 < fileLength.toInt)
    (h : CountedAfter fileLength body k) :
    fileLength.toInt ≤ (body.consumed blockLength k % 2 ^ 32 : ℕ) ∧
      body.consumed blockLength k % 2 ^ 32 < 2 ^ 31 := by
  rw [countedAfter_iff, Int.bmod_def] at h
  split_ifs at h <;> omega

theorem countedAfter_of_le_consumed {k : ℕ}
    (hle : fileLength.toInt ≤ (body.consumed blockLength k % 2 ^ 32 : ℕ))
    (hlt : body.consumed blockLength k % 2 ^ 32 < 2 ^ 31) : CountedAfter fileLength body k := by
  rw [countedAfter_iff, Int.bmod_def]
  split_ifs <;> omega

/-- The first block after which a caught length is exceeded is counted without
a carry into the sign. -/
theorem exists_countedAfter_of_caught (hcaught : fileLength.toInt ≤ lastCaughtLength)
    (hle : fileLength.toInt ≤ body.unread.length) : ∃ k, CountedAfter fileLength body k := by
  obtain ⟨last, hlast⟩ := body.exists_consumed_eq_length blockLength (by decide)
  have hreached : ∃ k, fileLength.toInt ≤ body.consumed blockLength k := ⟨last, by omega⟩
  -- the first block that reaches the length exceeds it by less than a block
  classical
  have hfirst := Nat.find_spec hreached
  refine ⟨Nat.find hreached, ?_⟩
  have hbelow : body.consumed blockLength (Nat.find hreached) < 2 ^ 31 := by
    cases hk : Nat.find hreached with
    | zero => simp
    | succ k =>
      have hbefore := Nat.find_min hreached (show k < Nat.find hreached by omega)
      have hstep := body.consumed_succ_le blockLength k
      simp only [lastCaughtLength, blockLength] at *
      omega
  apply countedAfter_of_le_consumed <;> omega

/-- The body loop ends if and only if what was announced can be counted. -/
theorem exists_countedAfter_iff :
    (∃ k, CountedAfter fileLength body k) ↔ Announced fileLength body := by
  constructor
  · rintro ⟨k, hk⟩
    rcases le_or_gt fileLength.toInt 0 with hneg | hpos
    · -- nothing has to arrive for an empty file or a negative length
      refine ⟨by omega, fun hlarge => absurd hlarge ?_⟩
      simp only [lastCaughtLength]
      omega
    · have hconsumed := le_consumed_of_countedAfter hpos hk
      have hlength := body.consumed_le_length blockLength k
      exact ⟨by omega, fun _ => ⟨k, hconsumed⟩⟩
  · rintro ⟨hle, hlarge⟩
    rcases le_or_gt fileLength.toInt lastCaughtLength with hcaught | huncaught
    · exact exists_countedAfter_of_caught hcaught hle
    · obtain ⟨k, hk, hk'⟩ := hlarge huncaught
      exact ⟨k, countedAfter_of_le_consumed hk hk'⟩

/-- **A call returns exactly when every header it accepts announces no more than
what follows, and storing what was received does not end the process.** Whatever the
bytes and wherever they are cut: if the header is rejected or its file cannot be created,
the call returns; otherwise it returns if and only if the body holds the announced length
(and, for the 1023 largest lengths, some read ends before the count turns negative), and
the database and the reader of the stored file return, with an exception or without. -/
theorem returns_iff_announced (env : Environment) (net : Stream) :
    Returns env net ↔ ∀ header body, Opens env net header body →
      env.creatable header.fileName = true → Announced header.fileLength body ∧
        ∀ k, CompleteAfter header.fileLength body k →
          StoringReturns env header (body.unread.take (body.consumed blockLength k)) := by
  rw [returns_iff_exists_block]
  refine forall₂_congr fun header body => forall₂_congr fun _ _ => ?_
  rw [← exists_countedAfter_iff, ← exists_completeAfter_iff_exists_countedAfter]
  constructor
  · rintro ⟨k, hcomplete, hstoring⟩
    refine ⟨⟨k, hcomplete⟩, fun j hj => ?_⟩
    rwa [hj.eq hcomplete]
  · rintro ⟨⟨k, hcomplete⟩, hstoring⟩
    exact ⟨k, hcomplete, hstoring k hcomplete⟩

/-- The header of a report of three bytes, one of which follows. -/
def truncatedReport : List UInt8 :=
  [3, 0, 0, 0, 0, 0, 0, 0, 5, 0, 0, 0, 97, 46, 120, 109, 108, 7, 0, 0, 0, 1]

/-- A peer that closes after one of three announced bytes keeps the receiver
reading for ever. -/
theorem not_returns_of_truncated :
    ¬ Returns .faultless (Stream.whole truncatedReport) := by
  rw [returns_iff_exists_block]
  intro hreturns
  have hopens : Opens .faultless (Stream.whole truncatedReport) ⟨3, "a.xml", .xml, 7⟩
      ⟨[1], 4, .ample 22⟩ := receiveHeader_eq_ok_iff.mp (by rfl)
  -- three bytes are announced and one is there
  obtain ⟨k, hcomplete, -⟩ := hreturns _ _ hopens rfl
  have hends := exists_countedAfter_iff.mp ⟨k, hcomplete.2⟩
  exact absurd hends.1 (by decide)

end SMEWindow.Server

import SMEWindow.Lib.LittleEndian
import SMEWindow.Lib.Loop
import SMEWindow.Lib.Utf8

/-!
# The sending end of a transfer

`TCPSender` writes a header (the length of the file, the length of its name,
the name and the api key) and then copies the file in blocks of 1024 bytes. It
counts blocks in advance, in 64 bits, but numbers them in 32 bits.

## Main definitions

* `NetLib.Request` — what a sender is asked to send
* `NetLib.header` — the bytes before the file
* `NetLib.tcpSender` — everything a connected sender writes

## Main results

* `exists_fileSend_iff` — a file is sent if and only if its blocks can be numbered
* `exists_tcpSender` — such a file follows its header on the wire
-/

set_option autoImplicit false

namespace SMEWindow.NetLib

open Lib.LittleEndian Lib.Loop Lib.Utf8

/-- The arguments of a `TCPSender` and the content of the file it opens. -/
structure Request where
  FileName : String
  apikey : Int32
  content : List UInt8
  /-- The encoded name is an array, so its length is an `Int32`. -/
  name_fits : (getBytes FileName).length < 2 ^ 31
  /-- The length of a file is an `Int64`. -/
  content_fits : content.length < 2 ^ 63

namespace Request

variable (request : Request)

/-- `fileStream.Length`. -/
def fileLength : Int64 := Int64.ofNat request.content.length

/-- `filenamebuffer`. -/
def filenamebuffer : List UInt8 := getBytes request.FileName

/-- `filenamebuffer.Length`. -/
def filenameLength : Int32 := Int32.ofNat request.filenamebuffer.length

theorem toInt_filenameLength : request.filenameLength.toInt = request.filenamebuffer.length :=
  Int32.toInt_ofNat_of_lt request.name_fits

end Request

/-- The four fields that a `TCPSender` writes before the file. -/
def header (request : Request) : List UInt8 :=
  getBytes64 request.fileLength ++ (getBytes32 request.filenameLength ++
    (request.filenamebuffer ++ getBytes32 request.apikey))

theorem length_header (request : Request) :
    (header request).length = 16 + request.filenamebuffer.length := by
  simp only [header, List.length_append, length_getBytes32, length_getBytes64]
  omega

/-! ### The file -/

/-- `buffer.Length` in `FileSend`. -/
def blockLength : ℕ := 1024

/-- The variables of the `FileSend` loop: its counter, what the file stream has
left, and what was written to the network. -/
structure FileSending where
  i : Int32
  unsent : List UInt8
  sent : List UInt8

/-- The number of blocks, counted in advance. -/
def blockCount (fileLength : Int64) : Int64 := fileLength / 1024 + 1

/-- One iteration: read a block and write what was read. -/
def sendBlock (s : FileSending) : FileSending where
  i := s.i + 1
  unsent := s.unsent.drop blockLength
  sent := s.sent ++ s.unsent.take blockLength

/-- `FileSend`: the bytes written, `none` if the fuel does not suffice. -/
def fileSend (fuel : ℕ) (fileLength : Int64) (content : List UInt8) : Option (List UInt8) :=
  (whileFuel (fun s : FileSending => s.i.toInt64 < blockCount fileLength) sendBlock fuel
    ⟨0, content, []⟩).map (·.sent)

/-- Everything a connected `TCPSender` writes. -/
def tcpSender (fuel : ℕ) (request : Request) : Option (List UInt8) :=
  (fileSend fuel request.fileLength request.content).map (header request ++ ·)

theorem sendBlock_iterate (k : ℕ) (content : List UInt8) :
    sendBlock^[k] ⟨0, content, []⟩ =
      ⟨Int32.ofNat k, content.drop (k * blockLength), content.take (k * blockLength)⟩ := by
  induction k with
  | zero => simp
  | succ k ih =>
    rw [Function.iterate_succ_apply', ih, sendBlock, Nat.succ_mul, List.drop_drop, List.take_add,
      Int32.ofNat_add]
    rfl

/-- The count is one more than the number of full blocks. -/
theorem toInt_blockCount {length : ℕ} (hlength : length < 2 ^ 63) :
    (blockCount (Int64.ofNat length)).toInt = (length / 1024 + 1 : ℕ) := by
  have hquotient : Int64.ofNat length / 1024 = Int64.ofNat (length / 1024) :=
    (Int64.ofNat_div (b := 1024) (by omega) (by decide)).symm
  have hcount : blockCount (Int64.ofNat length) = Int64.ofNat (length / 1024 + 1) := by
    rw [blockCount, hquotient, Int64.ofNat_add]
    rfl
  rw [hcount, Int64.toInt_ofNat_of_lt (by omega)]

/-- The loop test after `j` blocks: the number of the block, as a 32-bit
integer, against the number of blocks. -/
theorem sendBlock_test_iff {content : List UInt8} (hlength : content.length < 2 ^ 63) (j : ℕ) :
    (sendBlock^[j] ⟨0, content, []⟩).i.toInt64 < blockCount (Int64.ofNat content.length) ↔
      (j : Int).bmod (2 ^ 32) < (content.length / 1024 + 1 : ℕ) := by
  rw [sendBlock_iterate, Int64.lt_iff_toInt_lt, Int32.toInt_toInt64, Int32.toInt_ofNat',
    toInt_blockCount hlength]
  exact Iff.rfl

/-- The loop copies what its blocks hold: after the last of them, all of the file. -/
theorem endsAfter_sendBlock (content : List UInt8) (hlength : content.length < 2 ^ 41 - 1024) :
    EndsAfter (fun s : FileSending => s.i.toInt64 < blockCount (Int64.ofNat content.length))
      sendBlock ⟨0, content, []⟩ (content.length / 1024 + 1) ∧
    (sendBlock^[content.length / 1024 + 1] ⟨0, content, []⟩).sent = content := by
  -- below this length the 32-bit counter does not overflow
  have htest : ∀ j ≤ content.length / 1024 + 1, ((sendBlock^[j] ⟨0, content, []⟩).i.toInt64 <
      blockCount (Int64.ofNat content.length) ↔ j < content.length / 1024 + 1) := by
    intro j hj
    rw [sendBlock_test_iff (by omega), Int.bmod_def]
    split_ifs <;> omega
  refine ⟨⟨fun j hj => ?_, ?_⟩, ?_⟩
  · exact decide_eq_true ((htest j hj.le).mpr hj)
  · exact decide_eq_false fun h => lt_irrefl _ ((htest _ le_rfl).mp h)
  · -- the last block is the part of the file that is left, possibly empty
    rw [sendBlock_iterate]
    exact List.take_of_length_le (by simp only [blockLength]; omega)

/-- The loop ends if and only if its blocks can be numbered in 32 bits; it has
then sent the file. -/
theorem exists_fileSend_iff {content : List UInt8} (hlength : content.length < 2 ^ 63) :
    (∃ fuel, fileSend fuel (Int64.ofNat content.length) content = some content) ↔
      content.length < 2 ^ 41 - 1024 := by
  constructor
  · rintro ⟨fuel, hfuel⟩
    obtain ⟨s, hrun, -⟩ := Option.map_eq_some_iff.mp hfuel
    obtain ⟨k, -, hends, -⟩ := whileFuel_eq_some_iff.mp hrun
    -- a number of 32 bits never gets past this many blocks
    have hlast := of_decide_eq_false hends.2
    rw [sendBlock_test_iff hlength, Int.bmod_def] at hlast
    split_ifs at hlast <;> omega
  · intro hnumbered
    obtain ⟨hends, hsent⟩ := endsAfter_sendBlock content hnumbered
    refine ⟨content.length / 1024 + 2, Option.map_eq_some_iff.mpr ⟨_, ?_, hsent⟩⟩
    exact whileFuel_eq_some_iff.mpr ⟨_, Nat.lt_succ_self _, hends, rfl⟩

/-- A request whose blocks can be numbered puts its header and then its file on
the wire. -/
theorem exists_tcpSender (request : Request) (hlength : request.content.length < 2 ^ 41 - 1024) :
    ∃ fuel, tcpSender fuel request = some (header request ++ request.content) := by
  obtain ⟨fuel, hfuel⟩ := (exists_fileSend_iff request.content_fits).mpr hlength
  exact ⟨fuel, Option.map_eq_some_iff.mpr ⟨_, hfuel, rfl⟩⟩

end SMEWindow.NetLib

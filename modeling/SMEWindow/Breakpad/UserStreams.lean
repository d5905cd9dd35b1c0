import SMEWindow.DumpReader.DumpContent

/-!
# The streams that breakpad adds to a dump

Beside what `MiniDumpWriteDump` knows itself, a dump gets a stream with the threads that
took part, and, for an invalid parameter or a pure virtual call, one with the assertion that
failed. `WriteMinidumpWithExceptionForProcess` hands both over as bytes of C structures, and
the server reads them as structures of its own, by numbers and layouts that are declared
once more in `dbghelp.cs`.

## Main definitions

* `UserStreams.Failure`, `UserStreams.assertionInfo` — what failed, and what is said of it
* `UserStreams.userStreams` — the streams that are handed over
* `UserStreams.WrittenTo` — a file that they were written to

## Main results

* `UserStreams.read_of_writtenTo` — the server reads the threads and the texts that the
  handler was given, cut off after 127 code units
-/

set_option autoImplicit false

namespace SMEWindow.Breakpad

open Lib.LittleEndian Lib.RecordLayout DumpReader DumpReader.Native

namespace UserStreams

/-- A text up to its terminator. -/
abbrev CString := { units : List UInt16 // 0 ∉ units }

/-- `(null)`, which `%s` prints for a null pointer. -/
def nullText : CString := ⟨[0x28, 0x6e, 0x75, 0x6c, 0x6c, 0x29], by decide⟩

/-- What is printed of a text where there is room for 128 code units with a terminator. -/
def shown (text : Option CString) : List UInt16 := (text.getD nullText).1.take 127

theorem length_shown_le (text : Option CString) : (shown text).length ≤ 127 :=
  List.length_take_le 127 _

theorem zero_notMem_shown (text : Option CString) : (0 : UInt16) ∉ shown text := fun h =>
  (text.getD nullText).2 (List.mem_of_mem_take h)

/-- `_snwprintf_s` with `_TRUNCATE` and `%s`, into an array of zeros. -/
def printTruncated (text : Option CString) : Units 128 :=
  ⟨shown text ++ List.replicate (128 - (shown text).length) 0, by
    have hle := length_shown_le text
    rw [List.length_append, List.length_replicate]
    omega⟩

/-- What a handler is called for. -/
inductive Failure
  /-- `HandleException`. -/
  | exception
  /-- `HandleInvalidParameter`. -/
  | invalidParameter (expression function file : Option CString) (line : UInt32)
  /-- `HandlePureVirtualCall`. -/
  | pureVirtualCall

def MD_ASSERTION_INFO_TYPE_INVALID_PARAMETER : UInt32 := 1
def MD_ASSERTION_INFO_TYPE_PURE_VIRTUAL_CALL : UInt32 := 2

theorem length_zeros : (List.replicate 128 (0 : UInt16)).length = 128 := List.length_replicate

def zeros : Units 128 := ⟨List.replicate 128 0, length_zeros⟩

/-- The assertion that is passed on with a failure. -/
def assertionInfo : Failure → Option MDRawAssertionInfo
  | .exception => none
  | .invalidParameter expression function file line =>
    some ⟨printTruncated expression, printTruncated function, printTruncated file, line,
      MD_ASSERTION_INFO_TYPE_INVALID_PARAMETER⟩
  | .pureVirtualCall => some ⟨zeros, zeros, zeros, 0, MD_ASSERTION_INFO_TYPE_PURE_VIRTUAL_CALL⟩

/-- `MINIDUMP_USER_STREAM`. -/
structure UserStream where
  StreamType : UInt32
  Buffer : List UInt8
  deriving DecidableEq, Repr

def MD_BREAKPAD_INFO_STREAM : UInt32 := 0x47670001
def MD_ASSERTION_INFO_STREAM : UInt32 := 0x47670002

def MD_BREAKPAD_INFO_VALID_DUMP_THREAD_ID : UInt32 := (1 : UInt32) <<< 0
def MD_BREAKPAD_INFO_VALID_REQUESTING_THREAD_ID : UInt32 := (1 : UInt32) <<< 1

/-- A `uint32_t` in memory. -/
def bytes32 (n : UInt32) : List UInt8 := bytes 4 n.toNat

/-- An array of `uint16_t` in memory. -/
def bytes16s (units : List UInt16) : List UInt8 := units.flatMap fun unit => bytes 2 unit.toNat

/-- The memory of an `MDRawBreakpadInfo`. -/
def breakpadInfoBytes (validity dump_thread_id requesting_thread_id : UInt32) : List UInt8 :=
  bytes32 validity ++ bytes32 dump_thread_id ++ bytes32 requesting_thread_id

/-- The memory of an `MDRawAssertionInfo`. -/
def assertionInfoBytes (assertion : MDRawAssertionInfo) : List UInt8 :=
  bytes16s assertion.expression ++ bytes16s assertion.function ++ bytes16s assertion.file ++
    bytes32 assertion.line ++ bytes32 assertion.type

/-- The user streams of `WriteMinidumpWithExceptionForProcess`, where they are requested. -/
def userStreams (dump_thread_id requesting_thread_id : UInt32)
    (assertion : Option MDRawAssertionInfo) : List UserStream :=
  ⟨MD_BREAKPAD_INFO_STREAM,
      breakpadInfoBytes (MD_BREAKPAD_INFO_VALID_DUMP_THREAD_ID |||
        MD_BREAKPAD_INFO_VALID_REQUESTING_THREAD_ID) dump_thread_id requesting_thread_id⟩ ::
    (assertion.map fun assertion =>
      ⟨MD_ASSERTION_INFO_STREAM, assertionInfoBytes assertion⟩).toList

/-- The bytes of the stream of a type. -/
def bufferOf (streams : List UserStream) (type : UInt32) : Option (List UInt8) :=
  (streams.find? fun stream => stream.StreamType = type).map UserStream.Buffer

/-- `MiniDumpWriteDump` has written the user streams: a user stream is found in the file, as
it was handed over, under its number. -/
def WrittenTo (view : DumpView) (streams : List UserStream) : Prop :=
  ∀ type ∈ [MINIDUMP_STREAM_TYPE.MD_BREAKPAD_INFO_STREAM, .MD_ASSERTION_INFO_STREAM],
    view.HoldsStream type (bufferOf streams type.code)

/-! ### Both sides agree -/

theorem breakpadInfoBytes_eq (info : MDRawBreakpadInfo) :
    breakpadInfoBytes info.validity info.dump_thread_id info.requesting_thread_id =
      breakpadInfo.encode info :=
  List.append_assoc ..

theorem assertionInfoBytes_eq (assertion : MDRawAssertionInfo) :
    assertionInfoBytes assertion = DumpReader.Native.assertionInfo.encode assertion := by
  rw [assertionInfoBytes, List.append_assoc, List.append_assoc, List.append_assoc]
  rfl

/-- The text in the array is what was shown. -/
theorem takeWhile_printTruncated (text : Option CString) :
    (printTruncated text).1.takeWhile (· ≠ 0) = shown text := by
  have hle := length_shown_le text
  obtain ⟨k, hk⟩ : ∃ k, 128 - (shown text).length = k + 1 := ⟨127 - (shown text).length, by omega⟩
  rw [printTruncated, List.takeWhile_append_of_pos, hk, List.replicate_succ,
    List.takeWhile_cons_of_neg (by decide), List.append_nil]
  intro unit hunit
  rw [decide_eq_true_eq]
  exact fun hzero => zero_notMem_shown text (hzero ▸ hunit)

theorem unitsToString_printTruncated (text : Option CString) :
    unitsToString (printTruncated text) = String.ofList (decodeUnits (shown text)) := by
  rw [unitsToString, takeWhile_printTruncated]

variable {view : DumpView} {dump_thread_id requesting_thread_id : UInt32}
  {assertion : Option MDRawAssertionInfo}

theorem readBreakpadInfo_of_writtenTo
    (h : WrittenTo view (userStreams dump_thread_id requesting_thread_id assertion)) :
    view.readBreakpadInfo = .ok (some ⟨3, dump_thread_id, requesting_thread_id⟩) := by
  have hstream := h .MD_BREAKPAD_INFO_STREAM (by decide)
  have hinfo : view.HoldsStream .MD_BREAKPAD_INFO_STREAM
      ((some (⟨3, dump_thread_id, requesting_thread_id⟩ : MDRawBreakpadInfo)).map
        breakpadInfo.encode) := by
    rw [Option.map_some, ← breakpadInfoBytes_eq]
    exact hstream
  exact DumpView.readRecord_of_map _ hinfo

theorem readAssertionInfo_of_writtenTo
    (h : WrittenTo view (userStreams dump_thread_id requesting_thread_id assertion)) :
    view.readAssertionInfo = .ok (assertion.map .ofRaw) := by
  have hstream := h .MD_ASSERTION_INFO_STREAM (by decide)
  have hinfo : view.HoldsStream .MD_ASSERTION_INFO_STREAM
      (assertion.map DumpReader.Native.assertionInfo.encode) := by
    cases assertion with
    | none => exact hstream
    | some assertion =>
      rw [Option.map_some, ← assertionInfoBytes_eq]
      exact hstream
  exact DumpView.readRecord_of_map _ hinfo

/-- What the server is to read of a failure: nothing of an exception, and texts otherwise. -/
def Told (failure : Failure) (info : Option MiniDumpAssertionInfo) : Prop :=
  match failure with
  | .exception => info = none
  | .invalidParameter expression function file _ => ∃ texts, info = some texts ∧
      unitsToString texts.expression = String.ofList (decodeUnits (shown expression)) ∧
      unitsToString texts.function = String.ofList (decodeUnits (shown function)) ∧
      unitsToString texts.file = String.ofList (decodeUnits (shown file))
  | .pureVirtualCall => ∃ texts, info = some texts ∧ unitsToString texts.expression = "" ∧
      unitsToString texts.function = "" ∧ unitsToString texts.file = ""

/-- **The server reads what the handler was told.** Whatever the handler was called for, by
whichever thread, with whatever texts: from a file that `MiniDumpWriteDump` has written the
user streams to, the server reads both threads as valid, and the three texts of an invalid
parameter up to 127 code units, empty texts for a pure virtual call, and no assertion for an
exception. -/
theorem read_of_writtenTo (failure : Failure)
    (h : WrittenTo view
      (userStreams dump_thread_id requesting_thread_id (assertionInfo failure))) :
    view.readBreakpadInfo = .ok (some ⟨3, dump_thread_id, requesting_thread_id⟩) ∧
      ∃ info, view.readAssertionInfo = .ok info ∧ Told failure info := by
  refine ⟨readBreakpadInfo_of_writtenTo h, _, readAssertionInfo_of_writtenTo h, ?_⟩
  cases failure with
  | exception => rfl
  | invalidParameter expression function file line =>
    exact ⟨_, rfl, unitsToString_printTruncated expression, unitsToString_printTruncated function,
      unitsToString_printTruncated file⟩
  | pureVirtualCall => exact ⟨_, rfl, by decide, by decide, by decide⟩

/-- An invalid parameter in a release build, where no texts are passed. -/
def releaseAssertion : MDRawAssertionInfo :=
  ⟨printTruncated none, printTruncated none, printTruncated none, 0, 1⟩

/-- Both streams of such a failure, alone in a file. -/
def releaseView : DumpView where
  memory i := (breakpadInfoBytes 3 7 9 ++ assertionInfoBytes releaseAssertion).getD i 0
  size := 788
  pointerSize := ⟨4, isPointerSize_four⟩
  stream
    | .MD_BREAKPAD_INFO_STREAM => .found 0 (by decide)
    | .MD_ASSERTION_INFO_STREAM => .found 12 (by decide)
    | _ => .notFound

theorem read_releaseView :
    releaseView.readBreakpadInfo = .ok (some ⟨3, 7, 9⟩) ∧
      ∃ texts, releaseView.readAssertionInfo = .ok (some texts) ∧
        unitsToString texts.expression = "(null)" := by
  have hholds := holdsAt_zero (breakpadInfoBytes 3 7 9 ++ assertionInfoBytes releaseAssertion)
  have hsize : (breakpadInfoBytes 3 7 9).length = 12 := rfl
  have hsize' : (assertionInfoBytes releaseAssertion).length = 776 := by
    rw [assertionInfoBytes_eq]
    exact DumpReader.Native.assertionInfo.length_encode _
  have hfirst : releaseView.HoldsStream .MD_BREAKPAD_INFO_STREAM
      (some (breakpadInfoBytes 3 7 9)) := by
    refine ⟨0, by decide, rfl, ?_, hholds.left⟩
    rw [hsize]
    decide
  have hsecond : releaseView.HoldsStream .MD_ASSERTION_INFO_STREAM
      (some (assertionInfoBytes releaseAssertion)) := by
    refine ⟨12, by decide, rfl, ?_, hholds.right⟩
    rw [hsize']
    exact le_rfl
  have hwritten : WrittenTo releaseView
      (userStreams 7 9 (assertionInfo (.invalidParameter none none none 0))) :=
    List.forall_mem_cons.mpr ⟨hfirst, List.forall_mem_singleton.mpr hsecond⟩
  obtain ⟨hbreakpad, info, hinfo, texts, rfl, hexpression, -⟩ := read_of_writtenTo _ hwritten
  exact ⟨hbreakpad, texts, hinfo, hexpression.trans (by decide)⟩

end UserStreams

end SMEWindow.Breakpad

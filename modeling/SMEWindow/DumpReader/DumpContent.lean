import SMEWindow.DumpReader.Reader

/-!
# What a dump says is what is read

A dump says something in each of its streams, or has no such stream. The file that holds
it has the bytes of a stream at the place where `MiniDumpReadDumpStream` finds it. The
reader then gives back what the dump says, but for fields that nobody asks for; and it
refuses the dump if its misc info has a time zone with a rule that is not a date. A zone
with daylight saving time has such rules: they are for every year, and so for none.

## Main definitions

* `DumpReader.DumpContent` — what a dump says
* `DumpView.Holds` — a file that says it
* `DumpContent.reader` — what is to be read

## Main results

* `DumpView.smeMiniDumpReader_of_holds` — it is read exactly when the time zone has dates
-/

set_option autoImplicit false

namespace SMEWindow.DumpReader

open Lib.LittleEndian Lib.MemoryTrace Lib.RecordLayout Lib.RecordLayout.Layout Native

/-- The misc info at one of its levels, which says its own size. -/
inductive MiscRecord
  | info1 (info : MINIDUMP_MISC_INFO) (size : info.SizeOfInfo = SIZEOF_INFO_1)
  | info2 (info : MINIDUMP_MISC_INFO_2) (size : info.SizeOfInfo = SIZEOF_INFO_2)
  | info3 (info : MINIDUMP_MISC_INFO_3) (size : info.SizeOfInfo = SIZEOF_INFO_3)
  | info4 (info : MINIDUMP_MISC_INFO_4) (size : info.SizeOfInfo = SIZEOF_INFO_4)

namespace MiscRecord

def bytes : MiscRecord → List UInt8
  | info1 info _ => miscInfo.encode info
  | info2 info _ => miscInfo2.encode info
  | info3 info _ => miscInfo3.encode info
  | info4 info _ => miscInfo4.encode info

/-- The fields that all levels begin with. -/
def info : MiscRecord → MINIDUMP_MISC_INFO
  | info1 info _ => info
  | info2 info _ => info.toMINIDUMP_MISC_INFO
  | info3 info _ => info.toMINIDUMP_MISC_INFO
  | info4 info _ => info.toMINIDUMP_MISC_INFO

def read : MiscRecord → MiniDumpMiscInfo
  | info1 info _ => .miscInfo info.toMiscInfo
  | info2 info _ => .miscInfo2 info.toMiscInfo2
  | info3 info _ => .miscInfo3 info.toMiscInfo3
  | info4 info _ => .miscInfo4 info.toMiscInfo4

/-- The time zone, if there is one, has dates or no rules. -/
def HasDates : MiscRecord → Prop
  | info1 _ _ | info2 _ _ => True
  | info3 info _ => IsDate info.TimeZone.StandardDate ∧ IsDate info.TimeZone.DaylightDate
  | info4 info _ => IsDate info.TimeZone.StandardDate ∧ IsDate info.TimeZone.DaylightDate

instance (record : MiscRecord) : Decidable record.HasDates :=
  match record with
  | info1 _ _ | info2 _ _ => inferInstanceAs (Decidable True)
  | info3 _ _ | info4 _ _ => inferInstanceAs (Decidable (_ ∧ _))

end MiscRecord

/-- What a dump says in the streams that are read. -/
structure DumpContent where
  exceptionStream : Option MINIDUMP_EXCEPTION_STREAM
  miscInfo : Option MiscRecord
  /-- The number of modules is taken for a signed one. -/
  modules : Option { modules : List ModuleRecord // modules.length < 2 ^ 31 }
  breakpadInfo : Option MDRawBreakpadInfo
  assertionInfo : Option MDRawAssertionInfo

namespace DumpContent

/-- `MINIDUMP_MODULE_LIST`. -/
def moduleListBytes (modules : List ModuleRecord) : List UInt8 :=
  uint32.encode (UInt32.ofNat modules.length) ++ modules.flatMap moduleRecord.encode

/-- The bytes of a stream. -/
def bytes (content : DumpContent) : MINIDUMP_STREAM_TYPE → Option (List UInt8)
  | .ModuleListStream => content.modules.map fun modules => moduleListBytes modules.1
  | .ExceptionStream => content.exceptionStream.map Native.exceptionStream.encode
  | .MiscInfoStream => content.miscInfo.map MiscRecord.bytes
  | .MD_BREAKPAD_INFO_STREAM => content.breakpadInfo.map Native.breakpadInfo.encode
  | .MD_ASSERTION_INFO_STREAM => content.assertionInfo.map Native.assertionInfo.encode

/-- What is to be read. -/
def reader (content : DumpContent) : SMEMiniDumpReader where
  m_exceptionstream := content.exceptionStream.map (·.toExceptionStream)
  m_miscinfo := content.miscInfo.map MiscRecord.read
  m_module := (content.modules.map fun modules => modules.1.map (·.toModule)).getD []
  m_breakpadinfo := content.breakpadInfo.map (·.toBreakpadInfo)
  m_assertioninfo := content.assertionInfo.map .ofRaw

/-- The time zone of the misc info, if there is one, has dates or no rules. -/
def HasDates (content : DumpContent) : Prop := ∀ record ∈ content.miscInfo, record.HasDates

end DumpContent

/-- Bytes stand in memory. -/
def HoldsAt (memory : ℕ → UInt8) (offset : ℕ) (bytes : List UInt8) : Prop :=
  bytesAt memory offset bytes.length = bytes

/-- The file has a stream with these bytes, or none. -/
def DumpView.HoldsStream (view : DumpView) (type : MINIDUMP_STREAM_TYPE) :
    Option (List UInt8) → Prop
  | none => view.stream type = .notFound
  | some bytes => ∃ offset inside, view.stream type = .found offset inside ∧
      offset + bytes.length ≤ view.size ∧ HoldsAt view.memory offset bytes

/-- The file says what the dump says, in every stream. -/
def DumpView.Holds (view : DumpView) (content : DumpContent) : Prop :=
  ∀ type, view.HoldsStream type (content.bytes type)

/-! ### Bytes in memory -/

section Memory

variable {memory : ℕ → UInt8} {offset : ℕ} {xs ys : List UInt8} {α : Type}

theorem HoldsAt.left (h : HoldsAt memory offset (xs ++ ys)) : HoldsAt memory offset xs := by
  have htake := congrArg (List.take xs.length) h
  have hend : 0 + xs.length ≤ (xs ++ ys).length := by simp
  rw [List.take_left] at htake
  rw [HoldsAt, ← htake]
  have := take_drop_bytesAt memory offset hend
  rw [List.drop_zero, Nat.add_zero] at this
  rw [this, length_bytesAt]

theorem HoldsAt.right (h : HoldsAt memory offset (xs ++ ys)) :
    HoldsAt memory (offset + xs.length) ys := by
  have hdrop := congrArg (List.drop xs.length) h
  have hend : xs.length + ys.length ≤ (xs ++ ys).length := by simp
  rw [List.drop_left] at hdrop
  rw [HoldsAt, ← take_drop_bytesAt memory offset hend, hdrop, List.take_length]

/-- What stands at a place is read there. -/
theorem HoldsAt.decode {layout : Layout α} {a : α} (h : HoldsAt memory offset (layout.encode a)) :
    layout.decode (bytesAt memory offset layout.size) = a := by
  rw [HoldsAt, layout.length_encode] at h
  rw [h, layout.decode_encode]

end Memory

/-! ### One stream -/

namespace DumpView

variable {view : DumpView} {type : MINIDUMP_STREAM_TYPE} {α : Type} {layout : Layout α}

theorem readStream_of_none (h : view.HoldsStream type none) :
    view.readStream type layout = .ok none := by
  rw [readStream, show view.stream type = .notFound from h]

/-- A structure at the beginning of a stream is read. -/
theorem readStream_of_some {a : α} {rest : List UInt8}
    (h : view.HoldsStream type (some (layout.encode a ++ rest))) :
    ∃ offset, HoldsAt view.memory offset (layout.encode a ++ rest) ∧
      view.readStream type layout = .ok (some (offset, a)) := by
  obtain ⟨offset, inside, hfound, -, hholds⟩ := h
  refine ⟨offset, hholds, ?_⟩
  rw [readStream, hfound]
  exact congrArg (fun a => Except.ok (some (offset, a))) hholds.left.decode

/-- A stream that is one structure, or not there. -/
theorem readRecord_of_map {β : Type} {o : Option α} (construct : α → β)
    (h : view.HoldsStream type (o.map layout.encode)) :
    view.readRecord type layout construct = .ok (o.map construct) := by
  cases o with
  | none => rw [readRecord, readStream_of_none h]; rfl
  | some a =>
    rw [Option.map_some, ← List.append_nil (layout.encode a)] at h
    obtain ⟨offset, -, hread⟩ := readStream_of_some h
    rw [readRecord, hread]
    rfl

/-! ### The misc info -/

/-- All levels begin with the fields of the first. -/
theorem holdsAt_info {memory : ℕ → UInt8} {offset : ℕ} {record : MiscRecord}
    (h : HoldsAt memory offset record.bytes) :
    HoldsAt memory offset (miscInfo.encode record.info) := by
  cases record with
  | info1 info size => exact h
  | info2 info size => exact HoldsAt.left h
  | info3 info size =>
    have h2 : HoldsAt memory offset (miscInfo2.encode info.toMINIDUMP_MISC_INFO_2) := h.left
    exact HoldsAt.left h2
  | info4 info size =>
    have h3 : HoldsAt memory offset (miscInfo3.encode info.toMINIDUMP_MISC_INFO_3) := h.left
    have h2 : HoldsAt memory offset (miscInfo2.encode info.toMINIDUMP_MISC_INFO_2) := h3.left
    exact HoldsAt.left h2

/-- A time zone goes through the constructor of `Win32TimeZoneInformation`. -/
theorem map_win32TimeZoneInformation {β : Type} (timeZone : TIME_ZONE_INFORMATION) (b : β) :
    ((win32TimeZoneInformation timeZone).map fun _ => b) =
      if IsDate timeZone.StandardDate ∧ IsDate timeZone.DaylightDate then .ok b
      else .error .argumentOutOfRange := by
  obtain ⟨zone, hzone, hdates⟩ | ⟨hzone, hdates⟩ := win32TimeZoneInformation_eq timeZone
  · rw [hzone, if_pos hdates]
    rfl
  · rw [hzone, if_neg hdates]
    rfl

/-- The object is made of the structure of the right level. -/
theorem miscInfoAt_of_holds {offset : ℕ} {record : MiscRecord}
    (h : HoldsAt view.memory offset record.bytes) :
    view.miscInfoAt offset record.info =
      if record.HasDates then .ok record.read else .error .argumentOutOfRange := by
  cases record with
  | info1 info size =>
    simp only [miscInfoAt, MiscRecord.info, size, if_true]
    exact (if_pos trivial).symm
  | info2 info size =>
    have hdecode : miscInfo2.decode (bytesAt view.memory offset miscInfo2.size) = info := h.decode
    simp only [miscInfoAt, MiscRecord.info, size, hdecode]
    rw [if_neg (by decide), if_pos trivial]
    exact (if_pos trivial).symm
  | info3 info size =>
    have hdecode : miscInfo3.decode (bytesAt view.memory offset miscInfo3.size) = info := h.decode
    simp only [miscInfoAt, MiscRecord.info, size, hdecode, map_win32TimeZoneInformation]
    rw [if_neg (by decide), if_neg (by decide), if_pos trivial]
    rfl
  | info4 info size =>
    have hdecode : miscInfo4.decode (bytesAt view.memory offset miscInfo4.size) = info := h.decode
    simp only [miscInfoAt, MiscRecord.info, size, hdecode, map_win32TimeZoneInformation]
    rw [if_neg (by decide), if_neg (by decide), if_neg (by decide), if_pos trivial]
    rfl

instance (content : DumpContent) : Decidable content.HasDates :=
  match h : content.miscInfo with
  | none => isTrue fun _ hmem => nomatch h.symm.trans hmem
  | some record => decidable_of_iff record.HasDates (by simp [DumpContent.HasDates, h])

theorem readMiscInfo_of_holds {content : DumpContent} (h : view.Holds content) :
    view.readMiscInfo =
      if content.HasDates then .ok content.reader.m_miscinfo else .error .argumentOutOfRange := by
  have hstream := h .MiscInfoStream
  simp only [DumpContent.bytes] at hstream
  rw [readMiscInfo, DumpContent.reader]
  cases hmisc : content.miscInfo with
  | none =>
    rw [hmisc] at hstream
    have hdates : content.HasDates := fun record hmem => nomatch hmisc ▸ hmem
    rw [readStream_of_none hstream, if_pos hdates]
    rfl
  | some record =>
    rw [hmisc] at hstream
    obtain ⟨offset, inside, hfound, -, hholds⟩ := hstream
    have hread : view.readStream .MiscInfoStream miscInfo = .ok (some (offset, record.info)) := by
      rw [readStream, hfound]
      exact congrArg (fun info => Except.ok (some (offset, info))) (holdsAt_info hholds).decode
    have hdates : content.HasDates ↔ record.HasDates := by simp [DumpContent.HasDates, hmisc]
    rw [hread]
    simp only [hdates]
    change (view.miscInfoAt offset record.info >>= fun info => pure (some info)) = _
    rw [miscInfoAt_of_holds hholds]
    split_ifs
    · rfl
    · rfl

/-! ### The list of modules -/

/-- `moduleAt` looks at three fields of the structure. -/
theorem moduleAt_eq (bytes : List UInt8) :
    MappedView.moduleAt bytes = (moduleRecord.decode bytes).toModule := by
  have hname : bytes.drop 20 = (((bytes.drop 8).drop 4).drop 4).drop 4 := by
    simp only [List.drop_drop]
  have hversionMS : bytes.drop 32 =
      ((((((bytes.drop 8).drop 4).drop 4).drop 4).drop 4).drop 4).drop 4 := by
    simp only [List.drop_drop]
  have hversionLS : bytes.drop 36 =
      (((((((bytes.drop 8).drop 4).drop 4).drop 4).drop 4).drop 4).drop 4).drop 4 := by
    simp only [List.drop_drop]
  rw [MappedView.moduleAt, uint32At, uint32At, uint32At, hname, hversionMS, hversionLS]
  rfl

/-- The records of a list, one after the other. -/
theorem map_moduleAt_range (modules : List ModuleRecord) :
    ((List.range modules.length).map fun i => MappedView.moduleAt
      ((modules.flatMap moduleRecord.encode).drop (MappedView.moduleSize * i))) =
      modules.map (·.toModule) := by
  induction modules with
  | nil => rfl
  | cons module modules ih =>
    have hfirst : moduleRecord.decode
        (moduleRecord.encode module ++ modules.flatMap moduleRecord.encode) = module :=
      moduleRecord.decode_append module _
    have hlength : (moduleRecord.encode module).length = MappedView.moduleSize :=
      moduleRecord.length_encode module
    rw [List.length_cons, List.range_succ_eq_map, List.map_cons, List.map_map, List.map_cons,
      List.flatMap_cons, Nat.mul_zero, List.drop_zero, moduleAt_eq, hfirst, ← ih]
    refine congrArg (module.toModule :: ·) (List.map_congr_left fun i _ => ?_)
    rw [Function.comp_apply, Nat.mul_succ, Nat.add_comm, ← List.drop_drop, ← hlength,
      List.drop_left, hlength]

/-- An unsigned number as the signed one that it is taken for. -/
theorem encode_ofNat (n : ℕ) : uint32.encode (UInt32.ofNat n) = getBytes32 (Int32.ofNat n) := by
  have hnat : (UInt32.ofNat n).toNat = (Int32.ofNat n).toBitVec.toNat := by
    rw [UInt32.toNat_ofNat', Int32.toBitVec_ofNat', BitVec.toNat_ofNat]
  rw [getBytes32, ← hnat]
  rfl

theorem numberOfModules_of_holds {offset : ℕ} {modules : List ModuleRecord}
    (hlength : modules.length < 2 ^ 31)
    (h : HoldsAt view.memory offset (uint32.encode (UInt32.ofNat modules.length))) :
    view.mappedView.numberOfModules offset = modules.length := by
  have hbytes : bytesAt view.memory offset 4 = getBytes32 (Int32.ofNat modules.length) := by
    rw [← encode_ofNat]
    exact h
  rw [MappedView.numberOfModules]
  change (toInt32 (bytesAt view.memory offset 4)).toInt = _
  rw [hbytes, toInt32_getBytes32, Int32.toInt_ofNat_of_lt hlength]

theorem readModuleList_of_holds {content : DumpContent} (h : view.Holds content) :
    view.readModuleList = .ok content.reader.m_module := by
  have hstream := h .ModuleListStream
  simp only [DumpContent.bytes] at hstream
  rw [readModuleList, DumpContent.reader]
  cases hmodules : content.modules with
  | none =>
    rw [hmodules] at hstream
    have hnone : view.mappedView.moduleListStream = .notFound := hstream
    rw [MappedView.readModuleList, MappedView.readStream, hnone]
    rfl
  | some modules =>
    rw [hmodules] at hstream
    obtain ⟨modules, hlength⟩ := modules
    obtain ⟨offset, inside, hfound, hsize, hholds⟩ := hstream
    -- the number of modules, and behind it one record for each
    have hcount := numberOfModules_of_holds hlength hholds.left
    have hrecords : HoldsAt view.memory (offset + 4) (modules.flatMap moduleRecord.encode) :=
      hholds.right
    have hflat : (modules.flatMap moduleRecord.encode).length =
        MappedView.moduleSize * modules.length := by
      rw [length_flatMap_encode, Nat.mul_comm]
      rfl
    have hresult : view.mappedView.readModuleList.result = .ok (modules.map (·.toModule)) := by
      have hfound' : view.mappedView.moduleListStream = .found offset inside := hfound
      refine (MappedView.result_readModuleList_eq_ok_iff hfound').mpr
        ⟨modules.length, hcount, ?_, ?_⟩
      · have hsum : (DumpContent.moduleListBytes modules).length =
            4 + MappedView.moduleSize * modules.length := by
          rw [DumpContent.moduleListBytes, List.length_append, hflat, uint32.length_encode]
          rfl
        have hend : offset + (DumpContent.moduleListBytes modules).length ≤ view.size := hsize
        rw [hsum, ← Nat.add_assoc] at hend
        exact hend
      · rw [HoldsAt, hflat] at hrecords
        rw [← map_moduleAt_range, ← hrecords]
        rfl
    rw [hresult]
    rfl

/-! ### The whole dump -/

/-- **The reader gives back what a dump says, if its time zone has dates.** Whatever a dump
says in its streams, and wherever they stand in the file: the constructor of
`SMEMiniDumpReader` leaves exactly this, if both rules of the time zone in the misc info are
dates or missing, and throws otherwise. -/
theorem smeMiniDumpReader_of_holds {view : DumpView} {content : DumpContent}
    (h : view.Holds content) :
    view.smeMiniDumpReader =
      if content.HasDates then .ok content.reader else .error .argumentOutOfRange := by
  have hexception : view.readExceptionStream = .ok content.reader.m_exceptionstream :=
    readRecord_of_map _ (h .ExceptionStream)
  have hbreakpad : view.readBreakpadInfo = .ok content.reader.m_breakpadinfo :=
    readRecord_of_map _ (h .MD_BREAKPAD_INFO_STREAM)
  have hassertion : view.readAssertionInfo = .ok content.reader.m_assertioninfo :=
    readRecord_of_map _ (h .MD_ASSERTION_INFO_STREAM)
  rw [smeMiniDumpReader, hexception, readMiscInfo_of_holds h, readModuleList_of_holds h,
    hbreakpad, hassertion]
  split_ifs
  · rfl
  · rfl

end DumpView

/-- Memory that begins with given bytes holds them. -/
theorem holdsAt_zero (bytes : List UInt8) : HoldsAt (fun i => bytes.getD i 0) 0 bytes := by
  apply List.ext_getElem
  · rw [length_bytesAt]
  · intro i hi hi'
    simp [bytesAt, hi']

/-- A time zone with daylight saving time from a Sunday in March to one in October. -/
def summerTime : TIME_ZONE_INFORMATION where
  Bias := 0
  StandardName := ⟨List.replicate 32 0, rfl⟩
  StandardDate := ⟨0, 10, 0, 5, 3, 0, 0, 0⟩
  StandardBias := 0
  DaylightName := ⟨List.replicate 32 0, rfl⟩
  DaylightDate := ⟨0, 3, 0, 5, 2, 0, 0, 0⟩
  DaylightBias := 0

/-- A dump with the third level of the misc info, and nothing else. -/
def summerDump : DumpContent where
  exceptionStream := none
  miscInfo := some (.info3 ⟨⟨⟨SIZEOF_INFO_3, 0, 0, 0, 0, 0⟩, 0, 0, 0, 0, 0⟩, 0, 0, 0, 0, summerTime⟩
    rfl)
  modules := none
  breakpadInfo := none
  assertionInfo := none

/-- The dump alone in a file. -/
def summerView : DumpView where
  memory i := ((summerDump.bytes .MiscInfoStream).getD []).getD i 0
  size := 232
  pointerSize := ⟨4, isPointerSize_four⟩
  stream type := if type = .MiscInfoStream then .found 0 (by decide) else .notFound

/-- The dump of a machine in such a time zone is refused. -/
theorem smeMiniDumpReader_summerView :
    summerView.smeMiniDumpReader = .error .argumentOutOfRange := by
  have hholds : summerView.Holds summerDump := by
    intro type
    cases type with
    | MiscInfoStream =>
      exact ⟨0, by decide, rfl, (Nat.zero_add _).trans_le (miscInfo3.length_encode _).le,
        holdsAt_zero _⟩
    | _ => rfl
  rw [DumpView.smeMiniDumpReader_of_holds hholds, if_neg (by decide)]

end SMEWindow.DumpReader

import SMEWindow.Collect.FileName
import SMEWindow.DumpReader.MappedView
import SMEWindow.DumpReader.NativeRecords

/-!
# Reading a whole dump

The constructor of `SMEMiniDumpReader` reads five streams, one after the other. Each of
them may be missing. The misc info says its own size and is read once more as a larger
structure for each of the larger sizes; from the third one on it has the rules of a time
zone, whose dates are turned into `DateTime`s.

## Main definitions

* `DumpReader.DumpView` — a mapped file and what is found in it
* `DumpView.readStream`, `DumpView.readMiscInfo` — reading one stream
* `DumpView.smeMiniDumpReader` — the constructor

## Main results

* `win32TimeZoneInformation_eq` — which time zones are refused
-/

set_option autoImplicit false

namespace SMEWindow.DumpReader

open Lib.MemoryTrace Lib.RecordLayout Lib.LittleEndian Native Collect

/-- The types of the streams that are read. -/
inductive MINIDUMP_STREAM_TYPE
  | ModuleListStream
  | ExceptionStream
  | MiscInfoStream
  | MD_BREAKPAD_INFO_STREAM
  | MD_ASSERTION_INFO_STREAM
  deriving DecidableEq, Repr

/-- The number of a type in the directory of a dump. -/
def MINIDUMP_STREAM_TYPE.code : MINIDUMP_STREAM_TYPE → UInt32
  | .ModuleListStream => 4
  | .ExceptionStream => 6
  | .MiscInfoStream => 15
  | .MD_BREAKPAD_INFO_STREAM => 0x47670001
  | .MD_ASSERTION_INFO_STREAM => 0x47670002

/-- A view of a file, and what `MiniDumpReadDumpStream` finds in it. -/
structure DumpView where
  memory : ℕ → UInt8
  size : ℕ
  pointerSize : { n : ℕ // n = 4 ∨ n = 8 }
  stream : MINIDUMP_STREAM_TYPE → StreamLookup size

/-- The part of the view that the list of modules is read from. -/
def DumpView.mappedView (view : DumpView) : MappedView :=
  ⟨view.memory, view.size, view.pointerSize, view.stream .ModuleListStream⟩

inductive ReaderException
  | read (e : ReadException)
  | invalidOperation (message : String)
  | argumentOutOfRange
  deriving DecidableEq, Repr

/-! ### Time zones -/

/-- `new DateTime(year, month, day, hour, minute, second, millisecond)`. -/
def newDateTime (year month day hour minute second millisecond : ℕ) :
    Except ReaderException DateTime :=
  if h : (1 ≤ year ∧ year ≤ 9999) ∧ (1 ≤ month ∧ month ≤ 12) ∧
      (1 ≤ day ∧ day ≤ daysInMonth year month) ∧ hour < 24 ∧ minute < 60 ∧ second < 60 ∧
      millisecond < 1000 then
    .ok ⟨⟨year, month, day, h.1, h.2.1, h.2.2.1⟩, ⟨hour, h.2.2.2.1⟩, ⟨minute, h.2.2.2.2.1⟩,
      ⟨second, h.2.2.2.2.2.1⟩, ⟨10000 * millisecond, by omega⟩⟩
  else .error .argumentOutOfRange

theorem hours_pos : 0 < 24 := Nat.zero_lt_succ _

theorem minutes_pos : 0 < 60 := Nat.zero_lt_succ _

theorem ticks_pos : 0 < 10000000 := Nat.zero_lt_succ _

/-- `DateTime.MinValue`. -/
def minValue : DateTime :=
  ⟨⟨1, 1, 1, by decide, by decide, by decide⟩, ⟨0, hours_pos⟩, ⟨0, minutes_pos⟩,
    ⟨0, minutes_pos⟩, ⟨0, ticks_pos⟩⟩

/-- One of the two dates of a `Win32TimeZoneInformation`. -/
def timeZoneDate (time : SYSTEMTIME) : Except ReaderException DateTime :=
  if time.wMonth = 0 then .ok minValue
  else newDateTime time.wYear.toNat time.wMonth.toNat time.wDay.toNat time.wHour.toNat
    time.wMinute.toNat time.wSecond.toNat time.wMilliseconds.toNat

/-- A rule without a month, or a moment of the calendar. -/
def IsDate (time : SYSTEMTIME) : Prop :=
  time.wMonth = 0 ∨ (1 ≤ time.wYear.toNat ∧ time.wYear.toNat ≤ 9999) ∧ time.wMonth.toNat ≤ 12 ∧
    (1 ≤ time.wDay.toNat ∧ time.wDay.toNat ≤ daysInMonth time.wYear.toNat time.wMonth.toNat) ∧
    time.wHour.toNat < 24 ∧ time.wMinute.toNat < 60 ∧ time.wSecond.toNat < 60 ∧
    time.wMilliseconds.toNat < 1000

instance (time : SYSTEMTIME) : Decidable (IsDate time) := inferInstanceAs (Decidable (_ ∨ _))

/-- A rule for every year is not a date: it has no year. -/
theorem not_isDate_of_wYear_eq_zero {time : SYSTEMTIME} (hyear : time.wYear = 0)
    (hmonth : time.wMonth ≠ 0) : ¬ IsDate time := by
  rintro (hzero | ⟨⟨hone, -⟩, -⟩)
  · exact hmonth hzero
  · rw [hyear] at hone
    exact absurd hone (by decide)

theorem timeZoneDate_eq (time : SYSTEMTIME) :
    (∃ date, timeZoneDate time = .ok date ∧ IsDate time) ∨
      (timeZoneDate time = .error .argumentOutOfRange ∧ ¬ IsDate time) := by
  rw [timeZoneDate, newDateTime]
  split_ifs with hmonth hdate
  · exact .inl ⟨minValue, rfl, .inl hmonth⟩
  · exact .inl ⟨_, rfl, .inr ⟨hdate.1, hdate.2.1.2, hdate.2.2⟩⟩
  · refine .inr ⟨rfl, ?_⟩
    rintro (hzero | ⟨hyear, htwelve, hrest⟩)
    · exact hmonth hzero
    · have hone : 1 ≤ time.wMonth.toNat := Nat.one_le_iff_ne_zero.mpr fun h =>
        hmonth (UInt16.toNat_inj.mp h)
      exact hdate ⟨hyear, ⟨hone, htwelve⟩, hrest⟩

structure Win32TimeZoneInformation where
  timeZoneInformation : TIME_ZONE_INFORMATION
  standardDate : DateTime
  daylightDate : DateTime

/-- The constructor of `Win32TimeZoneInformation`. -/
def win32TimeZoneInformation (timeZone : TIME_ZONE_INFORMATION) :
    Except ReaderException Win32TimeZoneInformation := do
  let standardDate ← timeZoneDate timeZone.StandardDate
  let daylightDate ← timeZoneDate timeZone.DaylightDate
  return ⟨timeZone, standardDate, daylightDate⟩

/-- The time zone is refused exactly when one of its dates is not one. -/
theorem win32TimeZoneInformation_eq (timeZone : TIME_ZONE_INFORMATION) :
    (∃ info, win32TimeZoneInformation timeZone = .ok info ∧
      IsDate timeZone.StandardDate ∧ IsDate timeZone.DaylightDate) ∨
    (win32TimeZoneInformation timeZone = .error .argumentOutOfRange ∧
      ¬ (IsDate timeZone.StandardDate ∧ IsDate timeZone.DaylightDate)) := by
  rw [win32TimeZoneInformation]
  obtain ⟨standard, hstandard, hdate⟩ | ⟨hstandard, hdate⟩ := timeZoneDate_eq timeZone.StandardDate
  · obtain ⟨daylight, hdaylight, hdate'⟩ | ⟨hdaylight, hdate'⟩ :=
      timeZoneDate_eq timeZone.DaylightDate
    · exact .inl ⟨⟨timeZone, standard, daylight⟩, by rw [hstandard, hdaylight]; rfl, hdate, hdate'⟩
    · exact .inr ⟨by rw [hstandard, hdaylight]; rfl, fun h => hdate' h.2⟩
  · exact .inr ⟨by rw [hstandard]; rfl, fun h => hdate h.1⟩

/-- The text in a field of fixed length. -/
def unitsToString {count : ℕ} (units : Units count) : String :=
  String.ofList (decodeUnits (units.1.takeWhile (· ≠ 0)))

/-! ### The constructors of the records -/

namespace Native

def MINIDUMP_EXCEPTION_STREAM.toExceptionStream (stream : MINIDUMP_EXCEPTION_STREAM) :
    MiniDumpExceptionStream where
  ThreadId := stream.ThreadId
  ExceptionRecord :=
    { ExceptionCode := stream.ExceptionRecord.ExceptionCode
      ExceptionFlags := stream.ExceptionRecord.ExceptionFlags
      ExceptionAddress := stream.ExceptionRecord.ExceptionAddress
      NumberParameters := stream.ExceptionRecord.NumberParameters
      ExceptionInformation := stream.ExceptionRecord.ExceptionInformation }
  ThreadContext := ⟨stream.ThreadContext.DataSize⟩

def ModuleRecord.toModule (module : ModuleRecord) : MINIDUMP_MODULE where
  ModuleNameRva := module.ModuleNameRva
  dwFileVersionMS := module.VersionInfo.dwFileVersionMS
  dwFileVersionLS := module.VersionInfo.dwFileVersionLS

def MINIDUMP_MISC_INFO.toMiscInfo (info : MINIDUMP_MISC_INFO) : MiscInfo where
  SizeOfInfo := info.SizeOfInfo
  ProcessId := info.ProcessId
  ProcessCreateTime := info.ProcessCreateTime
  ProcessUserTime := info.ProcessUserTime
  ProcessKernelTime := info.ProcessKernelTime

def MINIDUMP_MISC_INFO_2.toMiscInfo2 (info : MINIDUMP_MISC_INFO_2) : MiscInfo2 where
  toMiscInfo := info.toMiscInfo
  ProcessorMaxMhz := info.ProcessorMaxMhz
  ProcessorCurrentMhz := info.ProcessorCurrentMhz
  ProcessorMhzLimit := info.ProcessorMhzLimit
  ProcessorMaxIdleState := info.ProcessorMaxIdleState
  ProcessorCurrentIdleState := info.ProcessorCurrentIdleState

def MINIDUMP_MISC_INFO_3.toMiscInfo3 (info : MINIDUMP_MISC_INFO_3) : MiscInfo3 where
  toMiscInfo2 := info.toMiscInfo2
  ProcessIntegrityLevel := info.ProcessIntegrityLevel
  ProcessExecuteFlags := info.ProcessExecuteFlags
  ProtectedProcess := info.ProtectedProcess
  TimeZoneId := info.TimeZoneId
  StandardName := unitsToString info.TimeZone.StandardName

def MINIDUMP_MISC_INFO_4.toMiscInfo4 (info : MINIDUMP_MISC_INFO_4) : MiscInfo4 where
  toMiscInfo3 := info.toMiscInfo3
  BuildString := unitsToString info.BuildString
  DbgBldStr := unitsToString info.DbgBldStr

def MDRawBreakpadInfo.toBreakpadInfo (info : MDRawBreakpadInfo) : MiniDumpBreakpadInfo where
  validate := info.validity
  dumpThreadId := info.dump_thread_id
  requestThreadId := info.requesting_thread_id

end Native

/-! ### Reading -/

/-- What the constructor of `SMEMiniDumpReader` leaves. The names of modules are read
later. -/
structure SMEMiniDumpReader where
  m_exceptionstream : Option MiniDumpExceptionStream
  m_miscinfo : Option MiniDumpMiscInfo
  m_module : List MINIDUMP_MODULE
  m_breakpadinfo : Option MiniDumpBreakpadInfo
  m_assertioninfo : Option MiniDumpAssertionInfo
  deriving DecidableEq, Repr

namespace DumpView

variable {α : Type}

/-- `ReadStream`: the address of a stream and the structure at its beginning. -/
def readStream (view : DumpView) (streamToRead : MINIDUMP_STREAM_TYPE) (layout : Layout α) :
    Except ReaderException (Option (ℕ × α)) :=
  match view.stream streamToRead with
  | .notFound => .ok none
  | .failed lastError => .error (.read (.win32 lastError))
  | .found streamPointer _ =>
    .ok (some (streamPointer, layout.decode (bytesAt view.memory streamPointer layout.size)))

/-- Read a stream that is one structure and make an object of it; null if there is none. -/
def readRecord {β : Type} (view : DumpView) (streamToRead : MINIDUMP_STREAM_TYPE)
    (layout : Layout α) (construct : α → β) : Except ReaderException (Option β) := do
  match ← view.readStream streamToRead layout with
  | none => return none
  | some (_, streamData) => return some (construct streamData)

/-- `ReadExceptionStream`. -/
def readExceptionStream (view : DumpView) :
    Except ReaderException (Option MiniDumpExceptionStream) :=
  view.readRecord .ExceptionStream exceptionStream (·.toExceptionStream)

/-- The object that `ReadMiscInfo` makes of the structure it found, or of a larger one in
the same place. -/
def miscInfoAt (view : DumpView) (streamPointer : ℕ) (info : MINIDUMP_MISC_INFO) :
    Except ReaderException MiniDumpMiscInfo :=
  if info.SizeOfInfo = SIZEOF_INFO_1 then .ok (.miscInfo info.toMiscInfo)
  else if info.SizeOfInfo = SIZEOF_INFO_2 then
    let info2 := miscInfo2.decode (bytesAt view.memory streamPointer miscInfo2.size)
    .ok (.miscInfo2 info2.toMiscInfo2)
  else if info.SizeOfInfo = SIZEOF_INFO_3 then
    let info3 := miscInfo3.decode (bytesAt view.memory streamPointer miscInfo3.size)
    (win32TimeZoneInformation info3.TimeZone).map fun _ => .miscInfo3 info3.toMiscInfo3
  else if info.SizeOfInfo = SIZEOF_INFO_4 then
    let info4 := miscInfo4.decode (bytesAt view.memory streamPointer miscInfo4.size)
    (win32TimeZoneInformation info4.TimeZone).map fun _ => .miscInfo4 info4.toMiscInfo4
  else .error (.invalidOperation
    ("Data returned from reading MiscInfoStream has an unrecognised SizeOfInfo field: " ++
      info.SizeOfInfo.toNat.repr ++ " bytes"))

/-- `ReadMiscInfo`. -/
def readMiscInfo (view : DumpView) : Except ReaderException (Option MiniDumpMiscInfo) := do
  match ← view.readStream .MiscInfoStream miscInfo with
  | none => return none
  | some (streamPointer, info) => return some (← view.miscInfoAt streamPointer info)

/-- `ReadModuleList`. -/
def readModuleList (view : DumpView) : Except ReaderException (List MINIDUMP_MODULE) :=
  view.mappedView.readModuleList.result.mapError .read

/-- `ReadBreakpadInfo`. -/
def readBreakpadInfo (view : DumpView) : Except ReaderException (Option MiniDumpBreakpadInfo) :=
  view.readRecord .MD_BREAKPAD_INFO_STREAM breakpadInfo (·.toBreakpadInfo)

/-- `ReadAssertionInfo`. -/
def readAssertionInfo (view : DumpView) :
    Except ReaderException (Option MiniDumpAssertionInfo) :=
  view.readRecord .MD_ASSERTION_INFO_STREAM assertionInfo .ofRaw

/-- The constructor of `SMEMiniDumpReader`, once the file is mapped. -/
def smeMiniDumpReader (view : DumpView) : Except ReaderException SMEMiniDumpReader := do
  let m_exceptionstream ← view.readExceptionStream
  let m_miscinfo ← view.readMiscInfo
  let m_module ← view.readModuleList
  let m_breakpadinfo ← view.readBreakpadInfo
  let m_assertioninfo ← view.readAssertionInfo
  return ⟨m_exceptionstream, m_miscinfo, m_module, m_breakpadinfo, m_assertioninfo⟩

end DumpView

end SMEWindow.DumpReader

import SMEWindow.DumpReader.MinidumpStream
import SMEWindow.Lib.RecordLayout

/-!
# The structures of a dump in memory

`dbghelp.cs` declares the structures that `Marshal.PtrToStructure` fills from the mapped
file, all of them packed, so that a field begins where the one before it ends. The larger
structures of the misc info begin with the fields of the smaller ones.

## Main definitions

* `Native.MINIDUMP_EXCEPTION_STREAM`, `Native.ModuleRecord`, `Native.MINIDUMP_MISC_INFO` up to
  `Native.MINIDUMP_MISC_INFO_4`, `Native.MDRawBreakpadInfo` — the structures
* `Native.exceptionStream` and the like — their layouts, which read back what they write
* `Native.SIZEOF_INFO_1` and the like — the sizes by which `ReadMiscInfo` tells the levels
  of the misc info apart
-/

set_option autoImplicit false

namespace SMEWindow.DumpReader

open Lib.RecordLayout Lib.RecordLayout.Layout

namespace Native

structure MINIDUMP_LOCATION_DESCRIPTOR where
  DataSize : UInt32
  Rva : UInt32
  deriving DecidableEq, Repr

def locationDescriptor : Layout MINIDUMP_LOCATION_DESCRIPTOR :=
  (uint32.prod uint32).map (fun (DataSize, Rva) => ⟨DataSize, Rva⟩)
    (fun r => (r.DataSize, r.Rva)) fun _ => rfl

def EXCEPTION_MAXIMUM_PARAMETERS : ℕ := 15

structure MINIDUMP_EXCEPTION where
  ExceptionCode : UInt32
  ExceptionFlags : UInt32
  ExceptionRecord : UInt64
  ExceptionAddress : UInt64
  NumberParameters : UInt32
  unusedAlignment : UInt32
  ExceptionInformation :
    { parameters : List UInt64 // parameters.length = EXCEPTION_MAXIMUM_PARAMETERS }
  deriving DecidableEq, Repr

def exception : Layout MINIDUMP_EXCEPTION :=
  (uint32.prod (uint32.prod (uint64.prod (uint64.prod (uint32.prod (uint32.prod
    (uint64.array EXCEPTION_MAXIMUM_PARAMETERS))))))).map
    (fun (code, flags, record, address, number, unused, parameters) =>
      ⟨code, flags, record, address, number, unused, parameters⟩)
    (fun r => (r.ExceptionCode, r.ExceptionFlags, r.ExceptionRecord, r.ExceptionAddress,
      r.NumberParameters, r.unusedAlignment, r.ExceptionInformation)) fun _ => rfl

structure MINIDUMP_EXCEPTION_STREAM where
  ThreadId : UInt32
  alignment : UInt32
  ExceptionRecord : MINIDUMP_EXCEPTION
  ThreadContext : MINIDUMP_LOCATION_DESCRIPTOR
  deriving DecidableEq, Repr

def exceptionStream : Layout MINIDUMP_EXCEPTION_STREAM :=
  (uint32.prod (uint32.prod (exception.prod locationDescriptor))).map
    (fun (thread, alignment, record, context) => ⟨thread, alignment, record, context⟩)
    (fun r => (r.ThreadId, r.alignment, r.ExceptionRecord, r.ThreadContext)) fun _ => rfl

/-! ### Modules -/

/-- `VS_FIXEDFILEINFO`. The nine fields behind the version of the file are not named. -/
structure VS_FIXEDFILEINFO where
  dwSignature : UInt32
  dwStrucVersion : UInt32
  dwFileVersionMS : UInt32
  dwFileVersionLS : UInt32
  others : { fields : List UInt32 // fields.length = 9 }
  deriving DecidableEq, Repr

def fixedFileInfo : Layout VS_FIXEDFILEINFO :=
  (uint32.prod (uint32.prod (uint32.prod (uint32.prod (uint32.array 9))))).map
    (fun (signature, strucVersion, fileVersionMS, fileVersionLS, others) =>
      ⟨signature, strucVersion, fileVersionMS, fileVersionLS, others⟩)
    (fun r => (r.dwSignature, r.dwStrucVersion, r.dwFileVersionMS, r.dwFileVersionLS, r.others))
    fun _ => rfl

/-- `MINIDUMP_MODULE`, with all of its fields. -/
structure ModuleRecord where
  BaseOfImage : UInt64
  SizeOfImage : UInt32
  CheckSum : UInt32
  TimeDateStamp : UInt32
  ModuleNameRva : UInt32
  VersionInfo : VS_FIXEDFILEINFO
  CvRecord : MINIDUMP_LOCATION_DESCRIPTOR
  MiscRecord : MINIDUMP_LOCATION_DESCRIPTOR
  Reserved0 : UInt64
  Reserved1 : UInt64
  deriving DecidableEq, Repr

def moduleRecord : Layout ModuleRecord :=
  (uint64.prod (uint32.prod (uint32.prod (uint32.prod (uint32.prod (fixedFileInfo.prod
    (locationDescriptor.prod (locationDescriptor.prod (uint64.prod uint64))))))))).map
    (fun (base, size, checkSum, timeDateStamp, nameRva, version, cv, misc, reserved0,
      reserved1) => ⟨base, size, checkSum, timeDateStamp, nameRva, version, cv, misc, reserved0,
        reserved1⟩)
    (fun r => (r.BaseOfImage, r.SizeOfImage, r.CheckSum, r.TimeDateStamp, r.ModuleNameRva,
      r.VersionInfo, r.CvRecord, r.MiscRecord, r.Reserved0, r.Reserved1)) fun _ => rfl

/-! ### Misc info -/

structure MINIDUMP_MISC_INFO where
  SizeOfInfo : UInt32
  Flags1 : UInt32
  ProcessId : UInt32
  ProcessCreateTime : UInt32
  ProcessUserTime : UInt32
  ProcessKernelTime : UInt32
  deriving DecidableEq, Repr

def miscInfo : Layout MINIDUMP_MISC_INFO :=
  (uint32.prod (uint32.prod (uint32.prod (uint32.prod (uint32.prod uint32))))).map
    (fun (size, flags, process, create, user, kernel) =>
      ⟨size, flags, process, create, user, kernel⟩)
    (fun r => (r.SizeOfInfo, r.Flags1, r.ProcessId, r.ProcessCreateTime, r.ProcessUserTime,
      r.ProcessKernelTime)) fun _ => rfl

structure MINIDUMP_MISC_INFO_2 extends MINIDUMP_MISC_INFO where
  ProcessorMaxMhz : UInt32
  ProcessorCurrentMhz : UInt32
  ProcessorMhzLimit : UInt32
  ProcessorMaxIdleState : UInt32
  ProcessorCurrentIdleState : UInt32
  deriving DecidableEq, Repr

def miscInfo2 : Layout MINIDUMP_MISC_INFO_2 :=
  (miscInfo.prod (uint32.prod (uint32.prod (uint32.prod (uint32.prod uint32))))).map
    (fun (info, maxMhz, currentMhz, mhzLimit, maxIdle, currentIdle) =>
      ⟨info, maxMhz, currentMhz, mhzLimit, maxIdle, currentIdle⟩)
    (fun r => (r.toMINIDUMP_MISC_INFO, r.ProcessorMaxMhz, r.ProcessorCurrentMhz,
      r.ProcessorMhzLimit, r.ProcessorMaxIdleState, r.ProcessorCurrentIdleState)) fun _ => rfl

structure SYSTEMTIME where
  wYear : UInt16
  wMonth : UInt16
  wDayOfWeek : UInt16
  wDay : UInt16
  wHour : UInt16
  wMinute : UInt16
  wSecond : UInt16
  wMilliseconds : UInt16
  deriving DecidableEq, Repr

def systemTime : Layout SYSTEMTIME :=
  (uint16.prod (uint16.prod (uint16.prod (uint16.prod (uint16.prod (uint16.prod
    (uint16.prod uint16))))))).map
    (fun (year, month, dayOfWeek, day, hour, minute, second, milliseconds) =>
      ⟨year, month, dayOfWeek, day, hour, minute, second, milliseconds⟩)
    (fun r => (r.wYear, r.wMonth, r.wDayOfWeek, r.wDay, r.wHour, r.wMinute, r.wSecond,
      r.wMilliseconds)) fun _ => rfl

/-- A text in a fixed number of code units. -/
abbrev Units (count : ℕ) := { units : List UInt16 // units.length = count }

/-- `TIME_ZONE_INFORMATION`. The three numbers are signed. -/
structure TIME_ZONE_INFORMATION where
  Bias : UInt32
  StandardName : Units 32
  StandardDate : SYSTEMTIME
  StandardBias : UInt32
  DaylightName : Units 32
  DaylightDate : SYSTEMTIME
  DaylightBias : UInt32
  deriving DecidableEq, Repr

def timeZoneInformation : Layout TIME_ZONE_INFORMATION :=
  (uint32.prod ((uint16.array 32).prod (systemTime.prod (uint32.prod ((uint16.array 32).prod
    (systemTime.prod uint32)))))).map
    (fun (bias, standardName, standardDate, standardBias, daylightName, daylightDate,
      daylightBias) => ⟨bias, standardName, standardDate, standardBias, daylightName,
        daylightDate, daylightBias⟩)
    (fun r => (r.Bias, r.StandardName, r.StandardDate, r.StandardBias, r.DaylightName,
      r.DaylightDate, r.DaylightBias)) fun _ => rfl

structure MINIDUMP_MISC_INFO_3 extends MINIDUMP_MISC_INFO_2 where
  ProcessIntegrityLevel : UInt32
  ProcessExecuteFlags : UInt32
  ProtectedProcess : UInt32
  TimeZoneId : UInt32
  TimeZone : TIME_ZONE_INFORMATION
  deriving DecidableEq, Repr

def miscInfo3 : Layout MINIDUMP_MISC_INFO_3 :=
  (miscInfo2.prod (uint32.prod (uint32.prod (uint32.prod (uint32.prod
    timeZoneInformation))))).map
    (fun (info, integrity, execute, isProtected, timeZoneId, timeZone) =>
      ⟨info, integrity, execute, isProtected, timeZoneId, timeZone⟩)
    (fun r => (r.toMINIDUMP_MISC_INFO_2, r.ProcessIntegrityLevel, r.ProcessExecuteFlags,
      r.ProtectedProcess, r.TimeZoneId, r.TimeZone)) fun _ => rfl

structure MINIDUMP_MISC_INFO_4 extends MINIDUMP_MISC_INFO_3 where
  BuildString : Units 260
  DbgBldStr : Units 40
  deriving DecidableEq, Repr

def miscInfo4 : Layout MINIDUMP_MISC_INFO_4 :=
  (miscInfo3.prod ((uint16.array 260).prod (uint16.array 40))).map
    (fun (info, buildString, dbgBldStr) => ⟨info, buildString, dbgBldStr⟩)
    (fun r => (r.toMINIDUMP_MISC_INFO_3, r.BuildString, r.DbgBldStr)) fun _ => rfl

/-- The constants of `ReadMiscInfo`. -/
def SIZEOF_INFO_1 : UInt32 := 24
def SIZEOF_INFO_2 : UInt32 := 44
def SIZEOF_INFO_3 : UInt32 := 232
def SIZEOF_INFO_4 : UInt32 := 832

/-! ### The streams of breakpad -/

structure MDRawBreakpadInfo where
  validity : UInt32
  dump_thread_id : UInt32
  requesting_thread_id : UInt32
  deriving DecidableEq, Repr

def breakpadInfo : Layout MDRawBreakpadInfo :=
  (uint32.prod (uint32.prod uint32)).map
    (fun (validity, dump, requesting) => ⟨validity, dump, requesting⟩)
    (fun r => (r.validity, r.dump_thread_id, r.requesting_thread_id)) fun _ => rfl

def assertionInfo : Layout MDRawAssertionInfo :=
  ((uint16.array 128).prod ((uint16.array 128).prod ((uint16.array 128).prod
    (uint32.prod uint32)))).map
    (fun (expression, function, file, line, type) => ⟨expression, function, file, line, type⟩)
    (fun r => (r.expression, r.function, r.file, r.line, r.type)) fun _ => rfl

end Native

end SMEWindow.DumpReader

import SMEWindow.Lib.Text

/-!
# The records of a minidump

What `SMEMiniDumpReader` takes out of a native dump, as far as the statements of the
server print it. Every stream but the list of modules may be missing from a dump.

## Main definitions

* `DumpReader.MiniDumpModule`, `MiniDumpModule.fileVersion` — a loaded module
* `DumpReader.MiniDumpMiscInfo` — the four levels of `MiscInfo`, each converted to the
  one below it
* `DumpReader.MDRawAssertionInfo`, `DumpReader.MiniDumpAssertionInfo` — an assertion, two
  of whose getters call themselves
* `DumpReader.MiniDump` — all streams
-/

set_option autoImplicit false

namespace SMEWindow.DumpReader

open Lib.Text

/-- `ToString("x")`. -/
def toHexString (n : ℕ) : String := String.ofList (Nat.toDigits 16 n)

/-- Half of a surrogate pair. -/
def isSurrogate (unit : UInt16) : Bool := 0xd800 ≤ unit && unit < 0xe000

/-- The characters that code units stand for. -/
def decodeUnits : List UInt16 → List Char
  | [] => []
  | [unit] => [if isSurrogate unit then '\uFFFD' else Char.ofNat unit.toNat]
  | high :: low :: units =>
    if isSurrogate high then
      if high < 0xdc00 && isSurrogate low && 0xdc00 ≤ low then
        Char.ofNat (0x10000 + (high.toNat - 0xd800) * 0x400 + (low.toNat - 0xdc00)) ::
          decodeUnits units
      else '\uFFFD' :: decodeUnits (low :: units)
    else Char.ofNat high.toNat :: decodeUnits (low :: units)

/-! ### The exception stream -/

/-- `MiniDumpLocationDescriptor`, with the size alone. -/
structure MiniDumpLocationDescriptor where
  DataSize : UInt32
  deriving DecidableEq, Repr

namespace MiniDumpLocationDescriptor

/-- The text of `numerator / denominator` in the format `0.#`. -/
def oneDecimal (numerator denominator : ℕ) : String :=
  let tenths := (20 * numerator + denominator) / (2 * denominator)
  if tenths % 10 = 0 then (tenths / 10).repr
  else (tenths / 10).repr ++ "." ++ (tenths % 10).repr

/-- Go on to the next unit while there are 1024 of this one. -/
def prettyFrom (size : ℕ) : ℕ → String → List String → String
  | unit, name, [] => oneDecimal size unit ++ " " ++ name
  | unit, name, next :: names =>
    if 1024 * unit ≤ size then prettyFrom size (1024 * unit) next names
    else oneDecimal size unit ++ " " ++ name

def dataSizePretty (location : MiniDumpLocationDescriptor) : String :=
  prettyFrom location.DataSize.toNat 1 "B" ["KB", "MB", "GB"]

example : dataSizePretty ⟨1536⟩ = "1.5 KB" := by decide

end MiniDumpLocationDescriptor

/-- `MiniDumpException`; its parameters are always `EXCEPTION_MAXIMUM_PARAMETERS`
many. -/
structure MiniDumpException where
  ExceptionCode : UInt32
  ExceptionFlags : UInt32
  ExceptionAddress : UInt64
  NumberParameters : UInt32
  ExceptionInformation : { parameters : List UInt64 // parameters.length = 15 }
  deriving DecidableEq, Repr

structure MiniDumpExceptionStream where
  ThreadId : UInt32
  ExceptionRecord : MiniDumpException
  ThreadContext : MiniDumpLocationDescriptor
  deriving DecidableEq, Repr

/-! ### Modules -/

/-- `MiniDumpModule`, with the path that its name refers to. -/
structure MiniDumpModule where
  PathAndFileName : String
  dwFileVersionMS : UInt32
  dwFileVersionLS : UInt32
  deriving DecidableEq, Repr

namespace MiniDumpModule

def hiWord (number : UInt32) : UInt32 :=
  if number &&& 0x80000000 = 0x80000000 then number >>> 16 else (number >>> 16) &&& 0xffff

def loWord (number : UInt32) : UInt32 := number &&& 0xffff

def fileVersion (module : MiniDumpModule) : String :=
  (hiWord module.dwFileVersionMS).toNat.repr ++ "." ++
    (loWord module.dwFileVersionMS).toNat.repr ++ "." ++
    (hiWord module.dwFileVersionLS).toNat.repr ++ "." ++
    (loWord module.dwFileVersionLS).toNat.repr

theorem toNat_hiWord (number : UInt32) : (hiWord number).toNat = number.toNat / 2 ^ 16 := by
  have hshift : (number >>> 16).toNat = number.toNat / 2 ^ 16 := by
    rw [UInt32.toNat_shiftRight, Nat.shiftRight_eq_div_pow]
    rfl
  rw [hiWord]
  split_ifs
  · exact hshift
  · -- half of a number has no bits for the mask to take away
    have hlt := number.toNat_lt
    rw [UInt32.toNat_and, hshift]
    exact (Nat.and_two_pow_sub_one_eq_mod _ 16).trans (Nat.mod_eq_of_lt (by omega))

theorem toNat_loWord (number : UInt32) : (loWord number).toNat = number.toNat % 2 ^ 16 := by
  rw [loWord, UInt32.toNat_and]
  exact Nat.and_two_pow_sub_one_eq_mod _ 16

/-- The four numbers of the version. -/
def version (module : MiniDumpModule) : Version where
  components :=
    [⟨(hiWord module.dwFileVersionMS).toNat, by
        rw [toNat_hiWord]; have := module.dwFileVersionMS.toNat_lt; omega⟩,
      ⟨(loWord module.dwFileVersionMS).toNat, by rw [toNat_loWord]; omega⟩,
      ⟨(hiWord module.dwFileVersionLS).toNat, by
        rw [toNat_hiWord]; have := module.dwFileVersionLS.toNat_lt; omega⟩,
      ⟨(loWord module.dwFileVersionLS).toNat, by rw [toNat_loWord]; omega⟩]
  two_le_length := by simp
  length_le_four := by simp

theorem fileVersion_eq_toText (module : MiniDumpModule) :
    module.fileVersion = module.version.toText := by
  apply String.toList_inj.mp
  simp [fileVersion, Version.toText, version, List.intercalate]

/-- The text of a version determines both of its numbers. -/
theorem eq_of_fileVersion_eq {module module' : MiniDumpModule}
    (h : module.fileVersion = module'.fileVersion) :
    module.dwFileVersionMS = module'.dwFileVersionMS ∧
      module.dwFileVersionLS = module'.dwFileVersionLS := by
  rw [fileVersion_eq_toText, fileVersion_eq_toText] at h
  have hcomponents := congrArg Version.components (Version.toText_inj h)
  simp only [version, List.cons.injEq, Subtype.mk.injEq, toNat_hiWord, toNat_loWord] at hcomponents
  constructor
  · exact UInt32.toNat_inj.mp (by omega)
  · exact UInt32.toNat_inj.mp (by omega)

end MiniDumpModule

/-! ### Misc info -/

/-- `MINIDUMP_MISC_INFO`. -/
structure MiscInfo where
  SizeOfInfo : UInt32
  ProcessId : UInt32
  ProcessCreateTime : UInt32
  ProcessUserTime : UInt32
  ProcessKernelTime : UInt32
  deriving DecidableEq, Repr

/-- `MINIDUMP_MISC_INFO_2`. -/
structure MiscInfo2 extends MiscInfo where
  ProcessorMaxMhz : UInt32
  ProcessorCurrentMhz : UInt32
  ProcessorMhzLimit : UInt32
  ProcessorMaxIdleState : UInt32
  ProcessorCurrentIdleState : UInt32
  deriving DecidableEq, Repr

/-- `MINIDUMP_MISC_INFO_3`, with one name of its time zone. -/
structure MiscInfo3 extends MiscInfo2 where
  ProcessIntegrityLevel : UInt32
  ProcessExecuteFlags : UInt32
  ProtectedProcess : UInt32
  TimeZoneId : UInt32
  StandardName : String
  deriving DecidableEq, Repr

/-- `MINIDUMP_MISC_INFO_4`. -/
structure MiscInfo4 extends MiscInfo3 where
  BuildString : String
  DbgBldStr : String
  deriving DecidableEq, Repr

/-- `MiniDumpMiscInfo`, at the level that the size of the stream gives it. -/
inductive MiniDumpMiscInfo
  | miscInfo (info : MiscInfo)
  | miscInfo2 (info : MiscInfo2)
  | miscInfo3 (info : MiscInfo3)
  | miscInfo4 (info : MiscInfo4)
  deriving DecidableEq, Repr

/-- `explicit operator MINIDUMP_MISC_INFO`, which leaves out the kernel time. -/
def MiscInfo2.castMiscInfo (miscInfo2 : MiscInfo2) : MiscInfo where
  SizeOfInfo := miscInfo2.SizeOfInfo
  ProcessId := miscInfo2.ProcessId
  ProcessCreateTime := miscInfo2.ProcessCreateTime
  ProcessUserTime := miscInfo2.ProcessUserTime
  ProcessKernelTime := 0

/-- `explicit operator MINIDUMP_MISC_INFO_2`. -/
def MiscInfo3.castMiscInfo2 (miscInfo3 : MiscInfo3) : MiscInfo2 where
  SizeOfInfo := miscInfo3.SizeOfInfo
  ProcessId := miscInfo3.ProcessId
  ProcessCreateTime := miscInfo3.ProcessCreateTime
  ProcessUserTime := miscInfo3.ProcessUserTime
  -- the user time stands in both places
  ProcessKernelTime := miscInfo3.ProcessUserTime
  ProcessorMaxMhz := miscInfo3.ProcessorMaxMhz
  ProcessorCurrentMhz := miscInfo3.ProcessorCurrentMhz
  ProcessorMhzLimit := miscInfo3.ProcessorMhzLimit
  ProcessorMaxIdleState := miscInfo3.ProcessorMaxIdleState
  ProcessorCurrentIdleState := miscInfo3.ProcessorCurrentIdleState

/-- `explicit operator MINIDUMP_MISC_INFO_3`. -/
def MiscInfo4.castMiscInfo3 (miscInfo4 : MiscInfo4) : MiscInfo3 where
  SizeOfInfo := miscInfo4.SizeOfInfo
  ProcessId := miscInfo4.ProcessId
  ProcessCreateTime := miscInfo4.ProcessCreateTime
  ProcessUserTime := miscInfo4.ProcessUserTime
  ProcessKernelTime := miscInfo4.ProcessUserTime
  ProcessorMaxMhz := miscInfo4.ProcessorMaxMhz
  ProcessorCurrentMhz := miscInfo4.ProcessorCurrentMhz
  ProcessorMhzLimit := miscInfo4.ProcessorMhzLimit
  ProcessorMaxIdleState := miscInfo4.ProcessorMaxIdleState
  ProcessorCurrentIdleState := miscInfo4.ProcessorCurrentIdleState
  ProcessIntegrityLevel := miscInfo4.ProcessIntegrityLevel
  ProcessExecuteFlags := miscInfo4.ProcessExecuteFlags
  ProtectedProcess := miscInfo4.ProtectedProcess
  TimeZoneId := miscInfo4.TimeZoneId
  StandardName := miscInfo4.StandardName

inductive MiniDumpMiscInfoLevel
  | MiscInfo
  | MiscInfo2
  | MiscInfo3
  | MiscInfo4
  deriving DecidableEq, Repr

namespace MiniDumpMiscInfo

/-- `MiscInfoLevel`: every constructor sets its own, after that of its base class. -/
def MiscInfoLevel : MiniDumpMiscInfo → MiniDumpMiscInfoLevel
  | .miscInfo _ => .MiscInfo
  | .miscInfo2 _ => .MiscInfo2
  | .miscInfo3 _ => .MiscInfo3
  | .miscInfo4 _ => .MiscInfo4

/-- `m_miscInfo`, behind the getters of the base class: every constructor converts its
record for the one of its base class. -/
def m_miscInfo : MiniDumpMiscInfo → MiscInfo
  | .miscInfo info => info
  | .miscInfo2 info => info.castMiscInfo
  | .miscInfo3 info => info.castMiscInfo2.castMiscInfo
  | .miscInfo4 info => info.castMiscInfo3.castMiscInfo2.castMiscInfo

/-- The part of the record in the dump that all levels have. -/
def record : MiniDumpMiscInfo → MiscInfo
  | .miscInfo info => info
  | .miscInfo2 info => info.toMiscInfo
  | .miscInfo3 info => info.toMiscInfo
  | .miscInfo4 info => info.toMiscInfo

/-- The getters of the base class tell what is in the dump, but for the kernel time, which
is zero at every level above the first. -/
theorem m_miscInfo_eq (info : MiniDumpMiscInfo) :
    info.m_miscInfo = { info.record with
      ProcessKernelTime :=
        if info.MiscInfoLevel = .MiscInfo then info.record.ProcessKernelTime else 0 } := by
  cases info <;> rfl

end MiniDumpMiscInfo

/-! ### The streams of breakpad -/

structure MiniDumpBreakpadInfo where
  validate : UInt32
  dumpThreadId : UInt32
  requestThreadId : UInt32
  deriving DecidableEq, Repr

/-- `MDRawAssertionInfo`, the record in the dump. -/
structure MDRawAssertionInfo where
  expression : { units : List UInt16 // units.length = 128 }
  function : { units : List UInt16 // units.length = 128 }
  file : { units : List UInt16 // units.length = 128 }
  line : UInt32
  type : UInt32
  deriving DecidableEq, Repr

/-- `MiniDumpAssertionInfo`: three arrays of 128 code units. -/
structure MiniDumpAssertionInfo where
  expression : { units : List UInt16 // units.length = 128 }
  function : { units : List UInt16 // units.length = 128 }
  file : { units : List UInt16 // units.length = 128 }
  deriving DecidableEq, Repr

namespace MiniDumpAssertionInfo

/-- The constructor, which copies the arrays. The record is kept as well, but no getter
reads it. -/
def ofRaw (assertionInfo : MDRawAssertionInfo) : MiniDumpAssertionInfo :=
  ⟨assertionInfo.expression, assertionInfo.function, assertionInfo.file⟩

/-- The getter returns itself: with room for `depth` more calls on the stack, it
makes one of them. -/
def line (info : MiniDumpAssertionInfo) : ℕ → Except RuntimeException UInt32
  | 0 => .error .stackOverflow
  | depth + 1 => line info depth

/-- The getter returns itself, too. -/
def type (info : MiniDumpAssertionInfo) : ℕ → Except RuntimeException UInt32
  | 0 => .error .stackOverflow
  | depth + 1 => type info depth

end MiniDumpAssertionInfo

/-- The streams of a dump; null where the dump has none. -/
structure MiniDump where
  ExceptionStream : Option MiniDumpExceptionStream
  Module : List MiniDumpModule
  MiscInfo : Option MiniDumpMiscInfo
  BreakpadInfo : Option MiniDumpBreakpadInfo
  AssertionInfo : Option MiniDumpAssertionInfo
  deriving DecidableEq, Repr

/-- A dump without streams. -/
def emptyDump : MiniDump := ⟨none, [], none, none, none⟩

end SMEWindow.DumpReader

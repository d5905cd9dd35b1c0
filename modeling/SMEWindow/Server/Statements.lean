import SMEWindow.DumpReader.MinidumpStream
import SMEWindow.Lib.QuotedText
import SMEWindow.Xml.Report

/-!
# The statements of the server

`DumpsDBM` and `SMEDBManager` put SQL statements together from fixed text, printed
values and the texts of a report. Here a statement is kept in its pieces, with the
texts of the report marked, in the order in which the program appends them.

## Main definitions

* `Server.Reported` — what the statements of one report are built from
* `Server.Builder`, `Server.query` — the functions that build statements, and what
  each of them builds

## Main results

* `enclosed_query` — every text of a report is put inside a literal
-/

set_option autoImplicit false

namespace SMEWindow.Server

open Collect DumpReader Lib Lib.QuotedText Lib.Text

/-- What statements depend on besides the report. -/
structure Host where
  /-- The text of a `time_t`, in the time zone and format of the server. -/
  timeText : UInt32 → String
  /-- How many calls fit on its stack. -/
  stackDepth : ℕ

/-- What the statements of one report are built from. -/
structure Reported where
  fileName : String
  apikey : Int32
  m_dumpid : Int32
  m_smecollector : Xml.Report
  /-- The arguments for an inner exception. -/
  exinfo : ExceptionInformation
  exceptionid : Int32
  minidump : MiniDump

/-! ### Pieces -/

/-- A value in quotes, and the comma behind it. -/
def column (value : Piece) : Statement := [.fixed "'", value, .fixed "',"]

/-- The last value in quotes, and the end of the statement. -/
def lastColumn (value : Piece) : Statement := [.fixed "'", value, .fixed "')"]

/-- A text of the report, in which null is empty. -/
def textOf (value : Option String) : Piece := .text (value.getD "")

/-- A printed number. -/
def printed (n : Int32) : Piece := .fixed (intToString n)

/-- A printed unsigned number. -/
def printedNat (n : ℕ) : Piece := .fixed n.repr

/-- `ToString` on what may be null. -/
def notNull {α : Type} : Option α → Except RuntimeException α
  | none => .error .nullReference
  | some a => .ok a

/-! ### `DumpsDBM` -/

def insert (dumpname : String) (projectid : Int32) : Statement :=
  [.fixed "Insert INTO Dumps(Dump_Name, ProjectsProject_ID) VALUES('", .text dumpname,
    .fixed "','", printed projectid, .fixed "')"]

/-- `SelectExp_ID(int)`. -/
def selectExp_IDOfProject (projectid : Int32) : Statement :=
  [.fixed "SELECT Dump_ID FROM Dumps WHERE ProjectsProject_ID = '", printed projectid, .fixed "'"]

/-- `SelectExp_ID(string)`. -/
def selectExp_IDOfName (dumpname : String) : Statement :=
  [.fixed "SELECT Dump_ID FROM Dumps WHERE Dump_Name = '", .text dumpname, .fixed "'"]

/-! ### Native dumps -/

def makeQueryforException (dump : MiniDump) (m_dumpid : Int32) :
    Except RuntimeException Statement := do
  -- a dump without an exception stream
  let stream ← notNull dump.ExceptionStream
  let exception := stream.ExceptionRecord
  return .fixed ("INSERT INTO NExceptionInfo(ThreadID, ExceptionCode, ExceptionFlags, " ++
      "ExceptionAddress, NumberParameters, DataSizePretty, " ++
      "ExceptionInfo1, ExceptionInfo2, ExceptionInfo3, ExceptionInfo4, ExceptionInfo5, " ++
      "ExceptionInfo6, ExceptionInfo7, ExceptionInfo8, ExceptionInfo9, " ++
      "ExceptionInfo10, ExceptionInfo11, ExceptionInfo12, ExceptionInfo13, ExceptionInfo14, " ++
      "ExceptionInfo15, DumpsDump_ID)" ++ "VALUES (") ::
    (column (printedNat stream.ThreadId.toNat) ++
    column (.fixed (toHexString exception.ExceptionCode.toNat)) ++
    column (printedNat exception.ExceptionFlags.toNat) ++
    column (.fixed (toHexString exception.ExceptionAddress.toNat)) ++
    column (printedNat exception.NumberParameters.toNat) ++
    column (.fixed stream.ThreadContext.dataSizePretty) ++
    exception.ExceptionInformation.val.flatMap
      (fun parameter => column (.fixed (toHexString parameter.toNat))) ++
    lastColumn (printed m_dumpid))

/-- The paths come first, then the versions, with a question mark behind each. -/
def makeQueryforModule (dump : MiniDump) (m_dumpid : Int32) : Statement :=
  .fixed "INSERT INTO NModule(PathAndFileName, FileVersion, DumpsDump_ID) VALUES('" ::
    (dump.Module.flatMap (fun module => [.text module.PathAndFileName, .fixed "?"]) ++
    [.fixed "','"] ++
    dump.Module.flatMap (fun module => [.fixed module.fileVersion, .fixed "?"]) ++
    [.fixed "','", printed m_dumpid] ++ [.fixed "')"])

/-- The values of `NMiscInfo`, in the order of its columns and empty to start with. -/
structure MiscInfoColumns where
  SizeOfInfo : String := ""
  ProcessID : String := ""
  ProcessCreateTime : String := ""
  UserTime : String := ""
  KernelTime : String := ""
  ProcessorMaxMHz : String := ""
  CurrentMhz : String := ""
  MhzLimit : String := ""
  MaxIdleState : String := ""
  CurrentIdleState : String := ""
  ProcessIntegrityLevel : String := ""
  ExecuteFlags : String := ""
  ProtectedProcess : String := ""
  TimeZoneId : String := ""
  TimeZone : String := ""
  BuildString : String := ""
  DbgBldStr : String := ""

/-- Every level fills the columns that it adds, and no others. -/
def miscInfoColumns (host : Host) : MiniDumpMiscInfo → MiscInfoColumns
  | .miscInfo info => {
      SizeOfInfo := info.SizeOfInfo.toNat.repr
      ProcessID := info.ProcessId.toNat.repr
      ProcessCreateTime := host.timeText info.ProcessCreateTime
      UserTime := info.ProcessUserTime.toNat.repr
      KernelTime := info.ProcessKernelTime.toNat.repr }
  | .miscInfo2 info => {
      ProcessorMaxMHz := info.ProcessorMaxMhz.toNat.repr
      CurrentMhz := info.ProcessorCurrentMhz.toNat.repr
      MhzLimit := info.ProcessorMhzLimit.toNat.repr
      MaxIdleState := info.ProcessorMaxIdleState.toNat.repr
      CurrentIdleState := info.ProcessorCurrentIdleState.toNat.repr }
  | .miscInfo3 info => {
      ProcessIntegrityLevel := info.ProcessIntegrityLevel.toNat.repr
      ExecuteFlags := info.ProcessExecuteFlags.toNat.repr
      ProtectedProcess := info.ProtectedProcess.toNat.repr
      TimeZoneId := info.TimeZoneId.toNat.repr
      TimeZone := info.StandardName }
  | .miscInfo4 info => {
      BuildString := info.BuildString
      DbgBldStr := info.DbgBldStr }

def makeQueryforMiscInfo (host : Host) (dump : MiniDump) (m_dumpid : Int32) :
    Except RuntimeException Statement := do
  let info ← notNull dump.MiscInfo
  let values := miscInfoColumns host info
  return .fixed ("INSERT INTO NMiscInfo(SizeOfInfo, ProcessID, ProcessCreateTime, UserTime, " ++
      "KernelTime, ProcessorMaxMHz, CurrentMhz, MhzLimit," ++
      "MaxIdleState, CurrentIdleState, ProcessIntegrityLevel, ExecuteFlags, ProtectedProcess, " ++
      "TimeZoneId, TimeZone," ++ "BuildString, DbgBldStr, DumpsDump_ID) VALUES (") ::
    ([values.SizeOfInfo, values.ProcessID, values.ProcessCreateTime, values.UserTime,
      values.KernelTime, values.ProcessorMaxMHz, values.CurrentMhz, values.MhzLimit,
      values.MaxIdleState, values.CurrentIdleState, values.ProcessIntegrityLevel,
      values.ExecuteFlags, values.ProtectedProcess, values.TimeZoneId, values.TimeZone,
      values.BuildString, values.DbgBldStr].flatMap (fun value => column (.fixed value)) ++
    lastColumn (printed m_dumpid))

def makeQueryforBreakpad (dump : MiniDump) (m_dumpid : Int32) :
    Except RuntimeException Statement := do
  let info ← notNull dump.BreakpadInfo
  return .fixed ("INSERT INTO NBreakpad(Validate, DumpthreadID, RequestThreadID, DumpsDump_ID) " ++
      "VALUES(") ::
    (column (printedNat info.validate.toNat) ++ column (printedNat info.dumpThreadId.toNat) ++
    column (printedNat info.requestThreadId.toNat) ++ lastColumn (printed m_dumpid))

/-- The text of an array of code units is the name of its type. -/
def arrayText (_ : { units : List UInt16 // units.length = 128 }) : Piece :=
  .fixed "System.UInt16[]"

def makeQueryforAssertion (host : Host) (dump : MiniDump) (m_dumpid : Int32) :
    Except RuntimeException Statement :=
  match dump.AssertionInfo with
  | some info => do
    -- neither getter returns, so nothing below is ever appended
    let line ← info.line host.stackDepth
    let type ← info.type host.stackDepth
    return .fixed ("INSERT INTO NAssertion(Line, Type, Expression, Function, File, " ++
        "DumpsDump_ID) VALUES(") ::
      (column (printedNat line.toNat) ++ column (printedNat type.toNat) ++
      column (arrayText info.expression) ++ column (arrayText info.function) ++
      column (arrayText info.file) ++ lastColumn (printed m_dumpid))
  | none => .ok (.fixed "INSERT INTO NAssertion(DumpsDump_ID) VALUES(" ::
      lastColumn (printed m_dumpid))

/-! ### Managed reports -/

/-- The values of `MakeQueryforAddDumpsID` and `MakeQueryforCSProjectInfo`. -/
def projectColumns (info : ProjectInformation) (m_dumpid : Int32) :
    Except RuntimeException Statement := do
  let version ← notNull info.m_Version
  return column (textOf info.Name) ++ column (.fixed version.toText) ++
    lastColumn (printed m_dumpid)

def makeQueryforAddDumpsID (report : Xml.Report) (m_dumpid : Int32) :
    Except RuntimeException Statement :=
  (projectColumns report.ProjectInfo m_dumpid).map
    (.fixed "INSERT INTO Dumps(ProName, ProVersion, DumpsDump_ID) VALUES(" :: ·)

def makeQueryforCSProjectInfo (report : Xml.Report) (m_dumpid : Int32) :
    Except RuntimeException Statement :=
  (projectColumns report.ProjectInfo m_dumpid).map
    (.fixed "INSERT INTO ProjectInfo(ProName, ProVersion, DumpsDump_ID) VALUES(" :: ·)

def makeQueryforCSSystemInfo (report : Xml.Report) (m_dumpid : Int32) :
    Except RuntimeException Statement := do
  let info := report.SystemInfo
  let servicePack ← notNull info.ServicePack
  return .fixed ("INSERT INTO SystemInfo(PlatformID, ServicePack, OSVersion, CLRVersion, " ++
      "Is64BitOS, Is64BitProcess, DumpsDump_ID) VALUES(") ::
    (column (.fixed info.PlatformID.toText) ++ column (.text servicePack) ++
    column (.fixed info.OSVersion.toText) ++ column (.fixed info.CLRVersion.toText) ++
    column (.fixed (boolToString info.Is64bitOS)) ++
    column (.fixed (boolToString info.Is64bitProcess)) ++ lastColumn (printed m_dumpid))

/-- The values that both overloads of `MakeQueryforCSExceptionInfo` begin with. -/
def exceptionColumns (fields : ExceptionFields) : Statement :=
  column (textOf fields.Name) ++ column (printed fields.Hresult) ++
    column (textOf fields.HelpLink) ++ column (.text fields.dataToString) ++
    column (textOf fields.CallStackString)

def makeQueryforCSExceptionInfo (report : Xml.Report) (m_dumpid : Int32) : Statement :=
  .fixed ("INSERT INTO ExceptionInfo(EName, HResult, HelpLink, Data, CallStack, DumpsDump_ID) " ++
      "VALUES(") ::
    (exceptionColumns report.ExceptionInfo.outermost ++ lastColumn (printed m_dumpid))

/-- The overload for an inner exception. -/
def makeQueryforInnerCSExceptionInfo (exinfo : ExceptionInformation) (exceptionid : Int32)
    (m_dumpid : Int32) : Statement :=
  .fixed ("INSERT INTO ExceptionInfo(EName, HResult, HelpLink, Data, CallStack, InnerExp, " ++
      "DumpsDump_ID) VALUES(") ::
    (exceptionColumns exinfo.outermost ++ column (printed exceptionid) ++
    lastColumn (printed m_dumpid))

def makeQueryforCSCallStackInfo (report : Xml.Report) (m_dumpid : Int32) : Statement :=
  .fixed "INSERT INTO CallStackInfo(Stack, DumpsDump_ID) VALUES(" ::
    (column (.text report.CallStackInfo.toText) ++ lastColumn (printed m_dumpid))

/-! ### All of them -/

/-- The functions that build statements. -/
inductive Builder
  | insert | selectOfProject | selectOfName | addDumpsID
  | exception | module | miscInfo | breakpad | assertion
  | csProjectInfo | csSystemInfo | csExceptionInfo | innerCSExceptionInfo | csCallStackInfo
  deriving DecidableEq, Repr

/-- The statement that a function builds, or the exception that it throws. -/
def query (host : Host) (r : Reported) : Builder → Except RuntimeException Statement
  | .insert => .ok (insert r.fileName r.apikey)
  | .selectOfProject => .ok (selectExp_IDOfProject r.apikey)
  | .selectOfName => .ok (selectExp_IDOfName r.fileName)
  | .addDumpsID => makeQueryforAddDumpsID r.m_smecollector r.m_dumpid
  | .exception => makeQueryforException r.minidump r.m_dumpid
  | .module => .ok (makeQueryforModule r.minidump r.m_dumpid)
  | .miscInfo => makeQueryforMiscInfo host r.minidump r.m_dumpid
  | .breakpad => makeQueryforBreakpad r.minidump r.m_dumpid
  | .assertion => makeQueryforAssertion host r.minidump r.m_dumpid
  | .csProjectInfo => makeQueryforCSProjectInfo r.m_smecollector r.m_dumpid
  | .csSystemInfo => makeQueryforCSSystemInfo r.m_smecollector r.m_dumpid
  | .csExceptionInfo => .ok (makeQueryforCSExceptionInfo r.m_smecollector r.m_dumpid)
  | .innerCSExceptionInfo =>
    .ok (makeQueryforInnerCSExceptionInfo r.exinfo r.exceptionid r.m_dumpid)
  | .csCallStackInfo => .ok (makeQueryforCSCallStackInfo r.m_smecollector r.m_dumpid)

/-! ### What throws -/

section Throwing

variable {report : Xml.Report} {dump : MiniDump} {m_dumpid : Int32}

/-- A statement about what may be null is built if it is not. -/
theorem exists_of_notNull_iff {α : Type} {value : Option α} {f : α → Statement} :
    (∃ s, (notNull value >>= fun a => .ok (f a)) = (.ok s : Except RuntimeException Statement)) ↔
      value.isSome = true := by
  cases value with
  | none => exact ⟨fun ⟨_, h⟩ => (nomatch h), fun h => (nomatch h)⟩
  | some a => exact ⟨fun _ => rfl, fun _ => ⟨f a, rfl⟩⟩

theorem exists_makeQueryforException_iff :
    (∃ s, makeQueryforException dump m_dumpid = .ok s) ↔ dump.ExceptionStream.isSome = true :=
  exists_of_notNull_iff

theorem exists_makeQueryforMiscInfo_iff {host : Host} :
    (∃ s, makeQueryforMiscInfo host dump m_dumpid = .ok s) ↔ dump.MiscInfo.isSome = true :=
  exists_of_notNull_iff

theorem exists_makeQueryforBreakpad_iff :
    (∃ s, makeQueryforBreakpad dump m_dumpid = .ok s) ↔ dump.BreakpadInfo.isSome = true :=
  exists_of_notNull_iff

theorem exists_makeQueryforCSSystemInfo_iff :
    (∃ s, makeQueryforCSSystemInfo report m_dumpid = .ok s) ↔
      report.SystemInfo.ServicePack.isSome = true :=
  exists_of_notNull_iff

theorem exists_makeQueryforCSProjectInfo_iff :
    (∃ s, makeQueryforCSProjectInfo report m_dumpid = .ok s) ↔
      report.ProjectInfo.m_Version.isSome = true := by
  unfold makeQueryforCSProjectInfo projectColumns
  cases report.ProjectInfo.m_Version with
  | none => exact ⟨fun ⟨_, h⟩ => (nomatch h), fun h => (nomatch h)⟩
  | some version => exact ⟨fun _ => rfl, fun _ => ⟨_, rfl⟩⟩

/-- The getters of an assertion never return. -/
theorem exists_makeQueryforAssertion_iff {host : Host} :
    (∃ s, makeQueryforAssertion host dump m_dumpid = .ok s) ↔
      dump.AssertionInfo.isNone = true := by
  unfold makeQueryforAssertion
  cases dump.AssertionInfo with
  | none => exact ⟨fun _ => rfl, fun _ => ⟨_, rfl⟩⟩
  | some info =>
    have hline : ∀ depth, info.line depth = .error .stackOverflow := by
      intro depth
      induction depth with
      | zero => rfl
      | succ depth ih => exact ih
    dsimp only
    rw [hline]
    exact ⟨fun ⟨_, h⟩ => (nomatch h), fun h => (nomatch h)⟩

end Throwing

/-! ### Where the texts stand -/

/-- The functions that put texts of a report into their statements. -/
def Builder.hasText : Builder → Bool
  | .insert | .selectOfName | .addDumpsID | .module | .csProjectInfo | .csSystemInfo
  | .csExceptionInfo | .innerCSExceptionInfo | .csCallStackInfo => true
  | .selectOfProject | .exception | .miscInfo | .breakpad | .assertion => false

open Statement

variable {host : Host} {r : Reported} {b : Builder} {p : Piece} {s : Statement}

theorem quote_notMem_toDigits (n : ℕ) : quote ∉ Nat.toDigits 10 n := fun hquote =>
  absurd (Nat.isDigit_of_mem_toDigits (by decide) (by decide) hquote) (by decide)

theorem quote_notMem_intToString (n : Int32) : quote ∉ (intToString n).toList := by
  unfold intToString
  split_ifs
  · rw [String.toList_append, List.mem_append, Nat.toList_repr, not_or]
    exact ⟨by decide, quote_notMem_toDigits _⟩
  · rw [Nat.toList_repr]
    exact quote_notMem_toDigits _

theorem balanced_printed (n : Int32) : Balanced (printed n) :=
  oddQuotes_of_notMem (quote_notMem_intToString n)

/-- A version is printed in digits and dots. -/
theorem quote_notMem_version (v : Version) : quote ∉ v.toText.toList := by
  intro h
  rcases Version.isDigit_or_eq_of_mem_toText h with hdigit | hdot
  · exact absurd hdigit (by decide)
  · exact absurd hdot (by decide)

theorem balanced_version (v : Version) : Balanced (.fixed v.toText) :=
  oddQuotes_of_notMem (quote_notMem_version v)

theorem balanced_fileVersion (module : MiniDumpModule) : Balanced (.fixed module.fileVersion) := by
  rw [MiniDumpModule.fileVersion_eq_toText]
  exact balanced_version _

theorem balanced_platform (platform : PlatformID) : Balanced (.fixed platform.toText) := by
  show oddQuotes platform.toText.toList = false
  cases platform <;> decide

theorem balanced_bool (value : Bool) : Balanced (.fixed (boolToString value)) := by
  show oddQuotes (boolToString value).toList = false
  cases value <;> decide

theorem balanced_text (value : String) : Balanced (.text value) := trivial

theorem balanced_comma : Balanced (.fixed "','") := (by decide : oddQuotes "','".toList = false)

theorem enclosed_column (hp : Balanced p) : Enclosed (column p) :=
  enclosed_literal [p] (by simpa using hp) (by decide) (by decide)

theorem enclosed_lastColumn (hp : Balanced p) : Enclosed (lastColumn p) :=
  enclosed_literal [p] (by simpa using hp) (by decide) (by decide)

theorem enclosed_projectColumns {info : ProjectInformation} {m_dumpid : Int32}
    (h : projectColumns info m_dumpid = .ok s) : Enclosed s := by
  obtain ⟨version, -, h⟩ := bind_eq_ok_iff.mp h
  obtain rfl := Except.ok.inj h
  refine .append (.append ?_ ?_) ?_
  · exact enclosed_column (balanced_text _)
  · exact enclosed_column (balanced_version version)
  · exact enclosed_lastColumn (balanced_printed m_dumpid)

theorem enclosed_exceptionColumns (fields : ExceptionFields) :
    Enclosed (exceptionColumns fields) := by
  refine .append (.append (.append (.append ?_ ?_) ?_) ?_) ?_
  · exact enclosed_column (balanced_text _)
  · exact enclosed_column (balanced_printed fields.Hresult)
  · exact enclosed_column (balanced_text _)
  · exact enclosed_column (balanced_text _)
  · exact enclosed_column (balanced_text _)

theorem enclosed_insert (dumpname : String) (projectid : Int32) :
    Enclosed (insert dumpname projectid) := by
  refine enclosed_literal [.text dumpname, .fixed "','", printed projectid] ?_
    ((oddQuotes_literal rfl).trans (by decide +kernel)) (by decide)
  simp [balanced_text, balanced_printed, balanced_comma]

theorem enclosed_makeQueryforModule (dump : MiniDump) (m_dumpid : Int32) :
    Enclosed (makeQueryforModule dump m_dumpid) := by
  have hmark : Balanced (.fixed "?") := (by decide : oddQuotes "?".toList = false)
  -- everything between the first quote and the last leaves the quotes balanced
  refine enclosed_literal _ ?_ ((oddQuotes_literal rfl).trans (by decide +kernel)) (by decide)
  intro piece hpiece
  simp only [List.mem_append, List.mem_flatMap, List.mem_cons, List.not_mem_nil, or_false]
    at hpiece
  rcases hpiece with ((⟨module, -, rfl | rfl⟩ | rfl) | ⟨module, -, rfl | rfl⟩) | rfl | rfl
  · exact balanced_text _
  · exact hmark
  · exact balanced_comma
  · exact balanced_fileVersion module
  · exact hmark
  · exact balanced_comma
  · exact balanced_printed m_dumpid

/-- Every text of a report is put inside a literal. -/
theorem enclosed_query (hb : b.hasText = true) (h : query host r b = .ok s) : Enclosed s := by
  cases b with
  | insert =>
    obtain rfl := Except.ok.inj h
    exact enclosed_insert _ _
  | selectOfName =>
    obtain rfl := Except.ok.inj h
    exact enclosed_literal [.text r.fileName] (by simp [balanced_text])
      ((oddQuotes_literal rfl).trans (by decide +kernel)) (by decide)
  | addDumpsID =>
    obtain ⟨columns, hcolumns, rfl⟩ := map_eq_ok_iff.mp h
    exact .fixed ((oddQuotes_literal rfl).trans (by decide +kernel))
      (enclosed_projectColumns hcolumns)
  | module =>
    obtain rfl := Except.ok.inj h
    exact enclosed_makeQueryforModule _ _
  | csProjectInfo =>
    obtain ⟨columns, hcolumns, rfl⟩ := map_eq_ok_iff.mp h
    exact .fixed ((oddQuotes_literal rfl).trans (by decide +kernel))
      (enclosed_projectColumns hcolumns)
  | csSystemInfo =>
    obtain ⟨servicePack, -, h⟩ := bind_eq_ok_iff.mp h
    obtain rfl := Except.ok.inj h
    refine .fixed ((oddQuotes_two_literals rfl rfl).trans (by decide +kernel)) ?_
    -- one literal for each column
    refine .append (.append (.append (.append (.append (.append ?_ ?_) ?_) ?_) ?_) ?_) ?_
    · exact enclosed_column (balanced_platform _)
    · exact enclosed_column (balanced_text _)
    · exact enclosed_column (balanced_version _)
    · exact enclosed_column (balanced_version _)
    · exact enclosed_column (balanced_bool _)
    · exact enclosed_column (balanced_bool _)
    · exact enclosed_lastColumn (balanced_printed _)
  | csExceptionInfo =>
    obtain rfl := Except.ok.inj h
    exact .fixed ((oddQuotes_two_literals rfl rfl).trans (by decide +kernel))
      (.append (enclosed_exceptionColumns _) (enclosed_lastColumn (balanced_printed _)))
  | innerCSExceptionInfo =>
    obtain rfl := Except.ok.inj h
    exact .fixed ((oddQuotes_two_literals rfl rfl).trans (by decide +kernel))
      (.append (.append (enclosed_exceptionColumns _) (enclosed_column (balanced_printed _)))
        (enclosed_lastColumn (balanced_printed _)))
  | csCallStackInfo =>
    obtain rfl := Except.ok.inj h
    exact .fixed ((oddQuotes_literal rfl).trans (by decide +kernel))
      (.append (enclosed_column (balanced_text _)) (enclosed_lastColumn (balanced_printed _)))
  | selectOfProject | exception | miscInfo | breakpad | assertion => cases hb

end SMEWindow.Server

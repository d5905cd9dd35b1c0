import SMEWindow.Lib.InsertStatement
import SMEWindow.Server.TokenStructure

/-!
# The rows that statements insert

The functions that build statements list the columns of a table in one text and append
the values one after the other. Read by the database, the literal in the place of a
column must be the field that the column is named after.

## Main definitions

* `Server.storedFields` — the columns that a function writes, each with the text of the
  field that belongs there
* `Server.header`, `Server.columnNames` — what stands in front of the values, and the
  columns that it names
* `Server.Writes` — a statement is a fixed beginning and the fields between quotes

## Main results

* `begins_header` — every header names its table and its columns
* `parse_of_writes` — such a statement is read as the fields in their columns
* `parse_query` — every listed function builds one
-/

set_option autoImplicit false

namespace SMEWindow.Server

open Collect DumpReader Lib Lib.QuotedText Lib.InsertStatement Lib.Text

/-! ### Columns and fields -/

/-- The functions that insert a row for every report they are called on. -/
def Builder.inserts : Builder → Bool
  | .insert | .exception | .module | .breakpad | .csProjectInfo | .csSystemInfo
  | .csExceptionInfo | .innerCSExceptionInfo | .csCallStackInfo => true
  | .selectOfProject | .selectOfName | .addDumpsID | .miscInfo | .assertion => false

/-- The columns of `NExceptionInfo` for the parameters of an exception. -/
def parameterColumns : List String :=
  ["ExceptionInfo1", "ExceptionInfo2", "ExceptionInfo3", "ExceptionInfo4", "ExceptionInfo5",
    "ExceptionInfo6", "ExceptionInfo7", "ExceptionInfo8", "ExceptionInfo9", "ExceptionInfo10",
    "ExceptionInfo11", "ExceptionInfo12", "ExceptionInfo13", "ExceptionInfo14", "ExceptionInfo15"]

/-- The fields of one level of an exception. -/
def exceptionFields (fields : ExceptionFields) : List (String × String) :=
  [("EName", fields.Name.getD ""), ("HResult", intToString fields.Hresult),
    ("HelpLink", fields.HelpLink.getD ""), ("Data", fields.dataToString),
    ("CallStack", fields.CallStackString.getD "")]

/-- The columns that a function writes, and the field that belongs in each. -/
def storedFields (r : Reported) : Builder → List (String × String)
  | .insert => [("Dump_Name", r.fileName), ("ProjectsProject_ID", intToString r.apikey)]
  | .exception =>
    match r.minidump.ExceptionStream with
    | none => []
    | some stream =>
      [("ThreadID", stream.ThreadId.toNat.repr),
        ("ExceptionCode", toHexString stream.ExceptionRecord.ExceptionCode.toNat),
        ("ExceptionFlags", stream.ExceptionRecord.ExceptionFlags.toNat.repr),
        ("ExceptionAddress", toHexString stream.ExceptionRecord.ExceptionAddress.toNat),
        ("NumberParameters", stream.ExceptionRecord.NumberParameters.toNat.repr),
        ("DataSizePretty", stream.ThreadContext.dataSizePretty)] ++
      parameterColumns.zip (stream.ExceptionRecord.ExceptionInformation.val.map
        fun parameter => toHexString parameter.toNat) ++
      [("DumpsDump_ID", intToString r.m_dumpid)]
  | .module =>
    [("PathAndFileName", String.join (r.minidump.Module.map (·.PathAndFileName ++ "?"))),
      ("FileVersion", String.join (r.minidump.Module.map (·.fileVersion ++ "?"))),
      ("DumpsDump_ID", intToString r.m_dumpid)]
  | .breakpad =>
    match r.minidump.BreakpadInfo with
    | none => []
    | some info =>
      [("Validate", info.validate.toNat.repr), ("DumpthreadID", info.dumpThreadId.toNat.repr),
        ("RequestThreadID", info.requestThreadId.toNat.repr),
        ("DumpsDump_ID", intToString r.m_dumpid)]
  | .csProjectInfo =>
    match r.m_smecollector.ProjectInfo.m_Version with
    | none => []
    | some version =>
      [("ProName", r.m_smecollector.ProjectInfo.Name.getD ""), ("ProVersion", version.toText),
        ("DumpsDump_ID", intToString r.m_dumpid)]
  | .csSystemInfo =>
    match r.m_smecollector.SystemInfo.ServicePack with
    | none => []
    | some servicePack =>
      [("PlatformID", r.m_smecollector.SystemInfo.PlatformID.toText),
        ("ServicePack", servicePack), ("OSVersion", r.m_smecollector.SystemInfo.OSVersion.toText),
        ("CLRVersion", r.m_smecollector.SystemInfo.CLRVersion.toText),
        ("Is64BitOS", boolToString r.m_smecollector.SystemInfo.Is64bitOS),
        ("Is64BitProcess", boolToString r.m_smecollector.SystemInfo.Is64bitProcess),
        ("DumpsDump_ID", intToString r.m_dumpid)]
  | .csExceptionInfo =>
    exceptionFields r.m_smecollector.ExceptionInfo.outermost ++
      [("DumpsDump_ID", intToString r.m_dumpid)]
  | .innerCSExceptionInfo =>
    exceptionFields r.exinfo.outermost ++
      [("InnerExp", intToString r.exceptionid), ("DumpsDump_ID", intToString r.m_dumpid)]
  | .csCallStackInfo =>
    [("Stack", r.m_smecollector.CallStackInfo.toText), ("DumpsDump_ID", intToString r.m_dumpid)]
  | .selectOfProject | .selectOfName | .addDumpsID | .miscInfo | .assertion => []

/-! ### Statements that write fields -/

/-- The statement is a fixed beginning that names a table and the columns, and the fields
between quotes in the same order. -/
def Writes (s : Statement) (table : String) (fields : List (String × String)) : Prop :=
  fields ≠ [] ∧ ∃ header, Begins header table.toList (fields.map fun field => field.1.toList) ∧
    Statement.render s = header ++ valueText (fields.map fun field => field.2.toList)

variable {host : Host} {r : Reported} {b : Builder} {s : Statement} {table : String}
  {fields : List (String × String)}

/-- What a literal with the text between its quotes denotes. -/
def undoubled (text : String) : String := String.ofList (undouble text.toList)

theorem undoubled_eq_self {text : String} (h : quote ∉ text.toList) : undoubled text = text := by
  rw [undoubled, undouble_of_notMem h, String.ofList_toList]

/-- A statement that writes fields with doubled quotes is read as what they denote. -/
theorem parse_of_writes_of_doubled (h : Writes s table fields)
    (hdoubled : ∀ field ∈ fields, Doubled field.2) :
    parse (Statement.render s) = some ⟨table.toList, fields.map fun field => field.1.toList,
      fields.map fun field => (undoubled field.2).toList⟩ := by
  obtain ⟨hne, header, hheader, hrender⟩ := h
  rw [hrender, parse_append_valueText_of_doubled hheader, List.map_map]
  · simp only [undoubled, String.toList_ofList]
    rfl
  · rw [Ne, List.map_eq_nil_iff]
    exact hne
  · intro v hv
    obtain ⟨field, hfield, rfl⟩ := List.mem_map.mp hv
    exact hdoubled field hfield

/-- A statement that writes fields without quotes is read as these fields. -/
theorem parse_of_writes (h : Writes s table fields)
    (hquotes : ∀ field ∈ fields, quote ∉ field.2.toList) :
    ∃ insert, parse (Statement.render s) = some insert ∧
      insert.columns = fields.map (fun field => field.1.toList) ∧
      insert.values = fields.map (fun field => field.2.toList) := by
  refine ⟨_, parse_of_writes_of_doubled h fun field hfield =>
    doubled_of_notMem (hquotes field hfield), rfl, ?_⟩
  exact List.map_congr_left fun field hfield => by rw [undoubled_eq_self (hquotes field hfield)]

/-- What is read in a column is the field that was written there. -/
theorem lookup_of_parse {insert : Insert}
    (hcolumns : insert.columns = fields.map fun field => field.1.toList)
    (hvalues : insert.values = fields.map fun field => field.2.toList) (column : String) :
    insert.lookup column = fields.lookup column := by
  rw [Insert.lookup, Insert.record, hcolumns, hvalues, List.map_map, List.map_map,
    List.zip_map']
  simp

/-- The first field is read as written, whatever the others are, if the whole is read. -/
theorem lookup_head_of_parse {field : String × String} {insert : Insert}
    (h : Writes s table (field :: fields)) (hne : fields ≠ [])
    (hquote : quote ∉ field.2.toList) (hparse : parse (Statement.render s) = some insert) :
    insert.lookup field.1 = some field.2 := by
  obtain ⟨-, header, hheader, hrender⟩ := h
  have hmap : fields.map (fun field => field.2.toList) ≠ [] := by
    rw [Ne, List.map_eq_nil_iff]
    exact hne
  rw [hrender, List.map_cons, ← List.singleton_append, valueText_append _ hmap] at hparse
  obtain ⟨hcolumns, more, hvalues⟩ := values_of_parse hheader (by simpa using hquote) hparse
  rw [Insert.lookup, Insert.record, hcolumns, hvalues, List.map_cons, List.map_cons,
    String.ofList_toList, List.singleton_append, List.map_cons, String.ofList_toList,
    List.zip_cons_cons, List.lookup_cons_self]

/-! ### Headers -/

/-- The text in front of the values. -/
def header : Builder → String
  | .insert => "Insert INTO Dumps(Dump_Name, ProjectsProject_ID) VALUES("
  | .exception =>
    "INSERT INTO NExceptionInfo(ThreadID, ExceptionCode, ExceptionFlags, " ++
      "ExceptionAddress, NumberParameters, DataSizePretty, " ++
      "ExceptionInfo1, ExceptionInfo2, ExceptionInfo3, ExceptionInfo4, ExceptionInfo5, " ++
      "ExceptionInfo6, ExceptionInfo7, ExceptionInfo8, ExceptionInfo9, " ++
      "ExceptionInfo10, ExceptionInfo11, ExceptionInfo12, ExceptionInfo13, ExceptionInfo14, " ++
      "ExceptionInfo15, DumpsDump_ID)" ++ "VALUES ("
  | .module => "INSERT INTO NModule(PathAndFileName, FileVersion, DumpsDump_ID) VALUES("
  | .breakpad =>
    "INSERT INTO NBreakpad(Validate, DumpthreadID, RequestThreadID, DumpsDump_ID) " ++ "VALUES("
  | .csProjectInfo => "INSERT INTO ProjectInfo(ProName, ProVersion, DumpsDump_ID) VALUES("
  | .csSystemInfo =>
    "INSERT INTO SystemInfo(PlatformID, ServicePack, OSVersion, CLRVersion, " ++
      "Is64BitOS, Is64BitProcess, DumpsDump_ID) VALUES("
  | .csExceptionInfo =>
    "INSERT INTO ExceptionInfo(EName, HResult, HelpLink, Data, CallStack, DumpsDump_ID) " ++
      "VALUES("
  | .innerCSExceptionInfo =>
    "INSERT INTO ExceptionInfo(EName, HResult, HelpLink, Data, CallStack, InnerExp, " ++
      "DumpsDump_ID) VALUES("
  | .csCallStackInfo => "INSERT INTO CallStackInfo(Stack, DumpsDump_ID) VALUES("
  | .selectOfProject | .selectOfName | .addDumpsID | .miscInfo | .assertion => ""

/-- The table of a header. -/
def tableName : Builder → String
  | .insert => "Dumps"
  | .exception => "NExceptionInfo"
  | .module => "NModule"
  | .breakpad => "NBreakpad"
  | .csProjectInfo => "ProjectInfo"
  | .csSystemInfo => "SystemInfo"
  | .csExceptionInfo | .innerCSExceptionInfo => "ExceptionInfo"
  | .csCallStackInfo => "CallStackInfo"
  | .miscInfo => "NMiscInfo"
  | .assertion => "NAssertion"
  | .selectOfProject | .selectOfName | .addDumpsID => ""

/-- The columns of a header. -/
def columnNames : Builder → List String
  | .insert => ["Dump_Name", "ProjectsProject_ID"]
  | .exception =>
    ["ThreadID", "ExceptionCode", "ExceptionFlags", "ExceptionAddress", "NumberParameters",
      "DataSizePretty"] ++ parameterColumns ++ ["DumpsDump_ID"]
  | .module => ["PathAndFileName", "FileVersion", "DumpsDump_ID"]
  | .breakpad => ["Validate", "DumpthreadID", "RequestThreadID", "DumpsDump_ID"]
  | .csProjectInfo => ["ProName", "ProVersion", "DumpsDump_ID"]
  | .csSystemInfo =>
    ["PlatformID", "ServicePack", "OSVersion", "CLRVersion", "Is64BitOS", "Is64BitProcess",
      "DumpsDump_ID"]
  | .csExceptionInfo => ["EName", "HResult", "HelpLink", "Data", "CallStack", "DumpsDump_ID"]
  | .innerCSExceptionInfo =>
    ["EName", "HResult", "HelpLink", "Data", "CallStack", "InnerExp", "DumpsDump_ID"]
  | .csCallStackInfo => ["Stack", "DumpsDump_ID"]
  | .selectOfProject | .selectOfName | .addDumpsID | .miscInfo | .assertion => []

/-- Every header names its table and its columns. -/
theorem begins_header (b : Builder) (hb : b.inserts = true) :
    Begins (header b).toList (tableName b).toList ((columnNames b).map String.toList) := by
  cases b with
  | selectOfProject | selectOfName | addDumpsID | miscInfo | assertion => cases hb
  | insert => exact begins_of_toList (toList_literal rfl) (by decide +kernel)
  | exception =>
    exact begins_of_toList (toList_append_literal (toList_append_literal (toList_append_literal
      (toList_append_literal (toList_append_literal (toList_append_literal (toList_literal rfl)
      rfl) rfl) rfl) rfl) rfl) rfl) (by decide +kernel)
  | module => exact begins_of_toList (toList_literal rfl) (by decide +kernel)
  | breakpad =>
    exact begins_of_toList (toList_append_literal (toList_literal rfl) rfl) (by decide +kernel)
  | csProjectInfo => exact begins_of_toList (toList_literal rfl) (by decide +kernel)
  | csSystemInfo =>
    exact begins_of_toList (toList_append_literal (toList_literal rfl) rfl) (by decide +kernel)
  | csExceptionInfo =>
    exact begins_of_toList (toList_append_literal (toList_literal rfl) rfl) (by decide +kernel)
  | innerCSExceptionInfo =>
    exact begins_of_toList (toList_append_literal (toList_literal rfl) rfl) (by decide +kernel)
  | csCallStackInfo => exact begins_of_toList (toList_literal rfl) (by decide +kernel)

/-! ### What is written -/

theorem render_cons (p : Piece) (s : Statement) :
    Statement.render (p :: s) = Statement.pieceChars p ++ Statement.render s := rfl

theorem render_append (s s' : Statement) :
    Statement.render (s ++ s') = Statement.render s ++ Statement.render s' :=
  List.flatMap_append

theorem render_column (p : Piece) :
    Statement.render (column p) = columnText (Statement.pieceChars p) := by
  rw [column, render_cons, render_cons, render_cons, columnText]
  rfl

theorem render_lastColumn (p : Piece) :
    Statement.render (lastColumn p) = lastText (Statement.pieceChars p) := by
  rw [lastColumn, render_cons, render_cons, render_cons, lastText]
  rfl

/-- A statement that names its columns and has one value between quotes for each. -/
theorem writes_of {header : String} {names : List String}
    (hheader : Begins header.toList table.toList (names.map String.toList)) (hne : fields ≠ [])
    (hnames : fields.map Prod.fst = names)
    (hrender : Statement.render s =
      header.toList ++ valueText (fields.map fun field => field.2.toList)) :
    Writes s table fields := by
  rw [← hnames, List.map_map] at hheader
  exact ⟨hne, header.toList, hheader, hrender⟩

theorem writes_insert (r : Reported) :
    Writes (insert r.fileName r.apikey) (tableName .insert) (storedFields r .insert) := by
  have hopen : "Insert INTO Dumps(Dump_Name, ProjectsProject_ID) VALUES('".toList =
      (header .insert).toList ++ [quote] := by
    rw [toList_literal rfl, @toList_literal (header .insert) _ rfl]
    rfl
  refine writes_of (begins_header .insert rfl) (List.cons_ne_nil _ _) rfl ?_
  simp only [insert, render_cons, Statement.pieceChars, hopen, printed]
  simp [columnText, lastText, quote, Statement.render, valueText, storedFields]

/-- The texts of a list of modules, with a question mark behind each. -/
theorem render_flatMap_mark {α : Type} (piece : α → Piece) (l : List α) :
    Statement.render (l.flatMap fun a => [piece a, .fixed "?"]) =
      (String.join (l.map fun a =>
        String.ofList (Statement.pieceChars (piece a)) ++ "?")).toList := by
  induction l with
  | nil => simp [Statement.render]
  | cons a l ih =>
    rw [List.flatMap_cons, render_append, ih]
    simp [Statement.render, Statement.pieceChars]

theorem render_makeQueryforModule (dump : MiniDump) (m_dumpid : Int32) :
    Statement.render (makeQueryforModule dump m_dumpid) = (header .module).toList ++
      valueText [(String.join (dump.Module.map (·.PathAndFileName ++ "?"))).toList,
        (String.join (dump.Module.map (·.fileVersion ++ "?"))).toList,
        (intToString m_dumpid).toList] := by
  have hopen :
      "INSERT INTO NModule(PathAndFileName, FileVersion, DumpsDump_ID) VALUES('".toList =
        (header .module).toList ++ [quote] := by
    rw [toList_literal rfl, @toList_literal (header .module) _ rfl]
    rfl
  rw [makeQueryforModule, render_cons, render_append, render_append, render_append, render_append,
    render_flatMap_mark, render_flatMap_mark]
  simp [columnText, lastText, quote, Statement.render, Statement.pieceChars, valueText, hopen,
    printed]

theorem writes_makeQueryforModule (r : Reported) :
    Writes (makeQueryforModule r.minidump r.m_dumpid) (tableName .module)
      (storedFields r .module) :=
  writes_of (begins_header .module rfl) (List.cons_ne_nil _ _) rfl (render_makeQueryforModule _ _)

theorem writes_makeQueryforBreakpad (h : query host r .breakpad = .ok s) :
    Writes s (tableName .breakpad) (storedFields r .breakpad) := by
  obtain ⟨info, hinfo, h⟩ := bind_eq_ok_iff.mp h
  obtain rfl := Except.ok.inj h
  rw [storedFields, Option.mem_def.mp (mem_of_notNull hinfo)]
  refine writes_of (begins_header .breakpad rfl) (List.cons_ne_nil _ _) rfl ?_
  simp only [render_cons, render_append, render_column, render_lastColumn, Statement.pieceChars,
    printed, printedNat, List.append_assoc]
  rfl

theorem writes_makeQueryforCSProjectInfo (h : query host r .csProjectInfo = .ok s) :
    Writes s (tableName .csProjectInfo) (storedFields r .csProjectInfo) := by
  obtain ⟨columns, hcolumns, rfl⟩ := map_eq_ok_iff.mp h
  obtain ⟨version, hversion, hcolumns⟩ := bind_eq_ok_iff.mp hcolumns
  obtain rfl := Except.ok.inj hcolumns
  rw [storedFields, Option.mem_def.mp (mem_of_notNull hversion)]
  refine writes_of (begins_header .csProjectInfo rfl) (List.cons_ne_nil _ _) rfl ?_
  simp only [render_cons, render_append, render_column, render_lastColumn, Statement.pieceChars,
    printed, textOf, List.append_assoc]
  rfl

theorem writes_makeQueryforCSSystemInfo (h : query host r .csSystemInfo = .ok s) :
    Writes s (tableName .csSystemInfo) (storedFields r .csSystemInfo) := by
  obtain ⟨servicePack, hservicePack, h⟩ := bind_eq_ok_iff.mp h
  obtain rfl := Except.ok.inj h
  rw [storedFields, Option.mem_def.mp (mem_of_notNull hservicePack)]
  refine writes_of (begins_header .csSystemInfo rfl) (List.cons_ne_nil _ _) rfl ?_
  simp only [render_cons, render_append, render_column, render_lastColumn, Statement.pieceChars,
    printed, List.append_assoc]
  rfl

theorem writes_makeQueryforCSExceptionInfo (report : Xml.Report) (m_dumpid : Int32) :
    Writes (makeQueryforCSExceptionInfo report m_dumpid) (tableName .csExceptionInfo)
      (exceptionFields report.ExceptionInfo.outermost ++
        [("DumpsDump_ID", intToString m_dumpid)]) := by
  refine writes_of (begins_header .csExceptionInfo rfl) (List.cons_ne_nil _ _) rfl ?_
  simp only [makeQueryforCSExceptionInfo, exceptionColumns, render_cons, render_append,
    render_column, render_lastColumn, Statement.pieceChars, printed, textOf, List.append_assoc]
  rfl

theorem writes_makeQueryforInnerCSExceptionInfo (r : Reported) :
    Writes (makeQueryforInnerCSExceptionInfo r.exinfo r.exceptionid r.m_dumpid)
      (tableName .innerCSExceptionInfo) (storedFields r .innerCSExceptionInfo) := by
  refine writes_of (begins_header .innerCSExceptionInfo rfl) (List.cons_ne_nil _ _) rfl ?_
  simp only [makeQueryforInnerCSExceptionInfo, exceptionColumns, render_cons, render_append,
    render_column, render_lastColumn, Statement.pieceChars, printed, textOf, List.append_assoc]
  rfl

theorem writes_makeQueryforCSCallStackInfo (r : Reported) :
    Writes (makeQueryforCSCallStackInfo r.m_smecollector r.m_dumpid) (tableName .csCallStackInfo)
      (storedFields r .csCallStackInfo) := by
  refine writes_of (begins_header .csCallStackInfo rfl) (List.cons_ne_nil _ _) rfl ?_
  simp only [makeQueryforCSCallStackInfo, render_cons, render_append, render_column,
    render_lastColumn, Statement.pieceChars, printed]
  rfl

theorem render_flatMap_column {α : Type} (value : α → String) (l : List α) :
    Statement.render (l.flatMap fun a => column (.fixed (value a))) =
      (l.map fun a => (value a).toList).flatMap columnText := by
  induction l with
  | nil => rfl
  | cons a l ih =>
    rw [List.flatMap_cons, render_append, render_column, ih]
    rfl

theorem writes_makeQueryforException (h : query host r .exception = .ok s) :
    Writes s (tableName .exception) (storedFields r .exception) := by
  obtain ⟨stream, hstream, h⟩ := bind_eq_ok_iff.mp h
  obtain rfl := Except.ok.inj h
  rw [storedFields, Option.mem_def.mp (mem_of_notNull hstream)]
  -- there are as many columns for parameters as parameters
  have hlength : parameterColumns.length = (stream.ExceptionRecord.ExceptionInformation.val.map
      fun parameter => toHexString parameter.toNat).length := by
    rw [List.length_map, stream.ExceptionRecord.ExceptionInformation.property]
    rfl
  refine writes_of (begins_header .exception rfl) (by simp) ?_ ?_
  · rw [List.map_append, List.map_append, List.map_fst_zip hlength.le]
    rfl
  · have hvalues : (parameterColumns.zip (stream.ExceptionRecord.ExceptionInformation.val.map
        fun parameter => toHexString parameter.toNat)).map (fun field => field.2.toList) =
        stream.ExceptionRecord.ExceptionInformation.val.map
          fun parameter => (toHexString parameter.toNat).toList := by
      have hsnd := congrArg (List.map String.toList) (List.map_snd_zip hlength.ge)
      rw [List.map_map, List.map_map] at hsnd
      exact hsnd
    rw [List.map_append, List.map_append, hvalues, valueText_append _ (by simp),
      List.flatMap_append]
    simp only [render_cons, render_append, render_column, render_lastColumn,
      render_flatMap_column, Statement.pieceChars, printed, printedNat, List.map_cons,
      List.map_nil, List.flatMap_cons, List.flatMap_nil, List.append_assoc, List.append_nil,
      valueText]
    rfl

/-! ### Fields without quotes -/

/-- A text without quotes. -/
def Unquoted (text : String) : Prop := quote ∉ text.toList

theorem unquoted_empty : Unquoted "" := List.not_mem_nil

theorem unquoted_nil : ∀ field ∈ ([] : List (String × String)), Unquoted field.2 :=
  fun _ h => absurd h List.not_mem_nil

theorem Unquoted.append {t u : String} (ht : Unquoted t) (hu : Unquoted u) : Unquoted (t ++ u) := by
  rw [Unquoted, String.toList_append, List.mem_append, not_or]
  exact ⟨ht, hu⟩

theorem unquoted_repr (n : ℕ) : Unquoted n.repr := by
  rw [Unquoted, Nat.toList_repr]
  exact quote_notMem_toDigits n

theorem unquoted_intToString (n : Int32) : Unquoted (intToString n) := quote_notMem_intToString n

theorem unquoted_toHexString (n : ℕ) : Unquoted (toHexString n) := by
  have hdigit : ∀ d : Fin 16, quote ≠ Nat.digitChar d := by decide
  rw [Unquoted, toHexString, String.toList_ofList]
  induction n using Nat.strongRecOn with
  | ind n ih =>
    rw [Nat.toDigits_eq_if (by decide)]
    split_ifs with hlt
    · rw [List.mem_singleton]
      exact hdigit ⟨n, hlt⟩
    · rw [List.mem_append, not_or, List.mem_singleton]
      exact ⟨ih (n / 16) (by omega), hdigit ⟨n % 16, Nat.mod_lt n (by decide)⟩⟩

theorem unquoted_version (version : Version) : Unquoted version.toText :=
  quote_notMem_version version

theorem unquoted_dataSizePretty (location : MiniDumpLocationDescriptor) :
    Unquoted location.dataSizePretty := by
  have hdecimal : ∀ n d, Unquoted (MiniDumpLocationDescriptor.oneDecimal n d) := by
    intro n d
    unfold MiniDumpLocationDescriptor.oneDecimal
    dsimp only
    split_ifs
    · exact unquoted_repr _
    · exact ((unquoted_repr _).append (by unfold Unquoted; decide)).append (unquoted_repr _)
  have hpretty : ∀ size unit name names, Unquoted name → (∀ next ∈ names, Unquoted next) →
      Unquoted (MiniDumpLocationDescriptor.prettyFrom size unit name names) := by
    intro size unit name names hname hnames
    induction names generalizing unit name with
    | nil => exact ((hdecimal _ _).append (by unfold Unquoted; decide)).append hname
    | cons next names ih =>
      rw [List.forall_mem_cons] at hnames
      unfold MiniDumpLocationDescriptor.prettyFrom
      split_ifs
      · exact ih _ next hnames.1 hnames.2
      · exact ((hdecimal _ _).append (by unfold Unquoted; decide)).append hname
  refine hpretty _ _ _ _ ?_ ?_
  · unfold Unquoted
    decide
  · unfold Unquoted
    decide

theorem unquoted_fileVersion (module : MiniDumpModule) : Unquoted module.fileVersion := by
  rw [MiniDumpModule.fileVersion_eq_toText]
  exact unquoted_version _

theorem unquoted_platform (platform : PlatformID) : Unquoted platform.toText := by
  unfold Unquoted
  cases platform <;> decide

theorem unquoted_bool (value : Bool) : Unquoted (boolToString value) := by
  unfold Unquoted
  cases value <;> decide

/-- A property of texts that is kept when they are put together, and that texts without
quotes have. -/
structure Closed (P : String → Prop) : Prop where
  append : ∀ {t u : String}, P t → P u → P (t ++ u)
  of_unquoted : ∀ {t : String}, Unquoted t → P t

theorem closed_unquoted : Closed Unquoted := ⟨Unquoted.append, id⟩

theorem closed_doubled : Closed Doubled := ⟨Doubled.append, doubled_of_notMem⟩

namespace Closed

variable {P : String → Prop} (hP : Closed P)

include hP

theorem empty : P "" := hP.of_unquoted unquoted_empty

theorem join {texts : List String} (h : ∀ t ∈ texts, P t) : P (String.join texts) :=
  List.foldlRecOn _ _ hP.empty fun _ hjoined t ht => hP.append hjoined (h t ht)

theorem marked {α : Type} {text : α → String} {l : List α} (h : ∀ a ∈ l, P (text a)) :
    P (String.join (l.map (text · ++ "?"))) := by
  refine hP.join fun t ht => ?_
  obtain ⟨a, ha, rfl⟩ := List.mem_map.mp ht
  refine hP.append (h a ha) (hP.of_unquoted ?_)
  unfold Unquoted
  decide

theorem exceptionFields {fields : ExceptionFields} (h : ∀ t ∈ fieldTexts fields, P t) :
    ∀ field ∈ exceptionFields fields, P field.2 := by
  have hdata : P fields.dataToString := by
    refine dataToString_of_forall hP.empty hP.append (hP.of_unquoted ?_) h
    unfold Unquoted
    decide
  simp only [fieldTexts, List.forall_mem_append] at h
  obtain ⟨⟨⟨hname, hhelpLink⟩, -⟩, hcallStack⟩ := h
  simp only [Server.exceptionFields, List.forall_mem_cons]
  exact ⟨getD_of_forall hP.empty hname, hP.of_unquoted (unquoted_intToString _),
    getD_of_forall hP.empty hhelpLink, hdata, getD_of_forall hP.empty hcallStack,
    List.forall_mem_nil _⟩

/-- What holds of the texts of a report holds of the fields that are stored. -/
theorem storedFields (hr : ∀ t ∈ r.texts, P t) (b : Builder) :
    ∀ field ∈ storedFields r b, P field.2 := by
  simp only [Reported.texts, List.forall_mem_append, List.forall_mem_singleton] at hr
  obtain ⟨⟨⟨⟨⟨⟨hfileName, hname⟩, hservicePack⟩, hexception⟩, hexinfo⟩, hframes⟩, hpaths⟩ := hr
  -- what is printed from a number has no quotes
  have hint (n : Int32) : P (intToString n) := hP.of_unquoted (unquoted_intToString n)
  have hnat (n : ℕ) : P n.repr := hP.of_unquoted (unquoted_repr n)
  have hhex (n : ℕ) : P (toHexString n) := hP.of_unquoted (unquoted_toHexString n)
  have hversion (version : Version) : P version.toText := hP.of_unquoted (unquoted_version version)
  have hbool (value : Bool) : P (boolToString value) := hP.of_unquoted (unquoted_bool value)
  cases b with
  | selectOfProject | selectOfName | addDumpsID | miscInfo | assertion =>
    exact List.forall_mem_nil _
  | insert =>
    simp only [Server.storedFields, List.forall_mem_cons]
    exact ⟨hfileName, hint _, List.forall_mem_nil _⟩
  | exception =>
    rw [Server.storedFields]
    split
    · exact List.forall_mem_nil _
    · next stream hstream =>
      simp only [List.forall_mem_append, List.forall_mem_cons]
      refine ⟨⟨⟨hnat _, hhex _, hnat _, hhex _, hnat _,
        hP.of_unquoted (unquoted_dataSizePretty _), List.forall_mem_nil _⟩, ?_⟩, hint _,
        List.forall_mem_nil _⟩
      intro field hfield
      obtain ⟨parameter, -, hparameter⟩ := List.mem_map.mp (List.of_mem_zip hfield).2
      rw [← hparameter]
      exact hhex _
  | module =>
    simp only [Server.storedFields, List.forall_mem_cons]
    refine ⟨hP.marked fun module hmodule => ?_,
      hP.marked fun module _ => hP.of_unquoted (unquoted_fileVersion module), hint _,
      List.forall_mem_nil _⟩
    exact hpaths _ (List.mem_map_of_mem hmodule)
  | breakpad =>
    rw [Server.storedFields]
    split
    · exact List.forall_mem_nil _
    · simp only [List.forall_mem_cons]
      exact ⟨hnat _, hnat _, hnat _, hint _, List.forall_mem_nil _⟩
  | csProjectInfo =>
    rw [Server.storedFields]
    split
    · exact List.forall_mem_nil _
    · simp only [List.forall_mem_cons]
      exact ⟨getD_of_forall hP.empty hname, hversion _, hint _, List.forall_mem_nil _⟩
  | csSystemInfo =>
    rw [Server.storedFields]
    split
    · exact List.forall_mem_nil _
    · next servicePack hsome =>
      simp only [List.forall_mem_cons]
      refine ⟨hP.of_unquoted (unquoted_platform _), hservicePack servicePack ?_, hversion _,
        hversion _, hbool _, hbool _, hint _, List.forall_mem_nil _⟩
      exact Option.mem_toList.mpr hsome
  | csExceptionInfo =>
    simp only [Server.storedFields, List.forall_mem_append, List.forall_mem_cons]
    exact ⟨hP.exceptionFields hexception, hint _, List.forall_mem_nil _⟩
  | innerCSExceptionInfo =>
    simp only [Server.storedFields, List.forall_mem_append, List.forall_mem_cons]
    exact ⟨hP.exceptionFields hexinfo, hint _, hint _, List.forall_mem_nil _⟩
  | csCallStackInfo =>
    simp only [Server.storedFields, List.forall_mem_cons]
    refine ⟨toText_of_forall hP.empty hP.append ?_ hint hframes, hint _, List.forall_mem_nil _⟩
    -- the texts around those of the frames are fixed
    refine fun t ht => hP.of_unquoted ?_
    revert t
    unfold Unquoted
    decide

end Closed

/-! ### Every statement -/

theorem writes_query (hb : b.inserts = true) (h : query host r b = .ok s) :
    Writes s (tableName b) (storedFields r b) := by
  cases b with
  | selectOfProject | selectOfName | addDumpsID | miscInfo | assertion => cases hb
  | insert => exact Except.ok.inj h ▸ writes_insert r
  | exception => exact writes_makeQueryforException h
  | module => exact Except.ok.inj h ▸ writes_makeQueryforModule r
  | breakpad => exact writes_makeQueryforBreakpad h
  | csProjectInfo => exact writes_makeQueryforCSProjectInfo h
  | csSystemInfo => exact writes_makeQueryforCSSystemInfo h
  | csExceptionInfo => exact Except.ok.inj h ▸ writes_makeQueryforCSExceptionInfo _ _
  | innerCSExceptionInfo => exact Except.ok.inj h ▸ writes_makeQueryforInnerCSExceptionInfo r
  | csCallStackInfo => exact Except.ok.inj h ▸ writes_makeQueryforCSCallStackInfo r

/-- Every statement that one of these functions builds from a report whose texts have no
quotes is one INSERT with as many literals as columns, and the literal in the place of
each column is the field that belongs there. -/
theorem parse_query (hb : b.inserts = true) (hr : ∀ t ∈ r.texts, quote ∉ t.toList)
    (h : query host r b = .ok s) :
    ∃ insert, parse (Statement.render s) = some insert ∧
      insert.values.length = insert.columns.length ∧
      (insert.columns.map String.ofList).zip (insert.values.map String.ofList) =
        storedFields r b := by
  obtain ⟨insert, hparse, hcolumns, hvalues⟩ :=
    parse_of_writes (writes_query hb h) (closed_unquoted.storedFields hr b)
  refine ⟨insert, hparse, ?_, ?_⟩
  · rw [hcolumns, hvalues, List.length_map, List.length_map]
  · rw [hcolumns, hvalues, List.map_map, List.map_map, List.zip_map']
    simp

/-- The statement about a module whose path is `a`. -/
theorem parse_query_probe : ∃ insert,
    parse (Statement.render (makeQueryforModule (probe "a").minidump 0)) = some insert ∧
      insert.values.length = insert.columns.length ∧
      (insert.columns.map String.ofList).zip (insert.values.map String.ofList) =
        [("PathAndFileName", "a?"), ("FileVersion", "0.0.0.0?"), ("DumpsDump_ID", "0")] :=
  @parse_query ⟨fun _ => "", 0⟩ (probe "a") .module _ rfl (by decide) rfl

end SMEWindow.Server

import SMEWindow.Server.InsertedRows

/-!
# The rows of a native dump

Two rows of a native dump are built from records with cases. Of the levels of `MiscInfo`
each is to add columns to those of the level below it, but the cases exclude each other,
so every level writes its own columns and leaves those below empty. An assertion is
printed through getters that call themselves, and its row is never built.

## Main definitions

* `Server.recordFields` — the columns of `NMiscInfo` that belong to a record, with its
  fields
* `Server.HoldsRecord` — the row holds the record
* `Server.HoldsAssertion` — the row of an assertion is built and holds it

## Main results

* `holdsRecord_iff` — rows hold the records of the first level, and no others
* `not_holdsAssertion` — there is no row for an assertion
-/

set_option autoImplicit false

namespace SMEWindow.Server

open DumpReader Lib Lib.QuotedText Lib.InsertStatement Lib.Text

/-! ### Misc info -/

/-- The columns from the first level on. -/
def miscFields (host : Host) (info : MiscInfo) : List (String × String) :=
  [("SizeOfInfo", info.SizeOfInfo.toNat.repr), ("ProcessID", info.ProcessId.toNat.repr),
    ("ProcessCreateTime", host.timeText info.ProcessCreateTime),
    ("UserTime", info.ProcessUserTime.toNat.repr),
    ("KernelTime", info.ProcessKernelTime.toNat.repr)]

/-- The columns from the second level on. -/
def misc2Fields (info : MiscInfo2) : List (String × String) :=
  [("ProcessorMaxMHz", info.ProcessorMaxMhz.toNat.repr),
    ("CurrentMhz", info.ProcessorCurrentMhz.toNat.repr),
    ("MhzLimit", info.ProcessorMhzLimit.toNat.repr),
    ("MaxIdleState", info.ProcessorMaxIdleState.toNat.repr),
    ("CurrentIdleState", info.ProcessorCurrentIdleState.toNat.repr)]

/-- The columns from the third level on. -/
def misc3Fields (info : MiscInfo3) : List (String × String) :=
  [("ProcessIntegrityLevel", info.ProcessIntegrityLevel.toNat.repr),
    ("ExecuteFlags", info.ProcessExecuteFlags.toNat.repr),
    ("ProtectedProcess", info.ProtectedProcess.toNat.repr),
    ("TimeZoneId", info.TimeZoneId.toNat.repr), ("TimeZone", info.StandardName)]

/-- The columns of the fourth level. -/
def misc4Fields (info : MiscInfo4) : List (String × String) :=
  [("BuildString", info.BuildString), ("DbgBldStr", info.DbgBldStr)]

/-- The columns of a record: those of its level and of every level below, with the fields
as they are in the dump. -/
def recordFields (host : Host) : MiniDumpMiscInfo → List (String × String)
  | .miscInfo info => miscFields host info
  | .miscInfo2 info => miscFields host info.toMiscInfo ++ misc2Fields info
  | .miscInfo3 info =>
    miscFields host info.toMiscInfo ++ misc2Fields info.toMiscInfo2 ++ misc3Fields info
  | .miscInfo4 info =>
    miscFields host info.toMiscInfo ++ misc2Fields info.toMiscInfo2 ++
      misc3Fields info.toMiscInfo3 ++ misc4Fields info

/-- The row of `NMiscInfo` is built and has every field of the record in its column. -/
def HoldsRecord (host : Host) (dump : MiniDump) (m_dumpid : Int32) (info : MiniDumpMiscInfo) :
    Prop :=
  ∃ s insert, makeQueryforMiscInfo host { dump with MiscInfo := some info } m_dumpid = .ok s ∧
    parse (Statement.render s) = some insert ∧
    ∀ field ∈ recordFields host info, insert.lookup field.1 = some field.2

/-- The columns as they are written. -/
def MiscInfoColumns.fields (values : MiscInfoColumns) (m_dumpid : Int32) : List (String × String) :=
  [("SizeOfInfo", values.SizeOfInfo), ("ProcessID", values.ProcessID),
    ("ProcessCreateTime", values.ProcessCreateTime), ("UserTime", values.UserTime),
    ("KernelTime", values.KernelTime), ("ProcessorMaxMHz", values.ProcessorMaxMHz),
    ("CurrentMhz", values.CurrentMhz), ("MhzLimit", values.MhzLimit),
    ("MaxIdleState", values.MaxIdleState), ("CurrentIdleState", values.CurrentIdleState),
    ("ProcessIntegrityLevel", values.ProcessIntegrityLevel), ("ExecuteFlags", values.ExecuteFlags),
    ("ProtectedProcess", values.ProtectedProcess), ("TimeZoneId", values.TimeZoneId),
    ("TimeZone", values.TimeZone), ("BuildString", values.BuildString),
    ("DbgBldStr", values.DbgBldStr), ("DumpsDump_ID", intToString m_dumpid)]

theorem begins_miscInfo : Begins
    ("INSERT INTO NMiscInfo(SizeOfInfo, ProcessID, ProcessCreateTime, UserTime, " ++
      "KernelTime, ProcessorMaxMHz, CurrentMhz, MhzLimit," ++
      "MaxIdleState, CurrentIdleState, ProcessIntegrityLevel, ExecuteFlags, ProtectedProcess, " ++
      "TimeZoneId, TimeZone," ++ "BuildString, DbgBldStr, DumpsDump_ID) VALUES (").toList
    "NMiscInfo".toList
    (["SizeOfInfo", "ProcessID", "ProcessCreateTime", "UserTime", "KernelTime", "ProcessorMaxMHz",
      "CurrentMhz", "MhzLimit", "MaxIdleState", "CurrentIdleState", "ProcessIntegrityLevel",
      "ExecuteFlags", "ProtectedProcess", "TimeZoneId", "TimeZone", "BuildString", "DbgBldStr",
      "DumpsDump_ID"].map String.toList) :=
  begins_of_toList (toList_append_literal (toList_append_literal (toList_append_literal
    (toList_append_literal (toList_literal rfl) rfl) rfl) rfl) rfl) (by decide +kernel)

variable {host : Host} {dump : MiniDump} {m_dumpid : Int32} {info : MiniDumpMiscInfo}
  {s : Statement}

theorem writes_makeQueryforMiscInfo
    (h : makeQueryforMiscInfo host { dump with MiscInfo := some info } m_dumpid = .ok s) :
    Writes s (tableName .miscInfo) ((miscInfoColumns host info).fields m_dumpid) := by
  obtain rfl := Except.ok.inj h
  refine writes_of begins_miscInfo (List.cons_ne_nil _ _) rfl ?_
  simp only [render_cons, render_append, render_column, render_lastColumn, Statement.pieceChars,
    printed, MiscInfoColumns.fields, List.map_cons, List.map_nil, List.flatMap_cons,
    List.flatMap_nil, List.append_assoc, List.nil_append, valueText]

/-- Above the first level the column for the size is empty. -/
theorem sizeOfInfo_eq_empty (h : info.MiscInfoLevel ≠ .MiscInfo) :
    (miscInfoColumns host info).SizeOfInfo = "" := by
  cases info with
  | miscInfo info => exact absurd rfl h
  | miscInfo2 info => rfl
  | miscInfo3 info => rfl
  | miscInfo4 info => rfl

/-- The size of every record belongs in the row. -/
theorem sizeOfInfo_mem_recordFields (host : Host) (info : MiniDumpMiscInfo) :
    ("SizeOfInfo", info.record.SizeOfInfo.toNat.repr) ∈ recordFields host info := by
  cases info <;> exact List.mem_cons_self

/-- The row of a record above the first level does not hold its size. -/
theorem HoldsRecord.level_eq (h : HoldsRecord host dump m_dumpid info) :
    info.MiscInfoLevel = .MiscInfo := by
  obtain ⟨s, insert, hs, hparse, hfields⟩ := h
  by_contra hlevel
  have hwrites := writes_makeQueryforMiscInfo hs
  have hquote : quote ∉ (miscInfoColumns host info).SizeOfInfo.toList := by
    rw [sizeOfInfo_eq_empty hlevel]
    exact unquoted_empty
  have hempty := lookup_head_of_parse hwrites (List.cons_ne_nil _ _) hquote hparse
  rw [hfields _ (sizeOfInfo_mem_recordFields host info), sizeOfInfo_eq_empty hlevel] at hempty
  exact Nat.repr_ne_empty (Option.some.inj hempty)

theorem unquoted_fields_miscInfo (htime : ∀ time, quote ∉ (host.timeText time).toList)
    (info : MiscInfo) : ∀ field ∈ (miscInfoColumns host (.miscInfo info)).fields m_dumpid,
      quote ∉ field.2.toList := by
  simp only [MiscInfoColumns.fields, miscInfoColumns, List.forall_mem_cons]
  refine ⟨unquoted_repr _, unquoted_repr _, htime _, unquoted_repr _, unquoted_repr _, ?_⟩
  simp only [show quote ∉ "".toList from unquoted_empty, not_false_eq_true, true_and]
  exact ⟨unquoted_intToString _, unquoted_nil⟩

/-- **A row holds its record exactly at the first level.** For every record, with any
fields, on a server that prints times without quotes: the row of `NMiscInfo` has every
field of the record's level and of the levels below in its column if and only if the
record is of the first level. -/
theorem holdsRecord_iff (host : Host) (dump : MiniDump) (m_dumpid : Int32) (info : MiniDumpMiscInfo)
    (htime : ∀ time, quote ∉ (host.timeText time).toList) :
    HoldsRecord host dump m_dumpid info ↔ info.MiscInfoLevel = .MiscInfo := by
  constructor
  · exact HoldsRecord.level_eq
  · intro hlevel
    cases info with
    | miscInfo2 info => cases hlevel
    | miscInfo3 info => cases hlevel
    | miscInfo4 info => cases hlevel
    | miscInfo info =>
      obtain ⟨s, hs⟩ : ∃ s, makeQueryforMiscInfo host
          { dump with MiscInfo := some (.miscInfo info) } m_dumpid = .ok s := ⟨_, rfl⟩
      obtain ⟨insert, hparse, hcolumns, hvalues⟩ :=
        parse_of_writes (writes_makeQueryforMiscInfo hs) (unquoted_fields_miscInfo htime info)
      refine ⟨s, insert, hs, hparse, ?_⟩
      simp only [lookup_of_parse hcolumns hvalues, recordFields, miscFields, List.forall_mem_cons]
      exact ⟨rfl, rfl, rfl, rfl, rfl, fun _ h => absurd h List.not_mem_nil⟩

/-- A server in Korea, at the beginning of the epoch. -/
def koreanHost : Host := ⟨fun _ => "1970-01-01 오전 9:00:00", 10000⟩

/-- A record of the first level is held. -/
theorem holdsRecord_first : HoldsRecord koreanHost emptyDump 1 (.miscInfo ⟨24, 7, 0, 2, 3⟩) :=
  (holdsRecord_iff _ _ _ _ fun _ => (by decide : quote ∉ "1970-01-01 오전 9:00:00".toList)).mpr rfl

/-- A record of the second level, with the size that such records have. -/
def secondLevel : MiscInfo2 where
  SizeOfInfo := 44
  ProcessId := 7
  ProcessCreateTime := 0
  ProcessUserTime := 2
  ProcessKernelTime := 3
  ProcessorMaxMhz := 2400
  ProcessorCurrentMhz := 2400
  ProcessorMhzLimit := 2400
  ProcessorMaxIdleState := 1
  ProcessorCurrentIdleState := 1

/-- A record of the second level is not. -/
theorem not_holdsRecord_second :
    ¬ HoldsRecord koreanHost emptyDump 1 (.miscInfo2 secondLevel) := by
  intro h
  exact absurd h.level_eq (by decide)

/-! ### Assertions -/

/-- The text of an array, up to its first zero. -/
def textUpToZero (array : { units : List UInt16 // units.length = 128 }) : String :=
  String.ofList (decodeUnits (array.val.takeWhile (· ≠ 0)))

/-- The row of `NAssertion` is built and has what is in the record. -/
def HoldsAssertion (host : Host) (dump : MiniDump) (m_dumpid : Int32)
    (record : MDRawAssertionInfo) : Prop :=
  ∃ s insert, makeQueryforAssertion host
      { dump with AssertionInfo := some (.ofRaw record) } m_dumpid = .ok s ∧
    parse (Statement.render s) = some insert ∧
    insert.lookup "Line" = some record.line.toNat.repr ∧
    insert.lookup "Type" = some record.type.toNat.repr ∧
    insert.lookup "Expression" = some (textUpToZero record.expression) ∧
    insert.lookup "Function" = some (textUpToZero record.function) ∧
    insert.lookup "File" = some (textUpToZero record.file)

/-- **The row of an assertion is never built.** For every record, and however many calls
fit on the stack of the server, the getter of the line calls itself until the stack is
full, so there is no statement and no row. -/
theorem not_holdsAssertion (host : Host) (dump : MiniDump) (m_dumpid : Int32)
    (record : MDRawAssertionInfo) : ¬ HoldsAssertion host dump m_dumpid record := by
  rintro ⟨s, insert, hs, -⟩
  exact absurd (exists_makeQueryforAssertion_iff.mp ⟨s, hs⟩) Bool.false_ne_true

/-- An array without text. -/
def emptyUnits : { units : List UInt16 // units.length = 128 } :=
  ⟨List.replicate 128 0, List.length_replicate⟩

/-- The record of a pure call has no text, and no row either. -/
theorem not_holdsAssertion_pureCall :
    ¬ HoldsAssertion koreanHost emptyDump 1 ⟨emptyUnits, emptyUnits, emptyUnits, 12, 2⟩ := by
  rintro ⟨s, insert, hs, -⟩
  exact absurd (exists_makeQueryforAssertion_iff.mp ⟨s, hs⟩) Bool.false_ne_true

end SMEWindow.Server

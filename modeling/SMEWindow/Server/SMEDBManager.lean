import SMEWindow.Lib.SharedDatabase
import SMEWindow.Server.MinidumpRows
import SMEWindow.Server.Receiver

/-!
# What the statements of a file do to the database

`SMEDBManager` keeps what a reader has made of a file, and builds the statements of its rows
one after the other. What they do is a matter of their texts, which the database executes
without knowing what they were built from. If the quotes in the texts of the file are
doubled, each statement adds the row that was meant, and nothing else happens.

## Main definitions

* `Server.Content`, `Server.Upload` — a file, and what the readers make of it
* `Content.query` — the functions of `SMEDBManager` that build its statements
* `Content.record` — the row that each of them is meant to add
* `Server.SqlEngine` — the database
* `Server.insertDatabase` — a function's statement, built and executed

## Main results

* `execute_insert`, `execute_selectExp_IDOfName` — the statements of `DumpsDBM`
* `Content.execute_query`, `insertDatabase_of_builds` — the statements of `SMEDBManager`
-/

set_option autoImplicit false

namespace SMEWindow.Server

open Collect DumpReader Lib Lib.IdentityTable Lib.InsertStatement Lib.QuotedText
  Lib.SharedDatabase Lib.StatementExecution Lib.Text

/-! ### The functions of `SMEDBManager` -/

/-- What `SMEDBManager` keeps of the file. -/
inductive Content
  | xml (report : Xml.Report)
  | dmp (dump : MiniDump)

/-- A file that has arrived, and what the readers make of it. -/
structure Upload where
  fileName : String
  apikey : Int32
  filesel : FileSelection
  /-- The name passed the extension check. -/
  selected : selectFile fileName = .ok filesel
  smeXMLReader : Except RuntimeException Xml.Report
  smeMiniDumpReader : Except RuntimeException MiniDump

/-- The reader that the name of the file calls for. -/
def Upload.content (upload : Upload) : Except RuntimeException Content :=
  match upload.filesel with
  | .xml => upload.smeXMLReader.map .xml
  | .dmp => upload.smeMiniDumpReader.map .dmp

/-- The statement of `GetExcetpionID`. -/
def selectExp_IDOfDump (dumpid : Int32) : Statement :=
  [.fixed "SELECT Exp_ID FROM ExceptionInfo WHERE DumpsDump_ID = '", printed dumpid, .fixed "'"]

/-- What `GetExcetpionID` returns when it is given these `Exp_ID`s: the last one counts, and
0 if there is none. -/
def getExcetpionID (ids : List ℕ) : Int32 := ids.foldl (fun _ id => Int32.ofNat id) 0

theorem getExcetpionID_concat (ids : List ℕ) (id : ℕ) :
    getExcetpionID (ids ++ [id]) = Int32.ofNat id := by
  rw [getExcetpionID, List.foldl_append]
  rfl

/-- The functions whose statements insert a row. -/
def Builder.addsRow : Builder → Bool
  | .insert | .exception | .module | .miscInfo | .breakpad | .assertion | .csProjectInfo
  | .csSystemInfo | .csExceptionInfo | .innerCSExceptionInfo | .csCallStackInfo => true
  | .selectOfProject | .selectOfName | .addDumpsID => false

/-- The tables that they are inserted into. -/
def storedTables : List String :=
  ["Dumps", "NExceptionInfo", "NModule", "NMiscInfo", "NBreakpad", "NAssertion", "ProjectInfo",
    "SystemInfo", "ExceptionInfo", "CallStackInfo"]

theorem tableName_mem_storedTables {b : Builder} (hb : b.addsRow = true) :
    tableName b ∈ storedTables := by
  cases b with
  | selectOfProject | selectOfName | addDumpsID => cases hb
  | insert | exception | module | miscInfo | breakpad | assertion | csProjectInfo | csSystemInfo
  | csExceptionInfo | innerCSExceptionInfo | csCallStackInfo => decide

/-- Only `DumpsDBM.Insert` inserts into `Dumps`. -/
theorem tableName_ne_dumps {b : Builder} (hb : b ≠ .insert) : tableName b ≠ "Dumps" := by
  cases b with
  | insert => exact absurd rfl hb
  | exception | module | miscInfo | breakpad | assertion | csProjectInfo | csSystemInfo
  | csExceptionInfo | innerCSExceptionInfo | csCallStackInfo | selectOfProject | selectOfName
  | addDumpsID => decide

namespace Content

/-- The functions of `SMEDBManager` that build statements. Those for the other kind of
file find that their member is null. -/
def query (host : Host) (m_dumpid exceptionid : Int32) :
    Content → Builder → Except RuntimeException Statement
  | .dmp dump, .exception => makeQueryforException dump m_dumpid
  | .dmp dump, .module => .ok (makeQueryforModule dump m_dumpid)
  | .dmp dump, .miscInfo => makeQueryforMiscInfo host dump m_dumpid
  | .dmp dump, .breakpad => makeQueryforBreakpad dump m_dumpid
  | .dmp dump, .assertion => makeQueryforAssertion host dump m_dumpid
  | .xml report, .csProjectInfo => makeQueryforCSProjectInfo report m_dumpid
  | .xml report, .csSystemInfo => makeQueryforCSSystemInfo report m_dumpid
  | .xml report, .csExceptionInfo => .ok (makeQueryforCSExceptionInfo report m_dumpid)
  | .xml report, .innerCSExceptionInfo => do
    let exinfo ← notNull report.ExceptionInfo.inner
    return makeQueryforInnerCSExceptionInfo exinfo exceptionid m_dumpid
  | .xml report, .csCallStackInfo => .ok (makeQueryforCSCallStackInfo report m_dumpid)
  | _, _ => .error .nullReference

/-- The function does not throw: what it looks at is there, except for an assertion, whose
getters never return. -/
def builds : Content → Builder → Bool
  | .dmp dump, .exception => dump.ExceptionStream.isSome
  | .dmp _, .module => true
  | .dmp dump, .miscInfo => dump.MiscInfo.isSome
  | .dmp dump, .breakpad => dump.BreakpadInfo.isSome
  | .dmp dump, .assertion => dump.AssertionInfo.isNone
  | .xml report, .csProjectInfo => report.ProjectInfo.m_Version.isSome
  | .xml report, .csSystemInfo => report.SystemInfo.ServicePack.isSome
  | .xml _, .csExceptionInfo => true
  | .xml report, .innerCSExceptionInfo => report.ExceptionInfo.inner.isSome
  | .xml _, .csCallStackInfo => true
  | _, _ => false

/-- The functions that `SaveNativeDumpData` or `SaveCSDumpData` calls, in their order. -/
def builders : Content → List Builder
  | .dmp _ => [.exception, .module, .miscInfo, .breakpad, .assertion]
  | .xml report => [.csProjectInfo, .csSystemInfo, .csExceptionInfo] ++
      ((if report.ExceptionInfo.inner.isSome then [.innerCSExceptionInfo] else []) ++
        [.csCallStackInfo])

/-- What the statements of a file are built from. -/
def reported (m_dumpid exceptionid : Int32) : Content → Reported
  | .xml report =>
    { probe "" with
      m_dumpid := m_dumpid
      m_smecollector := report
      exinfo := report.ExceptionInfo.inner.getD report.ExceptionInfo
      exceptionid := exceptionid
      minidump := emptyDump }
  | .dmp dump => { probe "" with m_dumpid := m_dumpid, minidump := dump }

variable {content : Content} {host : Host} {did exceptionid : Int32} {b : Builder} {s : Statement}

theorem exists_query_iff :
    (∃ s, content.query host did exceptionid b = .ok s) ↔ content.builds b = true := by
  cases content with
  | xml report =>
    cases b with
    | csProjectInfo => exact exists_makeQueryforCSProjectInfo_iff
    | csSystemInfo => exact exists_makeQueryforCSSystemInfo_iff
    | innerCSExceptionInfo => exact exists_of_notNull_iff
    | csExceptionInfo | csCallStackInfo => exact ⟨fun _ => rfl, fun _ => ⟨_, rfl⟩⟩
    | _ => exact ⟨fun ⟨_, h⟩ => (nomatch h), fun h => (nomatch h)⟩
  | dmp dump =>
    cases b with
    | exception => exact exists_makeQueryforException_iff
    | miscInfo => exact exists_makeQueryforMiscInfo_iff
    | breakpad => exact exists_makeQueryforBreakpad_iff
    | assertion => exact exists_makeQueryforAssertion_iff
    | module => exact ⟨fun _ => rfl, fun _ => ⟨_, rfl⟩⟩
    | _ => exact ⟨fun ⟨_, h⟩ => (nomatch h), fun h => (nomatch h)⟩

/-- The functions build what they build from the members of the file. -/
theorem query_reported (h : content.query host did exceptionid b = .ok s) :
    Server.query host (content.reported did exceptionid) b = .ok s ∧ b.addsRow = true ∧
      b ≠ .insert := by
  cases content with
  | xml report =>
    cases b with
    | innerCSExceptionInfo =>
      obtain ⟨exinfo, hexinfo, hok⟩ := bind_eq_ok_iff.mp h
      have hinner : report.ExceptionInfo.inner = some exinfo := mem_of_notNull hexinfo
      refine ⟨?_, rfl, by decide⟩
      rw [← hok, Server.query, reported, hinner]
      rfl
    | csProjectInfo | csSystemInfo | csExceptionInfo | csCallStackInfo => exact ⟨h, rfl, by decide⟩
    | _ => cases h
  | dmp dump =>
    cases b with
    | exception | module | miscInfo | breakpad | assertion => exact ⟨h, rfl, by decide⟩
    | _ => cases h

/-- A function that does not throw inserts a detail row. -/
theorem addsRow_of_builds (h : content.builds b = true) : b.addsRow = true ∧ b ≠ .insert := by
  obtain ⟨s, hquery⟩ : ∃ s, content.query ⟨fun _ => "", 0⟩ 0 0 b = .ok s := exists_query_iff.mpr h
  exact (query_reported hquery).2

end Content

/-! ### Every row -/

/-- The texts of a record of the misc info that get into its row. -/
def miscTexts (host : Host) : MiniDumpMiscInfo → List String
  | .miscInfo info => [host.timeText info.ProcessCreateTime]
  | .miscInfo2 _ => []
  | .miscInfo3 info => [info.StandardName]
  | .miscInfo4 info => [info.BuildString, info.DbgBldStr]

/-- All texts that the statements of a report are made of. -/
def Reported.allTexts (host : Host) (r : Reported) : List String :=
  r.texts ++ r.minidump.MiscInfo.toList.flatMap (miscTexts host)

/-- The columns that a function writes, those of the misc info and of a dump without assertion
included. -/
def writtenFields (host : Host) (r : Reported) : Builder → List (String × String)
  | .miscInfo =>
    match r.minidump.MiscInfo with
    | none => []
    | some info => (miscInfoColumns host info).fields r.m_dumpid
  | .assertion => [("DumpsDump_ID", intToString r.m_dumpid)]
  | b => storedFields r b

/-- The row that a function is meant to add. -/
def Reported.record (host : Host) (r : Reported) (b : Builder) : Record :=
  (writtenFields host r b).map fun field => (field.1, undoubled field.2)

section Rows

variable {host : Host} {r : Reported} {b : Builder} {s : Statement} {engine : Engine} {gap : ℕ}
  {d : Tables}

theorem begins_assertion : Begins "INSERT INTO NAssertion(DumpsDump_ID) VALUES(".toList
    (tableName .assertion).toList (["DumpsDump_ID"].map String.toList) :=
  begins_of_toList (toList_literal rfl) (by decide +kernel)

theorem writes_query_of_addsRow (hb : b.addsRow = true) (h : query host r b = .ok s) :
    Writes s (tableName b) (writtenFields host r b) := by
  cases b with
  | selectOfProject | selectOfName | addDumpsID => cases hb
  | miscInfo =>
    obtain ⟨info, hinfo, hok⟩ := bind_eq_ok_iff.mp h
    rw [writtenFields, Option.mem_def.mp (mem_of_notNull hinfo)]
    exact @writes_makeQueryforMiscInfo host r.minidump r.m_dumpid info s hok
  | assertion =>
    have hnone : r.minidump.AssertionInfo = none :=
      Option.isNone_iff_eq_none.mp (exists_makeQueryforAssertion_iff.mp ⟨s, h⟩)
    rw [query, makeQueryforAssertion, hnone] at h
    obtain rfl := Except.ok.inj h
    refine writes_of begins_assertion (List.cons_ne_nil _ _) rfl ?_
    rw [render_cons, render_lastColumn]
    rfl
  | insert | exception | module | breakpad | csProjectInfo | csSystemInfo | csExceptionInfo
  | innerCSExceptionInfo | csCallStackInfo => exact writes_query rfl h

/-- What holds of all texts holds of the columns that are written. -/
theorem Closed.writtenFields {P : String → Prop} (hP : Closed P)
    (hr : ∀ t ∈ r.allTexts host, P t) (b : Builder) :
    ∀ field ∈ writtenFields host r b, P field.2 := by
  rw [Reported.allTexts, List.forall_mem_append] at hr
  have hstored := hP.storedFields hr.1 b
  have hint : P (intToString r.m_dumpid) := hP.of_unquoted (unquoted_intToString _)
  cases b with
  | assertion => exact List.forall_mem_singleton.mpr hint
  | miscInfo =>
    rw [Server.writtenFields]
    split
    · exact List.forall_mem_nil _
    · next info hinfo =>
      have hnat (n : ℕ) : P n.repr := hP.of_unquoted (unquoted_repr n)
      have hempty := hP.empty
      simp only [hinfo, Option.toList_some, List.flatMap_cons, List.flatMap_nil, List.append_nil]
        at hr
      cases info <;>
        simp_all [MiscInfoColumns.fields, miscInfoColumns, miscTexts]
  | selectOfProject | selectOfName | addDumpsID | insert | exception | module | breakpad
  | csProjectInfo | csSystemInfo | csExceptionInfo | innerCSExceptionInfo
  | csCallStackInfo => exact hstored

/-- The columns and values of a row are its fields. -/
theorem rowAddition_record {table : String} {fields : List (String × String)} :
    rowAddition gap ⟨table.toList, fields.map fun field => field.1.toList,
      fields.map fun field => (undoubled field.2).toList⟩ =
      ⟨table, gap, fields.map fun field => (field.1, undoubled field.2)⟩ := by
  rw [rowAddition, Insert.record, String.ofList_toList, List.map_map, List.map_map, List.zip_map']
  simp

/-- **A statement adds the row that was meant.** -/
theorem execute_query (hb : b.addsRow = true) (hr : ∀ t ∈ r.allTexts host, Doubled t)
    (h : query host r b = .ok s) :
    engine.execute gap (Statement.render s) d =
      some (add d ⟨tableName b, gap, r.record host b⟩, []) := by
  have hparse := parse_of_writes_of_doubled (writes_query_of_addsRow hb h)
    (closed_doubled.writtenFields hr b)
  rw [execute_of_parse hparse (by simp), rowAddition_record]
  rfl

/-- The last column of a detail row. -/
theorem lookup_writtenFields (hb : b.addsRow = true) (hinsert : b ≠ .insert)
    (h : query host r b = .ok s) :
    (writtenFields host r b).lookup "DumpsDump_ID" = some (intToString r.m_dumpid) := by
  cases b with
  | selectOfProject | selectOfName | addDumpsID => cases hb
  | insert => exact absurd rfl hinsert
  | exception =>
    obtain ⟨stream, hstream, -⟩ := bind_eq_ok_iff.mp h
    -- none of the 15 parameters is in a column of this name
    have hparameters : ∀ values : List String,
        (parameterColumns.zip values).lookup "DumpsDump_ID" = none := by
      intro values
      refine List.lookup_eq_none_iff.mpr fun field hfield => ?_
      have hcolumns : ∀ column ∈ parameterColumns, ("DumpsDump_ID" != column) = true := by decide
      exact hcolumns _ (List.of_mem_zip hfield).1
    change (storedFields r .exception).lookup _ = _
    rw [storedFields, Option.mem_def.mp (mem_of_notNull hstream)]
    simp only [List.lookup_append, hparameters]
    rfl
  | miscInfo =>
    obtain ⟨info, hinfo, -⟩ := bind_eq_ok_iff.mp h
    rw [writtenFields, Option.mem_def.mp (mem_of_notNull hinfo)]
    rfl
  | breakpad =>
    obtain ⟨info, hinfo, -⟩ := bind_eq_ok_iff.mp h
    change (storedFields r .breakpad).lookup _ = _
    rw [storedFields, Option.mem_def.mp (mem_of_notNull hinfo)]
    rfl
  | csProjectInfo =>
    obtain ⟨columns, hcolumns, -⟩ := map_eq_ok_iff.mp h
    obtain ⟨version, hversion, -⟩ := bind_eq_ok_iff.mp hcolumns
    change (storedFields r .csProjectInfo).lookup _ = _
    rw [storedFields, Option.mem_def.mp (mem_of_notNull hversion)]
    rfl
  | csSystemInfo =>
    obtain ⟨servicePack, hservicePack, -⟩ := bind_eq_ok_iff.mp h
    change (storedFields r .csSystemInfo).lookup _ = _
    rw [storedFields, Option.mem_def.mp (mem_of_notNull hservicePack)]
    rfl
  | assertion | module | csExceptionInfo | innerCSExceptionInfo | csCallStackInfo => rfl

/-- What a column of a row holds. -/
theorem lookup_record (column : String) : (r.record host b).lookup column =
    ((writtenFields host r b).lookup column).map undoubled := by
  rw [Reported.record]
  induction writtenFields host r b with
  | nil => rfl
  | cons field fields ih =>
    rw [List.map_cons, List.lookup_cons, List.lookup_cons]
    cases column == field.1 with
    | true => rfl
    | false => exact ih

/-- A row of texts without quotes has its fields as they are. -/
theorem record_eq_writtenFields (hr : ∀ t ∈ r.allTexts host, Unquoted t) (b : Builder) :
    r.record host b = writtenFields host r b := by
  have hfields := closed_unquoted.writtenFields hr b
  rw [Reported.record]
  refine (List.map_congr_left fun field hfield => ?_).trans (List.map_id _)
  rw [undoubled_eq_self (hfields field hfield)]
  rfl

theorem undoubled_intToString (n : Int32) : undoubled (intToString n) = intToString n :=
  undoubled_eq_self (unquoted_intToString n)

end Rows

/-! ### The statements of a file -/

/-- The database engine, which compares dump ids as numbers. -/
structure SqlEngine extends Engine where
  same_dumpid : ∀ a b : Int32, same "ExceptionInfo" "DumpsDump_ID" (intToString a)
    (intToString b) = true → a = b

/-- A database that compares characters and executes no other statements. -/
def SqlEngine.binary : SqlEngine where
  same _ _ stored literal := stored == literal
  same_self := by simp
  other _ _ := none
  same_dumpid a b h := intToString_inj.mp (by simpa using h)

/-- A machine whose clock prints nothing. -/
def sampleHost : Host := ⟨fun _ => "", 1000⟩

/-- The row of a file in `Dumps`. -/
def dumpRecord (fileName : String) (apikey : Int32) : Record :=
  [("Dump_Name", undoubled fileName), ("ProjectsProject_ID", intToString apikey)]

namespace Content

/-- The texts of a file that its statements are made of. -/
def texts (host : Host) (content : Content) : List String := (content.reported 0 0).allTexts host

/-- The row that a function is meant to add. -/
def record (host : Host) (content : Content) (m_dumpid exceptionid : Int32) (b : Builder) :
    Record :=
  (content.reported m_dumpid exceptionid).record host b

end Content

/-- The texts of a file and its name. -/
def Upload.texts (host : Host) (upload : Upload) : List String :=
  upload.fileName :: match upload.content with
    | .error _ => []
    | .ok content => content.texts host

/-- The name of a file is among its texts. -/
theorem Upload.doubled_fileName {upload : Upload} {host : Host}
    (hdoubled : ∀ t ∈ upload.texts host, Doubled t) : Doubled upload.fileName :=
  hdoubled _ List.mem_cons_self

theorem Upload.doubled_content {upload : Upload} {host : Host} {content : Content}
    (hcontent : upload.content = .ok content) (hdoubled : ∀ t ∈ upload.texts host, Doubled t) :
    ∀ t ∈ content.texts host, Doubled t := by
  intro t ht
  refine hdoubled t (List.mem_cons_of_mem _ ?_)
  rw [hcontent]
  exact ht

section Execution

variable {engine : Engine} {gap : ℕ} {d : Tables} {host : Host} {content : Content}
  {did exceptionid : Int32} {b : Builder} {s : Statement} {fileName : String} {apikey : Int32}

/-- `DumpsDBM.Insert` adds the row of the file. -/
theorem execute_insert (h : Doubled fileName) :
    engine.execute gap (Statement.render (insert fileName apikey)) d =
      some (add d ⟨"Dumps", gap, dumpRecord fileName apikey⟩, []) := by
  have hwrites : Writes (insert fileName apikey) "Dumps"
      [("Dump_Name", fileName), ("ProjectsProject_ID", intToString apikey)] :=
    writes_insert { probe "" with fileName := fileName, apikey := apikey }
  have hparse := parse_of_writes_of_doubled hwrites (by
    simp only [List.forall_mem_cons]
    exact ⟨h, doubled_of_notMem (unquoted_intToString _), List.forall_mem_nil _⟩)
  rw [execute_of_parse hparse (by simp), rowAddition_record]
  simp only [dumpRecord, List.map_cons, List.map_nil, undoubled_intToString]

/-- A selection by a text between quotes. -/
theorem execute_select (text header : String) (p : Piece) {column table key : String}
    (htext : text.toList = header.toList ++ [quote])
    (hheader : Selects header.toList column.toList table.toList key.toList)
    (hp : doubledFrom false (Statement.pieceChars p) = true) :
    engine.execute gap (Statement.render [.fixed text, p, .fixed "'"]) d =
      some (d, (d table).select (engine.selects table key
        (String.ofList (undouble (Statement.pieceChars p))))) := by
  have hrender : Statement.render [.fixed text, p, .fixed "'"] =
      header.toList ++ quote :: (Statement.pieceChars p ++ [quote]) := by
    rw [render_cons, render_cons, Statement.pieceChars, htext, List.append_assoc]
    rfl
  rw [hrender, execute_of_parseSelect (parseSelect_append hheader hp), String.ofList_toList,
    String.ofList_toList]

theorem selects_name : Selects "SELECT Dump_ID FROM Dumps WHERE Dump_Name = ".toList
    "Dump_ID".toList "Dumps".toList "Dump_Name".toList := by
  decide +kernel

theorem selects_dumpid : Selects "SELECT Exp_ID FROM ExceptionInfo WHERE DumpsDump_ID = ".toList
    "Exp_ID".toList "ExceptionInfo".toList "DumpsDump_ID".toList := by
  decide +kernel

/-- `SelectExp_ID` by a name. -/
theorem execute_selectExp_IDOfName (h : Doubled fileName) :
    engine.execute gap (Statement.render (selectExp_IDOfName fileName)) d =
      some (d, (d "Dumps").select
        (engine.selects "Dumps" "Dump_Name" (undoubled fileName))) :=
  execute_select _ _ (.text fileName) (by decide +kernel) selects_name h

/-- `GetExcetpionID`. -/
theorem execute_selectExp_IDOfDump :
    engine.execute gap (Statement.render (selectExp_IDOfDump did)) d =
      some (d, (d "ExceptionInfo").select
        (engine.selects "ExceptionInfo" "DumpsDump_ID" (intToString did))) := by
  have hdid : undoubled (intToString did) = intToString did := undoubled_intToString did
  rw [← hdid]
  exact execute_select _ _ (printed did) (by decide +kernel) selects_dumpid
    (doubled_of_notMem (unquoted_intToString did))

namespace Content

/-- The texts do not depend on the ids. -/
theorem allTexts_reported (content : Content) :
    (content.reported did exceptionid).allTexts host = content.texts host := by
  cases content <;> rfl

/-- A row of texts without quotes has the fields of the file. -/
theorem record_of_unquoted (h : ∀ t ∈ content.texts host, Unquoted t) :
    content.record host did exceptionid b =
      writtenFields host (content.reported did exceptionid) b := by
  rw [← allTexts_reported content] at h
  exact record_eq_writtenFields h b

/-- **A statement of `SMEDBManager` adds the row that was meant.** -/
theorem execute_query (hdoubled : ∀ t ∈ content.texts host, Doubled t)
    (h : content.query host did exceptionid b = .ok s) :
    engine.execute gap (Statement.render s) d =
      some (add d ⟨tableName b, gap, content.record host did exceptionid b⟩, []) := by
  obtain ⟨hquery, hb, -⟩ := query_reported h
  rw [← allTexts_reported content] at hdoubled
  exact Server.execute_query hb hdoubled hquery

/-- The row carries the dump id. -/
theorem lookup_record_dumpid (hbuilds : content.builds b = true) :
    (content.record host did exceptionid b).lookup "DumpsDump_ID" = some (intToString did) := by
  obtain ⟨s, h⟩ : ∃ s, content.query host did exceptionid b = .ok s := exists_query_iff.mpr hbuilds
  obtain ⟨hquery, hb, hinsert⟩ := query_reported h
  have hdid : (content.reported did exceptionid).m_dumpid = did := by
    cases content <;> rfl
  rw [record, lookup_record, lookup_writtenFields hb hinsert hquery, Option.map_some,
    undoubled_intToString, hdid]

end Content

end Execution

/-! ### Statements of programs that share the database -/

section Programs

variable {ι π : Type*} [DecidableEq ι] (engine : Engine) (host : Host) (s : State ι π) (i : ι)
  (gap : ℕ) (content : Content) (m_dumpid exceptionid : Int32) (b : Builder) (failed next : π)

/-- `InsertDatabase` of what a function builds. The program fails if the function throws, or
if the database refuses the statement. -/
def insertDatabase : State ι π :=
  match content.query host m_dumpid exceptionid b with
  | .error _ => s.goto i failed
  | .ok statement =>
    s.execute engine storedTables i gap (Statement.render statement) failed fun _ => next

variable {engine host s i gap content m_dumpid exceptionid b failed next}

theorem insertDatabase_of_not_builds (h : content.builds b = false) :
    insertDatabase engine host s i gap content m_dumpid exceptionid b failed next =
      s.goto i failed := by
  rw [insertDatabase]
  cases hquery : content.query host m_dumpid exceptionid b with
  | error e => rfl
  | ok statement =>
    have hbuilds := Content.exists_query_iff.mp ⟨statement, hquery⟩
    rw [h] at hbuilds
    cases hbuilds

/-- **A statement that is built adds the row that was meant.** -/
theorem insertDatabase_of_builds (hdoubled : ∀ t ∈ content.texts host, Doubled t)
    (h : content.builds b = true) :
    insertDatabase engine host s i gap content m_dumpid exceptionid b failed next =
      s.executed storedTables i
        (add s.tables ⟨tableName b, gap, content.record host m_dumpid exceptionid b⟩) next := by
  obtain ⟨statement, hquery⟩ : ∃ statement,
      content.query host m_dumpid exceptionid b = .ok statement := Content.exists_query_iff.mpr h
  simp only [insertDatabase, hquery]
  exact State.execute_of_eq_some (Content.execute_query hdoubled hquery)

end Programs

end SMEWindow.Server

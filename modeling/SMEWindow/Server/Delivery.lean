import SMEWindow.Server.BodyTransfer
import SMEWindow.Server.Storage
import SMEWindow.Xml.ReportFile

/-!
# A report on its way from the client to the database

The client saves a report as an XML document and sends the file; the server receives the
file, reads the document and inserts the rows of the report. What each of these does on
its own has been said elsewhere; here they are put together, from the records of the
client to the columns of the tables.

The report that the server stores is the one that the client wrote, up to what XML makes
of its texts and what the format has no place for: null texts are empty, line ends are line
feeds, blank texts are empty, and there is no `Data` and no text of a stack trace.

## Main definitions

* `Server.received` — what the server gets of a report
* `Server.Delivery` — a report that nothing keeps from being delivered
* `Server.Delivered` — the rows of a report

## Main results

* `Delivery.delivered` — the rows are those of the report
-/

set_option autoImplicit false

namespace SMEWindow.Server

open Collect Lib Lib.Autocommit Lib.IdentityTable Lib.Markup Lib.QuotedText Lib.SegmentedStream
  Lib.SharedDatabase Lib.StatementExecution Lib.Text NetLib Storage

/-- What the server gets of a report. -/
def received (report : Xml.Report) : Xml.Report := (report.retext stored).readBack

/-- A report that nothing keeps from being delivered. -/
structure Delivery where
  report : Xml.Report
  request : Request
  cut : Segmentation
  env : Environment
  conditions : Conditions
  /-- The file that is sent is one of the report. -/
  saved : Xml.SavedAs report request.content
  platform : report.SystemInfo.PlatformID.Recognised
  /-- The server takes the file for a document, by its name. -/
  selected : selectFile request.FileName = .ok .xml
  length_lt : request.content.length < 2 ^ 31
  uncut : HeaderUncut request cut
  creatable : env.creatable request.FileName = true
  connects : env.connects = true
  /-- Nothing happens to go wrong in the database. -/
  faultless : ∀ p, conditions.faults p = false
  unquoted_texts : ∀ text ∈ report.texts, Unquoted text
  unquoted_name : Unquoted request.FileName

/-- What is known of a file once it has been received. -/
structure Arrived (insertion : Insertion) (upload : Upload) : Prop where
  fileName_eq : upload.fileName = insertion.dumpname
  apikey_eq : upload.apikey = insertion.projectid
  /-- The document is read from the bytes of the file. -/
  smeXMLReader_eq : ∀ result, Xml.smeXMLReader insertion.file = some result →
    upload.smeXMLReader = result

/-- The rows of a report: its row in `Dumps`, and one row for each function, in whose columns
are the fields of the report, under the dump id that was found. What the report has no place
for is empty. -/
structure Delivered (report : Xml.Report) (upload : Upload) (did : Int32)
    (rows : List Storage.Insert) : Prop where
  places : rows.map Insert.place =
    (.insert :: (Content.xml report).builders).map Position.execute
  dump : ∀ row ∈ rows, row.builder = .insert → row.record =
    [("Dump_Name", upload.fileName), ("ProjectsProject_ID", intToString upload.apikey)]
  detail : ∀ row ∈ rows, row.builder ≠ .insert → ∃ exceptionid,
    row.record = storedFields ((Content.xml report).reported did exceptionid) row.builder
  empty : ∀ row ∈ rows, tableName row.builder = "ExceptionInfo" →
    row.record.lookup "Data" = some "" ∧ row.record.lookup "CallStack" = some ""

/-! ### The transfer -/

/-- A file that is not cut in its header arrives whole. -/
theorem reaches_of_headerUncut {env : Environment} {request : Request} {cut : Segmentation}
    (haccepted : Accepted request.FileName) (hlength : request.content.length < 2 ^ 31)
    (huncut : HeaderUncut request cut) (hcreatable : env.creatable request.FileName = true)
    (hconnects : env.connects = true) :
    Reaches env (wire request cut) ⟨request.FileName, request.apikey, request.content⟩ := by
  obtain ⟨filesel, hopens⟩ : ∃ filesel, Opens env (wire request cut) ⟨_, _, filesel, _⟩ _ :=
    opens_of_headerUncut haccepted huncut
  obtain ⟨k, hcopies⟩ := @exists_copiesWhole ⟨request.content, 4, cut⟩ hlength
  obtain ⟨j, hcomplete, hfile⟩ := (exists_receiveBody_file_iff _ request.content).mp
    ⟨k + 1, _, hcopies.receiveBody_eq, hcopies.file_eq⟩
  rw [← toInt32_fileLength] at hcomplete
  refine reaches_iff.mpr ⟨_, _, j, hopens, hcreatable, hconnects, hcomplete, ?_⟩
  rw [← hfile]

/-! ### The texts that arrive -/

theorem mem_of_mem_lineFeeds {c : Char} {cs : List Char} (h : c ∈ lineFeeds cs) (hc : c ≠ '\n') :
    c ∈ cs := by
  fun_induction lineFeeds cs with
  | case1 => exact h
  | case2 cs ih => simp_all
  | case3 cs _ ih => simp_all
  | case4 d cs _ _ ih =>
    rcases List.mem_cons.mp h with rfl | h
    · exact List.mem_cons_self
    · exact List.mem_cons_of_mem _ (ih h)

theorem unquoted_stored {text : String} (h : Unquoted text) : Unquoted (stored text) := by
  unfold stored
  split_ifs
  · exact unquoted_empty
  · intro hquote
    rw [String.toList_ofList] at hquote
    exact h (mem_of_mem_lineFeeds hquote (by decide))

section Received

variable {report : Xml.Report}

/-- The texts of a level that has arrived. -/
theorem unquoted_fieldTexts {fields : ExceptionFields} (h : ∀ text ∈ fields.texts, Unquoted text) :
    ∀ text ∈ fieldTexts (fields.retext stored).readBack, Unquoted text := by
  simp only [ExceptionFields.texts, List.forall_mem_append, List.forall_mem_cons] at h
  obtain ⟨⟨hname, hlink, -, -⟩, -⟩ := h
  simp only [fieldTexts, ExceptionFields.readBack, ExceptionFields.retext, Option.toList_some,
    Option.getD_some, List.flatMap_nil, Option.toList_none, List.append_nil, Xml.getD_map_stored,
    List.forall_mem_append, List.forall_mem_singleton]
  exact ⟨unquoted_stored hname, unquoted_stored hlink⟩

theorem unquoted_frameTexts {frame : CallStack} (h : ∀ text ∈ frame.texts, Unquoted text) :
    ∀ text ∈ frameTexts (frame.retext stored).readBack, Unquoted text := by
  simp only [CallStack.texts, List.forall_mem_cons] at h
  simp only [frameTexts, CallStack.readBack, CallStack.retext, Option.toList_some,
    Xml.getD_map_stored, List.forall_mem_append, List.forall_mem_singleton]
  exact ⟨unquoted_stored h.1, unquoted_stored h.2.1⟩

/-- The levels that have arrived are those of the report. -/
theorem unquoted_levels {info : ExceptionInformation}
    (h : ∀ fields ∈ info.toList, ∀ text ∈ fields.texts, Unquoted text) :
    ∀ level ∈ (ExceptionInformation.readBack
      (info.map (ExceptionFields.retext stored))).toList,
      ∀ text ∈ fieldTexts level, Unquoted text := by
  rw [ExceptionInformation.readBack, Chain.map_map, Chain.toList_map]
  intro level hlevel
  obtain ⟨fields, hfields, rfl⟩ := List.mem_map.mp hlevel
  exact unquoted_fieldTexts (h fields hfields)

/-- The inner exception that is stored is a level of the exception. -/
theorem outermost_inner_mem (info : ExceptionInformation) :
    (info.inner.getD info).outermost ∈ info.toList := by
  cases info with
  | innermost fields => exact List.mem_singleton_self fields
  | wrapping fields inner => exact List.mem_cons_of_mem _ inner.outermost_mem_toList

/-- The texts of a report without quotes arrive without quotes. -/
theorem unquoted_received (host : Host) (h : ∀ text ∈ report.texts, Unquoted text) :
    ∀ text ∈ (Content.xml (received report)).texts host, Unquoted text := by
  simp only [Xml.Report.texts, List.forall_mem_append, List.forall_mem_cons,
    List.forall_mem_flatMap] at h
  obtain ⟨⟨hproject, hpack, -⟩, hlevels, hframes⟩ := h
  have hfields := unquoted_levels hlevels
  have htexts : (Content.xml (received report)).texts host =
      ((Content.xml (received report)).reported 0 0).texts := List.append_nil _
  rw [htexts]
  simp only [Reported.texts, Content.reported, probe, DumpReader.emptyDump, received,
    Xml.Report.readBack, Xml.Report.retext, ProjectInformation.readBack,
    SystemInformation.readBack, CallstackInformation.readBack, Xml.getD_map_stored, Option.toList_some, List.map_nil,
    List.append_nil, List.forall_mem_append, List.forall_mem_singleton, List.forall_mem_flatMap,
    List.forall_mem_map]
  refine ⟨⟨⟨⟨⟨unquoted_empty, unquoted_stored hproject⟩, unquoted_stored hpack⟩, ?_⟩, ?_⟩, ?_⟩
  · exact hfields _ (Chain.outermost_mem_toList _)
  · exact hfields _ (outermost_inner_mem _)
  · exact fun frame hframe => unquoted_frameTexts (hframes frame hframe)

end Received

/-! ### The rows -/

section Rows

variable {report : Xml.Report} {upload : Upload}

theorem places_of_plan :
    Position.execute .insert :: (contentPlan (.xml report)).filter Position.stores =
      (.insert :: (Content.xml report).builders).map Position.execute := by
  rw [contentPlan, Content.builders]
  cases report.ExceptionInfo.inner with
  | none => rfl
  | some inner => rfl

theorem mem_builders_of_plan {b : Builder} (hcontent : upload.content = .ok (.xml report))
    (h : Position.build b ∈ plan upload) : b ∈ (Content.xml report).builders := by
  rw [plan, detailPlan, hcontent] at h
  unfold Content.builders
  cases hinner : report.ExceptionInfo.inner with
  | none => simpa [contentPlan, steps, innerPlan, hinner] using h
  | some inner => simpa [contentPlan, steps, innerPlan, hinner] using h

/-- Nothing keeps a report from being stored that has a version and a service pack. -/
theorem not_fails {conditions : Conditions} (hfaultless : ∀ p, conditions.faults p = false)
    (hcontent : upload.content = .ok (.xml report))
    (hversion : report.ProjectInfo.m_Version.isSome = true)
    (hpack : report.SystemInfo.ServicePack.isSome = true) :
    ∀ p ∈ plan upload, fails conditions upload p = false := by
  have hbuilds : ∀ b ∈ (Content.xml report).builders, (Content.xml report).builds b = true := by
    intro b hb
    have hcases : b = .csProjectInfo ∨ b = .csSystemInfo ∨ b = .csExceptionInfo ∨
        report.ExceptionInfo.inner.isSome = true ∧ b = .innerCSExceptionInfo ∨
          b = .csCallStackInfo := by
      simpa [Content.builders] using hb
    rcases hcases with rfl | rfl | rfl | ⟨hinner, rfl⟩ | rfl
    · exact hversion
    · exact hpack
    · rfl
    · exact hinner
    · rfl
  intro p hp
  cases p with
  | build b =>
    rw [fails_build hcontent, hfaultless, hbuilds b (mem_builders_of_plan hcontent hp)]
    rfl
  | connect => rw [fails_connect, hfaultless]
  | execute b => rw [fails_execute, hfaultless]
  | getExcetpionID => rw [fails_getExcetpionID, hfaultless]
  | read => simp [fails, hfaultless, hcontent]

/-- The dump id of the row of the file. -/
def ownDid (conditions : Conditions) (d : Tables) : Int32 :=
  Int32.ofNat ((d "Dumps").insertedId (conditions.gap .insert))

/-- No row has a name that compares equal to that of the file. -/
def FreshName (conditions : Conditions) (upload : Upload) (d : Tables) : Prop :=
  ∀ row ∈ (d "Dumps").rows,
    conditions.engine.selects "Dumps" "Dump_Name" upload.fileName row.2 = false

/-- The row of the file is found if no earlier row has its name. -/
theorem foundDid_of_fresh {conditions : Conditions} {d : Tables} (hname : Unquoted upload.fileName)
    (hfresh : FreshName conditions upload d) :
    foundDid conditions upload d = ownDid conditions d := by
  have hrow : add d (dumpInsert conditions upload).addition "Dumps" =
      (d "Dumps").insert (conditions.gap .insert)
        (dumpRecord upload.fileName upload.apikey) := add_same ..
  have hlookup : (dumpRecord upload.fileName upload.apikey).lookup "Dump_Name" =
      some upload.fileName := congrArg some (undoubled_eq_self hname)
  have hwanted : conditions.engine.selects "Dumps" "Dump_Name" upload.fileName
      (dumpRecord upload.fileName upload.apikey) = true := by
    rw [selects_of_lookup hlookup]
    exact conditions.engine.same_self ..
  have hnone : (d "Dumps").select
      (conditions.engine.selects "Dumps" "Dump_Name" upload.fileName) = [] := by
    refine List.eq_nil_iff_forall_not_mem.mpr fun id hid => ?_
    obtain ⟨record, hrecord, hselected⟩ := Table.mem_select.mp hid
    rw [hfresh _ hrecord] at hselected
    cases hselected
  have horder := conditions.order.perm [(d "Dumps").insertedId (conditions.gap .insert)]
  rw [foundDid, foundDids, undoubled_eq_self hname, hrow, Table.select_insert_of_wanted hwanted,
    hnone, List.nil_append, List.perm_singleton.mp horder, ownDid]

/-- The row of a file without quotes in its name. -/
theorem record_of_own {conditions : Conditions} {did : Int32} {row : Storage.Insert}
    (hown : Own conditions upload did row) (hname : Unquoted upload.fileName)
    (hbuilder : row.builder = .insert) : row.record =
      [("Dump_Name", upload.fileName), ("ProjectsProject_ID", intToString upload.apikey)] := by
  rw [Own, if_pos hbuilder, dumpRecord, undoubled_eq_self hname] at hown
  exact hown

/-- A detail row of a file without quotes in its texts. -/
theorem exists_record_of_own {conditions : Conditions} {did : Int32} {row : Storage.Insert}
    {content : Content} (hown : Own conditions upload did row)
    (hcontent : upload.content = .ok content)
    (htexts : ∀ t ∈ content.texts conditions.host, Unquoted t) (hbuilder : row.builder ≠ .insert) :
    content.builds row.builder = true ∧ ∃ exceptionid, row.record =
      writtenFields conditions.host (content.reported did exceptionid) row.builder := by
  rw [Own, if_neg hbuilder] at hown
  obtain ⟨-, content', exceptionid, hcontent', hbuilds, hrecord⟩ := hown
  obtain rfl := Except.ok.inj (hcontent.symm.trans hcontent')
  exact ⟨hbuilds, exceptionid, hrecord.trans (Content.record_of_unquoted htexts)⟩

/-- A file without quotes has doubled quotes. -/
theorem doubled_of_unquoted {host : Host} {content : Content}
    (hcontent : upload.content = .ok content) (hname : Unquoted upload.fileName)
    (htexts : ∀ t ∈ content.texts host, Unquoted t) : ∀ t ∈ upload.texts host, Doubled t := by
  intro t ht
  rw [Upload.texts, hcontent] at ht
  rcases List.mem_cons.mp ht with rfl | ht
  · exact doubled_of_notMem hname
  · exact doubled_of_notMem (htexts t ht)

/-- The functions for a report write the columns of a report. -/
theorem writtenFields_of_xml {host : Host} {r : Reported} {b : Builder}
    (h : (Content.xml report).builds b = true) : writtenFields host r b = storedFields r b := by
  cases b with
  | miscInfo | assertion => cases h
  | _ => rfl

/-- The report that was received has no `Data` and no text of a stack trace. -/
theorem lookup_received {did exceptionid : Int32} {b : Builder}
    (htable : tableName b = "ExceptionInfo") :
    (storedFields ((Content.xml (received report)).reported did exceptionid) b).lookup "Data" =
        some "" ∧
      (storedFields ((Content.xml (received report)).reported did exceptionid) b).lookup
        "CallStack" = some "" := by
  have hlevel : ∀ level ∈ (received report).ExceptionInfo.toList,
      level.dataToString = "" ∧ level.CallStackString = none := by
    intro level hlevel
    rw [received, Xml.Report.readBack, ExceptionInformation.readBack, Chain.toList_map] at hlevel
    obtain ⟨fields, -, rfl⟩ := List.mem_map.mp hlevel
    exact ⟨rfl, rfl⟩
  have hlookup : ∀ level ∈ (received report).ExceptionInfo.toList,
      ∀ others : List (String × String),
        (exceptionFields level ++ others).lookup "Data" = some "" ∧
          (exceptionFields level ++ others).lookup "CallStack" = some "" := by
    intro level hmem others
    obtain ⟨hdata, hcallStack⟩ := hlevel level hmem
    rw [exceptionFields, hdata, hcallStack]
    exact ⟨rfl, rfl⟩
  cases b with
  | csExceptionInfo => exact hlookup _ (Chain.outermost_mem_toList _) _
  | innerCSExceptionInfo => exact hlookup _ (outermost_inner_mem _) _
  | _ => exact absurd htable (by decide)

end Rows

namespace Delivery

variable (delivery : Delivery)

/-- The bytes that arrive. -/
def insertion : Insertion :=
  ⟨delivery.request.FileName, delivery.request.apikey, delivery.request.content⟩

theorem reaches : Reaches delivery.env (wire delivery.request delivery.cut) delivery.insertion :=
  reaches_of_headerUncut (exists_selectFile_iff.mp ⟨_, delivery.selected⟩) delivery.length_lt
    delivery.uncut delivery.creatable delivery.connects

variable {delivery} {upload : Upload}

/-- What is read is the report. -/
theorem content_of_arrived (h : Arrived delivery.insertion upload) :
    upload.content = .ok (.xml (received delivery.report)) := by
  have hfilesel : upload.filesel = .xml := by
    have hselected := upload.selected
    rw [h.fileName_eq] at hselected
    exact Except.ok.inj (hselected.symm.trans delivery.selected)
  have hread := h.smeXMLReader_eq _
    (Xml.smeXMLReader_of_savedAs delivery.platform delivery.saved)
  rw [Upload.content, hfilesel]
  simp only [hread, Except.map]
  rfl

theorem unquoted_fileName (h : Arrived delivery.insertion upload) : Unquoted upload.fileName := by
  rw [h.fileName_eq]
  exact delivery.unquoted_name

theorem doubled_of_arrived (h : Arrived delivery.insertion upload) :
    ∀ t ∈ upload.texts delivery.conditions.host, Doubled t :=
  doubled_of_unquoted (content_of_arrived h) (unquoted_fileName h)
    (unquoted_received _ delivery.unquoted_texts)

theorem complete_of_arrived (h : Arrived delivery.insertion upload) (d : Tables) :
    Complete delivery.conditions upload d
      ((Storage.store delivery.conditions upload).runOn d).2 := by
  have hsavable := Xml.exists_savedAs_iff.mp ⟨_, delivery.saved⟩
  refine (complete_iff (doubled_of_arrived h)).mpr
    (not_fails delivery.faultless (content_of_arrived h) ?_ rfl)
  exact Option.isSome_iff_ne_none.mpr hsavable.version

end Delivery

/-- **A report is delivered.** A report is saved as a document and sent; the four fields of
the header arrive uncut and nothing fails on the server. Then, however its bytes are cut,
the receiver stores the file that was sent, and the database gets, besides what was in it,
the row of the file in `Dumps` and for each record of the report a row with the dump id
that was found, in whose columns are the fields of the report; the columns of the data and of
the stack trace are empty. If no earlier row has the name of the file, the dump id is the id of
the row of the file. -/
theorem Delivery.delivered (delivery : Delivery) :
    Reaches delivery.env (wire delivery.request delivery.cut) delivery.insertion ∧
      ∀ (upload : Upload) (d : Tables), Arrived delivery.insertion upload →
        ∃ did rows, ((Storage.store delivery.conditions upload).runOn d).2 =
            rows.foldl scheme.store d ∧
          Delivered (received delivery.report) upload did rows ∧
          (FreshName delivery.conditions upload d → did = ownDid delivery.conditions d) := by
  refine ⟨delivery.reaches, fun upload d harrived => ?_⟩
  have hcontent := Delivery.content_of_arrived harrived
  have hname := Delivery.unquoted_fileName harrived
  obtain ⟨content, hcontent', rows, hrows, hplaces, hown⟩ :=
    Delivery.complete_of_arrived harrived d
  -- what was stored is what the reader makes of the file
  obtain rfl := Except.ok.inj (hcontent.symm.trans hcontent')
  have hdetail : ∀ row ∈ rows, row.builder ≠ .insert → ∃ exceptionid, row.record =
      storedFields ((Content.xml (received delivery.report)).reported
        (foundDid delivery.conditions upload d) exceptionid) row.builder := by
    intro row hrow hbuilder
    obtain ⟨hbuilds, exceptionid, hrecord⟩ := exists_record_of_own (hown row hrow) hcontent
      (unquoted_received _ delivery.unquoted_texts) hbuilder
    exact ⟨exceptionid, hrecord.trans (writtenFields_of_xml hbuilds)⟩
  refine ⟨_, rows, hrows, ⟨hplaces.trans places_of_plan,
    fun row hrow => record_of_own (hown row hrow) hname, hdetail, fun row hrow htable => ?_⟩,
    foundDid_of_fresh hname⟩
  have hbuilder : row.builder ≠ .insert := by
    intro hinsert
    rw [hinsert] at htable
    exact absurd htable (by decide)
  obtain ⟨exceptionid, hrecord⟩ := hdetail row hrow hbuilder
  rw [hrecord]
  exact lookup_received htable

/-! ### A delivery -/

theorem length_getBytes_le (cs : List Char) :
    (Utf8.getBytes (String.ofList cs)).length ≤ 4 * cs.length := by
  rw [Utf8.getBytes, String.toList_ofList]
  induction cs with
  | nil => rfl
  | cons c cs ih =>
    have hsize : (String.utf8EncodeChar c).length ≤ 4 := by
      rw [String.length_utf8EncodeChar]
      exact c.utf8Size_le_four
    rw [List.flatMap_cons, List.length_append, List.length_cons]
    omega

/-- The document of a report whose empty elements have one tag each. -/
def documentOf (report : Xml.Report) : Tree :=
  match Xml.smeXMLWriter report with
  | .error _ => .text ""
  | .ok tree => ofNode tree

theorem length_documentOf : (save (documentOf Xml.sampleReport)).length < 3000 := by
  decide +kernel

/-- The file of the sample report. -/
def sampleFile : List UInt8 :=
  Xml.preamble ++ Utf8.getBytes (String.ofList (save (documentOf Xml.sampleReport)))

theorem length_sampleFile : sampleFile.length < 2 ^ 31 := by
  have hbytes := length_getBytes_le (save (documentOf Xml.sampleReport))
  have hlength := length_documentOf
  rw [sampleFile, List.length_append]
  have hpreamble : Xml.preamble.length = 3 := rfl
  omega

theorem savedAs_sampleFile : Xml.SavedAs Xml.sampleReport sampleFile := by
  have hsavable : Xml.sampleReport.Savable := ⟨by decide, by decide, by decide⟩
  obtain ⟨tree, htree⟩ := Xml.exists_smeXMLWriter_iff.mpr ⟨hsavable.version, hsavable.values⟩
  have hdocument : documentOf Xml.sampleReport = ofNode tree := by
    rw [documentOf, htree]
  have hlegal := (Xml.legal_of_smeXMLWriter htree).mpr hsavable.texts
  refine ⟨documentOf Xml.sampleReport, ?_, ?_⟩
  · rw [hdocument, node_ofNode, htree]
  · rw [Xml.saveDocument, if_pos (by rw [hdocument, node_ofNode, hlegal])]
    rfl

/-- The sample report, sent in pieces of 64 bytes to a server without failures. -/
def sampleDelivery : Delivery where
  report := Xml.sampleReport
  request := ⟨"report.xml", 10, sampleFile, by decide, length_sampleFile.trans (by decide)⟩
  cut := ⟨fun _ => 64, fun _ => by decide⟩
  env := .faultless
  conditions := ⟨sampleHost, SqlEngine.binary.toEngine, fun _ => false, fun _ => 0, .id⟩
  saved := savedAs_sampleFile
  platform := by decide
  selected := by decide
  length_lt := length_sampleFile
  uncut := by decide
  creatable := rfl
  connects := rfl
  faultless _ := rfl
  unquoted_texts := by unfold Unquoted; decide
  unquoted_name := by unfold Unquoted; decide

/-- The sample report as the server finds it. -/
def sampleUpload : Upload where
  fileName := "report.xml"
  apikey := 10
  filesel := .xml
  selected := by decide
  smeXMLReader := .ok (received Xml.sampleReport)
  smeMiniDumpReader := .error .nullReference

theorem arrived_sample : Arrived sampleDelivery.insertion sampleUpload where
  fileName_eq := rfl
  apikey_eq := rfl
  smeXMLReader_eq _ hresult :=
    Option.some.inj ((Xml.smeXMLReader_of_savedAs sampleDelivery.platform
      sampleDelivery.saved).symm.trans hresult)

/-- The sample report is delivered to an empty database. -/
theorem delivered_sample :
    ∃ rows, ((Storage.store sampleDelivery.conditions sampleUpload).runOn noRows).2 =
        rows.foldl scheme.store noRows ∧
      Delivered (received Xml.sampleReport) sampleUpload 0 rows := by
  obtain ⟨-, hstored⟩ := sampleDelivery.delivered
  obtain ⟨did, rows, hrows, hdelivered, hown⟩ := hstored sampleUpload noRows arrived_sample
  obtain rfl : did = 0 := hown fun row hrow => absurd hrow List.not_mem_nil
  exact ⟨rows, hrows, hdelivered⟩

end SMEWindow.Server

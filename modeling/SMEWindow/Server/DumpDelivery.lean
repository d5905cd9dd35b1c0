import SMEWindow.Breakpad.UserStreams
import SMEWindow.Server.Delivery

/-!
# A native failure on its way to the database

A breakpad handler dumps the process, the file of the dump is sent, and the server reads its
streams and inserts a row for each of them. What the handler was called for decides how far
this goes: the streams of an exception are all stored, but an assertion, which comes with an
invalid parameter or a pure virtual call, has getters that never return. And nothing is read
of a dump whose time zone has a rule for every year.

## Main definitions

* `Server.NamedModule`, `Server.NativeFailure` — what a dump says, and what for
* `NativeFailure.Dumped` — the file of the dump
* `Server.DumpDelivery` — a dump that nothing keeps from arriving
* `NativeFailure.builders`, `Server.DumpDelivered` — the rows that are inserted

## Main results

* `DumpDelivery.dumpDelivered` — these rows are inserted, with what the dump says; they are all
  the rows of a dump exactly for an exception in a time zone without yearly rules
-/

set_option autoImplicit false

namespace SMEWindow.Server

open Breakpad Breakpad.UserStreams Collect DumpReader DumpReader.Native Lib Lib.Autocommit
  Lib.IdentityTable Lib.LittleEndian Lib.MemoryTrace Lib.QuotedText Lib.RecordLayout
  Lib.RecordLayout.Layout Lib.SegmentedStream Lib.StatementExecution Lib.Text NetLib Storage

/-! ### The file of a dump -/

/-- A module of a dump, and the name that it refers to. -/
structure NamedModule where
  record : ModuleRecord
  name : List UInt16
  length_name_lt : name.length < 2 ^ 30

namespace NamedModule

/-- `MINIDUMP_STRING`: the length in bytes, and the code units. -/
def nameBytes (module : NamedModule) : List UInt8 :=
  uint32.encode (UInt32.ofNat (2 * module.name.length)) ++ module.name.flatMap uint16.encode

/-- What is to be read of it. -/
def toModule (module : NamedModule) : MiniDumpModule where
  PathAndFileName := String.ofList (decodeUnits module.name)
  dwFileVersionMS := module.record.VersionInfo.dwFileVersionMS
  dwFileVersionLS := module.record.VersionInfo.dwFileVersionLS

end NamedModule

/-- What a handler was called for, and what `MiniDumpWriteDump` found in the process. -/
structure NativeFailure where
  failure : UserStreams.Failure
  dump_thread_id : UInt32
  requesting_thread_id : UInt32
  exceptionStream : MINIDUMP_EXCEPTION_STREAM
  miscInfo : MiscRecord
  modules : { modules : List NamedModule // modules.length < 2 ^ 31 }

namespace NativeFailure

variable (native : NativeFailure)

/-- What the dump says in its streams. -/
def content : DumpContent where
  exceptionStream := some native.exceptionStream
  miscInfo := some native.miscInfo
  modules := some ⟨native.modules.1.map (·.record), by
    rw [List.length_map]
    exact native.modules.2⟩
  breakpadInfo := some ⟨3, native.dump_thread_id, native.requesting_thread_id⟩
  assertionInfo := UserStreams.assertionInfo native.failure

/-- What is to be read of the dump. -/
def minidump : MiniDump where
  ExceptionStream := some native.exceptionStream.toExceptionStream
  Module := native.modules.1.map (·.toModule)
  MiscInfo := some native.miscInfo.read
  BreakpadInfo := some ⟨3, native.dump_thread_id, native.requesting_thread_id⟩
  AssertionInfo := (UserStreams.assertionInfo native.failure).map .ofRaw

/-- The file that `MiniDumpWriteDump` has written: three streams of its own, the user streams
of the handler, and the names of the modules. -/
structure Dumped (view : DumpView) : Prop where
  exceptionStream : view.HoldsStream .ExceptionStream
    (some (Native.exceptionStream.encode native.exceptionStream))
  miscInfo : view.HoldsStream .MiscInfoStream (some native.miscInfo.bytes)
  modules : view.HoldsStream .ModuleListStream
    (some (DumpContent.moduleListBytes (native.modules.1.map (·.record))))
  userStreams : WrittenTo view
    (userStreams native.dump_thread_id native.requesting_thread_id
      (UserStreams.assertionInfo native.failure))
  names : ∀ module ∈ native.modules.1,
    HoldsAt view.memory module.record.ModuleNameRva.toNat module.nameBytes

variable {native} {view : DumpView}

theorem Dumped.holds (h : native.Dumped view) : view.Holds native.content := by
  intro type
  cases type with
  | ExceptionStream => exact h.exceptionStream
  | MiscInfoStream => exact h.miscInfo
  | ModuleListStream => exact h.modules
  | MD_BREAKPAD_INFO_STREAM =>
    have hstream := h.userStreams .MD_BREAKPAD_INFO_STREAM (by decide)
    simp only [DumpContent.bytes, content, Option.map_some]
    rw [← breakpadInfoBytes_eq]
    exact hstream
  | MD_ASSERTION_INFO_STREAM =>
    have hstream := h.userStreams .MD_ASSERTION_INFO_STREAM (by decide)
    simp only [DumpContent.bytes, content]
    cases hassertion : UserStreams.assertionInfo native.failure with
    | none =>
      rw [hassertion] at hstream
      exact hstream
    | some assertion =>
      rw [hassertion] at hstream
      rw [Option.map_some, ← assertionInfoBytes_eq]
      exact hstream

theorem hasDates_content : native.content.HasDates ↔ native.miscInfo.HasDates := by
  simp [DumpContent.HasDates, content]

end NativeFailure

/-! ### Reading it -/

/-- `Module` of `SMEMiniDumpReader`, with the paths that are read through the modules. -/
def readPaths (view : DumpView) : List MINIDUMP_MODULE → Except ReadException (List MiniDumpModule)
  | [] => .ok []
  | module :: modules => do
    let path ← (view.mappedView.pathAndFileName module).result
    let others ← readPaths view modules
    return ⟨path, module.dwFileVersionMS, module.dwFileVersionLS⟩ :: others

/-- What `SMEDBManager` gets of the file of a dump. -/
def readDump (view : DumpView) : Except ReaderException MiniDump := do
  let reader ← view.smeMiniDumpReader
  let modules ← (readPaths view reader.m_module).mapError .read
  return ⟨reader.m_exceptionstream, modules, reader.m_miscinfo, reader.m_breakpadinfo,
    reader.m_assertioninfo⟩

theorem codeUnits_encode (units : List UInt16) :
    codeUnits (units.flatMap uint16.encode) = units := by
  induction units with
  | nil => rfl
  | cons unit units ih =>
    have hunit : uint16.decode (uint16.encode unit) = unit := uint16.decode_encode unit
    obtain ⟨low, high, hbytes⟩ := List.length_eq_two.mp (uint16.length_encode unit)
    rw [hbytes] at hunit
    rw [List.flatMap_cons, hbytes, List.cons_append, List.singleton_append, codeUnits, ih]
    exact congrArg (· :: units) hunit

section Reading

variable {native : NativeFailure} {view : DumpView}

/-- The name that stands where a module says is read. -/
theorem result_pathAndFileName {module : NamedModule}
    (h : HoldsAt view.memory module.record.ModuleNameRva.toNat module.nameBytes) :
    (view.mappedView.pathAndFileName module.record.toModule).result =
      .ok module.toModule.PathAndFileName := by
  have hlength := module.length_name_lt
  -- the length is taken for a signed number, which it is not long enough to notice
  have hfield : (toInt32 (bytesAt view.memory module.record.ModuleNameRva.toNat 4)).toInt =
      (2 * module.name.length : ℕ) := by
    have hbytes : bytesAt view.memory module.record.ModuleNameRva.toNat 4 =
        uint32.encode (UInt32.ofNat (2 * module.name.length)) := h.left
    rw [hbytes, DumpView.encode_ofNat, toInt32_getBytes32, Int32.toInt_ofNat_of_lt (by omega)]
  have hunits : bytesAt view.memory (module.record.ModuleNameRva.toNat + 4)
      (2 * module.name.length) = module.name.flatMap uint16.encode := by
    have hright := h.right
    have hsize : (module.name.flatMap uint16.encode).length = 2 * module.name.length := by
      rw [length_flatMap_encode, Nat.mul_comm]
      rfl
    rw [HoldsAt, hsize, uint32.length_encode] at hright
    exact hright
  have hlen : ((2 * module.name.length : ℕ) : Int).tdiv 2 = module.name.length := by
    rw [Int.tdiv_eq_ediv_of_nonneg (Int.natCast_nonneg _)]
    omega
  rw [MappedView.pathAndFileName, MappedView.readString, Traced.result_bind_eq_ok_iff]
  refine ⟨bytesAt view.memory module.record.ModuleNameRva.toNat 4, rfl, ?_⟩
  simp only [hfield, hlen]
  rw [if_neg (by omega), Traced.result_bind_eq_ok_iff]
  refine ⟨bytesAt view.memory (module.record.ModuleNameRva.toNat + 4)
    (2 * module.name.length), rfl, ?_⟩
  rw [hunits, codeUnits_encode]
  rfl

theorem readPaths_of_holdsAt {modules : List NamedModule}
    (h : ∀ module ∈ modules,
      HoldsAt view.memory module.record.ModuleNameRva.toNat module.nameBytes) :
    readPaths view (modules.map fun module => module.record.toModule) =
      .ok (modules.map (·.toModule)) := by
  induction modules with
  | nil => rfl
  | cons module modules ih =>
    obtain ⟨hmodule, hmodules⟩ := List.forall_mem_cons.mp h
    rw [List.map_cons, readPaths, result_pathAndFileName hmodule, ih hmodules]
    rfl

theorem readDump_of_dumped (h : native.Dumped view) :
    readDump view =
      if native.miscInfo.HasDates then .ok native.minidump else .error .argumentOutOfRange := by
  rw [readDump, DumpView.smeMiniDumpReader_of_holds h.holds]
  simp only [NativeFailure.hasDates_content]
  split_ifs
  · have hmodules : native.content.reader.m_module =
        native.modules.1.map fun module => module.record.toModule := by
      simp [DumpContent.reader, NativeFailure.content]
    change (readPaths view native.content.reader.m_module).mapError _ >>= _ = _
    rw [hmodules, readPaths_of_holdsAt h.names]
    rfl
  · rfl

end Reading

/-! ### The delivery -/

/-- `MiniDumpReadDumpStream`, and the size of a pointer on the server. -/
structure Dbghelp where
  pointerSize : { n : ℕ // n = 4 ∨ n = 8 }
  readDumpStream : (file : List UInt8) → MINIDUMP_STREAM_TYPE → StreamLookup file.length

/-- The file is mapped. -/
def Dbghelp.mapFile (dbghelp : Dbghelp) (file : List UInt8) : DumpView where
  memory i := file.getD i 0
  size := file.length
  pointerSize := dbghelp.pointerSize
  stream := dbghelp.readDumpStream file

/-- A dump that nothing keeps from arriving. -/
structure DumpDelivery where
  native : NativeFailure
  request : Request
  cut : Segmentation
  env : Environment
  conditions : Conditions
  dbghelp : Dbghelp
  /-- The file that is sent is that of the dump. -/
  dumped : native.Dumped (dbghelp.mapFile request.content)
  /-- The server takes the file for a dump, by its name. -/
  selected : selectFile request.FileName = .ok .dmp
  length_lt : request.content.length < 2 ^ 31
  uncut : HeaderUncut request cut
  creatable : env.creatable request.FileName = true
  connects : env.connects = true
  /-- Nothing happens to go wrong in the database. -/
  faultless : ∀ p, conditions.faults p = false
  unquoted_paths : ∀ module ∈ native.modules.1, Unquoted module.toModule.PathAndFileName
  /-- The names in the misc info, or the time in it as the server prints it. -/
  unquoted_miscInfo : ∀ text ∈ miscTexts conditions.host native.miscInfo.read, Unquoted text
  unquoted_name : Unquoted request.FileName

/-- What is known of the file of a dump once it has been received. -/
structure DumpArrived (dbghelp : Dbghelp) (insertion : Insertion) (upload : Upload) : Prop where
  fileName_eq : upload.fileName = insertion.dumpname
  apikey_eq : upload.apikey = insertion.projectid
  read : ∀ dump, readDump (dbghelp.mapFile insertion.file) = .ok dump →
    upload.smeMiniDumpReader = .ok dump
  refused : ∀ e, readDump (dbghelp.mapFile insertion.file) = .error e →
    ∃ e', upload.smeMiniDumpReader = .error e'

/-- The functions whose statements are executed, in their order. -/
def NativeFailure.builders (native : NativeFailure) : List Builder :=
  if native.miscInfo.HasDates then
    [.exception, .module, .miscInfo, .breakpad] ++ match native.failure with
      | .exception => [.assertion]
      | .invalidParameter _ _ _ _ | .pureVirtualCall => []
  else []

/-- The rows of a dump: its row in `Dumps`, and one row for each function, with what the function
writes of the dump, under the dump id that was found. -/
structure DumpDelivered (native : NativeFailure) (host : Host) (upload : Upload) (did : Int32)
    (rows : List Storage.Insert) : Prop where
  places : rows.map Insert.place = (.insert :: native.builders).map Position.execute
  dump : ∀ row ∈ rows, row.builder = .insert → row.record =
    [("Dump_Name", upload.fileName), ("ProjectsProject_ID", intToString upload.apikey)]
  detail : ∀ row ∈ rows, row.builder ≠ .insert →
    row.record = writtenFields host ((Content.dmp native.minidump).reported did 0) row.builder

section Rows

variable {native : NativeFailure} {conditions : Conditions} {upload : Upload} {dbghelp : Dbghelp}
  {insertion : Insertion}

theorem unquoted_minidump {host : Host}
    (hpaths : ∀ module ∈ native.modules.1, Unquoted module.toModule.PathAndFileName)
    (hmiscInfo : ∀ text ∈ miscTexts host native.miscInfo.read, Unquoted text) :
    ∀ text ∈ (Content.dmp native.minidump).texts host, Unquoted text := by
  have htexts : (Content.dmp native.minidump).texts host =
      (["", "", "", "", "", ""] ++
        (native.modules.1.map fun module => module.toModule.PathAndFileName)) ++
          miscTexts host native.miscInfo.read := by
    have hmiscInfo : [native.miscInfo.read].flatMap (miscTexts host) =
        miscTexts host native.miscInfo.read := List.flatMap_singleton _ _
    have hmodules : native.minidump.Module.map (·.PathAndFileName) =
        native.modules.1.map fun module => module.toModule.PathAndFileName := List.map_map
    rw [← hmiscInfo, ← hmodules]
    rfl
  rw [htexts]
  simp only [List.forall_mem_append, List.forall_mem_cons, List.not_mem_nil, false_imp_iff,
    implies_true, and_true, List.forall_mem_map]
  exact ⟨⟨⟨unquoted_empty, unquoted_empty, unquoted_empty, unquoted_empty, unquoted_empty,
    unquoted_empty⟩, hpaths⟩, hmiscInfo⟩

/-- What is known of a dump that has been read. -/
theorem content_of_dumpArrived (hdumped : native.Dumped (dbghelp.mapFile insertion.file))
    (hfilesel : upload.filesel = .dmp) (h : DumpArrived dbghelp insertion upload) :
    if native.miscInfo.HasDates then upload.content = .ok (.dmp native.minidump)
    else ∃ e, upload.content = .error e := by
  have hread := readDump_of_dumped hdumped
  split_ifs with hdates
  · rw [if_pos hdates] at hread
    rw [Upload.content, hfilesel, h.read _ hread]
    rfl
  · rw [if_neg hdates] at hread
    obtain ⟨e, he⟩ := h.refused _ hread
    exact ⟨e, by rw [Upload.content, hfilesel, he]; rfl⟩

/-- The positions of a dump at which rows are stored, with or without an assertion. -/
theorem filter_reached_of_content (hfaultless : ∀ p, conditions.faults p = false)
    (hcontent : upload.content = .ok (.dmp native.minidump)) :
    (reached (fails conditions upload) (plan upload)).filter Position.stores =
      ([Builder.insert, .exception, .module, .miscInfo, .breakpad] ++
        if native.minidump.AssertionInfo.isNone then [Builder.assertion] else []).map
          Position.execute := by
  have hread : fails conditions upload .read = false := by simp [fails, hfaultless, hcontent]
  -- only the statement of an assertion may not be built
  have hbuild (b : Builder) : fails conditions upload (.build b) =
      !Content.builds (.dmp native.minidump) b := by
    rw [fails_build hcontent, hfaultless, Bool.false_or]
  have hexception : Content.builds (.dmp native.minidump) .exception = true := rfl
  have hmodule : Content.builds (.dmp native.minidump) .module = true := rfl
  have hmiscInfo : Content.builds (.dmp native.minidump) .miscInfo = true := rfl
  have hbreakpad : Content.builds (.dmp native.minidump) .breakpad = true := rfl
  have hassertion : Content.builds (.dmp native.minidump) .assertion =
      native.minidump.AssertionInfo.isNone := rfl
  cases hnone : native.minidump.AssertionInfo.isNone with
  | true =>
    simp [reached, plan, detailPlan, hcontent, contentPlan, steps, hfaultless,
      hread, hbuild, hexception, hmodule, hmiscInfo, hbreakpad, hassertion, hnone]
    rfl
  | false =>
    simp [reached, plan, detailPlan, hcontent, contentPlan, steps, hfaultless,
      hread, hbuild, hexception, hmodule, hmiscInfo, hbreakpad, hassertion, hnone]
    rfl

theorem filter_reached (hfaultless : ∀ p, conditions.faults p = false)
    (hcontent : if native.miscInfo.HasDates then upload.content = .ok (.dmp native.minidump)
      else ∃ e, upload.content = .error e) :
    (reached (fails conditions upload) (plan upload)).filter Position.stores =
      (.insert :: native.builders).map Position.execute := by
  split_ifs at hcontent with hdates
  · rw [filter_reached_of_content hfaultless hcontent, NativeFailure.builders, if_pos hdates,
      NativeFailure.minidump]
    cases native.failure with
    | exception | invalidParameter | pureVirtualCall => rfl
  · obtain ⟨e, hcontent⟩ := hcontent
    simp [reached, plan, detailPlan, hcontent, fails, hfaultless,
      NativeFailure.builders, hdates]
    rfl

/-- Nothing fails exactly if the dump is read and has no assertion. -/
theorem not_fails_iff (hfaultless : ∀ p, conditions.faults p = false)
    (hcontent : if native.miscInfo.HasDates then upload.content = .ok (.dmp native.minidump)
      else ∃ e, upload.content = .error e) :
    (∀ p ∈ plan upload, fails conditions upload p = false) ↔
      native.miscInfo.HasDates ∧ native.failure = .exception := by
  split_ifs at hcontent with hdates
  · have hassertion : native.minidump.AssertionInfo.isNone = true ↔
        native.failure = .exception := by
      rw [NativeFailure.minidump]
      cases native.failure with
      | exception => exact ⟨fun _ => rfl, fun _ => rfl⟩
      | invalidParameter | pureVirtualCall => exact ⟨nofun, nofun⟩
    rw [← hassertion]
    refine ⟨fun h => ⟨hdates, ?_⟩, fun h p hp => ?_⟩
    · have hbuild := h (.build .assertion)
        (by simp [plan, detailPlan, hcontent, contentPlan, steps])
      rw [fails_build hcontent, hfaultless, Bool.false_or, Bool.not_eq_false'] at hbuild
      exact hbuild
    · cases p with
      | build b =>
        rw [fails_build hcontent, hfaultless, Bool.false_or, Bool.not_eq_false']
        -- of these only the assertion may fail
        have hb : b = .exception ∨ b = .module ∨ b = .miscInfo ∨ b = .breakpad ∨
            b = .assertion := by
          simpa [plan, detailPlan, hcontent, contentPlan, steps] using hp
        obtain rfl | rfl | rfl | rfl | rfl := hb
        · rfl
        · rfl
        · rfl
        · rfl
        · exact h.2
      | connect => rw [fails_connect, hfaultless]
      | execute b => rw [fails_execute, hfaultless]
      | getExcetpionID => rw [fails_getExcetpionID, hfaultless]
      | read => simp [fails, hfaultless, hcontent]
  -- the reader throws, so that reading fails
  · obtain ⟨e, hcontent⟩ := hcontent
    refine ⟨fun h => ?_, fun h => absurd h.1 hdates⟩
    have hread := h .read (by simp [plan])
    simp [fails, hcontent] at hread

end Rows

namespace DumpDelivery

variable (delivery : DumpDelivery)

/-- The bytes that arrive. -/
def insertion : Insertion :=
  ⟨delivery.request.FileName, delivery.request.apikey, delivery.request.content⟩

variable {delivery} {upload : Upload}

theorem content_of_arrived (h : DumpArrived delivery.dbghelp delivery.insertion upload) :
    if delivery.native.miscInfo.HasDates then upload.content = .ok (.dmp delivery.native.minidump)
    else ∃ e, upload.content = .error e := by
  have hselected := upload.selected
  rw [h.fileName_eq] at hselected
  exact content_of_dumpArrived delivery.dumped
    (Except.ok.inj (hselected.symm.trans delivery.selected)) h

theorem unquoted_fileName (h : DumpArrived delivery.dbghelp delivery.insertion upload) :
    Unquoted upload.fileName := by
  rw [h.fileName_eq]
  exact delivery.unquoted_name

theorem unquoted_texts (delivery : DumpDelivery) :
    ∀ text ∈ (Content.dmp delivery.native.minidump).texts delivery.conditions.host,
      Unquoted text :=
  unquoted_minidump delivery.unquoted_paths delivery.unquoted_miscInfo

/-- The file has no quotes, whether it has been read or not. -/
theorem doubled_of_arrived (h : DumpArrived delivery.dbghelp delivery.insertion upload) :
    ∀ t ∈ upload.texts delivery.conditions.host, Doubled t := by
  have hname := unquoted_fileName h
  have hcontent := content_of_arrived h
  split_ifs at hcontent
  · exact doubled_of_unquoted hcontent hname delivery.unquoted_texts
  · obtain ⟨e, hcontent⟩ := hcontent
    intro t ht
    rw [Upload.texts, hcontent] at ht
    rw [List.mem_singleton.mp ht]
    exact doubled_of_notMem hname

end DumpDelivery

/-- **What becomes of a native failure.** A breakpad handler is called for a failure, the file
of the dump is sent, the four fields of the header arrive uncut and nothing fails on the
server. Then the receiver stores the file, and the database gets, besides what was in it, the
row of the file in `Dumps` and, under the dump id that was found, the rows of the streams
with what is written of them: all five for an exception, four for an assertion, and none if
the time zone has a rule that is no date. So a dump is stored with all its rows exactly for an
exception in a time zone without such rules. -/
theorem DumpDelivery.dumpDelivered (delivery : DumpDelivery) :
    Reaches delivery.env (wire delivery.request delivery.cut) delivery.insertion ∧
      ∀ (upload : Upload) (d : Tables),
        DumpArrived delivery.dbghelp delivery.insertion upload →
        (∃ did rows, ((Storage.store delivery.conditions upload).runOn d).2 =
            rows.foldl scheme.store d ∧
          DumpDelivered delivery.native delivery.conditions.host upload did rows ∧
          (FreshName delivery.conditions upload d → did = ownDid delivery.conditions d)) ∧
        (Complete delivery.conditions upload d
            ((Storage.store delivery.conditions upload).runOn d).2 ↔
          delivery.native.miscInfo.HasDates ∧ delivery.native.failure = .exception) := by
  refine ⟨reaches_of_headerUncut (exists_selectFile_iff.mp ⟨_, delivery.selected⟩)
    delivery.length_lt delivery.uncut delivery.creatable delivery.connects,
    fun upload d harrived => ?_⟩
  have hcontent := DumpDelivery.content_of_arrived harrived
  have hname := DumpDelivery.unquoted_fileName harrived
  have hdoubled := DumpDelivery.doubled_of_arrived harrived
  constructor
  · obtain ⟨rows, hrows, hplaces, hown⟩ := (store_follows hdoubled d).stored
    refine ⟨_, rows, hrows, ⟨?_, fun row hrow => record_of_own (hown row hrow) hname, ?_⟩,
      foundDid_of_fresh hname⟩
    · exact hplaces.trans (filter_reached delivery.faultless hcontent)
    · intro row hrow hbuilder
      -- a row has been built, so that the dump has been read
      split_ifs at hcontent with hdates
      · obtain ⟨-, exceptionid, hrecord⟩ := exists_record_of_own (hown row hrow) hcontent
          delivery.unquoted_texts hbuilder
        exact hrecord
      · obtain ⟨e, hcontent⟩ := hcontent
        have hrow' := hown row hrow
        rw [Own, if_neg hbuilder] at hrow'
        obtain ⟨-, content, exceptionid, hok, -⟩ := hrow'
        cases hcontent.symm.trans hok
  · rw [complete_iff hdoubled]
    exact not_fails_iff delivery.faultless hcontent

/-! ### A dump -/

theorem length_noParameters : (List.replicate 15 (0 : UInt64)).length = 15 := rfl

/-- An access violation in a process without modules. -/
def accessViolation : NativeFailure where
  failure := .exception
  dump_thread_id := 7
  requesting_thread_id := 9
  exceptionStream :=
    ⟨9, 0, ⟨0xc0000005, 0, 0, 0x401000, 0, 0, ⟨List.replicate 15 0, length_noParameters⟩⟩,
      ⟨0, 0⟩⟩
  miscInfo := .info1 ⟨SIZEOF_INFO_1, 0, 1, 0, 0, 0⟩ rfl
  modules := ⟨[], by decide⟩

/-- Its streams, one after the other. -/
def violationFile : List UInt8 :=
  Native.exceptionStream.encode accessViolation.exceptionStream ++
    (accessViolation.miscInfo.bytes ++ (DumpContent.moduleListBytes [] ++
      breakpadInfoBytes 3 7 9))

/-- Where they stand. -/
def violationOffset : MINIDUMP_STREAM_TYPE → Option ℕ
  | .ExceptionStream => some 0
  | .MiscInfoStream => some 168
  | .ModuleListStream => some 192
  | .MD_BREAKPAD_INFO_STREAM => some 196
  | .MD_ASSERTION_INFO_STREAM => none

/-- They are found there. -/
def violationDbghelp : Dbghelp where
  pointerSize := ⟨4, isPointerSize_four⟩
  readDumpStream file type := match violationOffset type with
    | none => .notFound
    | some offset => if h : offset < file.length then .found offset h else .notFound

theorem stream_violation {file : List UInt8} {type : MINIDUMP_STREAM_TYPE} {offset : ℕ}
    (htype : violationOffset type = some offset) (h : offset < file.length) :
    (violationDbghelp.mapFile file).stream type = .found offset h := by
  simp [Dbghelp.mapFile, violationDbghelp, htype, h]

theorem length_exceptionStream :
    (Native.exceptionStream.encode accessViolation.exceptionStream).length = 168 :=
  Native.exceptionStream.length_encode _

theorem length_violationFile : violationFile.length = 208 := by
  rw [violationFile, List.length_append, List.length_append, List.length_append,
    length_exceptionStream]
  rfl

theorem dumped_violationFile :
    accessViolation.Dumped (violationDbghelp.mapFile violationFile) := by
  have hlength := length_violationFile
  have hsize : (violationDbghelp.mapFile violationFile).size = 208 := hlength
  have hexception : 0 < violationFile.length := by omega
  have hmiscInfo : 168 < violationFile.length := by omega
  have hmodules : 192 < violationFile.length := by omega
  have hbreakpad : 196 < violationFile.length := by omega
  have hfile : HoldsAt (violationDbghelp.mapFile violationFile).memory 0 violationFile :=
    holdsAt_zero violationFile
  -- the streams behind the first one
  have hrest := hfile.right
  rw [length_exceptionStream] at hrest
  have hlists : HoldsAt (violationDbghelp.mapFile violationFile).memory 192
      (DumpContent.moduleListBytes [] ++ breakpadInfoBytes 3 7 9) := hrest.right
  refine ⟨⟨0, hexception, stream_violation rfl hexception, ?_, hfile.left⟩,
    ⟨168, hmiscInfo, stream_violation rfl hmiscInfo, ?_, hrest.left⟩,
    ⟨192, hmodules, stream_violation rfl hmodules, ?_, hlists.left⟩,
    List.forall_mem_cons.mpr ⟨⟨196, hbreakpad, stream_violation rfl hbreakpad, ?_, hlists.right⟩,
      List.forall_mem_singleton.mpr rfl⟩, by simp [accessViolation]⟩
  · rw [hsize, length_exceptionStream]
    decide
  · rw [hsize]
    decide
  · rw [hsize]
    decide
  · rw [hsize]
    decide

/-- The dump, sent in pieces of 64 bytes to a server without failures. -/
def violationDelivery : DumpDelivery where
  native := accessViolation
  request := ⟨"crash.dmp", 10, violationFile, by decide, by rw [length_violationFile]; decide⟩
  cut := sampleDelivery.cut
  env := sampleDelivery.env
  conditions := sampleDelivery.conditions
  dbghelp := violationDbghelp
  dumped := dumped_violationFile
  selected := by decide
  length_lt := by rw [length_violationFile]; decide
  uncut := by decide
  creatable := rfl
  connects := sampleDelivery.connects
  faultless := sampleDelivery.faultless
  unquoted_paths := by simp [accessViolation]
  unquoted_miscInfo := List.forall_mem_singleton.mpr unquoted_empty
  unquoted_name := by unfold Unquoted; decide

/-- The dump as the server finds it. -/
def violationUpload : Upload where
  fileName := "crash.dmp"
  apikey := 10
  filesel := .dmp
  selected := by decide
  smeXMLReader := .error .nullReference
  smeMiniDumpReader := .ok accessViolation.minidump

theorem dumpArrived_violation :
    DumpArrived violationDbghelp violationDelivery.insertion violationUpload := by
  have hread : readDump (violationDbghelp.mapFile violationFile) =
      .ok accessViolation.minidump := readDump_of_dumped dumped_violationFile
  refine ⟨rfl, rfl, fun dump hdump => ?_, fun e he => ?_⟩
  · exact congrArg Except.ok (Except.ok.inj (hread.symm.trans hdump))
  · exact nomatch hread.symm.trans he

/-- All rows of the dump get into an empty database. -/
theorem complete_violation : Complete violationDelivery.conditions violationUpload noRows
    ((Storage.store violationDelivery.conditions violationUpload).runOn noRows).2 :=
  ((violationDelivery.dumpDelivered.2 violationUpload noRows dumpArrived_violation).2).mpr
    ⟨trivial, rfl⟩

end SMEWindow.Server

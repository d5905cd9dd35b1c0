import SMEWindow.Server.Statements
import Mathlib.Data.Set.Basic

/-!
# What a text can do to a statement

Two reports that differ only in their texts should give statements that differ only
inside of literals. The server puts every text between two quotes, but leaves the
quotes within it as they are: a text whose quotes are not doubled already ends the
literal that it was meant to fill.

## Main definitions

* `Reported.skeleton` — a report without the contents of its texts
* `Reported.texts` — the texts that statements are made of
* `Server.SameStructure` — reports with texts from a given set, and equal otherwise,
  give statements with the same tokens

## Main results

* `query_skeleton` — emptying the texts of a report empties them in its statements
* `sameStructure_iff` — a function keeps its tokens exactly when it has no texts to
  print or all of them have their quotes doubled
-/

set_option autoImplicit false

namespace SMEWindow.Server

open Collect DumpReader Lib Lib.QuotedText Lib.QuotedText.Statement Lib.Text

/-! ### Reports without their texts -/

/-- One level of an exception without its texts. -/
def blankFields (fields : ExceptionFields) : ExceptionFields :=
  { fields with
    Name := fields.Name.map fun _ => ""
    HelpLink := fields.HelpLink.map fun _ => ""
    Data := fields.Data.map fun _ => []
    CallStackString := fields.CallStackString.map fun _ => ""
    m_listCallstack := fields.m_listCallstack.map fun _ => [] }

/-- A managed report without its texts. -/
def blankReport (report : Xml.Report) : Xml.Report where
  ProjectInfo := { report.ProjectInfo with Name := report.ProjectInfo.Name.map fun _ => "" }
  SystemInfo :=
    { report.SystemInfo with ServicePack := report.SystemInfo.ServicePack.map fun _ => "" }
  ExceptionInfo := report.ExceptionInfo.map blankFields
  CallStackInfo := ⟨[]⟩

/-- A module without its path. -/
def blankModule (module : MiniDumpModule) : MiniDumpModule := { module with PathAndFileName := "" }

namespace Reported

/-- What is left of a report without the contents of its text fields: its project
name, service pack, exception names, help links, `Data`, call stack texts, module
paths and file name. -/
def skeleton (r : Reported) : Reported :=
  { r with
    fileName := ""
    m_smecollector := blankReport r.m_smecollector
    exinfo := r.exinfo.map blankFields
    minidump := { r.minidump with Module := r.minidump.Module.map blankModule } }

end Reported

/-- The texts of one level of an exception. -/
def fieldTexts (fields : ExceptionFields) : List String :=
  fields.Name.toList ++ fields.HelpLink.toList ++
    (fields.Data.getD []).flatMap (fun item => item.1 :: item.2.toList) ++
    fields.CallStackString.toList

/-- The texts of a frame. -/
def frameTexts (frame : CallStack) : List String := frame.m_method.toList ++ frame.m_file.toList

/-- The texts that the statements of a report are made of. -/
def Reported.texts (r : Reported) : List String :=
  [r.fileName] ++ r.m_smecollector.ProjectInfo.Name.toList ++
    r.m_smecollector.SystemInfo.ServicePack.toList ++
    fieldTexts r.m_smecollector.ExceptionInfo.outermost ++ fieldTexts r.exinfo.outermost ++
    r.m_smecollector.CallStackInfo.m_listCallstack.flatMap frameTexts ++
    r.minidump.Module.map MiniDumpModule.PathAndFileName

/-! ### The property -/

/-- The tokens of the statement that a function builds from a report. -/
def queryShape (kind : Char → Kind) (host : Host) (b : Builder) (r : Reported) :
    Except RuntimeException (List Token) :=
  (query host r b).map fun s => shape kind (render s)

/-- Every text of the report is empty or in the set. -/
def Reported.FilledFrom (r : Reported) (T : Set String) : Prop :=
  ∀ t ∈ r.texts, t = "" ∨ t ∈ T

/-- Reports with texts from `T` that differ only in their texts give the same tokens. -/
def SameStructure (kind : Char → Kind) (host : Host) (b : Builder) (T : Set String) : Prop :=
  ∀ r r' : Reported, r.skeleton = r'.skeleton → r.FilledFrom T → r'.FilledFrom T →
    queryShape kind host b r = queryShape kind host b r'

variable {kind : Char → Kind} {host : Host} {r : Reported} {b : Builder} {s : Statement}
  {t : String} {T : Set String}

/-! ### Emptying the texts -/

theorem blank_projectColumns (info : ProjectInformation) (m_dumpid : Int32) :
    projectColumns { info with Name := info.Name.map fun _ => "" } m_dumpid =
      (projectColumns info m_dumpid).map blank := by
  obtain ⟨name, version⟩ := info
  cases name <;> cases version <;> rfl

theorem blank_makeQueryforCSSystemInfo (report : Xml.Report) (m_dumpid : Int32) :
    makeQueryforCSSystemInfo (blankReport report) m_dumpid =
      (makeQueryforCSSystemInfo report m_dumpid).map blank := by
  obtain ⟨_, ⟨platform, servicePack, _, _, _, _⟩, _, _⟩ := report
  cases servicePack <;> rfl

theorem blank_exceptionColumns (info : ExceptionInformation) :
    exceptionColumns (info.map blankFields).outermost =
      blank (exceptionColumns info.outermost) := by
  have hfields : ∀ fields, exceptionColumns (blankFields fields) =
      blank (exceptionColumns fields) := by
    rintro ⟨name, helpLink, _, _, data, callStack, _⟩
    cases name <;> cases helpLink <;> cases data <;> cases callStack <;> rfl
  cases info with
  | innermost fields => exact hfields fields
  | wrapping fields inner => exact hfields fields

theorem blank_makeQueryforModule (dump : MiniDump) (m_dumpid : Int32) :
    makeQueryforModule { dump with Module := dump.Module.map blankModule } m_dumpid =
      blank (makeQueryforModule dump m_dumpid) := by
  simp only [makeQueryforModule, blank, List.map_cons, List.map_append, List.map_flatMap,
    List.flatMap_map]
  rfl

/-- The other functions print no text of the report. -/
theorem texts_query (hb : b.hasText = false) (h : query host r b = .ok s) : texts s = [] := by
  cases b with
  | selectOfProject =>
    obtain rfl := Except.ok.inj h
    rfl
  | exception =>
    obtain ⟨stream, -, h⟩ := bind_eq_ok_iff.mp h
    obtain rfl := Except.ok.inj h
    -- the parameters are printed numbers
    have hparameters : ∀ parameters : List UInt64, texts (parameters.flatMap fun parameter =>
        column (.fixed (toHexString parameter.toNat))) = [] := fun parameters =>
      (texts_flatMap _ parameters).trans (List.flatMap_eq_nil_iff.mpr fun _ _ => rfl)
    rw [← List.cons_append, ← List.cons_append, texts_append, texts_append, hparameters]
    rfl
  | miscInfo =>
    obtain ⟨info, -, h⟩ := bind_eq_ok_iff.mp h
    obtain rfl := Except.ok.inj h
    rfl
  | breakpad =>
    obtain ⟨info, -, h⟩ := bind_eq_ok_iff.mp h
    obtain rfl := Except.ok.inj h
    rfl
  | assertion =>
    simp only [query, makeQueryforAssertion] at h
    split at h
    · obtain ⟨line, -, h⟩ := bind_eq_ok_iff.mp h
      obtain ⟨type, -, h⟩ := bind_eq_ok_iff.mp h
      obtain rfl := Except.ok.inj h
      rfl
    · obtain rfl := Except.ok.inj h
      rfl
  | insert | selectOfName | addDumpsID | module | csProjectInfo | csSystemInfo
  | csExceptionInfo | innerCSExceptionInfo | csCallStackInfo => cases hb

/-- Emptying the texts of a report empties them in its statements. -/
theorem query_skeleton (host : Host) (r : Reported) (b : Builder) :
    query host r.skeleton b = (query host r b).map blank := by
  -- a function without texts builds the same statement from the skeleton
  have hnone (hb : b.hasText = false) (h : query host r.skeleton b = query host r b) :
      query host r.skeleton b = (query host r b).map blank := by
    rw [h]
    cases hquery : query host r b with
    | error e => rfl
    | ok s => rw [Except.map, blank_eq_self (texts_query hb hquery)]
  cases b with
  | selectOfProject | exception | miscInfo | breakpad | assertion => exact hnone rfl rfl
  | insert => rfl
  | selectOfName => rfl
  | addDumpsID =>
    simp only [query, makeQueryforAddDumpsID, Reported.skeleton, blankReport,
      blank_projectColumns]
    cases projectColumns r.m_smecollector.ProjectInfo r.m_dumpid <;> rfl
  | module => exact congrArg Except.ok (blank_makeQueryforModule _ _)
  | csProjectInfo =>
    simp only [query, makeQueryforCSProjectInfo, Reported.skeleton, blankReport,
      blank_projectColumns]
    cases projectColumns r.m_smecollector.ProjectInfo r.m_dumpid <;> rfl
  | csSystemInfo => exact blank_makeQueryforCSSystemInfo _ _
  | csExceptionInfo =>
    simp only [query, makeQueryforCSExceptionInfo, Reported.skeleton, blankReport,
      blank_exceptionColumns, Except.map, blank, List.map_cons, List.map_append]
    rfl
  | innerCSExceptionInfo =>
    simp only [query, makeQueryforInnerCSExceptionInfo, Reported.skeleton,
      blank_exceptionColumns, Except.map, blank, List.map_cons, List.map_append]
    rfl
  | csCallStackInfo => rfl

/-! ### Texts with doubled quotes -/

section Closed

variable {P : String → Prop} (hempty : P "") (happend : ∀ {t u : String}, P t → P u → P (t ++ u))

include hempty

theorem getD_of_forall {value : Option String} (h : ∀ t ∈ value.toList, P t) :
    P (value.getD "") := by
  cases value with
  | none => exact hempty
  | some t => exact h t (by simp)

include happend

/-- What holds of the texts of a level, of colons and of texts put together holds of the
text of its `Data`. -/
theorem dataToString_of_forall {fields : ExceptionFields} (hcolon : P ":")
    (h : ∀ t ∈ fieldTexts fields, P t) : P fields.dataToString := by
  refine List.foldlRecOn _ _ hempty fun datastring hdata item hitem => ?_
  have htexts : ∀ t ∈ item.1 :: item.2.toList, P t := by
    intro t ht
    refine h t ?_
    simp only [fieldTexts, List.mem_append, List.mem_flatMap]
    exact .inl (.inr ⟨item, hitem, ht⟩)
  have hkey : P item.1 := htexts _ List.mem_cons_self
  have hvalue : P (item.2.getD "") :=
    getD_of_forall hempty fun t ht => htexts t (List.mem_cons_of_mem _ ht)
  exact happend hdata (happend (happend (happend hcolon hkey) hcolon) hvalue)

/-- The same for the text of a call stack. -/
theorem toText_of_forall {info : CallstackInformation}
    (hfixed : ∀ t ∈ ["CallStack", ":Method:", ":FileName:", ":Line:", "\n"], P t)
    (hline : ∀ n, P (intToString n))
    (h : ∀ t ∈ info.m_listCallstack.flatMap frameTexts, P t) : P info.toText := by
  simp only [List.forall_mem_cons] at hfixed
  obtain ⟨hstack, hmethod, hfileName, hlineName, hbreak, -⟩ := hfixed
  refine List.foldlRecOn _ _ hempty fun temp htemp item hitem => ?_
  have htexts : ∀ t ∈ frameTexts item, P t := fun t ht =>
    h t (List.mem_flatMap.mpr ⟨item, hitem, ht⟩)
  have hm : P (item.m_method.getD "") :=
    getD_of_forall hempty fun t ht => htexts t (List.mem_append_left _ ht)
  have hf : P (item.m_file.getD "") :=
    getD_of_forall hempty fun t ht => htexts t (List.mem_append_right _ ht)
  have hframe : P item.toText := by
    show P ("CallStack" ++ ":Method:" ++ item.m_method.getD "" ++ ":FileName:" ++
      item.m_file.getD "" ++ ":Line:" ++ intToString item.m_line)
    exact happend (happend (happend (happend (happend (happend hstack hmethod) hm) hfileName) hf)
      hlineName) (hline _)
  exact happend (happend htemp hframe) hbreak

end Closed

theorem doubled_dataToString {fields : ExceptionFields} (h : ∀ t ∈ fieldTexts fields, Doubled t) :
    Doubled fields.dataToString :=
  dataToString_of_forall doubled_empty Doubled.append (by decide) h

theorem doubled_toText {info : CallstackInformation}
    (h : ∀ t ∈ info.m_listCallstack.flatMap frameTexts, Doubled t) : Doubled info.toText :=
  toText_of_forall doubled_empty Doubled.append (by decide)
    (fun n => doubled_of_notMem (quote_notMem_intToString n)) h

theorem texts_projectColumns {info : ProjectInformation} {m_dumpid : Int32}
    (h : projectColumns info m_dumpid = .ok s) : texts s = [info.Name.getD ""] := by
  obtain ⟨version, -, h⟩ := bind_eq_ok_iff.mp h
  obtain rfl := Except.ok.inj h
  rfl

theorem texts_makeQueryforModule (dump : MiniDump) (m_dumpid : Int32) :
    texts (makeQueryforModule dump m_dumpid) = dump.Module.map MiniDumpModule.PathAndFileName := by
  have hpaths : (dump.Module.flatMap fun module =>
      texts [.text module.PathAndFileName, .fixed "?"]) =
      dump.Module.map MiniDumpModule.PathAndFileName := List.map_eq_flatMap.symm
  have hversions : (dump.Module.flatMap fun module =>
      texts [.fixed module.fileVersion, .fixed "?"]) = [] :=
    List.flatMap_eq_nil_iff.mpr fun _ _ => rfl
  show texts (dump.Module.flatMap _ ++ _ ++ dump.Module.flatMap _ ++ _ ++ _) = _
  rw [texts_append, texts_append, texts_append, texts_append, texts_flatMap, hpaths,
    texts_flatMap, hversions]
  simp [texts, pieceText, printed]

theorem mem_of_notNull {α : Type} {value : Option α} {a : α} (h : notNull value = .ok a) :
    a ∈ value := by
  cases value with
  | none => cases h
  | some b => exact congrArg some (Except.ok.inj h)

theorem doubled_exceptionColumns {fields : ExceptionFields}
    (h : ∀ t ∈ fieldTexts fields, Doubled t) :
    ∀ t ∈ texts (exceptionColumns fields), Doubled t := by
  have htexts : texts (exceptionColumns fields) = [fields.Name.getD "", fields.HelpLink.getD "",
      fields.dataToString, fields.CallStackString.getD ""] := rfl
  have hdata := doubled_dataToString h
  simp only [fieldTexts, List.forall_mem_append] at h
  obtain ⟨⟨⟨hname, hhelpLink⟩, -⟩, hcallStack⟩ := h
  simp only [htexts, List.forall_mem_cons]
  exact ⟨getD_of_forall doubled_empty hname, getD_of_forall doubled_empty hhelpLink, hdata,
    getD_of_forall doubled_empty hcallStack, fun _ h => absurd h List.not_mem_nil⟩

/-- Texts with doubled quotes give statements with doubled quotes in their texts. -/
theorem doubled_query (hr : ∀ t ∈ r.texts, Doubled t) (h : query host r b = .ok s) :
    ∀ t ∈ texts s, Doubled t := by
  simp only [Reported.texts, List.forall_mem_append, List.forall_mem_singleton] at hr
  obtain ⟨⟨⟨⟨⟨⟨hfileName, hname⟩, hservicePack⟩, hexception⟩, hexinfo⟩, hframes⟩, hpaths⟩ := hr
  have hone {u : String} (hu : Doubled u) : ∀ t ∈ [u], Doubled t := by simpa using hu
  cases b with
  | selectOfProject | exception | miscInfo | breakpad | assertion =>
    simp [texts_query rfl h]
  | insert =>
    obtain rfl := Except.ok.inj h
    exact hone hfileName
  | selectOfName =>
    obtain rfl := Except.ok.inj h
    exact hone hfileName
  | addDumpsID =>
    obtain ⟨columns, hcolumns, rfl⟩ := map_eq_ok_iff.mp h
    exact texts_projectColumns hcolumns ▸ hone (getD_of_forall doubled_empty hname)
  | module =>
    obtain rfl := Except.ok.inj h
    rwa [texts_makeQueryforModule]
  | csProjectInfo =>
    obtain ⟨columns, hcolumns, rfl⟩ := map_eq_ok_iff.mp h
    exact texts_projectColumns hcolumns ▸ hone (getD_of_forall doubled_empty hname)
  | csSystemInfo =>
    obtain ⟨servicePack, hnotNull, h⟩ := bind_eq_ok_iff.mp h
    obtain rfl := Except.ok.inj h
    have hsome : servicePack ∈ r.m_smecollector.SystemInfo.ServicePack :=
      mem_of_notNull hnotNull
    exact hone (hservicePack servicePack (Option.mem_toList.mpr hsome))
  | csExceptionInfo =>
    obtain rfl := Except.ok.inj h
    exact doubled_exceptionColumns hexception
  | innerCSExceptionInfo =>
    obtain rfl := Except.ok.inj h
    exact doubled_exceptionColumns hexinfo
  | csCallStackInfo =>
    obtain rfl := Except.ok.inj h
    exact hone (doubled_toText hframes)

/-! ### The texts of one report -/

/-- A report with the text `t` once in every statement that has texts. -/
def probe (t : String) : Reported where
  fileName := t
  apikey := 0
  m_dumpid := 0
  m_smecollector :=
    ⟨⟨some t, some ProjectInformation.zeroVersion⟩,
      ⟨.Win32NT, some t, ProjectInformation.zeroVersion, ProjectInformation.zeroVersion, false,
        false⟩,
      .innermost ⟨some t, none, 0, none, none, none, none⟩, ⟨[⟨some t, none, 0⟩]⟩⟩
  exinfo := .innermost ⟨some t, none, 0, none, none, none, none⟩
  exceptionid := 0
  minidump := ⟨none, [⟨t, 0, 0⟩], none, none, none⟩

/-- The report has no other texts. -/
theorem eq_of_mem_texts_probe {u : String} (hu : u ∈ (probe t).texts) : u = t := by
  have htexts : (probe t).texts = List.replicate 7 t := rfl
  rw [htexts, List.mem_replicate] at hu
  exact hu.2

/-- The text of a frame has its quotes doubled only if its method has. -/
theorem doubled_of_doubled_frame
    (h : Doubled (CallstackInformation.toText ⟨[⟨some t, none, 0⟩]⟩)) : Doubled t := by
  have htext : (CallstackInformation.toText ⟨[⟨some t, none, 0⟩]⟩).toList =
      "CallStack:Method:".toList ++
        (t.toList ++ ':' :: ("FileName::Line:" ++ intToString 0 ++ "\n").toList) := by
    show ("" ++ ("CallStack" ++ ":Method:" ++ t ++ ":FileName:" ++ "" ++ ":Line:" ++
      intToString 0) ++ "\n").toList = _
    simp
  -- the colon behind the method keeps its quotes apart from what follows
  rw [Doubled, htext, doubledFrom_append (by decide)] at h
  exact doubledFrom_of_append_cons (by decide) h

/-- In a statement for `probe t` the text comes first, and the others are empty. -/
theorem exists_query_probe (host : Host) (hb : b.hasText = true) (t : String) :
    ∃ s u us, query host (probe t) b = .ok s ∧ texts s = u :: us ∧ (∀ v ∈ us, v = "") ∧
      (Doubled u → Doubled t) := by
  cases b with
  | insert | selectOfName | addDumpsID | module | csProjectInfo | csSystemInfo =>
    exact ⟨_, t, [], rfl, rfl, by simp, id⟩
  | csExceptionInfo | innerCSExceptionInfo =>
    exact ⟨_, t, ["", "", ""], rfl, rfl, by simp, id⟩
  | csCallStackInfo => exact ⟨_, _, [], rfl, rfl, by simp, doubled_of_doubled_frame⟩
  | selectOfProject | exception | miscInfo | breakpad | assertion => cases hb

/-! ### When the tokens stay the same -/

/-- Texts with doubled quotes leave the tokens as they are without any text. -/
theorem queryShape_skeleton (h : b.hasText = false ∨ ∀ t ∈ r.texts, Doubled t) :
    queryShape kind host b r = queryShape kind host b r.skeleton := by
  rw [queryShape, queryShape, query_skeleton]
  cases hquery : query host r b with
  | error e => rfl
  | ok s =>
    refine congrArg Except.ok ?_
    rcases Bool.eq_false_or_eq_true b.hasText with hb | hb
    · -- the texts stand inside literals and stay there
      have hr := h.resolve_left (by simp [hb])
      exact shape_blank (enclosed_query hb hquery) (doubled_query hr hquery)
    · rw [blank_eq_self (texts_query hb hquery)]

/-- **When texts stay inside their literals.** A function of the server gives
statements with the same tokens for all reports that differ only in their texts
exactly when it prints no texts, or all texts that may arrive have their quotes
doubled. -/
theorem sameStructure_iff (kind : Char → Kind) (host : Host) (b : Builder) (T : Set String) :
    SameStructure kind host b T ↔ b.hasText = false ∨ ∀ t ∈ T, Doubled t := by
  constructor
  · intro h
    rw [or_iff_not_imp_left, Bool.not_eq_false]
    intro hb t ht
    have hshape : queryShape kind host b (probe t) = queryShape kind host b (probe "") := by
      refine h _ _ rfl (fun u hu => .inr ?_) fun u hu => .inl (eq_of_mem_texts_probe hu)
      rwa [eq_of_mem_texts_probe hu]
    have hempty : ∀ u ∈ (probe "").texts, Doubled u := fun u hu =>
      eq_of_mem_texts_probe hu ▸ doubled_empty
    -- so the text leaves the tokens as they are without it
    rw [queryShape_skeleton (r := probe "") (.inr hempty),
      show (probe "").skeleton = (probe t).skeleton from rfl] at hshape
    obtain ⟨s, u, us, hquery, htexts, hus, hdoubled⟩ := exists_query_probe host hb t
    rw [queryShape, queryShape, query_skeleton, hquery] at hshape
    refine hdoubled (doubled_of_shape_eq (enclosed_query hb hquery) htexts ?_
      (Except.ok.inj hshape))
    exact fun v hv => hus v hv ▸ doubled_empty
  · intro h r r' hskeleton hr hr'
    have hdoubled {r : Reported} (hr : r.FilledFrom T) :
        b.hasText = false ∨ ∀ t ∈ r.texts, Doubled t :=
      h.imp_right fun hT t ht => (hr t ht).elim (fun ht => ht ▸ doubled_empty) (hT t)
    calc queryShape kind host b r = queryShape kind host b r.skeleton :=
          queryShape_skeleton (hdoubled hr)
      _ = queryShape kind host b r'.skeleton := by rw [hskeleton]
      _ = queryShape kind host b r' := (queryShape_skeleton (hdoubled hr')).symm

/-- Blanks, letters and digits of SQL names, and everything else. -/
def sqlKind (c : Char) : Kind :=
  if c.isWhitespace then .blank
  else if c.isAlphanum || c ∈ ['_', '@', '#', '$'] then .letter
  else .punctuation

/-- A file name with an apostrophe ends the literal it is put into. -/
theorem not_sameStructure_of_apostrophe :
    (probe "a.xml").skeleton = (probe "a'.xml").skeleton ∧
      queryShape sqlKind ⟨fun _ => "", 0⟩ .insert (probe "a.xml") ≠
        queryShape sqlKind ⟨fun _ => "", 0⟩ .insert (probe "a'.xml") :=
  ⟨rfl, by decide +kernel⟩

end SMEWindow.Server

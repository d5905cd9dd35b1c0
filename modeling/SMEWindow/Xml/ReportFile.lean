import SMEWindow.Collect.DataDictionary
import SMEWindow.Lib.Markup
import SMEWindow.Lib.Utf8
import SMEWindow.Xml.Report

/-!
# The file of a report

`SMEXMLWriter.SaveToXML` saves the element tree of a report as an XML document in UTF-8,
and `SMEXMLReader` loads the document before it takes the tree apart. On the way through
the file a text of the report loses its carriage returns, and all of it if there is
nothing in it but white space. A text with a character that XML does not have is not
saved at all.

The tree does not tell null texts from empty ones; their tags differ. So a report has
several files, with one tag or two for each of its empty elements.

## Main definitions

* `Xml.SavedAs` — a file that `SMEXMLWriter.SaveToXML` may write for a report
* `Xml.smeXMLReader` — the constructor of `SMEXMLReader`, from the bytes of a file
* `Report.texts` — the texts of a report that are read again
* `Report.retext` — the report with other texts

## Main results

* `smeXMLReader_of_savedAs` — a saved report is read back, with what is left of its texts
* `readsBack_iff` — which reports are read back as they were written
-/

set_option autoImplicit false

namespace SMEWindow.Collect

/-- The frame with other texts. -/
def CallStack.retext (f : String → String) (frame : CallStack) : CallStack :=
  ⟨frame.m_method.map f, frame.m_file.map f, frame.m_line⟩

def CallStack.texts (frame : CallStack) : List String :=
  [frame.m_method.getD "", frame.m_file.getD ""]

/-- The level with other texts, but for its `Data` and its stack trace. -/
def ExceptionFields.retext (f : String → String) (fields : ExceptionFields) : ExceptionFields :=
  { fields with
    Name := fields.Name.map f
    HelpLink := fields.HelpLink.map f
    Message := fields.Message.map f
    m_listCallstack := fields.m_listCallstack.map (·.map (CallStack.retext f)) }

def ExceptionFields.texts (fields : ExceptionFields) : List String :=
  [fields.Name.getD "", fields.HelpLink.getD "", fields.Message.getD ""] ++
    (fields.m_listCallstack.getD []).flatMap CallStack.texts

/-- The text of the `Data` element. -/
def ExceptionFields.dataText (fields : ExceptionFields) : String :=
  (fields.Data.getD []).foldl (fun text entry => text ++ entry.1 ++ entry.2.getD "") ""

end SMEWindow.Collect

namespace SMEWindow.Xml

open Lib Lib.Element Lib.Markup Lib.Text Lib.Utf8 Collect

/-- The report with other texts. -/
def Report.retext (f : String → String) (report : Report) : Report where
  ProjectInfo := { report.ProjectInfo with Name := report.ProjectInfo.Name.map f }
  SystemInfo := { report.SystemInfo with ServicePack := report.SystemInfo.ServicePack.map f }
  ExceptionInfo := report.ExceptionInfo.map (ExceptionFields.retext f)
  CallStackInfo := ⟨report.CallStackInfo.m_listCallstack.map (CallStack.retext f)⟩

/-- The texts that `SMEXMLReader` reads; null is empty. -/
def Report.texts (report : Report) : List String :=
  [report.ProjectInfo.Name.getD "", report.SystemInfo.ServicePack.getD ""] ++
    (report.ExceptionInfo.toList.flatMap ExceptionFields.texts ++
      report.CallStackInfo.m_listCallstack.flatMap CallStack.texts)

/-! ### Files -/

/-- The bytes that a text in UTF-8 begins with. -/
def preamble : List UInt8 := [0xEF, 0xBB, 0xBF]

/-- `XDocument.Save`. A character that is not one of XML throws. -/
def saveDocument (document : Tree) : Except RuntimeException (List UInt8) :=
  if legal document.node then .ok (preamble ++ getBytes (String.ofList (save document)))
  else .error .argument

/-- The text of a file; bytes that are not UTF-8 are refused. -/
def fileText (file : List UInt8) : Option String :=
  let bytes := if preamble.isPrefixOf file then file.drop preamble.length else file
  let text := getString .perByte bytes
  if getBytes text = bytes then some text else none

/-- `XDocument.Load`, `none` if the document is refused. -/
def loadDocument (file : List UInt8) : Option Tree :=
  (fileText file).bind fun text => load text.toList

/-- The constructor of `SMEXMLReader`, `none` if the document is refused. -/
def smeXMLReader (file : List UInt8) : Option (Except RuntimeException Report) :=
  (loadDocument file).map fun document => loadFromXML document.node

/-- `SMEXMLWriter.SaveToXML`, given a path that can be created, may write the file for the
report. -/
def SavedAs (report : Report) (file : List UInt8) : Prop :=
  ∃ document, smeXMLWriter report = .ok document.node ∧ saveDocument document = .ok file

theorem fileText_preamble_append (text : String) :
    fileText (preamble ++ getBytes text) = some text := by
  have hprefix : preamble.isPrefixOf (preamble ++ getBytes text) = true :=
    List.isPrefixOf_iff_prefix.mpr (List.prefix_append _ _)
  simp only [fileText, hprefix, if_true, List.drop_left, getString_getBytes]

/-- A document that was saved is loaded. -/
theorem loadDocument_of_save {document : Tree} {file : List UInt8} {name : String}
    {nodes : List Node} (hroot : document.node = .element name nodes)
    (hwritable : Writable document.node) (hsave : saveDocument document = .ok file) :
    ∃ back, loadDocument file = some back ∧ back.node = .element name (rereadAll nodes) := by
  unfold saveDocument at hsave
  split_ifs at hsave
  obtain rfl := Except.ok.inj hsave
  obtain ⟨back, hload, hback⟩ := load_save document hroot hwritable
  refine ⟨back, ?_, hback⟩
  rw [loadDocument, fileText_preamble_append, Option.bind_some, String.toList_ofList, hload]

/-! ### Printed values -/

/-- What numbers and versions are printed with. -/
def Printed (text : String) : Prop :=
  ∀ c ∈ text.toList, c.isDigit = true ∨ c = '-' ∨ c = '.'

theorem printed_intToString (n : Int32) : Printed (intToString n) :=
  fun _ hc => (isDigit_or_eq_of_mem_intToString hc).imp_right .inl

theorem printed_toText (version : Version) : Printed version.toText :=
  fun _ hc => (Version.isDigit_or_eq_of_mem_toText hc).imp_right .inr

theorem Printed.kept {text : String} (h : Printed text) : Kept text := by
  refine kept_of_not_isSpace fun c hc => ?_
  rcases h c hc with hdigit | rfl | rfl
  · exact not_isSpace_of_isNameChar (by simp [isNameChar, Char.isAlphanum, hdigit])
  · rfl
  · rfl

theorem Printed.xmlText {text : String} (h : Printed text) : XmlText text := by
  refine List.all_eq_true.mpr fun c hc => ?_
  rcases h c hc with hdigit | rfl | rfl
  · have hrange : 48 ≤ c.toNat ∧ c.toNat ≤ 57 := Char.isDigit_iff_toNat.mp hdigit
    have hchar : 0x20 ≤ c.toNat ∧ c.toNat ≤ 0xFFFD := by omega
    simp [isXmlChar, hchar]
  · rfl
  · rfl

theorem kept_boolToString (b : Bool) : Kept (boolToString b) := by
  cases b <;> decide

theorem kept_platform (platform : PlatformID) : Kept platform.toText := by
  cases platform <;> decide

/-! ### What is left of the records -/

theorem reread_frame (frame : CallStack) :
    reread frame.toXElement = [(frame.retext stored).toXElement] := by
  simp only [CallStack.toXElement, reread, rereadAll, reread_leaf,
    reread_leaf_of_kept (printed_intToString _).kept, List.append_nil, List.singleton_append,
    CallStack.retext]

theorem rereadAll_frames (frames : List CallStack) :
    rereadAll (frames.map CallStack.toXElement) =
      (frames.map (CallStack.retext stored)).map CallStack.toXElement := by
  induction frames with
  | nil => rfl
  | cons frame frames ih =>
    rw [List.map_cons, rereadAll, reread_frame, ih]
    rfl

theorem reread_system (info : SystemInformation) :
    reread info.toXElement =
      [SystemInformation.toXElement { info with ServicePack := info.ServicePack.map stored }] := by
  simp only [SystemInformation.toXElement, reread, rereadAll, reread_leaf,
    reread_leaf_of_kept (printed_toText _).kept, reread_leaf_of_kept (kept_boolToString _),
    reread_leaf_of_kept (kept_platform _), List.append_nil, List.singleton_append]

theorem reread_callStack (info : CallstackInformation) :
    reread info.toXElement = [CallstackInformation.toXElement
      ⟨info.m_listCallstack.map (CallStack.retext stored)⟩] := by
  simp only [CallstackInformation.toXElement, reread, rereadAll, rereadAll_frames,
    List.append_nil]

theorem reread_project {info : ProjectInformation} {node : Node}
    (h : info.toXElement = .ok node) :
    ∃ node', reread node = [node'] ∧
      ProjectInformation.toXElement { info with Name := info.Name.map stored } = .ok node' := by
  unfold ProjectInformation.toXElement at h ⊢
  cases hversion : info.m_Version with
  | none =>
    rw [hversion] at h
    cases h
  | some version =>
    rw [hversion] at h
    obtain rfl := Except.ok.inj h
    refine ⟨_, ?_, rfl⟩
    simp only [reread, rereadAll, reread_leaf, reread_leaf_of_kept (printed_toText _).kept,
      List.append_nil, List.singleton_append]

theorem rereadAll_nodesAround (fields : ExceptionFields) (data : List Node) :
    rereadAll (fields.nodesAround data) =
      (fields.retext stored).nodesAround (rereadAll data) := by
  have hframes : (((fields.m_listCallstack.map (·.map (CallStack.retext stored))).getD []).map
      CallStack.toXElement) =
      ((fields.m_listCallstack.getD []).map (CallStack.retext stored)).map
        CallStack.toXElement := by
    cases fields.m_listCallstack <;> rfl
  simp only [ExceptionFields.nodesAround, rereadAll, reread_leaf,
    reread_leaf_of_kept (printed_intToString _).kept, reread, rereadAll_frames, List.append_nil,
    List.singleton_append, ExceptionFields.retext, hframes]

/-- The entries of a dictionary become one text. -/
theorem foldlM_addEntry {entries : DataEntries} {before : String} {nodes : List Node}
    (h : entries.foldlM ExceptionFields.addEntry (content (some before)) = .ok nodes) :
    nodes = content (some (entries.foldl (fun text entry => text ++ entry.1 ++ entry.2.getD "")
      before)) := by
  induction entries generalizing before with
  | nil => exact (Except.ok.inj h).symm
  | cons entry entries ih =>
    rw [List.foldlM_cons] at h
    obtain ⟨added, hadded, h⟩ := bind_eq_ok_iff.mp h
    obtain ⟨key, value⟩ := entry
    cases value with
    | none => cases hadded
    | some value =>
      obtain rfl := Except.ok.inj hadded
      rw [addText_content, addText_content] at h
      exact ih h

/-- A level that was written has its dictionary as one text. -/
theorem nodesAround_of_toNodes {fields : ExceptionFields} {nodes : List Node}
    (h : fields.toNodes = .ok nodes) :
    nodes = fields.nodesAround (content (some fields.dataText)) := by
  obtain ⟨data, hdata, hok⟩ := bind_eq_ok_iff.mp h
  obtain rfl := Except.ok.inj hok
  have hnode : data = .element "Data" (content (some fields.dataText)) := by
    unfold ExceptionFields.dataToXElement at hdata
    unfold ExceptionFields.dataText
    cases hentries : fields.Data with
    | none =>
      rw [hentries] at hdata
      exact (Except.ok.inj hdata).symm
    | some entries =>
      rw [hentries] at hdata
      obtain ⟨nodes, hnodes, rfl⟩ := map_eq_ok_iff.mp hdata
      have htext : nodes = content (some (entries.foldl
          (fun text entry => text ++ entry.1 ++ entry.2.getD "") "")) := foldlM_addEntry hnodes
      rw [htext]
      rfl
  rw [hnode]
  rfl

/-- What is left of a description that was written reads back, at every depth. -/
theorem reread_exception {info : ExceptionInformation} {node : Node}
    (h : ExceptionInformation.toXElement info = .ok node) :
    ∃ node', reread node = [node'] ∧ node'.isElement = true ∧
      ExceptionInformation.loadFromXElement node' =
        .ok (ExceptionInformation.readBack (info.map (ExceptionFields.retext stored))) := by
  -- the same two steps at each level: what is written, and how it is loaded
  induction info generalizing node with
  | innermost fields =>
    obtain ⟨nodes, hnodes, hok⟩ := bind_eq_ok_iff.mp h
    obtain rfl := Except.ok.inj hok
    obtain rfl := nodesAround_of_toNodes hnodes
    set data := content (some fields.dataText) with hdata
    have helements : elements data = [] := elements_content _
    have hwrap : reread (ExceptionInformation.wrap (fields.nodesAround data) []) =
        [ExceptionInformation.wrap ((fields.retext stored).nodesAround (rereadAll data)) []] := by
      simp only [ExceptionInformation.wrap, reread, rereadAll_append, rereadAll_nodesAround,
        rereadAll, List.append_nil]
    refine ⟨_, hwrap, rfl, ?_⟩
    rw [ExceptionInformation.wrap, ExceptionInformation.load_innermost
      (ExceptionFields.loadNodes_nodesAround _ (elements_rereadAll helements) [])]
    rfl
  | wrapping fields inner ih =>
    obtain ⟨nodes, hnodes, h⟩ := bind_eq_ok_iff.mp h
    obtain ⟨innerNode, hinner, hok⟩ := bind_eq_ok_iff.mp h
    obtain rfl := Except.ok.inj hok
    obtain rfl := nodesAround_of_toNodes hnodes
    set data := content (some fields.dataText) with hdata
    have helements : elements data = [] := elements_content _
    obtain ⟨node', hnode', -, hload⟩ := ih hinner
    have hwrap : reread (ExceptionInformation.wrap (fields.nodesAround data) [innerNode]) =
        [ExceptionInformation.wrap ((fields.retext stored).nodesAround (rereadAll data))
          [node']] := by
      simp only [ExceptionInformation.wrap, reread, rereadAll_append, rereadAll_nodesAround,
        rereadAll, hnode', List.append_nil]
    refine ⟨_, hwrap, rfl, ?_⟩
    rw [ExceptionInformation.wrap, ExceptionInformation.load_wrapping
      (ExceptionFields.loadNodes_nodesAround _ (elements_rereadAll helements) [node']), hload]
    rfl

variable {report : Report} {tree : Node}

/-- The parts of a report that was written. -/
theorem exists_of_smeXMLWriter (h : smeXMLWriter report = .ok tree) :
    ∃ project exception, report.ProjectInfo.toXElement = .ok project ∧
      ExceptionInformation.toXElement report.ExceptionInfo = .ok exception ∧
      tree = .element "SME" [project, report.SystemInfo.toXElement, exception,
        report.CallStackInfo.toXElement] := by
  obtain ⟨project, hproject, h⟩ := bind_eq_ok_iff.mp h
  obtain ⟨exception, hexception, hok⟩ := bind_eq_ok_iff.mp h
  exact ⟨project, exception, hproject, hexception, (Except.ok.inj hok).symm⟩

/-- What is left of a report that was written reads back. -/
theorem loadFromXML_rereadAll (hplatform : report.SystemInfo.PlatformID.Recognised)
    (h : smeXMLWriter report = .ok tree) :
    ∃ nodes, tree = .element "SME" nodes ∧
      loadFromXML (.element "SME" (rereadAll nodes)) = .ok (report.retext stored).readBack := by
  obtain ⟨project, exception, hproject, hexception, rfl⟩ := exists_of_smeXMLWriter h
  obtain ⟨project', hreread, hproject'⟩ := reread_project hproject
  obtain ⟨exception', hreread', helement, hload⟩ := reread_exception hexception
  refine ⟨_, rfl, ?_⟩
  simp only [rereadAll, hreread, reread_system, hreread', reread_callStack, List.append_nil,
    List.singleton_append]
  exact loadFromXML_eq_ok (isElement_of_toXElement hproject') rfl helement rfl
    (ProjectInformation.load_toXElement hproject')
    (SystemInformation.load_toXElement _ hplatform) hload (CallstackInformation.load_toXElement _)

/-! ### Reports that can be saved -/

theorem xmlText_boolToString (b : Bool) : XmlText (boolToString b) := by
  cases b <;> decide

theorem xmlText_platform (platform : PlatformID) : XmlText platform.toText := by
  cases platform <;> decide

theorem legal_frame {frame : CallStack} :
    legal frame.toXElement = true ↔ ∀ text ∈ frame.texts, XmlText text := by
  simp [CallStack.toXElement, CallStack.texts, legal_element, legal_leaf,
    (printed_intToString _).xmlText]

theorem legal_frames {name : String} {frames : List CallStack} :
    legal (.element name (frames.map CallStack.toXElement)) = true ↔
      ∀ text ∈ frames.flatMap CallStack.texts, XmlText text := by
  simp only [legal_element, List.forall_mem_map, legal_frame, List.mem_flatMap]
  exact ⟨fun h text ⟨frame, hframe, htext⟩ => h frame hframe text htext,
    fun h frame hframe text htext => h text ⟨frame, hframe, htext⟩⟩

theorem legal_nodesAround {fields : ExceptionFields} :
    (∀ node ∈ fields.nodesAround (content (some fields.dataText)), legal node = true) ↔
      XmlText fields.dataText ∧ ∀ text ∈ fields.texts, XmlText text := by
  simp only [ExceptionFields.nodesAround, ExceptionFields.texts, List.forall_mem_append,
    List.forall_mem_cons, List.not_mem_nil, false_imp_iff, implies_true, and_true, legal_leaf,
    Option.getD_some, (printed_intToString _).xmlText, true_and, legal_frames]
  rw [legal_element, legal_content, Option.getD_some]
  tauto

theorem legal_exception {info : ExceptionInformation} {node : Node}
    (h : ExceptionInformation.toXElement info = .ok node) :
    legal node = true ↔ ∀ fields ∈ info.toList,
      XmlText fields.dataText ∧ ∀ text ∈ fields.texts, XmlText text := by
  induction info generalizing node with
  | innermost fields =>
    obtain ⟨nodes, hnodes, hok⟩ := bind_eq_ok_iff.mp h
    obtain rfl := Except.ok.inj hok
    obtain rfl := nodesAround_of_toNodes hnodes
    rw [ExceptionInformation.wrap, legal_element, List.forall_mem_append, legal_nodesAround,
      Chain.toList, List.forall_mem_singleton, List.forall_mem_singleton, legal_element]
    simp
  | wrapping fields inner ih =>
    obtain ⟨nodes, hnodes, h⟩ := bind_eq_ok_iff.mp h
    obtain ⟨innerNode, hinner, hok⟩ := bind_eq_ok_iff.mp h
    obtain rfl := Except.ok.inj hok
    obtain rfl := nodesAround_of_toNodes hnodes
    rw [ExceptionInformation.wrap, legal_element, List.forall_mem_append, legal_nodesAround,
      Chain.toList, List.forall_mem_singleton, legal_element, List.forall_mem_singleton,
      ih hinner, List.forall_mem_cons]

theorem legal_project {info : ProjectInformation} {node : Node}
    (h : info.toXElement = .ok node) : legal node = true ↔ XmlText (info.Name.getD "") := by
  unfold ProjectInformation.toXElement at h
  cases hversion : info.m_Version with
  | none =>
    rw [hversion] at h
    cases h
  | some version =>
    rw [hversion] at h
    obtain rfl := Except.ok.inj h
    simp [legal_element, legal_leaf, (printed_toText _).xmlText]

theorem legal_system {info : SystemInformation} :
    legal info.toXElement = true ↔ XmlText (info.ServicePack.getD "") := by
  simp [SystemInformation.toXElement, legal_element, legal_leaf, (printed_toText _).xmlText,
    xmlText_boolToString, xmlText_platform]

theorem legal_callStack {info : CallstackInformation} :
    legal info.toXElement = true ↔
      ∀ text ∈ info.m_listCallstack.flatMap CallStack.texts, XmlText text := by
  rw [CallstackInformation.toXElement, legal_element, List.forall_mem_singleton, legal_frames]

/-- The texts of a report that must have the characters of XML, those of its dictionaries
among them. -/
def Report.XmlTexts (report : Report) : Prop :=
  (∀ text ∈ report.texts, XmlText text) ∧
    ∀ fields ∈ report.ExceptionInfo.toList, XmlText fields.dataText

instance (report : Report) : Decidable report.XmlTexts := inferInstanceAs (Decidable (_ ∧ _))

theorem legal_of_smeXMLWriter (h : smeXMLWriter report = .ok tree) :
    legal tree = true ↔ report.XmlTexts := by
  obtain ⟨project, exception, hproject, hexception, rfl⟩ := exists_of_smeXMLWriter h
  rw [legal_element, List.forall_mem_cons, List.forall_mem_cons, List.forall_mem_cons,
    List.forall_mem_singleton, legal_project hproject, legal_system, legal_exception hexception,
    legal_callStack, Report.XmlTexts, Report.texts, List.forall_mem_append,
    List.forall_mem_append, List.forall_mem_cons, List.forall_mem_singleton]
  simp only [List.forall_mem_flatMap]
  constructor
  · rintro ⟨hname, hpack, hlevels, hframes⟩
    exact ⟨⟨⟨hname, hpack⟩, fun fields hfields => (hlevels fields hfields).2, hframes⟩,
      fun fields hfields => (hlevels fields hfields).1⟩
  · rintro ⟨⟨⟨hname, hpack⟩, htexts, hframes⟩, hdata⟩
    exact ⟨hname, hpack, fun fields hfields => ⟨hdata fields hfields, htexts fields hfields⟩,
      hframes⟩

/-! ### Reports are written as documents -/

theorem writable_frame {frame : CallStack} (h : legal frame.toXElement = true) :
    WritableElement frame.toXElement := by
  have hnodes := legal_element.mp h
  simp only [List.forall_mem_cons] at hnodes
  obtain ⟨hmethod, hfile, hline, -⟩ := hnodes
  refine writableElement_of_forall (by decide) ?_
  simp only [List.forall_mem_cons]
  exact ⟨writableElement_leaf (by decide) hmethod, writableElement_leaf (by decide) hfile,
    writableElement_leaf (by decide) hline, List.forall_mem_nil _⟩

theorem writable_frames {name : String} {frames : List CallStack} (hname : IsName name)
    (h : legal (.element name (frames.map CallStack.toXElement)) = true) :
    WritableElement (.element name (frames.map CallStack.toXElement)) := by
  refine writableElement_of_forall hname fun node hnode => ?_
  obtain ⟨frame, -, rfl⟩ := List.mem_map.mp hnode
  exact writable_frame (legal_element.mp h _ hnode)

theorem writable_project {info : ProjectInformation} {node : Node}
    (hnode : info.toXElement = .ok node) (h : legal node = true) : WritableElement node := by
  unfold ProjectInformation.toXElement at hnode
  cases hversion : info.m_Version with
  | none =>
    rw [hversion] at hnode
    cases hnode
  | some version =>
    rw [hversion] at hnode
    obtain rfl := Except.ok.inj hnode
    have hnodes := legal_element.mp h
    simp only [List.forall_mem_cons] at hnodes
    refine writableElement_of_forall (by decide) ?_
    simp only [List.forall_mem_cons]
    exact ⟨writableElement_leaf (by decide) hnodes.1, writableElement_leaf (by decide) hnodes.2.1,
      List.forall_mem_nil _⟩

theorem writable_system {info : SystemInformation} (h : legal info.toXElement = true) :
    WritableElement info.toXElement := by
  have hnodes := legal_element.mp h
  simp only [List.forall_mem_cons] at hnodes
  obtain ⟨hplatform, hpack, hos, hclr, his64, hprocess, -⟩ := hnodes
  refine writableElement_of_forall (by decide) ?_
  simp only [List.forall_mem_cons]
  exact ⟨writableElement_leaf (by decide) hplatform, writableElement_leaf (by decide) hpack,
    writableElement_leaf (by decide) hos, writableElement_leaf (by decide) hclr,
    writableElement_leaf (by decide) his64, writableElement_leaf (by decide) hprocess,
    List.forall_mem_nil _⟩

theorem writable_callStack {info : CallstackInformation} (h : legal info.toXElement = true) :
    WritableElement info.toXElement := by
  have hnodes := legal_element.mp h
  rw [List.forall_mem_singleton] at hnodes
  refine writableElement_of_forall (by decide) ?_
  rw [List.forall_mem_singleton]
  exact writable_frames (by decide) hnodes

theorem writable_nodesAround {fields : ExceptionFields}
    (h : ∀ node ∈ fields.nodesAround (content (some fields.dataText)), legal node = true) :
    ∀ node ∈ fields.nodesAround (content (some fields.dataText)), WritableElement node := by
  simp only [ExceptionFields.nodesAround, List.forall_mem_cons] at h ⊢
  obtain ⟨hname, hdata, hresult, hlink, hmessage, hstack, -⟩ := h
  exact ⟨writableElement_leaf (by decide) hname, writableElement_leaf (by decide) hdata,
    writableElement_leaf (by decide) hresult, writableElement_leaf (by decide) hlink,
    writableElement_leaf (by decide) hmessage, writable_frames (by decide) hstack,
    List.forall_mem_nil _⟩

/-- A level around the nodes of its inner exception. -/
theorem writable_wrap {fields : ExceptionFields} {inner : List Node}
    (h : legal (ExceptionInformation.wrap
      (fields.nodesAround (content (some fields.dataText))) inner) = true)
    (hinner : ∀ node ∈ inner, WritableElement node) :
    WritableElement (ExceptionInformation.wrap
      (fields.nodesAround (content (some fields.dataText))) inner) := by
  rw [ExceptionInformation.wrap, legal_element, List.forall_mem_append] at h
  refine writableElement_of_forall (by decide) ?_
  rw [List.forall_mem_append, List.forall_mem_singleton]
  exact ⟨writable_nodesAround h.1, writableElement_of_forall (by decide) hinner⟩

theorem writable_exception {info : ExceptionInformation} {node : Node}
    (hnode : ExceptionInformation.toXElement info = .ok node) (h : legal node = true) :
    WritableElement node := by
  induction info generalizing node with
  | innermost fields =>
    obtain ⟨nodes, hnodes, hok⟩ := bind_eq_ok_iff.mp hnode
    obtain rfl := Except.ok.inj hok
    obtain rfl := nodesAround_of_toNodes hnodes
    exact writable_wrap h (List.forall_mem_nil _)
  | wrapping fields inner ih =>
    obtain ⟨nodes, hnodes, hnode⟩ := bind_eq_ok_iff.mp hnode
    obtain ⟨innerNode, hinner, hok⟩ := bind_eq_ok_iff.mp hnode
    obtain rfl := Except.ok.inj hok
    obtain rfl := nodesAround_of_toNodes hnodes
    have hlegal : legal innerNode = true := by
      have hnodes := h
      rw [ExceptionInformation.wrap, legal_element, List.forall_mem_append,
        List.forall_mem_singleton, legal_element, List.forall_mem_singleton] at hnodes
      exact hnodes.2
    refine writable_wrap h ?_
    rw [List.forall_mem_singleton]
    exact ih hinner hlegal

/-- The tree of a report can be written as it is. -/
theorem writable_of_smeXMLWriter (h : smeXMLWriter report = .ok tree)
    (hlegal : legal tree = true) : Writable tree := by
  obtain ⟨project, exception, hproject, hexception, rfl⟩ := exists_of_smeXMLWriter h
  have hnodes := legal_element.mp hlegal
  simp only [List.forall_mem_cons] at hnodes
  obtain ⟨hlegal1, hlegal2, hlegal3, hlegal4, -⟩ := hnodes
  refine (writableElement_of_forall (by decide) ?_).1
  simp only [List.forall_mem_cons]
  exact ⟨writable_project hproject hlegal1, writable_system hlegal2,
    writable_exception hexception hlegal3, writable_callStack hlegal4, List.forall_mem_nil _⟩

/-- A saved report is read back, with what is left of its texts. -/
theorem smeXMLReader_of_savedAs (hplatform : report.SystemInfo.PlatformID.Recognised)
    {file : List UInt8} (h : SavedAs report file) :
    smeXMLReader file = some (.ok (report.retext stored).readBack) := by
  obtain ⟨document, htree, hsave⟩ := h
  obtain ⟨nodes, hroot, hload⟩ := loadFromXML_rereadAll hplatform htree
  have hlegal : legal document.node = true := by
    unfold saveDocument at hsave
    split_ifs at hsave with hlegal
    exact hlegal
  obtain ⟨back, hback, hnode⟩ :=
    loadDocument_of_save hroot (writable_of_smeXMLWriter htree hlegal) hsave
  rw [smeXMLReader, hback, Option.map_some, hnode, hload]

/-- The report has a version, no null in its dictionaries and the characters of XML. -/
structure Report.Savable (report : Report) : Prop where
  version : report.ProjectInfo.m_Version ≠ none
  values : ∀ fields ∈ report.ExceptionInfo.toList, fields.NoNullValues
  texts : report.XmlTexts

instance (report : Report) : Decidable report.Savable :=
  decidable_of_iff (report.ProjectInfo.m_Version ≠ none ∧
      (∀ fields ∈ report.ExceptionInfo.toList, fields.NoNullValues) ∧ report.XmlTexts)
    ⟨fun ⟨hversion, hvalues, htexts⟩ => ⟨hversion, hvalues, htexts⟩,
      fun h => ⟨h.version, h.values, h.texts⟩⟩

theorem noNullValues_of_toXElement {info : ExceptionInformation} {node : Node}
    (h : ExceptionInformation.toXElement info = .ok node) :
    ∀ fields ∈ info.toList, fields.NoNullValues := by
  induction info generalizing node with
  | innermost fields =>
    obtain ⟨nodes, hnodes, -⟩ := bind_eq_ok_iff.mp h
    rw [Chain.toList, List.forall_mem_singleton]
    exact ExceptionFields.noNullValues_of_toNodes hnodes
  | wrapping fields inner ih =>
    obtain ⟨nodes, hnodes, h⟩ := bind_eq_ok_iff.mp h
    obtain ⟨innerNode, hinner, -⟩ := bind_eq_ok_iff.mp h
    rw [Chain.toList, List.forall_mem_cons]
    exact ⟨ExceptionFields.noNullValues_of_toNodes hnodes, ih hinner⟩

/-- The tree of a report is built exactly if it has a version and no null in its
dictionaries. -/
theorem exists_smeXMLWriter_iff : (∃ tree, smeXMLWriter report = .ok tree) ↔
    report.ProjectInfo.m_Version ≠ none ∧
      ∀ fields ∈ report.ExceptionInfo.toList, fields.NoNullValues := by
  constructor
  · rintro ⟨tree, htree⟩
    obtain ⟨project, exception, hproject, hexception, -⟩ := exists_of_smeXMLWriter htree
    refine ⟨fun hnone => ?_, noNullValues_of_toXElement hexception⟩
    rw [ProjectInformation.toXElement, hnone] at hproject
    cases hproject
  · rintro ⟨hversion, hvalues⟩
    obtain ⟨version, hversion⟩ := Option.ne_none_iff_exists'.mp hversion
    obtain ⟨exception, hexception, -⟩ := ExceptionInformation.exists_toXElement hvalues
    have hproject : report.ProjectInfo.toXElement = .ok (.element "ProjectInformation"
        [leaf "Name" report.ProjectInfo.Name, leaf "Version" (some version.toText)]) := by
      rw [ProjectInformation.toXElement, hversion]
    exact ⟨_, bind_eq_ok_iff.mpr ⟨_, hproject, bind_eq_ok_iff.mpr ⟨exception, hexception, rfl⟩⟩⟩

/-- A report is saved exactly if it is savable. -/
theorem exists_savedAs_iff : (∃ file, SavedAs report file) ↔ report.Savable := by
  constructor
  · rintro ⟨file, document, htree, hsave⟩
    obtain ⟨hversion, hvalues⟩ := exists_smeXMLWriter_iff.mp ⟨_, htree⟩
    unfold saveDocument at hsave
    split_ifs at hsave with hlegal
    exact ⟨hversion, hvalues, (legal_of_smeXMLWriter htree).mp hlegal⟩
  · intro h
    obtain ⟨tree, htree⟩ := exists_smeXMLWriter_iff.mpr ⟨h.version, h.values⟩
    have hlegal := (legal_of_smeXMLWriter htree).mpr h.texts
    rw [← node_ofNode tree] at htree hlegal
    exact ⟨_, ofNode tree, htree, if_pos hlegal⟩

/-! ### Reports that are left as they were -/

theorem getD_map_stored (value : Option String) :
    (value.map stored).getD "" = stored (value.getD "") := by
  cases value <;> rfl

end SMEWindow.Xml

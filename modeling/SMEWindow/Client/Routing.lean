import SMEWindow.Client.Configuration
import SMEWindow.Lib.Splitting

/-!
# From the name of a file to its reader

The client announces what it sends by the name of the file alone, and the receiver
searches the name for an extension, `.dmp` first. A report of a managed error carries
the name of the project in its own, so that the project can take it to the wrong reader.

## Main results

* `contains_dmp_fileName_iff` — where the extension of minidumps can stand in the name of
  a report
* `routed_iff` — when every file of a client goes to the reader it is meant for
-/

set_option autoImplicit false

namespace SMEWindow.Client

open Collect Lib.Text Server

/-- The project name that the constructor keeps. -/
def Configuration.projectName (config : Configuration) : String :=
  config.proname.getD "My Project"

/-- A digit of a hexadecimal number. -/
def isHexDigit (c : Char) : Bool :=
  c.isDigit || ('a' ≤ c && c ≤ 'f') || ('A' ≤ c && c ≤ 'F')

/-- Every report of a managed error at this moment goes to the XML loader, and every
minidump of the client to the minidump reader. -/
def Routed (toShortDateString : Date → String) (s : Statics) (time : DateTime) : Prop :=
  (∃ XMLFileName, dateToFileName toShortDateString s.ProjectInfo time = .ok XMLFileName ∧
      selectFile XMLFileName = .ok .xml) ∧
    ∀ dump_path minidump_id : String, (∀ c ∈ minidump_id.toList, isHexDigit c || c = '-') →
      selectFile (resultCallBack s dump_path minidump_id).FileName = .ok .dmp

variable {toShortDateString : Date → String} {config : Configuration} {s : Statics}

/-! ### The extension of minidumps in a name -/

/-- Texts on both sides of a hyphen do not make the extension together. -/
theorem dmp_infix_hyphen_iff {first second : List Char} :
    ".dmp".toList <:+: first ++ '-' :: second ↔
      ".dmp".toList <:+: first ∨ ".dmp".toList <:+: second := by
  constructor
  · intro h
    by_contra hneither
    rw [not_or] at hneither
    refine not_infix_append hneither.1 (fun hsecond => ?_) (separate_of_notMem_tail ?_) h
    · rcases List.infix_cons_iff.mp hsecond with hfront | hpart
      · exact absurd (List.cons_prefix_cons.mp hfront).1 (by decide)
      · exact hneither.2 hpart
    · decide
  · rintro (h | h)
    · exact h.trans (List.prefix_append _ _).isInfix
    · exact (h.trans (List.suffix_cons '-' second).isInfix).trans (List.suffix_append _ _).isInfix

theorem not_dmp_infix_toText (version : Version) : ¬ ".dmp".toList <:+: version.toText.toList := by
  intro h
  rcases Version.isDigit_or_eq_of_mem_toText (h.subset (by decide : 'd' ∈ _)) with hdigit | hdot
  · exact absurd hdigit (by decide)
  · exact absurd hdot (by decide)

theorem isDigit_of_mem_twoDigits {n : ℕ} {c : Char} (h : c ∈ (twoDigits n).toList) :
    c.isDigit = true := by
  have hdigit : c ∈ n.repr.toList → c.isDigit = true := fun hmem =>
    Nat.isDigit_of_mem_toDigits (by decide) (by decide) (Nat.toList_repr ▸ hmem)
  unfold twoDigits at h
  split_ifs at h
  · rw [String.toList_append] at h
    rcases List.mem_append.mp h with h | h
    · rw [List.mem_singleton.mp h]
      decide
    · exact hdigit h
  · exact hdigit h

theorem not_dmp_infix_clockText (time : DateTime) :
    ¬ ".dmp".toList <:+: (clockText time).toList := by
  intro h
  have hmem : 'd' ∈ (clockText time).toList := h.subset (by decide)
  have hdigits : ∀ n, 'd' ∉ (twoDigits n).toList := fun n hn =>
    absurd (isDigit_of_mem_twoDigits hn) (by decide)
  simp only [clockText, String.toList_append, List.mem_append, hdigits, false_or] at hmem
  revert hmem
  decide

/-- The extension of minidumps can only come from the project name or the printed day. -/
theorem contains_dmp_fileName_iff (name : String) (version : Version) (time : DateTime) :
    contains (fileName toShortDateString name version time) ".dmp" = true ↔
      contains (trimWhiteSpace name) ".dmp" = true ∨
        contains (toShortDateString time.date) ".dmp" = true := by
  simp only [contains, decide_eq_true_eq]
  rw [toList_fileName, dmp_infix_hyphen_iff, dmp_infix_hyphen_iff, dmp_infix_hyphen_iff,
    or_iff_left (not_dmp_infix_toText version), or_iff_left (not_dmp_infix_clockText time)]

theorem contains_xml_fileName (name : String) (version : Version) (time : DateTime) :
    contains (fileName toShortDateString name version time) ".xml" = true := by
  rw [contains, decide_eq_true_eq, toList_fileName]
  have hclock : ".xml".toList <:+ (clockText time).toList := by
    simp only [clockText, String.toList_append]
    exact ((List.suffix_append _ _).trans (List.suffix_append _ _)).trans (List.suffix_append _ _)
  have hday := hclock.trans (List.suffix_cons '-' _)
  have hend := (hday.trans (List.suffix_append (toShortDateString time.date).toList _)).trans
    (List.suffix_cons '-' _)
  exact (hend.trans (List.suffix_append _ _)).isInfix

/-- A report goes to the XML loader unless the project name or the printed day has the
extension of minidumps in it. -/
theorem selectFile_fileName_iff (name : String) (version : Version) (time : DateTime) :
    selectFile (fileName toShortDateString name version time) = .ok .xml ↔
      contains (trimWhiteSpace name) ".dmp" = false ∧
        contains (toShortDateString time.date) ".dmp" = false := by
  rw [selectFile, contains_xml_fileName, if_pos rfl, ← Bool.not_eq_true, ← Bool.not_eq_true,
    ← not_or, ← contains_dmp_fileName_iff name version time]
  split_ifs with hdmp
  · simp [hdmp]
  · simp [hdmp]

/-- Whatever its id, a minidump goes to the minidump reader. -/
theorem selectFile_resultCallBack (s : Statics) (dump_path minidump_id : String) :
    selectFile (resultCallBack s dump_path minidump_id).FileName = .ok .dmp := by
  have hdmp : contains (minidump_id ++ ".dmp") ".dmp" = true := by
    rw [contains, decide_eq_true_eq, String.toList_append]
    exact (List.suffix_append _ _).isInfix
  rw [resultCallBack, selectFile, if_pos hdmp]

/-! ### Clients -/

theorem projectInfo_of_smeClient (h : smeClient config = .ok s) :
    s.ProjectInfo = .ofNameVersion config.proname config.proversion := by
  unfold smeClient initializeClient at h
  split_ifs at h
  · obtain ⟨apikey, -, rfl⟩ := map_eq_ok_iff.mp h
    rfl
  · rw [← Except.ok.inj h]

/-- The files of a client that was constructed go to the reader they are meant for exactly
when neither the name of its project, without the blanks around it, nor the day as the
culture prints it has the extension of minidumps in it. -/
theorem routed_iff (h : smeClient config = .ok s) (toShortDateString : Date → String)
    (time : DateTime) :
    Routed toShortDateString s time ↔
      contains (trimWhiteSpace config.projectName) ".dmp" = false ∧
        contains (toShortDateString time.date) ".dmp" = false := by
  rw [← selectFile_fileName_iff config.projectName
      (config.proversion.getD ProjectInformation.zeroVersion), Routed,
    projectInfo_of_smeClient h]
  constructor
  · rintro ⟨⟨XMLFileName, hname, hselect⟩, -⟩
    rw [← Except.ok.inj hname] at hselect
    exact hselect
  · intro hselect
    exact ⟨⟨_, rfl, hselect⟩, fun dump_path minidump_id _ => selectFile_resultCallBack s _ _⟩

/-- The test client's name is an ordinary one. -/
theorem routed_testClient : ∃ s, smeClient testClient = .ok s ∧
    Routed koreanShortDate s sampleTime := by
  obtain ⟨s, hs⟩ : ∃ s, smeClient testClient = .ok s := ⟨_, rfl⟩
  exact ⟨s, hs, (routed_iff hs koreanShortDate sampleTime).mpr ⟨by decide, by decide⟩⟩

/-- A client whose project is called after the extension. -/
def dumpViewer : Configuration := { testClient with proname := some "viewer.dmp" }

/-- The reports of such a client go to the minidump reader. -/
theorem not_routed_dumpViewer : ∃ s, smeClient dumpViewer = .ok s ∧
    dateToFileName koreanShortDate s.ProjectInfo sampleTime =
      .ok "viewer.dmp-0.0-2015-05-01-12-00-00.xml" ∧
    selectFile "viewer.dmp-0.0-2015-05-01-12-00-00.xml" = .ok .dmp ∧
    ¬ Routed koreanShortDate s sampleTime := by
  obtain ⟨s, hs⟩ : ∃ s, smeClient dumpViewer = .ok s := ⟨_, rfl⟩
  have hname : dateToFileName koreanShortDate s.ProjectInfo sampleTime =
      .ok "viewer.dmp-0.0-2015-05-01-12-00-00.xml" := by
    rw [projectInfo_of_smeClient hs]
    decide +kernel
  have hselect : selectFile "viewer.dmp-0.0-2015-05-01-12-00-00.xml" = .ok .dmp := by
    decide +kernel
  refine ⟨s, hs, hname, hselect, ?_⟩
  rintro ⟨⟨XMLFileName, hname', hselect'⟩, -⟩
  rw [hname] at hname'
  rw [← Except.ok.inj hname', hselect] at hselect'
  cases hselect'

end SMEWindow.Client

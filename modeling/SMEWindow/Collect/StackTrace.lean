import SMEWindow.Collect.CallStack
import SMEWindow.Lib.Splitting

/-!
# Reading a stack trace

`ParseFromException` splits the text of a stack trace at the frame markers and each
location at the separators of file and line. This module says for which texts every
marker gives one frame, and for which lists of frames the text that the runtime
prints for them, in Korean, reads back as these frames.

## Main definitions

* `Collect.ReadsAsFrame` — a location that gives a frame
* `Collect.StackFrame`, `StackFrame.render` — what the runtime knows of a frame, and
  the stack trace it prints
* `StackFrame.Delimited` — the separators of the frame are found where they stand

## Main results

* `parseFromException_complete_iff` — when no frame of a text is dropped
* `parseFromException_render_iff` — when a printed stack trace reads back
-/

set_option autoImplicit false

namespace SMEWindow.Collect

open Lib.Text CallStack

/-! ### Locations that give a frame -/

/-- The separators of file and line. -/
def fileSeparators : List (List Char) := [[' ', '파', '일', ' '], [':', '줄', ' ']]

/-- The frame marker. -/
def marker : List Char := [' ', '위', '치', ':', ' ']

theorem split_fileSeparators (location : List Char) :
    split [" 파일 ", ":줄 "] (String.ofList location) =
      (splitFrom fileSeparators 0 [] location).map String.ofList := by
  rw [split, String.toList_ofList]
  rfl

theorem split_marker (text : String) :
    split [" 위치: "] text = (splitFrom [marker] 0 [] text.toList).map String.ofList := rfl

/-- A location is a method, a method with a file, or these and a line number. -/
def ReadsAsFrame (location : String) : Prop :=
  (split [" 파일 ", ":줄 "] location).length ≤ 3 ∧
    ∀ method file line, split [" 파일 ", ":줄 "] location = [method, file, line] →
      ∃ n, parseInt line = .ok n

theorem length_le_one_of_parseLocation {location : String} {frames : List CallStack}
    (h : parseLocation location = .ok frames) : frames.length ≤ 1 := by
  unfold parseLocation at h
  split at h
  · cases h
    rfl
  · cases h
    rfl
  · obtain ⟨n, -, rfl⟩ := map_eq_ok_iff.mp h
    rfl
  · cases h
    exact Nat.zero_le 1

theorem splitFrom_ne_nil (separators : List (List Char)) (skip : ℕ) (piece text : List Char) :
    splitFrom separators skip piece text ≠ [] := by
  induction text generalizing skip piece with
  | nil => cases skip <;> exact List.cons_ne_nil _ _
  | cons c text ih =>
    cases skip with
    | succ skip => exact ih skip piece
    | zero =>
      rw [splitFrom]
      split
      · exact List.cons_ne_nil _ _
      · exact ih 0 _

/-- The locations that give exactly one frame. -/
theorem parseLocation_eq_singleton_iff (location : String) :
    (∃ frame, parseLocation location = .ok [frame]) ↔ ReadsAsFrame location := by
  unfold parseLocation ReadsAsFrame
  split
  · next method heq => simp [heq]
  · next method file heq => simp [heq]
  · next method file line heq =>
    rw [heq]
    constructor
    · rintro ⟨frame, hframe⟩
      obtain ⟨n, hn, -⟩ := map_eq_ok_iff.mp hframe
      refine ⟨le_refl 3, fun method' file' line' hsame => ⟨n, ?_⟩⟩
      cases hsame
      exact hn
    · rintro ⟨-, hline⟩
      obtain ⟨n, hn⟩ := hline method file line rfl
      exact ⟨_, map_eq_ok_iff.mpr ⟨n, hn, rfl⟩⟩
  · next hone htwo hthree =>
    -- no piece at all, or more than three
    constructor
    · rintro ⟨frame, hframe⟩
      cases hframe
    · rintro ⟨hlength, -⟩
      exfalso
      cases hpieces : split [" 파일 ", ":줄 "] location with
      | nil => exact splitFrom_ne_nil _ _ _ _ (List.map_eq_nil_iff.mp hpieces)
      | cons method rest =>
        rcases rest with _ | ⟨file, _ | ⟨line, _ | ⟨more, rest⟩⟩⟩
        · exact hone _ hpieces
        · exact htwo _ _ hpieces
        · exact hthree _ _ _ hpieces
        · rw [hpieces] at hlength
          simp only [List.length_cons] at hlength
          omega

theorem length_flatten_le {locations : List String} {read : List (List CallStack)}
    (h : locations.map parseLocation = read.map .ok) :
    read.flatten.length ≤ locations.length := by
  induction locations generalizing read with
  | nil =>
    rw [List.map_eq_nil_iff.mp h.symm]
    exact Nat.zero_le 0
  | cons location locations ih =>
    obtain ⟨frames, read, rfl, hframes, hread⟩ := List.map_eq_cons_iff.mp h.symm
    have hone := length_le_one_of_parseLocation hframes.symm
    have hrest := ih hread.symm
    rw [List.flatten_cons, List.length_append, List.length_cons]
    omega

/-- All locations read, to as many frames as there are locations. -/
theorem exists_read_iff (locations : List String) :
    (∃ read : List (List CallStack), locations.map parseLocation = read.map .ok ∧
        read.flatten.length = locations.length) ↔
      ∀ location ∈ locations, ReadsAsFrame location := by
  induction locations with
  | nil => exact ⟨fun _ location hmem => absurd hmem (by simp), fun _ => ⟨[], rfl, rfl⟩⟩
  | cons location locations ih =>
    rw [List.forall_mem_cons, ← ih, ← parseLocation_eq_singleton_iff]
    constructor
    · rintro ⟨read, h, hlength⟩
      obtain ⟨frames, read, rfl, hframes, hread⟩ := List.map_eq_cons_iff.mp h.symm
      have hone := length_le_one_of_parseLocation hframes.symm
      have hrest := length_flatten_le hread.symm
      rw [List.flatten_cons, List.length_append, List.length_cons] at hlength
      -- one frame at most in each location, so none can be missing
      obtain ⟨frame, rfl⟩ := List.length_eq_one_iff.mp (by omega : frames.length = 1)
      exact ⟨⟨frame, hframes.symm⟩, read, hread.symm, by simpa [Nat.add_comm] using hlength⟩
    · rintro ⟨⟨frame, hframe⟩, read, hread, hlength⟩
      refine ⟨[frame] :: read, by rw [List.map_cons, List.map_cons, hframe, hread], ?_⟩
      rw [List.flatten_cons, List.length_append, List.length_singleton, hlength, List.length_cons,
        Nat.add_comm]

theorem parseFromException_eq_ok_iff {text : String} {frames : List CallStack} :
    parseFromException (some text) = .ok (some frames) ↔
      ∃ read : List (List CallStack),
        ((split [" 위치: "] text).drop 1).map parseLocation = read.map .ok ∧
          read.flatten = frames := by
  rw [parseFromException, map_eq_ok_iff]
  simp only [mapM_eq_ok_iff, Option.some.injEq]

/-- Reading the text of a stack trace succeeds and gives one frame for each marker in
it exactly when each location, which is the text from a marker to the next one, is a
method, a method with a file, or these and a line number. -/
theorem parseFromException_complete_iff (text : String) :
    (∃ frames, parseFromException (some text) = .ok (some frames) ∧
        frames.length = occurrences " 위치: " text) ↔
      ∀ location ∈ (split [" 위치: "] text).drop 1, ReadsAsFrame location := by
  have hcount : ((split [" 위치: "] text).drop 1).length = occurrences " 위치: " text := by
    rw [List.length_drop, length_split_singleton (by decide), Nat.add_sub_cancel]
  rw [← exists_read_iff, hcount]
  simp only [parseFromException_eq_ok_iff]
  constructor
  · rintro ⟨frames, ⟨read, hread, rfl⟩, hlength⟩
    exact ⟨read, hread, hlength⟩
  · rintro ⟨read, hread, hlength⟩
    exact ⟨read.flatten, ⟨read, hread, rfl⟩, hlength⟩

/-- A frame whose path holds the separator of files is dropped. -/
theorem not_parseFromException_complete :
    ¬ ∃ frames, parseFromException (some "   위치: A() 파일 c:\\내 파일 모음\\a.cs:줄 7") =
        .ok (some frames) ∧
      frames.length = occurrences " 위치: " "   위치: A() 파일 c:\\내 파일 모음\\a.cs:줄 7" := by
  rintro ⟨frames, hparse, hlength⟩
  have hnone : parseFromException (some "   위치: A() 파일 c:\\내 파일 모음\\a.cs:줄 7") =
      .ok (some []) := by rfl
  rw [hnone] at hparse
  cases hparse
  exact absurd hlength (by decide)

/-! ### The stack trace of given frames -/

/-- What the runtime knows of a frame: its method and, where it has them, the file and
the line. -/
structure StackFrame where
  method : String
  source : Option (String × Int32)
  deriving DecidableEq, Repr

namespace StackFrame

/-- The file and the line, as they stand behind a method. -/
def sourceText : Option (String × Int32) → String
  | none => ""
  | some (path, line) => " 파일 " ++ path ++ ":줄 " ++ intToString line

/-- The line of a frame in a stack trace. -/
def toText (frame : StackFrame) : String :=
  "   위치: " ++ frame.method ++ sourceText frame.source

/-- The stack trace of some frames, one on a line. -/
def render (frames : List StackFrame) : String := "\r\n".intercalate (frames.map toText)

/-- The entry that a frame should be read as. -/
def entry (frame : StackFrame) : CallStack :=
  match frame.source with
  | none => ⟨some frame.method, some "library method", 0⟩
  | some (path, line) => ⟨some frame.method, some path, line⟩

/-- A text with none of the separators in it. -/
def Plain (text : String) : Prop :=
  contains text " 위치: " = false ∧ contains text " 파일 " = false ∧ contains text ":줄 " = false

/-- The texts of a frame have none of the separators in them. -/
def IsPlain (frame : StackFrame) : Prop :=
  Plain frame.method ∧ ∀ path line, frame.source = some (path, line) → Plain path

/-- In a frame with a file, no text joins with the separator next to it to an earlier
separator. -/
def Delimited (frame : StackFrame) : Prop :=
  ∀ path line, frame.source = some (path, line) →
    ¬ " 위치:".toList <:+ frame.method.toList ∧ ¬ " 파일".toList <:+ frame.method.toList ∧
      ¬ ":줄".toList <:+ frame.method.toList ∧ ¬ "위치: ".toList <+: path.toList

/-- What stands between a frame's marker and the next one, where the last frame is not
followed by a line break and the blanks before a marker. -/
def segment (frame : StackFrame) (last : Bool) : List Char :=
  frame.method.toList ++ (sourceText frame.source).toList ++
    if last then [] else ['\r', '\n', ' ', ' ']

/-- The frames, each with whether it is the last. -/
def positions : List StackFrame → List (StackFrame × Bool)
  | [] => []
  | frame :: frames => (frame, frames.isEmpty) :: positions frames

theorem toList_toText (frame : StackFrame) :
    frame.toText.toList = [' ', ' '] ++ (marker ++ frame.segment true) := by
  rw [toText, segment, String.toList_append, String.toList_append, if_pos rfl, List.append_nil]
  rfl

theorem toList_render {frames : List StackFrame} (hne : frames ≠ []) :
    (render frames).toList =
      [' ', ' '] ++ (positions frames).flatMap fun p => marker ++ p.1.segment p.2 := by
  induction frames with
  | nil => exact absurd rfl hne
  | cons frame frames ih =>
    cases frames with
    | nil =>
      rw [render, List.map_singleton, String.intercalate_singleton, toList_toText]
      simp [positions]
    | cons next frames =>
      have hrest := ih (List.cons_ne_nil next frames)
      rw [render, List.map_cons] at hrest
      rw [render, List.map_cons, List.map_cons, String.intercalate_cons_cons, String.toList_append,
        String.toList_append, toList_toText, hrest]
      simp [segment, positions]

theorem segment_false (frame : StackFrame) : frame.segment false =
    (frame.method.toList ++ (sourceText frame.source).toList ++ ['\r', '\n', ' ']) ++ [' '] := by
  simp [segment]

/-- A marker ends the pieces of a text that does not end in its beginning. -/
theorem splitFrom_marker {first : List Char} (h : ¬ " 위치:".toList <:+ first)
    (rest : List Char) :
    splitFrom [marker] 0 [] (first ++ (marker ++ rest)) =
      splitFrom [marker] 0 [] first ++ splitFrom [marker] 0 [] rest := by
  refine splitFrom_append_separator (by decide) ?_ ?_ 0 (Nat.zero_le _) []
  · rw [List.find?_singleton, if_pos]
    exact List.isPrefixOf_iff_prefix.mpr (List.prefix_append marker rest)
  · refine separate_of_concat fun separator hmem => ⟨" 위치:".toList, ?_, by decide, h⟩
    rw [List.mem_singleton.mp hmem]
    rfl

/-- The pieces between the markers are those of the segments. -/
theorem splitFrom_positions {frames : List StackFrame} {first : List Char}
    (h : frames ≠ [] → ¬ " 위치:".toList <:+ first) :
    splitFrom [marker] 0 []
        (first ++ (positions frames).flatMap fun p => marker ++ p.1.segment p.2) =
      splitFrom [marker] 0 [] first ++
        (positions frames).flatMap fun p => splitFrom [marker] 0 [] (p.1.segment p.2) := by
  induction frames generalizing first with
  | nil => simp [positions]
  | cons frame frames ih =>
    rw [positions, List.flatMap_cons, List.flatMap_cons, List.append_assoc marker,
      splitFrom_marker (h (List.cons_ne_nil frame frames))]
    congr 1
    refine ih fun hne hsuffix => ?_
    -- a segment that is not the last ends in blanks
    cases frames with
    | nil => exact hne rfl
    | cons next frames =>
      rw [List.isEmpty_cons, segment_false] at hsuffix
      exact not_suffix_concat (by decide : ':' ≠ ' ') [' ', '위', '치'] hsuffix

/-! ### Reading one segment -/

/-- The text of a line, with the line break behind a frame that is not the last. -/
def lineText (line : Int32) (last : Bool) : List Char :=
  (intToString line).toList ++ if last then [] else ['\r', '\n', ' ', ' ']

theorem isBlank_lineBreak : ∀ c ∈ ['\r', '\n', ' ', ' '], isBlank c = true := by
  simp [isBlank]

theorem mem_lineText {line : Int32} {last : Bool} {c : Char} (h : c ∈ lineText line last) :
    c.isDigit = true ∨ c = '-' ∨ isBlank c = true := by
  rcases List.mem_append.mp h with h | h
  · rcases isDigit_or_eq_of_mem_intToString h with hdigit | hsign
    · exact .inl hdigit
    · exact .inr (.inl hsign)
  · right
    right
    cases last with
    | true => exact absurd h (by simp)
    | false => exact isBlank_lineBreak c h

theorem notMem_lineText {line : Int32} {last : Bool} {c : Char}
    (h : c.isDigit = false ∧ c ≠ '-' ∧ isBlank c = false) : c ∉ lineText line last := by
  intro hmem
  rcases mem_lineText hmem with hdigit | hsign | hblank
  · exact absurd hdigit (by simp [h.1])
  · exact h.2.1 hsign
  · exact absurd hblank (by simp [h.2.2])

theorem parseInt_lineText (line : Int32) (last : Bool) :
    parseInt (String.ofList (lineText line last)) = .ok line := by
  have htext : String.ofList (lineText line last) =
      intToString line ++ String.ofList (if last then [] else ['\r', '\n', ' ', ' ']) := by
    rw [lineText, String.ofList_append, String.ofList_toList]
  rw [htext]
  refine parseInt_intToString_append line ?_
  rw [String.toList_ofList]
  cases last with
  | true => exact fun _ hmem => absurd hmem List.not_mem_nil
  | false => exact isBlank_lineBreak

variable {method path x : List Char} {line : Int32} {last : Bool}

/-- No separator of file or line in a text. -/
def NoFile (text : List Char) : Prop := ∀ separator ∈ fileSeparators, ¬ separator <:+: text

/-- The separator of lines ends a piece. -/
theorem splitFrom_lineSeparator (hx : NoFile x) (rest : List Char) :
    splitFrom fileSeparators 0 [] (x ++ ([':', '줄', ' '] ++ rest)) =
      x :: splitFrom fileSeparators 0 [] rest := by
  have hseparate : Separate fileSeparators x ([':', '줄', ' '] ++ rest) :=
    separate_of_notMem_tail (by decide)
  rw [splitFrom_append_separator (by decide) rfl hseparate 0 (Nat.zero_le _),
    splitFrom_of_no_separator hx]
  rfl

/-- A text and a blank behind it make no separator, unless the text ends in all but the
blank of one. -/
theorem separate_blank (hfile : ¬ " 파일".toList <:+ x) (hline : ¬ ":줄".toList <:+ x)
    (rest : List Char) : Separate fileSeparators x (' ' :: rest) := by
  refine separate_of_concat fun separator hmem => ?_
  rcases List.mem_cons.mp hmem with rfl | hmem
  · exact ⟨" 파일".toList, rfl, by decide, hfile⟩
  · rw [List.mem_singleton.mp hmem]
    exact ⟨":줄".toList, rfl, by decide, hline⟩

theorem NoFile.append {y : List Char} (hx : NoFile x) (hy : NoFile y)
    (h : Separate fileSeparators x y) : NoFile (x ++ y) :=
  fun separator hmem =>
    not_infix_append (hx separator hmem) (hy separator hmem) (h.singleton hmem)

/-- The separator of files ends a piece, unless it joins with the end of the text. -/
theorem splitFrom_fileSeparator (hx : NoFile x) (hfile : ¬ " 파일".toList <:+ x)
    (hline : ¬ ":줄".toList <:+ x) (rest : List Char) :
    splitFrom fileSeparators 0 [] (x ++ ([' ', '파', '일', ' '] ++ rest)) =
      x :: splitFrom fileSeparators 0 [] rest := by
  have hseparate : Separate fileSeparators x ([' ', '파', '일', ' '] ++ rest) :=
    separate_blank hfile hline _
  rw [splitFrom_append_separator (by decide) rfl hseparate 0 (Nat.zero_le _),
    splitFrom_of_no_separator hx]
  rfl

theorem noFile_lineText (line : Int32) (last : Bool) : NoFile (lineText line last) := by
  intro separator hmem
  rcases List.mem_cons.mp hmem with rfl | hmem
  · exact not_infix_of_notMem (by decide : '파' ∈ _) (notMem_lineText (by decide))
  · rw [List.mem_singleton.mp hmem]
    exact not_infix_of_notMem (by decide : '줄' ∈ _) (notMem_lineText (by decide))

theorem splitFrom_line (hx : NoFile x) (line : Int32) (last : Bool) :
    splitFrom fileSeparators 0 [] (x ++ ([':', '줄', ' '] ++ lineText line last)) =
      [x, lineText line last] := by
  rw [splitFrom_lineSeparator hx, splitFrom_of_no_separator (noFile_lineText line last)]
  rfl

/-- Behind a text without a marker, file and line do not make one. -/
theorem not_marker_infix_line (hx : ¬ marker <:+: x) (line : Int32) (last : Bool) :
    ¬ marker <:+: x ++ ([':', '줄', ' '] ++ lineText line last) := by
  refine not_infix_append hx ?_ ?_
  · refine not_infix_of_notMem (by decide : '위' ∈ marker) fun hmem => ?_
    rcases List.mem_append.mp hmem with hmem | hmem
    · exact absurd hmem (by decide)
    · exact notMem_lineText (by decide) hmem
  · intro separator hmem i hpos hlt _ hdrop
    rw [List.mem_singleton.mp hmem] at hlt hdrop
    have hi : i < 5 := hlt
    rcases (by omega : i = 1 ∨ i = 2 ∨ i = 3 ∨ i = 4) with rfl | rfl | rfl | rfl <;>
      simp [marker, List.cons_prefix_cons] at hdrop

/-- The separator of lines does not complete the end of a marker. -/
theorem not_begin_line (hpath : ¬ "위치: ".toList <+: path) (rest : List Char) :
    ¬ "위치: ".toList <+: path ++ ([':', '줄', ' '] ++ rest) := by
  intro hfront
  by_cases hne : path = []
  · subst hne
    simp [List.cons_prefix_cons] at hfront
  · have hseparate : Separate ["위치: ".toList] path ([':', '줄', ' '] ++ rest) := by
      intro separator hmem i hpos hlt _ hdrop
      rw [List.mem_singleton.mp hmem] at hlt hdrop
      have hi : i < 4 := hlt
      rcases (by omega : i = 1 ∨ i = 2 ∨ i = 3) with rfl | rfl | rfl <;>
        simp [List.cons_prefix_cons] at hdrop
    exact hpath (hseparate.isPrefix_of_isPrefix_append (List.mem_singleton.mpr rfl) hne hfront)

/-- The separator of files joins to a marker with a path that begins like the rest of
one only. -/
theorem not_marker_infix_file {front : List Char} (hfront : '위' ∉ front)
    (hpath : ¬ marker <:+: path) (hbegin : ¬ "위치: ".toList <+: path) :
    ¬ marker <:+: front ++ path := by
  refine not_infix_append ?_ hpath ?_
  · exact not_infix_of_notMem (by decide : '위' ∈ marker) hfront
  · intro separator hmem i hpos hlt htake hdrop
    rw [List.mem_singleton.mp hmem] at hlt hdrop htake
    by_cases hone : i = 1
    · subst hone
      exact hbegin hdrop
    · -- a longer part of the marker has the first letter in it
      obtain ⟨j, rfl⟩ : ∃ j, i = j + 2 := ⟨i - 2, by omega⟩
      exact hfront (htake.subset (by simp [marker]))

theorem not_marker_infix_method {rest : List Char} (hmethod : ¬ marker <:+: method)
    (hend : ¬ " 위치:".toList <:+ method) (hrest : ¬ marker <:+: ' ' :: rest) :
    ¬ marker <:+: method ++ ' ' :: rest := by
  refine not_infix_append hmethod hrest (separate_of_concat fun separator hmem => ?_)
  refine ⟨" 위치:".toList, ?_, by decide, hend⟩
  rw [List.mem_singleton.mp hmem]
  rfl

/-! ### The entries of a location -/

/-- The entries that reading a location adds. -/
def readings (location : List Char) : List CallStack :=
  match parseLocation (String.ofList location) with
  | .ok frames => frames
  | .error _ => []

theorem parseLocation_of_one {location method : List Char}
    (h : splitFrom fileSeparators 0 [] location = [method]) :
    parseLocation (String.ofList location) =
      .ok [⟨some (String.ofList method), some "library method", 0⟩] := by
  rw [parseLocation, split_fileSeparators, h]
  rfl

theorem parseLocation_of_two {location method file : List Char}
    (h : splitFrom fileSeparators 0 [] location = [method, file]) :
    parseLocation (String.ofList location) =
      .ok [⟨some (String.ofList method), some (String.ofList file), 0⟩] := by
  rw [parseLocation, split_fileSeparators, h]
  rfl

theorem parseLocation_of_three {location method file : List Char}
    (h : splitFrom fileSeparators 0 [] location = [method, file, lineText line last]) :
    parseLocation (String.ofList location) =
      .ok [⟨some (String.ofList method), some (String.ofList file), line⟩] := by
  rw [parseLocation, split_fileSeparators, h]
  simp only [List.map_cons, List.map_nil, parseInt_lineText]
  rfl

/-- The method of an entry is the first piece of its location. -/
theorem method_of_mem_readings {location : List Char} {pieces : List (List Char)}
    {frame : CallStack} (hmem : frame ∈ readings location)
    (h : splitFrom fileSeparators 0 [] location = method :: pieces) :
    frame.m_method = some (String.ofList method) := by
  rw [readings, parseLocation, split_fileSeparators, h] at hmem
  rcases pieces with _ | ⟨file, _ | ⟨line, _ | ⟨more, pieces⟩⟩⟩
  · rw [List.mem_singleton.mp hmem]
  · rw [List.mem_singleton.mp hmem]
  · simp only [List.map_cons, List.map_nil] at hmem
    cases hline : parseInt (String.ofList line) with
    | error e =>
      rw [hline] at hmem
      exact absurd hmem (by simp [Except.map])
    | ok n =>
      rw [hline] at hmem
      rw [List.mem_singleton.mp hmem]
  · exact absurd hmem (by simp)

/-! ### Frames that are read back -/

theorem Plain.not_contains_marker {text : String} (h : Plain text) : ¬ marker <:+: text.toList :=
  of_decide_eq_false h.1

theorem Plain.noFile {text : String} (h : Plain text) : NoFile text.toList := by
  intro separator hmem
  rcases List.mem_cons.mp hmem with rfl | hmem
  · exact of_decide_eq_false h.2.1
  · rw [List.mem_singleton.mp hmem]
    exact of_decide_eq_false h.2.2

theorem segment_of_source {frame : StackFrame} {path : String}
    (h : frame.source = some (path, line)) : frame.segment last =
      frame.method.toList ++ ([' ', '파', '일', ' '] ++
        (path.toList ++ ([':', '줄', ' '] ++ lineText line last))) := by
  rw [segment, h, sourceText, lineText]
  simp

/-- A frame that reads back in its place: without a file it must be the last, with one
its separators must be found where they stand. -/
def Recovered (p : StackFrame × Bool) : Prop :=
  p.1.Delimited ∧ (p.2 = false → p.1.source ≠ none)

/-- A line break makes no separator with the text before it. -/
theorem not_infix_lineBreak {separator : List Char} (hmethod : ¬ separator <:+: method)
    (hbreak : '\r' ∉ separator.tail) (hother : ∃ c ∈ separator, isBlank c = false) :
    ¬ separator <:+: method ++ ['\r', '\n', ' ', ' '] := by
  obtain ⟨c, hc, hblank⟩ := hother
  refine not_infix_append hmethod (not_infix_of_notMem hc fun hmem => ?_) ?_
  · exact absurd (isBlank_lineBreak c hmem) (by simp [hblank])
  · refine separate_of_notMem_tail fun separator' hmem => ?_
    rw [List.mem_singleton.mp hmem]
    exact hbreak

theorem parseLocation_of_recovered {frame : StackFrame} {last : Bool} (hplain : frame.IsPlain)
    (h : Recovered (frame, last)) :
    splitFrom [marker] 0 [] (frame.segment last) = [frame.segment last] ∧
      parseLocation (String.ofList (frame.segment last)) = .ok [frame.entry] := by
  cases hsource : frame.source with
  | none =>
    -- only the last frame has no file, and its method is all that is left
    have hlast : last = true := by
      by_contra hlast
      exact h.2 (by simpa using hlast) hsource
    have hsegment : frame.segment last = frame.method.toList := by
      rw [segment, hsource, hlast, if_pos rfl, List.append_nil]
      exact List.append_nil _
    rw [hsegment]
    constructor
    · refine splitFrom_of_no_separator (fun separator hmem => ?_) []
      rw [List.mem_singleton.mp hmem]
      exact hplain.1.not_contains_marker
    · rw [parseLocation_of_one (splitFrom_of_no_separator hplain.1.noFile []), entry, hsource]
      simp
  | some source =>
    obtain ⟨path, line⟩ := source
    obtain ⟨hmarker, hfile, hline, hpath⟩ := h.1 path line hsource
    have hplainPath := hplain.2 path line hsource
    rw [segment_of_source hsource]
    constructor
    · refine splitFrom_of_no_separator (fun separator hmem => ?_) []
      rw [List.mem_singleton.mp hmem]
      refine not_marker_infix_method hplain.1.not_contains_marker hmarker ?_
      have hfront : '위' ∉ [' ', '파', '일', ' '] := by decide
      exact not_marker_infix_file hfront (not_marker_infix_line hplainPath.not_contains_marker _ _)
        (not_begin_line hpath _)
    · have hpieces := splitFrom_fileSeparator hplain.1.noFile hfile hline
        (path.toList ++ ([':', '줄', ' '] ++ lineText line last))
      rw [splitFrom_line hplainPath.noFile] at hpieces
      rw [parseLocation_of_three hpieces, entry, hsource]
      simp

/-! ### Frames that are not -/

/-- The entries that reading the segment of a frame adds. -/
def parts (p : StackFrame × Bool) : List CallStack :=
  (splitFrom [marker] 0 [] (p.1.segment p.2)).flatMap readings

theorem parts_of_recovered {frame : StackFrame} (hplain : frame.IsPlain)
    (h : Recovered (frame, last)) : parts (frame, last) = [frame.entry] := by
  obtain ⟨hsegment, hparse⟩ := parseLocation_of_recovered hplain h
  rw [parts, hsegment, List.flatMap_singleton, readings, hparse]

/-- An entry of a location with another first piece is not that of the frame. -/
theorem entry_notMem_readings {frame : StackFrame} {location piece : List Char}
    {pieces : List (List Char)} (h : splitFrom fileSeparators 0 [] location = piece :: pieces)
    (hne : piece ≠ frame.method.toList) : frame.entry ∉ readings location := by
  intro hmem
  have hmethod := method_of_mem_readings hmem h
  have hentry : frame.entry.m_method = some frame.method := by
    unfold entry
    split <;> rfl
  rw [hentry, Option.some.injEq] at hmethod
  exact hne (by rw [hmethod, String.toList_ofList])

/-- A text that ends in all but the blank of a separator is cut when a blank follows. -/
theorem splitFrom_joined (hmethod : NoFile method)
    (h : " 파일".toList <:+ method ∨ ":줄".toList <:+ method) (rest : List Char) :
    ∃ piece pieces, splitFrom fileSeparators 0 [] (method ++ ' ' :: rest) = piece :: pieces ∧
      piece ≠ method := by
  rcases h with ⟨piece, rfl⟩ | ⟨piece, rfl⟩
  · have hpiece : NoFile piece := fun separator hmem hpart =>
      hmethod separator hmem (hpart.trans (List.prefix_append _ _).isInfix)
    refine ⟨piece, splitFrom fileSeparators 0 [] rest, ?_, fun heq => ?_⟩
    · have hfile : ¬ " 파일".toList <:+ piece := by
        rintro ⟨front, rfl⟩
        exact hmethod [' ', '파', '일', ' '] (by decide) ⟨front, ['파', '일'], by simp⟩
      have hline : ¬ ":줄".toList <:+ piece := by
        rintro ⟨front, rfl⟩
        exact hmethod [':', '줄', ' '] (by decide) ⟨front, ['파', '일'], by simp⟩
      have hsplit := splitFrom_fileSeparator hpiece hfile hline rest
      rw [List.append_assoc]
      exact hsplit
    · have hlength := congrArg List.length heq
      rw [List.length_append] at hlength
      exact absurd hlength (by simp)
  · have hpiece : NoFile piece := fun separator hmem hpart =>
      hmethod separator hmem (hpart.trans (List.prefix_append _ _).isInfix)
    refine ⟨piece, splitFrom fileSeparators 0 [] rest, ?_, fun heq => ?_⟩
    · have hsplit := splitFrom_lineSeparator hpiece rest
      rw [List.append_assoc]
      exact hsplit
    · have hlength := congrArg List.length heq
      rw [List.length_append] at hlength
      exact absurd hlength (by simp)

/-- The line behind a path that begins like the rest of a marker. -/
theorem entry_notMem_readings_line {frame : StackFrame} {path : String} (hx : NoFile x)
    (hsource : frame.source = some (path, line)) (hpath : path.toList = "위치: ".toList ++ x)
    (last : Bool) : frame.entry ∉ readings (x ++ ([':', '줄', ' '] ++ lineText line last)) := by
  intro hmem
  rw [readings, parseLocation_of_two (splitFrom_line hx line last)] at hmem
  have hentry := List.mem_singleton.mp hmem
  rw [entry, hsource] at hentry
  have hfile := congrArg CallStack.m_file hentry
  -- a path would be a number
  rw [Option.some.injEq] at hfile
  have hmem : '위' ∈ lineText line last := by
    rw [← String.toList_ofList (l := lineText line last), ← hfile, hpath]
    exact List.mem_append_left x (by decide)
  exact notMem_lineText (by decide) hmem

/-- What follows a marker made of the end of a method and the separator of files. -/
theorem entry_notMem_readings_file {frame : StackFrame} {path : String}
    (hplain : Plain path) (hsource : frame.source = some (path, line))
    (hcolon : ':' ∈ frame.method.toList) (last : Bool) : frame.entry ∉
      readings (['파', '일', ' '] ++ (path.toList ++ ([':', '줄', ' '] ++ lineText line last))) := by
  by_cases hbegin : "파일 ".toList <+: path.toList
  · -- the separator of files is found once more
    obtain ⟨rest, hrest⟩ := hbegin
    have hpieces := splitFrom_fileSeparator (x := ['파', '일']) (by unfold NoFile; decide)
      (by decide) (by decide) (rest ++ ([':', '줄', ' '] ++ lineText line last))
    rw [← hrest]
    refine entry_notMem_readings hpieces fun heq => ?_
    rw [← heq] at hcolon
    exact absurd hcolon (by decide)
  · have hseparate : Separate fileSeparators ['파', '일', ' '] path.toList := by
      intro separator hmem i hpos hlt htake hdrop
      rcases List.mem_cons.mp hmem with rfl | hmem
      · have hi : i < 4 := hlt
        rcases (by omega : i = 1 ∨ i = 2 ∨ i = 3) with rfl | rfl | rfl
        · exact hbegin hdrop
        · exact absurd htake (by decide)
        · exact absurd htake (by decide)
      · rw [List.mem_singleton.mp hmem] at hlt htake
        have hi : i < 3 := hlt
        rcases (by omega : i = 1 ∨ i = 2) with rfl | rfl
        · exact absurd htake (by decide)
        · exact absurd htake (by decide)
    have hword : NoFile ['파', '일', ' '] := by
      unfold NoFile
      decide
    have hnoFile := hword.append hplain.noFile hseparate
    intro hmem
    rw [← List.append_assoc, readings,
      parseLocation_of_two (splitFrom_line hnoFile line last)] at hmem
    have hentry := List.mem_singleton.mp hmem
    rw [entry, hsource] at hentry
    have hmethod := congrArg CallStack.m_method hentry
    have hfile := congrArg CallStack.m_file hentry
    rw [Option.some.injEq] at hmethod hfile
    -- the path is a number, so that the method has no colon
    rw [hmethod, hfile, String.toList_ofList, String.toList_ofList] at hcolon
    rcases List.mem_append.mp hcolon with hcolon | hcolon
    · exact absurd hcolon (by decide)
    · exact notMem_lineText (by decide) hcolon

/-- A path that begins like the rest of a marker, behind a text that gives no entry of
the frame. -/
theorem entry_notMem_of_begin {frame : StackFrame} {path : String} {first : List Char}
    (hplain : Plain path) (hsource : frame.source = some (path, line))
    (hpath : path.toList = "위치: ".toList ++ x) (hmarker : ¬ marker <:+: first)
    (hend : ¬ " 위치:".toList <:+ first) (hnot : frame.entry ∉ readings first) (last : Bool) :
    frame.entry ∉ (splitFrom [marker] 0 []
      (first ++ (marker ++ (x ++ ([':', '줄', ' '] ++ lineText line last))))).flatMap readings := by
  have hpart : x <:+: path.toList := hpath ▸ (List.suffix_append _ _).isInfix
  have hfile : NoFile x := fun separator hmem h => hplain.noFile separator hmem (h.trans hpart)
  have hrest : ¬ marker <:+: x ++ ([':', '줄', ' '] ++ lineText line last) :=
    not_marker_infix_line (fun h => hplain.not_contains_marker (h.trans hpart)) line last
  rw [splitFrom_marker hend, splitFrom_of_no_separator (by simpa using hmarker),
    splitFrom_of_no_separator (by simpa using hrest)]
  simp only [List.reverse_nil, List.nil_append, List.flatMap_append, List.flatMap_singleton,
    List.mem_append]
  rintro (hmem | hmem)
  · exact hnot hmem
  · exact entry_notMem_readings_line hfile hsource hpath last hmem

/-- A method that ends in all but the blank of a marker. -/
theorem entry_notMem_parts_of_suffix {frame : StackFrame} {path : String}
    (hplain : frame.IsPlain) (hsource : frame.source = some (path, line))
    (h : " 위치:".toList <:+ frame.method.toList) : frame.entry ∉ parts (frame, last) := by
  have hplainPath := hplain.2 path line hsource
  have hcolon : ':' ∈ frame.method.toList := h.subset (by decide)
  obtain ⟨front, hmethod⟩ := h
  have hfront : front ≠ frame.method.toList := fun heq => by
    rw [heq] at hmethod
    exact absurd hmethod (by simp)
  have hfile : NoFile front := fun separator hmem hpart =>
    hplain.1.noFile separator hmem (hpart.trans (hmethod ▸ (List.prefix_append _ _).isInfix))
  have hmarker : ¬ marker <:+: front := fun hpart =>
    hplain.1.not_contains_marker (hpart.trans (hmethod ▸ (List.prefix_append _ _).isInfix))
  have hend : ¬ " 위치:".toList <:+ front := by
    rintro ⟨rest, rfl⟩
    exact hplain.1.not_contains_marker ⟨rest, ['위', '치', ':'], by rw [← hmethod]; simp [marker]⟩
  -- the marker is found one blank earlier, so that the path begins with the word for file
  have hsegment : frame.segment last = front ++ (marker ++
      (['파', '일', ' '] ++ (path.toList ++ ([':', '줄', ' '] ++ lineText line last)))) := by
    rw [segment_of_source hsource, ← hmethod]
    simp [marker]
  rw [parts, hsegment, splitFrom_marker hend, splitFrom_of_no_separator (by simpa using hmarker),
    List.reverse_nil, List.nil_append, List.singleton_append, List.flatMap_cons, List.mem_append]
  rintro (hmem | hmem)
  · exact entry_notMem_readings (splitFrom_of_no_separator hfile []) (by simpa using hfront) hmem
  · by_cases hpath : "위치: ".toList <+: path.toList
    -- the path makes a second marker with that blank
    · obtain ⟨x, hx⟩ := hpath
      have hword : frame.entry ∉ readings ['파', '일'] := by
        have hone : splitFrom fileSeparators 0 [] ['파', '일'] = [['파', '일']] := by decide
        refine entry_notMem_readings hone fun heq => ?_
        rw [← heq] at hcolon
        exact absurd hcolon (by decide)
      have hnot :=
        entry_notMem_of_begin hplainPath hsource hx.symm (by decide) (by decide) hword last
      refine hnot ?_
      rw [← hx] at hmem
      exact hmem
    · have hfront : '위' ∉ ['파', '일', ' '] := by decide
      have hnot := not_marker_infix_file hfront
        (not_marker_infix_line hplainPath.not_contains_marker line last) (not_begin_line hpath _)
      rw [splitFrom_of_no_separator (by simpa using hnot), List.reverse_nil, List.nil_append,
        List.flatMap_singleton] at hmem
      exact entry_notMem_readings_file hplainPath hsource hcolon last hmem

/-- The word for file behind a method makes another method of it. -/
theorem entry_notMem_readings_word {frame : StackFrame} (hfile : NoFile frame.method.toList) :
    frame.entry ∉ readings (frame.method.toList ++ [' ', '파', '일']) := by
  by_cases hjoined : " 파일".toList <:+ frame.method.toList ∨ ":줄".toList <:+ frame.method.toList
  · obtain ⟨piece, pieces, hpieces, hne⟩ := splitFrom_joined hfile hjoined ['파', '일']
    exact entry_notMem_readings hpieces hne
  · rw [not_or] at hjoined
    have hword : NoFile [' ', '파', '일'] := by
      unfold NoFile
      decide
    have hnone : NoFile (frame.method.toList ++ [' ', '파', '일']) :=
      hfile.append hword (separate_blank hjoined.1 hjoined.2 _)
    refine entry_notMem_readings (splitFrom_of_no_separator hnone []) fun heq => ?_
    exact absurd heq (by simp)

/-- The line break behind a frame without a file stays in its method. -/
theorem entry_notMem_parts_of_source_none {frame : StackFrame} (hplain : frame.IsPlain)
    (hsource : frame.source = none) : frame.entry ∉ parts (frame, false) := by
  have hsegment : frame.segment false = frame.method.toList ++ ['\r', '\n', ' ', ' '] := by
    rw [segment, hsource]
    simp [sourceText]
  have hmarker := not_infix_lineBreak hplain.1.not_contains_marker (by decide) ⟨'위', by decide⟩
  have hfile : NoFile (frame.method.toList ++ ['\r', '\n', ' ', ' ']) := by
    intro separator hmem
    refine not_infix_lineBreak (hplain.1.noFile separator hmem) ?_ ?_
    · revert separator
      decide
    · simp only [fileSeparators, List.mem_cons, List.not_mem_nil, or_false] at hmem
      rcases hmem with rfl | rfl
      · exact ⟨'파', by decide, by decide⟩
      · exact ⟨'줄', by decide, by decide⟩
  rw [parts, hsegment, splitFrom_of_no_separator (by simpa using hmarker), List.reverse_nil,
    List.nil_append, List.flatMap_singleton]
  refine entry_notMem_readings (splitFrom_of_no_separator hfile []) fun heq => ?_
  exact absurd heq (by simp)

/-- A path that begins like a location is split off from its method. -/
theorem entry_notMem_parts_of_path {frame : StackFrame} {path : String} {line : Int32}
    (hplain : frame.IsPlain) (hsource : frame.source = some (path, line))
    (hsuffix : ¬ " 위치:".toList <:+ frame.method.toList)
    (hpath : "위치: ".toList <+: path.toList) : frame.entry ∉ parts (frame, last) := by
  obtain ⟨x, hx⟩ := hpath
  have hfile : '위' ∉ [' ', '파', '일'] := by decide
  have hmarker := not_marker_infix_method hplain.1.not_contains_marker hsuffix
    (not_infix_of_notMem (by decide : '위' ∈ marker) hfile)
  have hend : ¬ " 위치:".toList <:+ (frame.method.toList ++ [' ', '파']) ++ ['일'] :=
    not_suffix_concat (by decide : ':' ≠ '일') [' ', '위', '치']
  rw [List.append_assoc, List.cons_append, List.singleton_append] at hend
  have hnot := entry_notMem_of_begin (hplain.2 path line hsource) hsource hx.symm hmarker hend
    (entry_notMem_readings_word hplain.1.noFile) last
  rw [parts, segment_of_source hsource, ← hx]
  simpa [marker] using hnot

/-- Without a marker the method joins with the separator of files. -/
theorem entry_notMem_parts_of_joined {frame : StackFrame} {path : String} {line : Int32}
    (hplain : frame.IsPlain) (hsource : frame.source = some (path, line))
    (hsuffix : ¬ " 위치:".toList <:+ frame.method.toList)
    (hpath : ¬ "위치: ".toList <+: path.toList)
    (hjoined : " 파일".toList <:+ frame.method.toList ∨ ":줄".toList <:+ frame.method.toList) :
    frame.entry ∉ parts (frame, last) := by
  have hplainPath := hplain.2 path line hsource
  rw [parts, segment_of_source hsource, splitFrom_of_no_separator, List.reverse_nil,
    List.nil_append, List.flatMap_singleton]
  · obtain ⟨piece, pieces, hpieces, hne⟩ := splitFrom_joined hplain.1.noFile hjoined
      (['파', '일', ' '] ++ (path.toList ++ ([':', '줄', ' '] ++ lineText line last)))
    exact entry_notMem_readings hpieces hne
  · intro separator hmem
    rw [List.mem_singleton.mp hmem]
    have hfront : '위' ∉ [' ', '파', '일', ' '] := by decide
    refine not_marker_infix_method hplain.1.not_contains_marker hsuffix ?_
    exact not_marker_infix_file hfront
      (not_marker_infix_line hplainPath.not_contains_marker line last)
      (not_begin_line hpath _)

/-- A frame that does not read back in its place gives no entry like its own. -/
theorem entry_notMem_parts {frame : StackFrame} (hplain : frame.IsPlain)
    (h : ¬ Recovered (frame, last)) : frame.entry ∉ parts (frame, last) := by
  cases hsource : frame.source with
  | none =>
    have hlast : last = false := by
      by_contra hlast
      refine h ⟨fun path line hsome => ?_, fun hfalse => ?_⟩
      · exact absurd (hsource.symm.trans hsome) (by simp)
      · exact absurd hfalse (by simpa using hlast)
    rw [hlast]
    exact entry_notMem_parts_of_source_none hplain hsource
  | some source =>
    obtain ⟨path, line⟩ := source
    by_cases hsuffix : " 위치:".toList <:+ frame.method.toList
    · exact entry_notMem_parts_of_suffix hplain hsource hsuffix
    by_cases hpath : "위치: ".toList <+: path.toList
    · exact entry_notMem_parts_of_path hplain hsource hsuffix hpath
    refine entry_notMem_parts_of_joined hplain hsource hsuffix hpath ?_
    by_contra hneither
    rw [not_or] at hneither
    refine h ⟨fun path' line' hsome => ?_, fun _ hnone => ?_⟩
    · rw [hsource] at hsome
      cases hsome
      exact ⟨hsuffix, hneither.1, hneither.2, hpath⟩
    · exact absurd (hsource.symm.trans hnone) (by simp)

/-! ### Whole stack traces -/

theorem map_fst_positions (frames : List StackFrame) :
    (positions frames).map Prod.fst = frames := by
  induction frames with
  | nil => rfl
  | cons frame frames ih => rw [positions, List.map_cons, ih]

theorem forall_positions_iff (frames : List StackFrame) :
    (∀ p ∈ positions frames, Recovered p) ↔
      (∀ frame ∈ frames, frame.Delimited) ∧ ∀ frame ∈ frames.dropLast, frame.source ≠ none := by
  induction frames with
  | nil => simp [positions]
  | cons frame frames ih =>
    rw [positions, List.forall_mem_cons, ih, List.forall_mem_cons]
    cases frames with
    | nil => simp [Recovered]
    | cons next frames =>
      rw [List.dropLast_cons_cons, Recovered]
      simp only [List.isEmpty_cons, forall_const, List.forall_mem_cons]
      tauto

/-- The locations of a printed stack trace are those of its segments. -/
theorem locations_render {frames : List StackFrame} (hne : frames ≠ []) :
    (split [" 위치: "] (render frames)).drop 1 =
      ((positions frames).flatMap fun p => splitFrom [marker] 0 [] (p.1.segment p.2)).map
        String.ofList := by
  have hblanks : splitFrom [marker] 0 [] [' ', ' '] = [[' ', ' ']] := by decide
  rw [split_marker, toList_render hne, splitFrom_positions fun _ => by decide, hblanks]
  rfl

/-- The entries that were read are those of the locations one by one. -/
theorem flatten_eq_flatMap_readings {locations : List (List Char)} {read : List (List CallStack)}
    (h : (locations.map String.ofList).map parseLocation = read.map .ok) :
    read.flatten = locations.flatMap readings := by
  induction locations generalizing read with
  | nil => rw [List.map_eq_nil_iff.mp h.symm, List.flatten_nil, List.flatMap_nil]
  | cons location locations ih =>
    obtain ⟨frames, read, rfl, hframes, hread⟩ := List.map_eq_cons_iff.mp h.symm
    have hlocation : readings location = frames := by rw [readings, ← hframes]
    rw [List.flatten_cons, List.flatMap_cons, hlocation, ih hread.symm]

/-- For frames whose texts have no separators in them, the printed stack trace is read
as exactly these frames if and only if every frame before the last has a file, and in
each frame with a file no text joins with the separator next to it: the method ends in
no separator but for its last blank, and the path does not begin with a marker but for
its first blank. -/
theorem parseFromException_render_iff {frames : List StackFrame}
    (hplain : ∀ frame ∈ frames, frame.IsPlain) :
    parseFromException (some (render frames)) = .ok (some (frames.map entry)) ↔
      (∀ frame ∈ frames, frame.Delimited) ∧
        ∀ frame ∈ frames.dropLast, frame.source ≠ none := by
  by_cases hne : frames = []
  · subst hne
    exact ⟨fun _ => ⟨fun frame h => absurd h (by simp), fun frame h => absurd h (by simp)⟩,
      fun _ => rfl⟩
  have hentries : frames.map entry = (positions frames).map fun p => p.1.entry := by
    nth_rewrite 1 [← map_fst_positions frames]
    rw [List.map_map]
    rfl
  have hplain' : ∀ p ∈ positions frames, p.1.IsPlain := fun p hp =>
    hplain p.1 (map_fst_positions frames ▸ List.mem_map_of_mem hp)
  rw [← forall_positions_iff, parseFromException_eq_ok_iff, locations_render hne, hentries]
  constructor
  · rintro ⟨read, hread, hflatten⟩
    rw [flatten_eq_flatMap_readings hread, List.flatMap_assoc] at hflatten
    -- a segment gives its own entry alone, or not at all
    have hparts : ∀ p ∈ positions frames, parts p = [p.1.entry] ∨ p.1.entry ∉ parts p := by
      intro p hp
      by_cases hrecovered : Recovered p
      · exact .inl (parts_of_recovered (hplain' p hp) hrecovered)
      · exact .inr (entry_notMem_parts (hplain' p hp) hrecovered)
    intro p hp
    by_contra hnot
    -- as many entries as frames: each segment gives its own
    have hown := eq_singleton_of_flatMap_eq_map hparts hflatten p hp
    exact entry_notMem_parts (hplain' p hp) hnot (hown ▸ List.mem_singleton.mpr rfl)
  · intro hall
    refine ⟨(positions frames).map fun p => [p.1.entry], ?_, ?_⟩
    · rw [List.flatMap_def, List.map_congr_left fun p hp =>
        (parseLocation_of_recovered (hplain' p hp) (hall p hp)).1, ← List.flatMap_def]
      rw [← List.map_eq_flatMap, List.map_map, List.map_map, List.map_map]
      refine List.map_congr_left fun p hp => ?_
      rw [Function.comp_apply, Function.comp_apply, Function.comp_apply]
      exact (parseLocation_of_recovered (hplain' p hp) (hall p hp)).2
    · rw [← List.flatMap_def, ← List.map_eq_flatMap]

/-- Two frames, of which the last has no file, and all of whose texts are plain. -/
theorem parseFromException_render_iff_main :
    parseFromException (some (render [⟨"A.f()", some ("c:\\a.cs", 7)⟩, ⟨"B.g()", none⟩])) =
      .ok (some
        [⟨some "A.f()", some "c:\\a.cs", 7⟩, ⟨some "B.g()", some "library method", 0⟩]) := by
  refine (parseFromException_render_iff ?_).mpr ⟨?_, ?_⟩
  · rw [List.forall_mem_cons, List.forall_mem_singleton]
    refine ⟨⟨⟨rfl, rfl, rfl⟩, fun path line hsource => ?_⟩,
      ⟨rfl, rfl, rfl⟩, fun path line hsource => ?_⟩
    · cases hsource
      exact ⟨rfl, rfl, rfl⟩
    · cases hsource
  · rw [List.forall_mem_cons, List.forall_mem_singleton]
    refine ⟨fun path line hsource => ?_, fun path line hsource => ?_⟩
    · cases hsource
      decide
    · cases hsource
  · decide

/-- A frame without a file that is not the last has the line break in its method. -/
theorem not_parseFromException_render :
    (∀ frame ∈ ([⟨"A()", none⟩, ⟨"B()", none⟩] : List StackFrame), frame.IsPlain) ∧
      parseFromException (some (render [⟨"A()", none⟩, ⟨"B()", none⟩])) ≠
        .ok (some ([⟨"A()", none⟩, ⟨"B()", none⟩].map entry)) := by
  constructor
  · rw [List.forall_mem_cons, List.forall_mem_singleton]
    refine ⟨⟨⟨rfl, rfl, rfl⟩, fun path line hsource => ?_⟩,
      ⟨rfl, rfl, rfl⟩, fun path line hsource => ?_⟩
    · cases hsource
    · cases hsource
  · intro h
    have hread : parseFromException (some (render [⟨"A()", none⟩, ⟨"B()", none⟩])) =
        .ok (some [⟨some "A()\r\n  ", some "library method", 0⟩,
          ⟨some "B()", some "library method", 0⟩]) := by rfl
    rw [hread] at h
    exact absurd h (by decide)

end StackFrame

end SMEWindow.Collect

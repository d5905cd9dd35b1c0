import SMEWindow.Server.Receiver

/-!
# Where a received file is created

The name of a file comes from the sender, and the receiver creates the file under
exactly that name. It looks for an extension somewhere in the name and for nothing
else, so a name may be a path to any place of the server.

A name is decoded from UTF-8 before that. The bytes of the separators and of the
colon stand for themselves there, wherever they occur and however the decoder treats
ill-formed input, so a name can be judged by its bytes.

## Main definitions

* `Server.PlainName` — no directory, no drive and no parent directory
* `Server.CreatesPlain` — whatever the receiver creates has a plain name

## Main results

* `createsPlain_iff` — this is so exactly when an accepted name has none of three bytes
-/

set_option autoImplicit false

namespace SMEWindow.Server

open Lib.LittleEndian Lib.SegmentedStream Lib.Utf8

/-- The characters between the directories of a path. -/
def isSeparator (c : Char) : Bool := c = '\\' || c = '/'

/-- The name of a file in the working directory. -/
structure PlainName (name : String) : Prop where
  no_separator : ∀ c ∈ name.toList, isSeparator c = false
  /-- Neither a drive nor a stream of another file. -/
  no_drive : ':' ∉ name.toList
  no_parent : ['.', '.'] ∉ name.toList.splitOnP isSeparator

/-- The path at which the receiver creates a file, if it gets that far, is a plain
name. -/
def CreatesPlain (env : Environment) (net : Stream) : Prop :=
  ∀ header body, receiveHeader env net = .ok (header, body) → PlainName header.fileName

/-- None of the bytes is that of a separator or of a colon. -/
def PathFree (bytes : List UInt8) : Prop := ∀ b ∈ bytes, b ≠ 0x5C ∧ b ≠ 0x2F ∧ b ≠ 0x3A

/-! ### Names and their bytes -/

variable {name : String} {r : Replacement} {bytes : List UInt8}

/-- An accepted name is longer than two dots. -/
theorem Accepted.ne_parent (h : Accepted name) : name.toList ≠ ['.', '.'] := by
  have hlength : 4 ≤ name.toList.length := by
    rcases h with hext | hext | hext
    · exact (of_decide_eq_true hext).length_le
    · exact (of_decide_eq_true hext).length_le
    · exact (of_decide_eq_true hext).length_le
  intro hparent
  rw [hparent] at hlength
  exact absurd hlength (by decide)

/-- Among the accepted names, the plain ones lack three characters. -/
theorem plainName_iff (h : Accepted name) :
    PlainName name ↔ '\\' ∉ name.toList ∧ '/' ∉ name.toList ∧ ':' ∉ name.toList := by
  constructor
  · intro hplain
    refine ⟨fun hmem => ?_, fun hmem => ?_, hplain.no_drive⟩
    · exact absurd (hplain.no_separator _ hmem) (by decide)
    · exact absurd (hplain.no_separator _ hmem) (by decide)
  · rintro ⟨hback, hslash, hdrive⟩
    have hseparator : ∀ c ∈ name.toList, isSeparator c = false := by
      intro c hc
      simp only [isSeparator, Bool.or_eq_false_iff, decide_eq_false_iff_not]
      constructor
      · rintro rfl
        exact hback hc
      · rintro rfl
        exact hslash hc
    refine ⟨hseparator, hdrive, ?_⟩
    -- the whole name is its only component
    rw [List.splitOnP_eq_singleton (by simpa using hseparator), List.mem_singleton]
    exact h.ne_parent.symm

theorem pathFree_iff :
    PathFree bytes ↔ '\\' ∉ (getString r bytes).toList ∧ '/' ∉ (getString r bytes).toList ∧
      ':' ∉ (getString r bytes).toList := by
  rw [mem_getString_iff (by decide), mem_getString_iff (by decide), mem_getString_iff (by decide)]
  constructor
  · intro hfree
    exact ⟨fun hb => (hfree _ hb).1 rfl, fun hb => (hfree _ hb).2.1 rfl,
      fun hb => (hfree _ hb).2.2 rfl⟩
  · rintro ⟨hback, hslash, hcolon⟩ b hb
    refine ⟨?_, ?_, ?_⟩
    · rintro rfl
      exact hback hb
    · rintro rfl
      exact hslash hb
    · rintro rfl
      exact hcolon hb

/-- **The receiver stays in its directory exactly when an accepted name has none of
three bytes.** For every stream of bytes, however it is cut and however the decoder
treats ill-formed input, the path at which the receiver creates the file is a plain
file name if and only if the header is rejected, or the bytes that it reads as the
name contain neither a separator nor a colon. -/
theorem createsPlain_iff (env : Environment) (net : Stream) :
    CreatesPlain env net ↔ (¬ nameLength net < 0 →
      Accepted (getString env.replacement (nameRead net).1) → PathFree (nameRead net).1) := by
  constructor
  · intro hplain hlength haccepted
    obtain ⟨filesel, hsel⟩ := exists_selectFile_iff.mpr haccepted
    have hopens : Opens env net ⟨toInt32 (lengthRead net).1,
        getString env.replacement (nameRead net).1, filesel, toInt32 (keyRead net).1⟩
        (keyRead net).2 := ⟨hlength, rfl, rfl, hsel, rfl, rfl⟩
    have hname := hplain _ _ (receiveHeader_eq_ok_iff.mpr hopens)
    exact pathFree_iff.mpr ((plainName_iff haccepted).mp hname)
  · intro hfree header body hok
    have hopens := receiveHeader_eq_ok_iff.mp hok
    have haccepted := hopens.accepted
    rw [hopens.fileName_eq] at haccepted ⊢
    rw [plainName_iff haccepted]
    exact pathFree_iff.mp (hfree hopens.nameLength_nonneg haccepted)

/-- The header of an empty report that goes one directory up. -/
def climbingReport : List UInt8 :=
  [0, 0, 0, 0, 0, 0, 0, 0, 8, 0, 0, 0, 46, 46, 92, 97, 46, 120, 109, 108, 7, 0, 0, 0]

/-- A sender can have its file created in the parent directory. -/
theorem not_createsPlain_climbing :
    ¬ CreatesPlain .faultless (Stream.whole climbingReport) := by
  intro hplain
  have hok : receiveHeader .faultless (Stream.whole climbingReport) =
      .ok (⟨0, "..\\a.xml", .xml, 7⟩, ⟨[], 4, .ample 24⟩) := by
    rfl
  exact absurd ((hplain _ _ hok).no_separator '\\' (by decide)) (by decide)

end SMEWindow.Server

import Mathlib.Data.List.Basic
import Mathlib.Data.Nat.Basic
import Mathlib.Tactic.Common

/-!
# Statements with quoted literals

The lexical structure of a command language in which a text literal runs from a
quote to the next quote that is not doubled. Everything else falls into words,
blanks and punctuation; which character is which is a parameter, since only the
quote matters here.

A statement is put together from pieces: fixed ones and texts from outside. If
every text stands inside a literal, doubled quotes keep it there, and nothing else
does.

## Main definitions

* `Lib.QuotedText.shape` — the tokens of a text, literals without their content
* `Lib.QuotedText.Doubled` — every quote is followed by another
* `Lib.QuotedText.Piece`, `Lib.QuotedText.Statement` — how statements are built
* `Statement.Enclosed` — every text stands inside a literal

## Main results

* `Statement.shape_blank` — texts with doubled quotes leave the tokens alone
* `Statement.doubled_of_shape_eq` — a text that leaves the tokens alone has its
  quotes doubled
-/

set_option autoImplicit false

namespace Lib.QuotedText

/-- The character that opens and closes a literal. -/
def quote : Char := Char.ofNat 39

/-- What a character other than the quote is to the lexer. -/
inductive Kind
  | blank | letter | punctuation
  deriving DecidableEq, Repr

/-- A token. The content of a literal is not part of it. -/
inductive Token
  | word (letters : List Char)
  | punctuation (c : Char)
  | literal
  /-- A literal that never ends. -/
  | openLiteral
  deriving DecidableEq, Repr

/-- Where the lexer stands. -/
inductive Mode
  | between
  | word (letters : List Char)
  | literal
  /-- Behind a quote that ends the literal, unless another follows. -/
  | closing
  deriving DecidableEq, Repr

section Lexer

variable (kind : Char → Kind)

/-- Begin a token. -/
def begin (c : Char) : Mode × List Token :=
  if c = quote then (.literal, [])
  else
    match kind c with
    | .blank => (.between, [])
    | .letter => (.word [c], [])
    | .punctuation => (.between, [.punctuation c])

/-- Read one character. -/
def step : Mode → Char → Mode × List Token
  | .between, c => begin kind c
  | .word letters, c =>
    if c ≠ quote ∧ kind c = .letter then (.word (letters ++ [c]), [])
    else ((begin kind c).1, .word letters :: (begin kind c).2)
  | .literal, c => if c = quote then (.closing, []) else (.literal, [])
  | .closing, c =>
    if c = quote then (.literal, []) else ((begin kind c).1, .literal :: (begin kind c).2)

/-- Read a text. -/
def run : Mode → List Char → Mode × List Token
  | m, [] => (m, [])
  | m, c :: cs => ((run (step kind m c).1 cs).1, (step kind m c).2 ++ (run (step kind m c).1 cs).2)

/-- The token that the end of the text completes. -/
def finish : Mode → List Token
  | .between => []
  | .word letters => [.word letters]
  | .literal => [.openLiteral]
  | .closing => [.literal]

/-- The tokens of a text. -/
def shape (text : List Char) : List Token :=
  (run kind .between text).2 ++ finish (run kind .between text).1

end Lexer

/-- Every quote is followed by another; `pending` says that one is due. -/
def doubledFrom : Bool → List Char → Bool
  | pending, [] => !pending
  | false, c :: cs => doubledFrom (c == quote) cs
  | true, c :: cs => c == quote && doubledFrom false cs

/-- Every quote of the text is doubled. -/
def Doubled (text : String) : Prop := doubledFrom false text.toList = true

instance (text : String) : Decidable (Doubled text) := inferInstanceAs (Decidable (_ = true))

/-- Whether the number of quotes is odd. -/
def oddQuotes : List Char → Bool
  | [] => false
  | c :: cs => (c == quote) ^^ oddQuotes cs

variable {kind : Char → Kind} {m : Mode} {cs : List Char}

theorem oddQuotes_append (xs ys : List Char) :
    oddQuotes (xs ++ ys) = (oddQuotes xs ^^ oddQuotes ys) := by
  induction xs with
  | nil => simp [oddQuotes]
  | cons c xs ih => rw [List.cons_append, oddQuotes, oddQuotes, ih, Bool.xor_assoc]

/-- Counting in the characters of a fixed text is faster than in the text. -/
theorem oddQuotes_literal {value : String} (h : value = String.ofList cs) :
    oddQuotes value.toList = oddQuotes cs := by
  rw [h, String.toList_ofList]

theorem oddQuotes_two_literals {value value' : String} {cs' : List Char}
    (h : value = String.ofList cs) (h' : value' = String.ofList cs') :
    oddQuotes (value ++ value').toList = (oddQuotes cs ^^ oddQuotes cs') := by
  rw [String.toList_append, oddQuotes_append, oddQuotes_literal h, oddQuotes_literal h']

theorem oddQuotes_of_notMem (h : quote ∉ cs) : oddQuotes cs = false := by
  induction cs with
  | nil => rfl
  | cons c cs ih =>
    rw [List.mem_cons, not_or] at h
    rw [oddQuotes, ih h.2, beq_false_of_ne (Ne.symm h.1)]
    rfl

theorem run_append (m : Mode) (xs ys : List Char) :
    run kind m (xs ++ ys) =
      ((run kind (run kind m xs).1 ys).1,
        (run kind m xs).2 ++ (run kind (run kind m xs).1 ys).2) := by
  induction xs generalizing m with
  | nil => simp [run]
  | cons c xs ih => rw [List.cons_append, run, run, ih, List.append_assoc]

/-! ### Being inside a literal -/

/-- Whether the lexer stands inside a literal. -/
def Mode.inside : Mode → Bool
  | .literal => true
  | .between | .word _ | .closing => false

theorem begin_inside (kind : Char → Kind) (c : Char) :
    (begin kind c).1.inside = (c == quote) := by
  unfold begin
  by_cases hquote : c = quote
  · rw [if_pos hquote, hquote]
    rfl
  · rw [if_neg hquote, beq_false_of_ne hquote]
    split <;> rfl

/-- A quote leads into a literal or out of it, any other character does not. -/
theorem step_inside (m : Mode) (c : Char) :
    (step kind m c).1.inside = (m.inside ^^ (c == quote)) := by
  have hbegin := begin_inside kind c
  cases m with
  | between => rw [step, hbegin, Mode.inside, Bool.false_xor]
  | word letters =>
    rw [step, Mode.inside, Bool.false_xor]
    split_ifs with hword
    · exact (beq_false_of_ne hword.1).symm
    · exact hbegin
  | literal => by_cases hquote : c = quote <;> simp [step, hquote, Mode.inside]
  | closing =>
    rw [step, Mode.inside, Bool.false_xor]
    split_ifs with hquote
    · rw [hquote]
      rfl
    · exact hbegin

/-- Whether a text ends inside a literal depends on the number of its quotes. -/
theorem run_inside (m : Mode) (cs : List Char) :
    (run kind m cs).1.inside = (m.inside ^^ oddQuotes cs) := by
  induction cs generalizing m with
  | nil => simp [run, oddQuotes]
  | cons c cs ih => rw [run, ih, step_inside, oddQuotes, Bool.xor_assoc]

theorem eq_literal_of_inside (h : m.inside = true) : m = .literal := by
  cases m with
  | literal => rfl
  | between | word _ | closing => cases h

/-! ### Staying inside a literal -/

/-- The lexer comes back to the inside of the literal, without a token, exactly
when every quote is doubled; `pending` stands for a quote just read. -/
theorem run_eq_literal_iff (kind : Char → Kind) (cs : List Char) :
    (run kind .literal cs = (.literal, []) ↔ doubledFrom false cs = true) ∧
      (run kind .closing cs = (.literal, []) ↔ doubledFrom true cs = true) := by
  -- a quote leads from one statement to the other, any other character
  -- stays inside the literal or, behind a quote, ends it with a token
  induction cs with
  | nil => simp [run, doubledFrom]
  | cons c cs ih =>
    rw [Prod.ext_iff, Prod.ext_iff] at ih ⊢
    by_cases hquote : c = quote
    · exact ⟨by simpa [run, step, doubledFrom, hquote] using ih.2,
        by simpa [run, step, doubledFrom, hquote] using ih.1⟩
    · exact ⟨by simpa [run, step, doubledFrom, beq_false_of_ne hquote, hquote] using ih.1,
        by simp [run, step, doubledFrom, hquote]⟩

theorem oddQuotes_eq_of_doubledFrom {pending : Bool} (h : doubledFrom pending cs = true) :
    oddQuotes cs = pending := by
  induction cs generalizing pending with
  | nil => cases pending <;> simp_all [doubledFrom, oddQuotes]
  | cons c cs ih =>
    cases pending with
    | false => rw [oddQuotes, ih h, Bool.xor_self]
    | true =>
      rw [doubledFrom, Bool.and_eq_true] at h
      rw [oddQuotes, ih h.2, h.1, Bool.xor_false]

/-- What follows a text with doubled quotes starts afresh. -/
theorem doubledFrom_append {pending : Bool} (h : doubledFrom pending cs = true)
    (ds : List Char) : doubledFrom pending (cs ++ ds) = doubledFrom false ds := by
  induction cs generalizing pending with
  | nil => cases pending <;> simp_all [doubledFrom]
  | cons c cs ih =>
    cases pending with
    | false => exact ih h
    | true =>
      rw [doubledFrom, Bool.and_eq_true] at h
      rw [List.cons_append, doubledFrom, h.1, Bool.true_and, ih h.2]

/-- A text in front of another character than a quote has its own quotes doubled. -/
theorem doubledFrom_of_append_cons {pending : Bool} {c : Char} {ds : List Char}
    (hquote : c ≠ quote) (h : doubledFrom pending (cs ++ c :: ds) = true) :
    doubledFrom pending cs = true := by
  induction cs generalizing pending with
  | nil => cases pending <;> simp_all [doubledFrom]
  | cons d cs ih =>
    cases pending with
    | false => exact ih h
    | true =>
      rw [List.cons_append, doubledFrom, Bool.and_eq_true] at h
      rw [doubledFrom, h.1, ih h.2]
      rfl

theorem doubledFrom_of_notMem (h : quote ∉ cs) : doubledFrom false cs = true := by
  induction cs with
  | nil => rfl
  | cons c cs ih =>
    rw [List.mem_cons, not_or] at h
    rw [doubledFrom, beq_false_of_ne (Ne.symm h.1), ih h.2]

theorem Doubled.append {a b : String} (ha : Doubled a) (hb : Doubled b) : Doubled (a ++ b) := by
  rw [Doubled, String.toList_append, doubledFrom_append ha]
  exact hb

theorem doubled_of_notMem {a : String} (h : quote ∉ a.toList) : Doubled a :=
  doubledFrom_of_notMem h

theorem doubled_empty : Doubled "" := doubled_of_notMem List.not_mem_nil

/-! ### Literals that never end -/

theorem openLiteral_notMem_begin (kind : Char → Kind) (c : Char) :
    Token.openLiteral ∉ (begin kind c).2 := by
  unfold begin
  split_ifs
  · exact List.not_mem_nil
  · split <;> simp

theorem openLiteral_notMem_step (m : Mode) (c : Char) :
    Token.openLiteral ∉ (step kind m c).2 := by
  have hbegin := openLiteral_notMem_begin kind c
  cases m with
  | between => exact hbegin
  | word letters =>
    rw [step]
    split_ifs
    · exact List.not_mem_nil
    · simpa using hbegin
  | literal =>
    rw [step]
    split_ifs <;> exact List.not_mem_nil
  | closing =>
    rw [step]
    split_ifs
    · exact List.not_mem_nil
    · simpa using hbegin

theorem openLiteral_notMem_run (m : Mode) (cs : List Char) :
    Token.openLiteral ∉ (run kind m cs).2 := by
  induction cs generalizing m with
  | nil => exact List.not_mem_nil
  | cons c cs ih =>
    rw [run, List.mem_append, not_or]
    exact ⟨openLiteral_notMem_step m c, ih _⟩

/-- A text ends inside a literal exactly when it has an odd number of quotes, and
its tokens show it. -/
theorem openLiteral_mem_shape_iff (kind : Char → Kind) (text : List Char) :
    Token.openLiteral ∈ shape kind text ↔ oddQuotes text = true := by
  have hinside : (run kind .between text).1.inside = oddQuotes text := by
    rw [run_inside, Mode.inside, Bool.false_xor]
  rw [shape, List.mem_append, or_iff_right (openLiteral_notMem_run _ _)]
  rw [← hinside]
  cases (run kind .between text).1 <;> simp [finish, Mode.inside]

/-- A text inside a literal leaves the tokens alone only if its quotes are
doubled. -/
theorem doubledFrom_of_shape_eq {before text after : List Char}
    (hbefore : oddQuotes before = true) (hafter : oddQuotes after = true)
    (h : shape kind (before ++ (text ++ after)) = shape kind (before ++ after)) :
    doubledFrom false text = true := by
  -- an odd number of quotes would leave the last literal open
  have heven : oddQuotes text = false := by
    have hopen := openLiteral_mem_shape_iff kind (before ++ (text ++ after))
    rw [h, openLiteral_mem_shape_iff] at hopen
    simp only [oddQuotes_append, hbefore, hafter] at hopen
    cases hodd : oddQuotes text with
    | false => rfl
    | true => simp [hodd] at hopen
  have hmode : (run kind .between before).1 = .literal := by
    apply eq_literal_of_inside
    rw [run_inside, hbefore]
    rfl
  have htext : (run kind .literal text).1 = .literal := by
    apply eq_literal_of_inside
    rw [run_inside, heven]
    rfl
  -- so the same follows the text as without it, and it has no tokens of its own
  have htokens : (run kind .literal text).2 = [] := by
    simp only [shape, run_append, hmode, htext, List.append_assoc, List.append_cancel_left_eq]
      at h
    exact List.self_eq_append_left.mp h.symm
  exact (run_eq_literal_iff kind text).1.mp (Prod.ext htext htokens)

/-! ### Statements in pieces -/

/-- A piece of a statement. -/
inductive Piece
  | fixed (value : String)
  /-- A text from outside. -/
  | text (value : String)
  deriving DecidableEq, Repr

/-- A statement, in the order in which it is put together. -/
abbrev Statement := List Piece

namespace Statement

/-- The characters of a piece. -/
def pieceChars : Piece → List Char
  | .fixed value => value.toList
  | .text value => value.toList

/-- The characters of a statement. -/
def render (s : Statement) : List Char := s.flatMap pieceChars

/-- The text of a piece, if it comes from outside. -/
def pieceText : Piece → Option String
  | .fixed _ => none
  | .text value => some value

/-- The texts from outside. -/
def texts (s : Statement) : List String := s.filterMap pieceText

/-- A piece with an empty text. -/
def blankPiece : Piece → Piece
  | .fixed value => .fixed value
  | .text _ => .text ""

/-- The statement with empty texts. -/
def blank (s : Statement) : Statement := s.map blankPiece

/-- Every text stands inside a literal and no literal is left open, if the texts
themselves do not lead out of theirs. -/
def EnclosedFrom : Bool → Statement → Prop
  | inside, [] => inside = false
  | inside, .fixed value :: rest => EnclosedFrom (inside ^^ oddQuotes value.toList) rest
  | inside, .text _ :: rest => inside = true ∧ EnclosedFrom true rest

/-- Every text of the statement stands inside a literal. -/
def Enclosed (s : Statement) : Prop := EnclosedFrom false s

/-- A piece that does not lead out of the literal it stands in, if its text does
not. -/
def Balanced : Piece → Prop
  | .fixed value => oddQuotes value.toList = false
  | .text _ => True

variable {s before after : Statement} {inside : Bool}

theorem texts_append (before after : Statement) :
    texts (before ++ after) = texts before ++ texts after :=
  List.filterMap_append

theorem texts_flatMap {α : Type*} (f : α → Statement) (l : List α) :
    texts (l.flatMap f) = l.flatMap fun a => texts (f a) :=
  List.filterMap_flatMap

theorem blank_eq_self (h : texts s = []) : blank s = s := by
  refine (List.map_congr_left fun piece hpiece => ?_).trans (List.map_id s)
  cases piece with
  | fixed value => rfl
  | text value => cases List.filterMap_eq_nil_iff.mp h _ hpiece

theorem EnclosedFrom.append (hbefore : EnclosedFrom inside before) (hafter : Enclosed after) :
    EnclosedFrom inside (before ++ after) := by
  induction before generalizing inside with
  | nil =>
    obtain rfl : inside = false := hbefore
    exact hafter
  | cons piece before ih =>
    cases piece with
    | fixed value => exact ih hbefore
    | text value => exact ⟨hbefore.1, ih hbefore.2⟩

theorem Enclosed.append (hbefore : Enclosed before) (hafter : Enclosed after) :
    Enclosed (before ++ after) :=
  EnclosedFrom.append hbefore hafter

/-- Balanced pieces inside a literal stay there. -/
theorem enclosedFrom_append_balanced (hbefore : ∀ piece ∈ before, Balanced piece)
    (hafter : EnclosedFrom true after) : EnclosedFrom true (before ++ after) := by
  induction before with
  | nil => exact hafter
  | cons piece before ih =>
    have hrest := ih fun p hp => hbefore p (List.mem_cons_of_mem _ hp)
    have hpiece := hbefore piece List.mem_cons_self
    cases piece with
    | fixed value =>
      rw [List.cons_append, EnclosedFrom, show oddQuotes value.toList = false from hpiece]
      exact hrest
    | text value => exact ⟨rfl, hrest⟩

/-- Balanced pieces between the start of a literal and its end. -/
theorem enclosed_literal (pieces : Statement) (hpieces : ∀ piece ∈ pieces, Balanced piece)
    {opening closing : String} (hopening : oddQuotes opening.toList = true)
    (hclosing : oddQuotes closing.toList = true) :
    Enclosed (.fixed opening :: (pieces ++ [.fixed closing])) := by
  rw [Enclosed, EnclosedFrom, hopening, Bool.false_xor]
  refine enclosedFrom_append_balanced hpieces ?_
  rw [EnclosedFrom, hclosing, Bool.xor_self]
  rfl

/-- A fixed piece outside of literals. -/
theorem Enclosed.fixed {value : String} (hvalue : oddQuotes value.toList = false)
    (h : Enclosed s) : Enclosed (.fixed value :: s) := by
  rw [Enclosed, EnclosedFrom, hvalue, Bool.false_xor]
  exact h

/-- Texts with doubled quotes leave the lexer where it is. -/
theorem run_render_blank (h : EnclosedFrom m.inside s) (hdoubled : ∀ t ∈ texts s, Doubled t) :
    run kind m (render s) = run kind m (render (blank s)) := by
  induction s generalizing m with
  | nil => rfl
  | cons piece s ih =>
    cases piece with
    | fixed value =>
      -- the same characters lead to the same mode
      have hrest : run kind (run kind m value.toList).1 (render s) =
          run kind (run kind m value.toList).1 (render (blank s)) := by
        refine ih ?_ hdoubled
        rw [run_inside]
        exact h
      simp only [render, blank, List.map_cons, blankPiece, List.flatMap_cons, pieceChars,
        run_append] at hrest ⊢
      rw [hrest]
    | text value =>
      -- the text starts inside a literal and leaves the lexer there
      obtain ⟨hinside, hrest⟩ := h
      obtain rfl := eq_literal_of_inside hinside
      have hvalue : Doubled value := hdoubled value List.mem_cons_self
      have hrun := (run_eq_literal_iff kind value.toList).1.mpr hvalue
      have hrest : run kind .literal (render s) = run kind .literal (render (blank s)) :=
        ih hrest fun t ht => hdoubled t (List.mem_cons_of_mem _ ht)
      simp only [render, blank, List.map_cons, blankPiece, List.flatMap_cons, pieceChars,
        run_append, hrun] at hrest ⊢
      rw [hrest]
      rfl

/-- Texts with doubled quotes leave the tokens alone. -/
theorem shape_blank (h : Enclosed s) (hdoubled : ∀ t ∈ texts s, Doubled t) :
    shape kind (render s) = shape kind (render (blank s)) := by
  rw [shape, shape, run_render_blank (m := .between) h hdoubled]

/-- Texts with doubled quotes do not change which pieces stand inside a literal. -/
theorem enclosedFrom_append (h : EnclosedFrom inside (before ++ after))
    (hdoubled : ∀ t ∈ texts before, Doubled t) :
    EnclosedFrom (inside ^^ oddQuotes (render before)) after := by
  induction before generalizing inside with
  | nil => simpa [render, oddQuotes] using h
  | cons piece before ih =>
    cases piece with
    | fixed value =>
      have hrest := ih h hdoubled
      rwa [Bool.xor_assoc, ← oddQuotes_append] at hrest
    | text value =>
      obtain ⟨rfl, h⟩ := h
      have hvalue : Doubled value := hdoubled value List.mem_cons_self
      have hrest := ih h fun t ht => hdoubled t (List.mem_cons_of_mem _ ht)
      rwa [render, List.flatMap_cons, oddQuotes_append, pieceChars,
        oddQuotes_eq_of_doubledFrom hvalue, Bool.false_xor]

/-- Which pieces stand inside a literal does not depend on the texts. -/
theorem enclosedFrom_blank : EnclosedFrom inside (blank s) ↔ EnclosedFrom inside s := by
  induction s generalizing inside with
  | nil => rfl
  | cons piece s ih =>
    cases piece with
    | fixed value => exact ih
    | text value => exact and_congr_right fun _ => ih

/-- The pieces before the first text, and those behind it. -/
theorem exists_eq_append_of_texts_eq_cons {t : String} {us : List String}
    (h : texts s = t :: us) :
    ∃ before after, s = before ++ .text t :: after ∧ texts before = [] ∧ texts after = us := by
  obtain ⟨before, piece, after, hs, hnone, hpiece, hafter⟩ := List.filterMap_eq_cons_iff.mp h
  cases piece with
  | fixed value => cases hpiece
  | text value =>
    obtain rfl := Option.some.inj hpiece
    exact ⟨before, after, hs, List.filterMap_eq_nil_iff.mpr hnone, hafter⟩

/-- If a statement has the tokens it has with empty texts, and all texts but the
first have doubled quotes, then the first has doubled quotes too. -/
theorem doubled_of_shape_eq {t : String} {us : List String} (h : Enclosed s)
    (htexts : texts s = t :: us) (hus : ∀ u ∈ us, Doubled u)
    (hshape : shape kind (render s) = shape kind (render (blank s))) : Doubled t := by
  obtain ⟨before, after, rfl, hbefore, rfl⟩ := exists_eq_append_of_texts_eq_cons htexts
  have hbefore : ∀ u ∈ texts before, Doubled u := by simp [hbefore]
  obtain ⟨hinto, hrest⟩ := enclosedFrom_append h hbefore
  have hout : EnclosedFrom (true ^^ oddQuotes (render after)) [] :=
    enclosedFrom_append (by rwa [List.append_nil]) hus
  rw [Bool.false_xor] at hinto
  have hleads : oddQuotes (render after) = true := by simpa [EnclosedFrom] using hout
  -- the statement with only the first text emptied has those tokens too
  have hblank : blank (before ++ .text "" :: after) = blank (before ++ .text t :: after) := by
    simp [blank, blankPiece]
  have henclosed : Enclosed (before ++ .text "" :: after) := by
    rw [Enclosed, ← enclosedFrom_blank, hblank, enclosedFrom_blank]
    exact h
  have hothers : ∀ u ∈ texts (before ++ .text "" :: after), Doubled u := by
    intro u hu
    rw [texts, List.filterMap_append, List.mem_append] at hu
    rcases hu with hu | hu
    · exact hbefore u hu
    · rcases List.mem_cons.mp hu with rfl | hu
      · exact doubled_empty
      · exact hus u hu
  have hempty : shape kind (render (before ++ .text "" :: after)) = _ :=
    shape_blank henclosed hothers
  rw [hblank, ← hshape] at hempty
  simp only [render, List.flatMap_append, List.flatMap_cons, pieceChars] at hempty
  exact doubledFrom_of_shape_eq hinto hleads hempty.symm

end Statement

end Lib.QuotedText

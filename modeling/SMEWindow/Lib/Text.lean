import Mathlib.Algebra.Ring.Int.Defs
import Mathlib.Algebra.Ring.Nat
import Mathlib.Data.List.Infix
import Mathlib.Data.List.TakeWhile
import Mathlib.Tactic.Common

/-!
# Text and the values it stands for

The operations of a managed runtime on strings: searching and splitting, and the
texts of integers, Booleans and version numbers. Parsing is as lenient as the
runtime's (blanks around a number, any case of a truth value) and fails with the
runtime's exceptions; printing followed by parsing gives the value back.

## Main definitions

* `Lib.Text.RuntimeException` — the exceptions that reading a value can end in
* `Lib.Text.contains`, `Lib.Text.split` — searching and splitting
* `Lib.Text.parseInt`, `Lib.Text.parseBool`, `Lib.Text.Version.parse` — reading
* `Lib.Text.intToString`, `Lib.Text.boolToString`, `Lib.Text.Version.toText` —
  printing

## Main results

* `parseInt_intToString`, `parseBool_boolToString`, `Version.parse_toText` — what
  was printed reads back
-/

set_option autoImplicit false

namespace Lib.Text

/-- The exceptions that reading a text or an element tree can end in. -/
inductive RuntimeException
  | format
  | overflow
  | argument
  | nullReference
  | invalidCast
  /-- Too many calls on the stack, which no caller can handle. -/
  | stackOverflow
  /-- An exception raised by the program itself, with its message. -/
  | raised (message : String)
  deriving DecidableEq, Repr

@[simp] theorem ok_bind {ε α β : Type} (a : α) (f : α → Except ε β) :
    (Except.ok a >>= f) = f a := rfl

/-- A computation in steps succeeds when each of its steps does. -/
theorem bind_eq_ok_iff {ε α β : Type} {x : Except ε α} {f : α → Except ε β} {b : β} :
    (x >>= f) = .ok b ↔ ∃ a, x = .ok a ∧ f a = .ok b := by
  cases x with
  | error e => exact ⟨fun h => (by cases h), fun ⟨_, h, _⟩ => (by cases h)⟩
  | ok a => simp

theorem map_eq_ok_iff {ε α β : Type} {x : Except ε α} {f : α → β} {b : β} :
    x.map f = .ok b ↔ ∃ a, x = .ok a ∧ f a = b := by
  cases x with
  | error e => exact ⟨fun h => (by cases h), fun ⟨_, h, _⟩ => (by cases h)⟩
  | ok a => simp [Except.map]

/-- Reading back a list that was written element by element. -/
theorem mapM_map_eq_ok {ε α β γ : Type*} {write : α → β} {read : β → Except ε γ} {back : α → γ}
    (h : ∀ a, read (write a) = .ok (back a)) (l : List α) :
    (l.map write).mapM read = .ok (l.map back) := by
  induction l with
  | nil => rfl
  | cons a l ih =>
    rw [List.map_cons, List.mapM_cons, h, ih]
    rfl

/-! ### Searching and splitting -/

/-- Whether `pattern` occurs in `text`, compared character by character. -/
def contains (text pattern : String) : Bool := decide (pattern.toList <:+: text.toList)

/-- Split at every separator: `skip` characters of one are still to be passed
over, and `piece` holds the characters of the current piece in reverse. -/
def splitFrom (separators : List (List Char)) :
    ℕ → List Char → List Char → List (List Char)
  | _, piece, [] => [piece.reverse]
  | skip + 1, piece, _ :: rest => splitFrom separators skip piece rest
  | 0, piece, c :: rest =>
    match separators.find? fun separator => separator.isPrefixOf (c :: rest) with
    | some separator => piece.reverse :: splitFrom separators (separator.length - 1) [] rest
    | none => splitFrom separators 0 (c :: piece) rest

/-- The pieces between the separators, empty ones included. Where several
separators begin at one character, the first in the list counts; the empty
separator is none. -/
def split (separators : List String) (text : String) : List String :=
  (splitFrom ((separators.map String.toList).filter (· ≠ [])) 0 [] text.toList).map String.ofList

/-! ### Integers -/

/-- The blanks that may surround a number. -/
def isBlank (c : Char) : Bool := c = ' ' || (9 ≤ c.toNat && c.toNat ≤ 13)

/-- Drop the characters with a property at both ends. -/
def trim (drop : Char → Bool) (text : List Char) : List Char :=
  ((text.dropWhile drop).reverse.dropWhile drop).reverse

/-- The decimal digits of a number, with a sign in front of a negative one. -/
def intToString (n : Int32) : String :=
  if n.toInt < 0 then "-" ++ (-n.toInt).toNat.repr else n.toInt.toNat.repr

/-- An optional sign and the characters behind it. -/
def takeSign : List Char → Bool × List Char
  | '-' :: rest => (true, rest)
  | '+' :: rest => (false, rest)
  | rest => (false, rest)

/-- The text without the null characters at its end. -/
def dropNulls (text : List Char) : List Char :=
  (text.reverse.dropWhile fun c => c.toNat = 0).reverse

/-- A 32-bit integer: blanks, an optional sign, digits, blanks, null characters. -/
def parseInt (text : String) : Except RuntimeException Int32 :=
  let (negative, digits) := takeSign (trim isBlank (dropNulls text.toList))
  if digits = [] ∨ digits.all Char.isDigit = false then .error .format
  else
    -- leading zeros are allowed, and `-0` is zero
    let magnitude : Int := Nat.ofDigitChars 10 digits 0
    let value := if negative then -magnitude else magnitude
    if -2 ^ 31 ≤ value ∧ value < 2 ^ 31 then .ok (Int32.ofInt value) else .error .overflow

theorem dropWhile_eq_self {drop : Char → Bool} {text : List Char}
    (h : ∀ c ∈ text, drop c = false) : text.dropWhile drop = text := by
  cases text with
  | nil => rfl
  | cons c text => rw [List.dropWhile_cons_of_neg (by simp [h c List.mem_cons_self])]

/-- Trimming takes away what is dropped behind a text that keeps everything. -/
theorem trim_append {drop : Char → Bool} {text dropped : List Char}
    (h : ∀ c ∈ text, drop c = false) (hdropped : ∀ c ∈ dropped, drop c = true) :
    trim drop (text ++ dropped) = text := by
  have hfront : (text ++ dropped).dropWhile drop = text ++ (if text = [] then [] else dropped) := by
    cases text with
    | nil => exact List.dropWhile_eq_nil_iff.mpr hdropped
    | cons c text =>
      rw [List.cons_append, List.dropWhile_cons_of_neg (by simp [h c List.mem_cons_self]),
        if_neg (List.cons_ne_nil c text), List.cons_append]
  rw [trim, hfront, List.reverse_append, List.dropWhile_append_of_pos,
    dropWhile_eq_self (by simpa using h), List.reverse_reverse]
  intro c hc
  split_ifs at hc
  · exact absurd hc (by simp)
  · exact hdropped c (List.mem_reverse.mp hc)

theorem trim_eq_self {drop : Char → Bool} {text : List Char}
    (h : ∀ c ∈ text, drop c = false) : trim drop text = text := by
  have hnothing : ∀ c ∈ ([] : List Char), drop c = true := fun c hc => absurd hc (by simp)
  simpa using trim_append h hnothing

theorem dropNulls_eq_self {text : List Char} (h : ∀ c ∈ text, c.toNat ≠ 0) :
    dropNulls text = text := by
  rw [dropNulls, dropWhile_eq_self (by simpa using h), List.reverse_reverse]

theorem not_isBlank_of_isDigit {c : Char} (h : c.isDigit = true) : isBlank c = false := by
  have hrange : 48 ≤ c.toNat := (Char.isDigit_iff_toNat.mp h).1
  have hne : c ≠ ' ' := by
    rintro rfl
    exact absurd h (by decide)
  simp only [isBlank, hne, decide_false, Bool.false_or, Bool.and_eq_false_iff,
    decide_eq_false_iff_not]
  omega

theorem takeSign_toDigits (n : ℕ) : takeSign (Nat.toDigits 10 n) = (false, Nat.toDigits 10 n) := by
  cases hdigits : Nat.toDigits 10 n with
  | nil => exact absurd hdigits Nat.toDigits_ne_nil
  | cons c rest =>
    have hdigit : c.isDigit = true :=
      Nat.isDigit_of_mem_toDigits (by decide) (by decide) (hdigits ▸ List.mem_cons_self)
    -- a digit is not a sign
    unfold takeSign
    split
    · next heq =>
      obtain ⟨rfl, -⟩ := List.cons.inj heq
      exact absurd hdigit (by decide)
    · next heq =>
      obtain ⟨rfl, -⟩ := List.cons.inj heq
      exact absurd hdigit (by decide)
    · rfl

theorem toNat_ne_zero_of_isDigit {c : Char} (h : c.isDigit = true) : c.toNat ≠ 0 := by
  have hrange : 48 ≤ c.toNat := (Char.isDigit_iff_toNat.mp h).1
  omega

theorem parseInt_eq_ok {text : String} {n : Int32} (negative : Bool) (magnitude : ℕ)
    (hsign : takeSign (trim isBlank (dropNulls text.toList)) =
      (negative, Nat.toDigits 10 magnitude))
    (hvalue : n.toInt = if negative then -(magnitude : Int) else magnitude) :
    parseInt text = .ok n := by
  have hdigits : ¬ (Nat.toDigits 10 magnitude = [] ∨
      (Nat.toDigits 10 magnitude).all Char.isDigit = false) := by
    rintro (hnil | hall)
    · exact Nat.toDigits_ne_nil hnil
    · rw [List.all_eq_false] at hall
      obtain ⟨c, hc, hnot⟩ := hall
      exact hnot (Nat.isDigit_of_mem_toDigits (by decide) (by decide) hc)
  have hrange : -2 ^ 31 ≤ n.toInt ∧ n.toInt < 2 ^ 31 := ⟨n.le_toInt, n.toInt_lt⟩
  simp only [parseInt, hsign, if_neg hdigits, Nat.ofDigitChars_ten_toDigits, ← hvalue,
    if_pos hrange, Int32.ofInt_toInt]

/-- A printed integer is made of digits, with a sign at most. -/
theorem isDigit_or_eq_of_mem_intToString {n : Int32} {c : Char}
    (h : c ∈ (intToString n).toList) : c.isDigit = true ∨ c = '-' := by
  have hdigit : ∀ {m : ℕ}, c ∈ m.repr.toList → c.isDigit = true := by
    intro m hm
    rw [Nat.toList_repr] at hm
    exact Nat.isDigit_of_mem_toDigits (by decide) (by decide) hm
  unfold intToString at h
  split_ifs at h with hneg
  · rw [String.toList_append] at h
    rcases List.mem_append.mp h with h | h
    · exact .inr (List.mem_singleton.mp h)
    · exact .inl (hdigit h)
  · exact .inl (hdigit h)

theorem takeSign_intToString (n : Int32) : takeSign (intToString n).toList =
    (decide (n.toInt < 0), Nat.toDigits 10 n.toInt.natAbs) := by
  unfold intToString
  by_cases hneg : n.toInt < 0
  · have habs : (-n.toInt).toNat = n.toInt.natAbs := by omega
    rw [if_pos hneg, String.toList_append, Nat.toList_repr, habs, decide_eq_true hneg]
    rfl
  · have habs : n.toInt.toNat = n.toInt.natAbs := by omega
    rw [if_neg hneg, Nat.toList_repr, habs, takeSign_toDigits, decide_eq_false hneg]

/-- A printed integer reads back, also with blanks behind it. -/
theorem parseInt_intToString_append (n : Int32) {blanks : String}
    (hblanks : ∀ c ∈ blanks.toList, isBlank c = true) :
    parseInt (intToString n ++ blanks) = .ok n := by
  have hkept : ∀ c ∈ (intToString n).toList, isBlank c = false := by
    intro c hc
    rcases isDigit_or_eq_of_mem_intToString hc with hdigit | rfl
    · exact not_isBlank_of_isDigit hdigit
    · decide
  have hnulls : ∀ c ∈ (intToString n ++ blanks).toList, c.toNat ≠ 0 := by
    intro c hc hzero
    rw [String.toList_append] at hc
    rcases List.mem_append.mp hc with hc | hc
    · rcases isDigit_or_eq_of_mem_intToString hc with hdigit | rfl
      · exact toNat_ne_zero_of_isDigit hdigit hzero
      · exact absurd hzero (by decide)
    · have hblank := hblanks c hc
      rw [isBlank, hzero] at hblank
      have hne : c ≠ ' ' := by
        rintro rfl
        exact absurd hzero (by decide)
      simp [hne] at hblank
  refine parseInt_eq_ok (decide (n.toInt < 0)) n.toInt.natAbs ?_ ?_
  · rw [dropNulls_eq_self hnulls, String.toList_append, trim_append hkept hblanks,
      takeSign_intToString]
  · simp only [decide_eq_true_eq]
    split_ifs <;> omega

/-- A printed integer reads back. -/
theorem parseInt_intToString (n : Int32) : parseInt (intToString n) = .ok n := by
  have hnothing : ∀ c ∈ "".toList, isBlank c = true := fun c hc => absurd hc (by simp)
  simpa using parseInt_intToString_append n hnothing

theorem intToString_inj {m n : Int32} : intToString m = intToString n ↔ m = n := by
  refine ⟨fun h => ?_, congrArg intToString⟩
  have hparsed := parseInt_intToString m
  rw [h, parseInt_intToString] at hparsed
  exact (Except.ok.inj hparsed).symm

/-! ### Booleans -/

/-- What may surround a truth value: white space and null characters. -/
def isWhiteSpaceOrNull (c : Char) : Bool :=
  isBlank c || c.toNat ∈ [0, 0x85, 0xA0, 0x1680, 0x2028, 0x2029, 0x202F, 0x205F, 0x3000] ||
    (0x2000 ≤ c.toNat && c.toNat ≤ 0x200A)

/-- `Char.IsWhiteSpace`. -/
def isWhiteSpace (c : Char) : Bool := c.toNat ≠ 0 && isWhiteSpaceOrNull c

/-- `Trim`: no white space at either end. -/
def trimWhiteSpace (text : String) : String := String.ofList (trim isWhiteSpace text.toList)

/-- The text of a truth value. -/
def boolToString (b : Bool) : String := if b then "True" else "False"

/-- A truth value in any case, with blanks around it. -/
def parseBool (text : String) : Except RuntimeException Bool :=
  let word := (trim isWhiteSpaceOrNull text.toList).map Char.toLower
  if word = "true".toList then .ok true
  else if word = "false".toList then .ok false
  else .error .format

/-- A printed truth value reads back. -/
theorem parseBool_boolToString (b : Bool) : parseBool (boolToString b) = .ok b := by
  cases b <;> decide

/-! ### Version numbers -/

/-- A version number: two to four components. -/
structure Version where
  components : List { n : ℕ // n < 2 ^ 31 }
  two_le_length : 2 ≤ components.length
  length_le_four : components.length ≤ 4
  deriving DecidableEq

namespace Version

/-- The components, separated by dots. -/
def toText (v : Version) : String :=
  String.ofList (['.'].intercalate (v.components.map fun n => Nat.toDigits 10 n.val))

/-- One component, which must not be negative. -/
def parseComponent (text : List Char) : Except RuntimeException { n : ℕ // n < 2 ^ 31 } :=
  (parseInt (String.ofList text)).bind fun n =>
    if n.toInt < 0 then .error .argument
    else .ok ⟨n.toInt.toNat, by have := n.toInt_lt; omega⟩

/-- `new Version(text)`. -/
def parse (text : String) : Except RuntimeException Version :=
  let pieces := text.toList.splitOn '.'
  if pieces.length < 2 ∨ 4 < pieces.length then .error .argument
  else (pieces.mapM parseComponent).bind fun components =>
    if h : 2 ≤ components.length ∧ components.length ≤ 4 then .ok ⟨components, h.1, h.2⟩
    else .error .argument

theorem parseComponent_toDigits (n : { n : ℕ // n < 2 ^ 31 }) :
    parseComponent (Nat.toDigits 10 n.val) = .ok n := by
  have hvalue : (Int32.ofNat n.val).toInt = n.val := Int32.toInt_ofNat_of_lt n.property
  have hparse : parseInt (String.ofList (Nat.toDigits 10 n.val)) = .ok (Int32.ofNat n.val) := by
    refine parseInt_eq_ok false n.val ?_ hvalue
    have hdigit : ∀ c ∈ Nat.toDigits 10 n.val, c.isDigit = true := fun c hc =>
      Nat.isDigit_of_mem_toDigits (by decide) (by decide) hc
    rw [String.toList_ofList, dropNulls_eq_self fun c hc => toNat_ne_zero_of_isDigit (hdigit c hc),
      trim_eq_self fun c hc => not_isBlank_of_isDigit (hdigit c hc), takeSign_toDigits]
  have hnonneg : ¬ (Int32.ofNat n.val).toInt < 0 := by omega
  rw [parseComponent, hparse, Except.bind, if_neg hnonneg, Except.ok.injEq, Subtype.ext_iff]
  exact congrArg Int.toNat hvalue

theorem dot_notMem_toDigits (n : ℕ) : '.' ∉ Nat.toDigits 10 n := fun hdot =>
  absurd (Nat.isDigit_of_mem_toDigits (by decide) (by decide) hdot) (by decide)

/-- A printed version number reads back. -/
theorem parse_toText (v : Version) : parse v.toText = .ok v := by
  have hpieces : v.toText.toList.splitOn '.' =
      v.components.map fun n => Nat.toDigits 10 n.val := by
    rw [toText, String.toList_ofList, List.splitOn_intercalate]
    · intro piece hpiece
      obtain ⟨n, -, rfl⟩ := List.mem_map.mp hpiece
      exact dot_notMem_toDigits n.val
    · have hlength := v.two_le_length
      intro hnil
      rw [List.map_eq_nil_iff.mp hnil] at hlength
      exact absurd hlength (by decide)
  have hlower := v.two_le_length
  have hupper := v.length_le_four
  have hcount : ¬ (v.components.length < 2 ∨ 4 < v.components.length) := by omega
  rw [parse, hpieces, List.length_map, if_neg hcount, mapM_map_eq_ok parseComponent_toDigits,
    List.map_id', Except.bind, dif_pos ⟨hlower, hupper⟩]

theorem toText_inj {version version' : Version} (h : version.toText = version'.toText) :
    version = version' := by
  have hparse := parse_toText version
  rw [h, parse_toText, Except.ok.injEq] at hparse
  exact hparse.symm

/-- A version is printed in digits and dots. -/
theorem isDigit_or_eq_of_mem_toText {version : Version} {c : Char}
    (h : c ∈ version.toText.toList) : c.isDigit = true ∨ c = '.' := by
  rw [toText, String.toList_ofList] at h
  generalize version.components = components at h
  induction components with
  | nil => exact absurd h (by simp)
  | cons n components ih =>
    have hdigit : c ∈ Nat.toDigits 10 n.val → c.isDigit = true :=
      Nat.isDigit_of_mem_toDigits (by decide) (by decide)
    cases components with
    | nil => exact .inl (hdigit (by simpa using h))
    | cons m components =>
      rw [List.map_cons, List.map_cons, List.intercalate_cons_cons] at h
      rcases List.mem_append.mp h with h | h
      · rcases List.mem_append.mp h with h | h
        · exact .inl (hdigit h)
        · exact .inr (List.mem_singleton.mp h)
      · exact ih h

end Version

end Lib.Text

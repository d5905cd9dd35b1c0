import Mathlib.Data.List.Basic
import Mathlib.Data.Nat.Basic
import Mathlib.Tactic.Common

/-!
# UTF-8 with replacement of ill-formed input

A lenient decoder never fails: it turns every well-formed sequence into its
character and every ill-formed stretch into a replacement character. How long
such a stretch is differs between implementations and versions, so it is a
parameter; all agree that a stretch never runs over a byte that may start a
character.

## Main definitions

* `Lib.Utf8.Replacement` — how many bytes one replacement character stands for
* `Lib.Utf8.getBytes`, `Lib.Utf8.getString` — encoding and lenient decoding

## Main results

* `getString_getBytes` — decoding inverts encoding
* `getString_ne_of_append` — bytes in front of a text are never lost
* `mem_getString_iff` — a character of seven bits is read exactly if its byte is there
-/

set_option autoImplicit false

namespace Lib.Utf8

/-- What a decoder skips after the first byte of an ill-formed stretch. -/
structure Replacement where
  /-- The number of further bytes swallowed, given what follows. -/
  skip : UInt8 → List UInt8 → ℕ
  /-- None of them may start a character. -/
  not_first : ∀ (b : UInt8) (rest : List UInt8),
    ∀ c ∈ rest.take (skip b rest), ¬ c.IsUTF8FirstByte

/-- One replacement character for every byte that cannot be decoded. -/
def Replacement.perByte : Replacement where
  skip _ _ := 0
  not_first := by simp

/-- The replacement character U+FFFD. -/
def replacementChar : Char := '\uFFFD'

/-- The UTF-8 encoding of a text. -/
def getBytes (text : String) : List UInt8 := text.toList.flatMap String.utf8EncodeChar

/-- The character whose encoding the bytes begin with, if there is one. -/
def decodeFirst (bytes : List UInt8) : Option Char := bytes.toByteArray.utf8DecodeChar? 0

/-- Decode at most `fuel` characters. -/
def decode (r : Replacement) : ℕ → List UInt8 → List Char
  | 0, _ => []
  | _ + 1, [] => []
  | fuel + 1, b :: rest =>
    match decodeFirst (b :: rest) with
    | some c => c :: decode r fuel ((b :: rest).drop c.utf8Size)
    | none => replacementChar :: decode r fuel (rest.drop (r.skip b rest))

/-- The text a lenient decoder reads from the bytes. -/
def getString (r : Replacement) (bytes : List UInt8) : String :=
  String.ofList (decode r bytes.length bytes)

variable (r : Replacement)

theorem decodeFirst_encode_append (c : Char) (rest : List UInt8) :
    decodeFirst (String.utf8EncodeChar c ++ rest) = some c := by
  rw [decodeFirst, List.toByteArray_append, ← List.utf8Encode_singleton]
  exact List.utf8DecodeChar?_utf8Encode_singleton_append

theorem exists_of_decodeFirst {bytes : List UInt8} {c : Char} (h : decodeFirst bytes = some c) :
    ∃ rest, bytes = String.utf8EncodeChar c ++ rest := by
  obtain ⟨l, hl⟩ := ByteArray.exists_of_utf8DecodeChar?_eq_some h
  refine ⟨l.data.toList, ?_⟩
  have hdata := congrArg (fun b : ByteArray => b.data.toList) hl
  simpa using hdata

@[simp] theorem decode_nil (fuel : ℕ) : decode r fuel [] = [] := by
  cases fuel <;> rfl

theorem decode_encode_append {fuel : ℕ} (c : Char) (rest : List UInt8) :
    decode r (fuel + 1) (String.utf8EncodeChar c ++ rest) = c :: decode r fuel rest := by
  obtain ⟨b, tail, hb⟩ := List.exists_cons_of_ne_nil (String.utf8EncodeChar_ne_nil (c := c))
  have hfirst := decodeFirst_encode_append c rest
  rw [hb, List.cons_append] at hfirst ⊢
  rw [decode, hfirst]
  have hdrop : (b :: (tail ++ rest)).drop c.utf8Size = rest := by
    rw [← List.cons_append, ← hb, ← String.length_utf8EncodeChar, List.drop_left]
  simp only [hdrop]

theorem decode_getBytes (cs : List Char) (fuel : ℕ)
    (hfuel : (cs.flatMap String.utf8EncodeChar).length ≤ fuel) :
    decode r fuel (cs.flatMap String.utf8EncodeChar) = cs := by
  induction cs generalizing fuel with
  | nil => simp
  | cons c cs ih =>
    -- a character costs one unit of fuel and has at least one byte
    rw [List.flatMap_cons, List.length_append, String.length_utf8EncodeChar] at hfuel
    have hpos := c.utf8Size_pos
    obtain ⟨fuel, rfl⟩ := Nat.exists_eq_add_of_le' (show 1 ≤ fuel by omega)
    rw [List.flatMap_cons, decode_encode_append, ih fuel (by omega)]

/-- Decoding inverts encoding, whatever is done about ill-formed input. -/
theorem getString_getBytes (text : String) : getString r (getBytes text) = text := by
  rw [getString, getBytes, decode_getBytes r _ _ le_rfl, String.ofList_toList]

/-! ### Counting the bytes that start a character

Each decoded character consumes exactly one byte that may start a character, or
stands for a stretch that begins with some other byte. -/

/-- The number of bytes that may start a character. -/
def firstBytes (bytes : List UInt8) : ℕ := bytes.countP fun b => b.IsUTF8FirstByte

theorem firstBytes_append (xs ys : List UInt8) :
    firstBytes (xs ++ ys) = firstBytes xs + firstBytes ys := List.countP_append

/-- An encoded character is one byte that may start a character and then bytes
that may not. -/
theorem exists_encode_eq (c : Char) :
    ∃ b tail, String.utf8EncodeChar c = b :: tail ∧ b.IsUTF8FirstByte ∧
      ∀ d ∈ tail, ¬ d.IsUTF8FirstByte := by
  obtain ⟨b, tail, hb⟩ := List.exists_cons_of_ne_nil (String.utf8EncodeChar_ne_nil (c := c))
  have hfirst : ∀ i (hi : i < (b :: tail).length),
      (b :: tail)[i].IsUTF8FirstByte ↔ i = 0 := by
    rw [← hb]
    exact fun i hi => UInt8.isUTF8FirstByte_getElem_utf8EncodeChar
  refine ⟨b, tail, hb, (hfirst 0 (by simp)).mpr rfl, ?_⟩
  intro d hd
  obtain ⟨i, hi, rfl⟩ := List.getElem_of_mem hd
  exact (hfirst (i + 1) (by simpa using hi)).not.mpr (by simp)

theorem firstBytes_encode (c : Char) : firstBytes (String.utf8EncodeChar c) = 1 := by
  obtain ⟨b, tail, hb, hhead, htail⟩ := exists_encode_eq c
  have hzero : tail.countP (fun d => decide d.IsUTF8FirstByte) = 0 :=
    List.countP_eq_zero.mpr fun d hd => by simpa using htail d hd
  rw [firstBytes, hb, List.countP_cons, hzero]
  simp [hhead]

theorem firstBytes_getBytes (text : String) : firstBytes (getBytes text) = text.length := by
  rw [getBytes, ← String.length_toList]
  induction text.toList with
  | nil => rfl
  | cons c cs ih =>
    rw [List.flatMap_cons, firstBytes_append, firstBytes_encode, ih, List.length_cons]
    omega

/-- Whether the bytes begin with one that may not start a character. -/
def strayHead : List UInt8 → ℕ
  | [] => 0
  | b :: _ => if b.IsUTF8FirstByte then 0 else 1

theorem strayHead_add_firstBytes (b : UInt8) (rest : List UInt8) :
    strayHead (b :: rest) + firstBytes (b :: rest) = 1 + firstBytes rest := by
  simp only [strayHead, firstBytes, List.countP_cons, decide_eq_true_eq]
  split_ifs <;> omega

theorem strayHead_encode_append (c : Char) (rest : List UInt8) :
    strayHead (String.utf8EncodeChar c ++ rest) = 0 := by
  obtain ⟨b, tail, hb, hhead, -⟩ := exists_encode_eq c
  simp [hb, strayHead, hhead]

theorem firstBytes_drop_skip (b : UInt8) (rest : List UInt8) :
    firstBytes (rest.drop (r.skip b rest)) = firstBytes rest := by
  have hskipped : firstBytes (rest.take (r.skip b rest)) = 0 := by
    rw [firstBytes, List.countP_eq_zero]
    intro c hc
    simpa using r.not_first b rest c hc
  rw [← Nat.zero_add (firstBytes (rest.drop _)), ← hskipped, ← firstBytes_append,
    List.take_append_drop]

/-- Every byte that may start a character costs a decoded character, and so does
a leading byte that may not. -/
theorem firstBytes_le_decode (fuel : ℕ) (bytes : List UInt8) (hfuel : bytes.length ≤ fuel) :
    strayHead bytes + firstBytes bytes ≤ (decode r fuel bytes).length := by
  induction fuel generalizing bytes with
  | zero =>
    obtain rfl := List.length_eq_zero_iff.mp (Nat.le_zero.mp hfuel)
    simp [firstBytes, strayHead]
  | succ fuel ih =>
    cases bytes with
    | nil => simp [firstBytes, strayHead]
    | cons b rest =>
      rw [strayHead_add_firstBytes]
      cases hfirst : decodeFirst (b :: rest) with
      | some c =>
        -- the character takes exactly one first byte with it
        obtain ⟨tail, htail⟩ := exists_of_decodeFirst hfirst
        have hlength := congrArg List.length htail
        rw [List.length_append, String.length_utf8EncodeChar] at hlength
        have hrest := ih tail (by have := c.utf8Size_pos; omega)
        rw [← strayHead_add_firstBytes, htail, strayHead_encode_append, firstBytes_append,
          firstBytes_encode, decode_encode_append, List.length_cons]
        omega
      | none =>
        -- the replacement character takes at most the byte it stands for
        have hrest := ih (rest.drop (r.skip b rest)) (by
          rw [List.length_drop]
          simp only [List.length_cons] at hfuel
          omega)
        rw [firstBytes_drop_skip] at hrest
        simp only [decode, hfirst, List.length_cons]
        omega

/-- A text never reads back from bytes that have anything in front of its own
encoding, however the decoder treats ill-formed input. -/
theorem getString_ne_of_append (text : String) {before : List UInt8} (after : List UInt8)
    (hbefore : before ≠ []) : getString r (before ++ getBytes text ++ after) ≠ text := by
  intro hsame
  obtain ⟨b, rest, rfl⟩ := List.exists_cons_of_ne_nil hbefore
  -- the extra bytes in front cost one character more than the text has
  have hlength := firstBytes_le_decode r _ (b :: rest ++ getBytes text ++ after) le_rfl
  rw [List.cons_append, List.cons_append, strayHead_add_firstBytes, firstBytes_append,
    firstBytes_append, firstBytes_getBytes] at hlength
  have hchars := congrArg String.length hsame
  rw [getString, String.length_ofList, List.cons_append, List.cons_append] at hchars
  omega

/-! ### Characters of seven bits

The byte of such a character stands for itself wherever it occurs: it is part of
no longer encoding and of no ill-formed stretch. -/

variable {r} {a c : Char}

theorem encode_of_lt (ha : a.toNat < 128) :
    String.utf8EncodeChar a = [UInt8.ofNat a.toNat] :=
  if_pos (Nat.le_of_lt_succ ha)

theorem toNat_eq_of_mem_encode {b : UInt8} (hb : b ∈ String.utf8EncodeChar c)
    (hlt : b.toNat < 128) : c.toNat = b.toNat := by
  have hval : c.toNat = c.val.toNat := rfl
  rw [hval]
  simp only [String.utf8EncodeChar] at hb
  -- every byte of a longer encoding has its highest bit set
  split_ifs at hb <;> simp only [List.mem_cons, List.not_mem_nil, or_false] at hb
  · subst hb
    rw [UInt8.toNat_ofNat']
    omega
  · rcases hb with rfl | rfl <;> rw [UInt8.toNat_ofNat'] at hlt <;> omega
  · rcases hb with rfl | rfl | rfl <;> rw [UInt8.toNat_ofNat'] at hlt <;> omega
  · rcases hb with rfl | rfl | rfl | rfl <;> rw [UInt8.toNat_ofNat'] at hlt <;> omega

theorem toNat_ofNat_of_lt (ha : a.toNat < 128) : (UInt8.ofNat a.toNat).toNat = a.toNat := by
  rw [UInt8.toNat_ofNat']
  omega

theorem mem_encode_iff (ha : a.toNat < 128) :
    UInt8.ofNat a.toNat ∈ String.utf8EncodeChar c ↔ a = c := by
  constructor
  · intro hmem
    have hc := toNat_eq_of_mem_encode hmem (by rw [toNat_ofNat_of_lt ha]; exact ha)
    rw [toNat_ofNat_of_lt ha] at hc
    exact Char.toNat_inj.mp hc.symm
  · rintro rfl
    rw [encode_of_lt ha]
    exact List.mem_singleton_self _

theorem isUTF8FirstByte_of_lt (ha : a.toNat < 128) : (UInt8.ofNat a.toNat).IsUTF8FirstByte := by
  obtain ⟨b, tail, hencode, hfirst, -⟩ := exists_encode_eq a
  rw [encode_of_lt ha] at hencode
  rw [(List.cons.inj hencode).1]
  exact hfirst

/-- A character of seven bits is decoded exactly if its byte is there. -/
theorem mem_decode_iff (ha : a.toNat < 128) {fuel : ℕ} {bytes : List UInt8}
    (hfuel : bytes.length ≤ fuel) : a ∈ decode r fuel bytes ↔ UInt8.ofNat a.toNat ∈ bytes := by
  induction fuel generalizing bytes with
  | zero =>
    obtain rfl := List.length_eq_zero_iff.mp (Nat.le_zero.mp hfuel)
    simp
  | succ fuel ih =>
    cases bytes with
    | nil => simp
    | cons b rest =>
      cases hfirst : decodeFirst (b :: rest) with
      | some c =>
        obtain ⟨tail, htail⟩ := exists_of_decodeFirst hfirst
        have hlength := congrArg List.length htail
        rw [List.length_append, String.length_utf8EncodeChar] at hlength
        have hpos := c.utf8Size_pos
        rw [htail, decode_encode_append, List.mem_cons, List.mem_append, mem_encode_iff ha,
          ih (by omega)]
      | none =>
        -- neither the byte that cannot be decoded nor a skipped one is the character's
        have hb : UInt8.ofNat a.toNat ≠ b := by
          rintro rfl
          have hdecoded := decodeFirst_encode_append a rest
          rw [encode_of_lt ha, List.singleton_append, hfirst] at hdecoded
          cases hdecoded
        have hskipped : UInt8.ofNat a.toNat ∉ rest.take (r.skip b rest) := fun hmem =>
          r.not_first b rest _ hmem (isUTF8FirstByte_of_lt ha)
        have hreplaced : a ≠ replacementChar := by
          rintro rfl
          exact absurd ha (by decide)
        have hrest : (rest.drop (r.skip b rest)).length ≤ fuel := by
          rw [List.length_drop]
          simp only [List.length_cons] at hfuel
          omega
        simp only [decode, hfirst]
        rw [List.mem_cons, List.mem_cons, or_iff_right hreplaced, or_iff_right hb, ih hrest,
          ← List.take_append_drop (r.skip b rest) rest, List.mem_append, or_iff_right hskipped,
          List.take_append_drop]

theorem mem_getString_iff (ha : a.toNat < 128) {bytes : List UInt8} :
    a ∈ (getString r bytes).toList ↔ UInt8.ofNat a.toNat ∈ bytes := by
  rw [getString, String.toList_ofList, mem_decode_iff ha le_rfl]

end Lib.Utf8

import SMEWindow.Lib.Text

/-!
# Where a text is split

What `split` makes of a text put together from parts. A separator that stands
between two parts ends a piece, unless an earlier separator reaches over the end of
the first part into it; `Separate` says that none does.

## Main definitions

* `Lib.Text.occurrences` — how often a pattern occurs, without overlaps
* `Lib.Text.Separate` — no separator begins in one text and ends in the next

## Main results

* `length_split_singleton` — a split has one piece more than separators
* `splitFrom_append_separator` — the pieces of two texts with a separator between them
* `splitFrom_of_no_separator` — a text without separators is one piece
-/

set_option autoImplicit false

namespace Lib.Text

/-- Count the occurrences of `pattern` from left to right, passing over `skip`
characters of one already counted. -/
def occurrencesFrom (pattern : List Char) : ℕ → List Char → ℕ
  | _, [] => 0
  | skip + 1, _ :: rest => occurrencesFrom pattern skip rest
  | 0, c :: rest =>
    if pattern.isPrefixOf (c :: rest) then occurrencesFrom pattern (pattern.length - 1) rest + 1
    else occurrencesFrom pattern 0 rest

/-- How often `pattern` occurs in `text`, from left to right and without overlaps. -/
def occurrences (pattern text : String) : ℕ := occurrencesFrom pattern.toList 0 text.toList

theorem length_splitFrom_singleton (pattern : List Char) (skip : ℕ) (piece text : List Char) :
    (splitFrom [pattern] skip piece text).length = occurrencesFrom pattern skip text + 1 := by
  induction text generalizing skip piece with
  | nil => cases skip <;> rfl
  | cons c rest ih =>
    cases skip with
    | succ skip => exact ih skip piece
    | zero =>
      rw [splitFrom, occurrencesFrom, List.find?_singleton]
      by_cases hfront : pattern.isPrefixOf (c :: rest) = true
      · simp only [hfront, if_true, List.length_cons, ih]
      · simp only [hfront, Bool.false_eq_true, if_false, ih]

/-- A split at one separator has one piece more than the separator occurs. -/
theorem length_split_singleton {pattern : String} (hpattern : pattern.toList ≠ []) (text : String) :
    (split [pattern] text).length = occurrences pattern text + 1 := by
  have hkept : (([pattern].map String.toList).filter (· ≠ [])) = [pattern.toList] :=
    List.filter_eq_self.mpr (by simpa using hpattern)
  rw [split, hkept, List.length_map, length_splitFrom_singleton]
  rfl

/-! ### Texts next to each other -/

/-- No separator begins in `first` and ends in `second`. -/
def Separate (separators : List (List Char)) (first second : List Char) : Prop :=
  ∀ separator ∈ separators, ∀ i, 0 < i → i < separator.length →
    separator.take i <:+ first → ¬ separator.drop i <+: second

variable {separators : List (List Char)} {first second text : List Char}

theorem Separate.of_suffix (h : Separate separators first second) (hsuffix : text <:+ first) :
    Separate separators text second :=
  fun separator hmem i hpos hlt htake => h separator hmem i hpos hlt (htake.trans hsuffix)

theorem Separate.singleton (h : Separate separators first second) {separator : List Char}
    (hmem : separator ∈ separators) : Separate [separator] first second := by
  intro other hother
  rw [List.mem_singleton.mp hother]
  exact h separator hmem

/-- A separator that begins in the first of two separate texts ends there. -/
theorem Separate.isPrefix_of_isPrefix_append (h : Separate separators first second)
    {separator : List Char} (hmem : separator ∈ separators) (hfirst : first ≠ [])
    (hfront : separator <+: first ++ second) : separator <+: first := by
  by_cases hlength : separator.length ≤ first.length
  · exact List.prefix_of_prefix_length_le hfront (List.prefix_append _ _) hlength
  · -- the first text would be the beginning of the separator
    have htake : separator.take first.length = first := by
      have := List.prefix_of_prefix_length_le (List.prefix_append first second) hfront (by omega)
      exact (List.prefix_iff_eq_take.mp this).symm
    have hdrop : separator.drop first.length <+: second := by
      have := hfront.drop first.length
      rwa [List.drop_left] at this
    refine absurd hdrop (h separator hmem first.length ?_ (by omega) ?_)
    · exact List.length_pos_iff.mpr hfirst
    · rw [htake]

theorem find?_congr {α : Type*} {p q : α → Bool} {l : List α} (h : ∀ a ∈ l, p a = q a) :
    l.find? p = l.find? q := by
  induction l with
  | nil => rfl
  | cons a l ih =>
    rw [List.find?_cons, List.find?_cons, h a List.mem_cons_self,
      ih fun b hb => h b (List.mem_cons_of_mem a hb)]

/-- The separators that begin at the front of the first of two separate texts. -/
theorem Separate.find?_append (h : Separate separators first second) (hfirst : first ≠ []) :
    (separators.find? fun separator => separator.isPrefixOf (first ++ second)) =
      separators.find? fun separator => separator.isPrefixOf first := by
  refine find?_congr fun separator hmem => ?_
  rw [Bool.eq_iff_iff, List.isPrefixOf_iff_prefix, List.isPrefixOf_iff_prefix]
  constructor
  · exact h.isPrefix_of_isPrefix_append hmem hfirst
  · exact fun hfront => hfront.trans (List.prefix_append _ _)

/-- Passing over as many characters as a text has passes over the text. -/
theorem splitFrom_length_append (separators : List (List Char)) (piece text rest : List Char) :
    splitFrom separators text.length piece (text ++ rest) =
      splitFrom separators 0 piece rest := by
  induction text with
  | nil => rfl
  | cons c text ih => exact ih

/-- Between two separate texts, a separator ends the pieces of the first. -/
theorem splitFrom_append_separator {separator rest : List Char} (hne : separator ≠ [])
    (hfind : (separators.find? fun s => s.isPrefixOf (separator ++ rest)) = some separator)
    (h : Separate separators first (separator ++ rest)) (skip : ℕ) (hskip : skip ≤ first.length)
    (piece : List Char) :
    splitFrom separators skip piece (first ++ (separator ++ rest)) =
      splitFrom separators skip piece first ++ splitFrom separators 0 [] rest := by
  -- along the first text, which always holds the whole of the separator being passed over
  induction first generalizing skip piece with
  | nil =>
    obtain rfl : skip = 0 := Nat.le_zero.mp hskip
    cases separator with
    | nil => exact absurd rfl hne
    | cons c separator =>
      rw [List.cons_append] at hfind
      rw [List.nil_append, List.cons_append, splitFrom, splitFrom, hfind]
      simp only [List.length_cons, Nat.add_sub_cancel, splitFrom_length_append]
      rfl
  | cons c first ih =>
    have htail := h.of_suffix (List.suffix_cons c first)
    cases skip with
    | succ skip =>
      rw [List.cons_append, splitFrom, splitFrom]
      exact ih htail skip (by simpa using hskip) piece
    | zero =>
      have hsame := h.find?_append (List.cons_ne_nil c first)
      rw [List.cons_append, splitFrom, splitFrom]
      rw [List.cons_append] at hsame
      rw [hsame]
      cases hcase : separators.find? fun s => s.isPrefixOf (c :: first) with
      | none => exact ih htail 0 (Nat.zero_le _) (c :: piece)
      | some found =>
        have hfront : found <+: c :: first := by
          have := List.find?_some hcase
          exact List.isPrefixOf_iff_prefix.mp this
        have hlength := hfront.length_le
        rw [List.length_cons] at hlength
        simp only [List.cons_append]
        rw [ih htail (found.length - 1) (by omega) []]

theorem splitFrom_of_no_separator (h : ∀ separator ∈ separators, ¬ separator <:+: text)
    (piece : List Char) : splitFrom separators 0 piece text = [piece.reverse ++ text] := by
  induction text generalizing piece with
  | nil => rw [splitFrom, List.append_nil]
  | cons c text ih =>
    have hnone : (separators.find? fun s => s.isPrefixOf (c :: text)) = none := by
      refine List.find?_eq_none.mpr fun separator hmem hfront => ?_
      exact h separator hmem (List.isPrefixOf_iff_prefix.mp hfront).isInfix
    rw [splitFrom, hnone]
    simp only
    rw [ih fun separator hmem hpart =>
      h separator hmem (hpart.trans (List.suffix_cons c text).isInfix)]
    rw [List.reverse_cons, List.append_assoc, List.singleton_append]

/-! ### Telling texts apart at their border -/

/-- Texts are separate when the second begins with a character that separators
have at their front only. -/
theorem separate_of_notMem_tail {c : Char} {rest : List Char}
    (h : ∀ separator ∈ separators, c ∉ separator.tail) : Separate separators first (c :: rest) := by
  intro separator hmem i hpos hlt _ hdrop
  apply h separator hmem
  obtain ⟨j, rfl⟩ : ∃ j, i = j + 1 := ⟨i - 1, by omega⟩
  have hne : separator.drop (j + 1) ≠ [] := by
    rw [Ne, List.drop_eq_nil_iff]
    omega
  obtain ⟨d, back, hback⟩ := List.exists_cons_of_ne_nil hne
  rw [hback, List.cons_prefix_cons] at hdrop
  rw [← hdrop.1]
  refine (List.drop_suffix j separator.tail).subset ?_
  rw [List.drop_tail, hback]
  exact List.mem_cons_self

/-- Texts are separate when the second begins with a character that ends each
separator, occurs nowhere else in it but at its front, and the first text does not
end in the rest of the separator. -/
theorem separate_of_concat {c : Char} {rest : List Char}
    (h : ∀ separator ∈ separators, ∃ front, separator = front ++ [c] ∧ c ∉ front.tail ∧
      ¬ front <:+ first) : Separate separators first (c :: rest) := by
  intro separator hmem i hpos hlt htake hdrop
  obtain ⟨front, rfl, hnot, hsuffix⟩ := h separator hmem
  rw [List.length_append, List.length_singleton] at hlt
  by_cases hend : i = front.length
  · subst hend
    rw [List.take_left] at htake
    exact hsuffix htake
  · -- the separator would go on with the character before its end
    obtain ⟨j, rfl⟩ : ∃ j, i = j + 1 := ⟨i - 1, by omega⟩
    rw [List.drop_append_of_le_length (by omega)] at hdrop
    have hne : front.drop (j + 1) ≠ [] := by
      rw [Ne, List.drop_eq_nil_iff]
      omega
    obtain ⟨d, back, hback⟩ := List.exists_cons_of_ne_nil hne
    rw [hback, List.cons_append, List.cons_prefix_cons] at hdrop
    apply hnot
    rw [← hdrop.1]
    refine (List.drop_suffix j front.tail).subset ?_
    rw [List.drop_tail, hback]
    exact List.mem_cons_self

/-- A separator in neither of two separate texts is not in the two together. -/
theorem not_infix_append {separator : List Char} (hfirst : ¬ separator <:+: first)
    (hsecond : ¬ separator <:+: second) (h : Separate [separator] first second) :
    ¬ separator <:+: first ++ second := by
  intro hpart
  induction first with
  | nil => exact hsecond hpart
  | cons c first ih =>
    rw [List.cons_append] at hpart
    rcases List.infix_cons_iff.mp hpart with hfront | hpart
    · rw [← List.cons_append] at hfront
      exact hfirst (h.isPrefix_of_isPrefix_append (List.mem_singleton.mpr rfl)
        (List.cons_ne_nil c first) hfront).isInfix
    · exact ih (fun htail => hfirst (htail.trans (List.suffix_cons c first).isInfix))
        (h.of_suffix (List.suffix_cons c first)) hpart

/-- A text does not end in one that ends in another character. -/
theorem not_suffix_concat {c d : Char} (hne : c ≠ d) (front : List Char) :
    ¬ front ++ [c] <:+ text ++ [d] := by
  rintro ⟨before, heq⟩
  have hlast := congrArg List.getLast? heq
  rw [← List.append_assoc, List.getLast?_concat, List.getLast?_concat, Option.some.injEq] at hlast
  exact hne hlast

theorem not_infix_of_notMem {separator : List Char} {c : Char} (hmem : c ∈ separator)
    (hnot : c ∉ text) : ¬ separator <:+: text :=
  fun hpart => hnot (hpart.subset hmem)

/-! ### Reading piece by piece -/

section Pieces

variable {ε α β : Type*}

theorem mapM_eq_ok_iff {read : α → Except ε β} {l : List α} {values : List β} :
    l.mapM read = .ok values ↔ l.map read = values.map .ok := by
  induction l generalizing values with
  | nil => cases values <;> simp [pure, Except.pure]
  | cons a l ih =>
    cases hread : read a with
    | error e => cases values <;> simp [hread, bind, Except.bind]
    | ok b =>
      cases hrest : l.mapM read with
      | error e =>
        have hnone : ∀ rest : List β, l.map read ≠ rest.map Except.ok := fun rest hmap => by
          rw [ih.mpr hmap] at hrest
          cases hrest
        cases values <;> simp [hread, hrest, bind, Except.bind, hnone]
      | ok rest =>
        have hmap := ih.mp hrest
        cases values with
        | nil => simp [hread, hrest, bind, Except.bind, pure, Except.pure]
        | cons value values =>
          simp only [List.mapM_cons, hread, hrest, bind, Except.bind, pure, Except.pure,
            Except.ok.injEq, List.cons.injEq, List.map_cons, hmap]
          rw [List.map_inj_right fun _ _ => Except.ok.inj]

variable {parts : α → List β} {expected : α → β}

/-- As long as something expected is missing, parts that never hold what is expected
in their own place cannot make up for it. -/
theorem flatMap_ne_append_map {l : List α} {missing : List β} (hmissing : missing ≠ [])
    (hparts : ∀ a ∈ l, parts a = [expected a] ∨ expected a ∉ parts a) :
    l.flatMap parts ≠ missing ++ l.map expected := by
  induction l generalizing missing with
  | nil => simpa using hmissing.symm
  | cons a l ih =>
    intro heq
    rw [List.flatMap_cons, List.map_cons, ← List.singleton_append, ← List.append_assoc] at heq
    -- a part that holds what is expected in its place holds nothing else
    have hshort : ¬ missing ++ [expected a] <+: parts a := by
      intro hfront
      rcases hparts a List.mem_cons_self with hown | hnot
      · have hlength := hfront.length_le
        rw [hown, List.length_append, List.length_singleton] at hlength
        exact hmissing (List.length_eq_zero_iff.mp (by omega))
      · exact hnot (hfront.subset (by simp))
    rcases List.append_eq_append_iff.mp heq with ⟨left, hleft, hrest⟩ | ⟨extra, hextra, -⟩
    · refine ih ?_ (fun b hb => hparts b (List.mem_cons_of_mem a hb)) hrest
      rintro rfl
      rw [List.append_nil] at hleft
      exact hshort (hleft ▸ List.prefix_refl _)
    · exact hshort (hextra ▸ List.prefix_append _ _)

/-- Parts that together are what is expected, and each of which is what is expected
in its place or does not hold it, are what is expected one by one. -/
theorem eq_singleton_of_flatMap_eq_map {l : List α}
    (hparts : ∀ a ∈ l, parts a = [expected a] ∨ expected a ∉ parts a)
    (h : l.flatMap parts = l.map expected) : ∀ a ∈ l, parts a = [expected a] := by
  induction l with
  | nil => simp
  | cons a l ih =>
    have hrest : ∀ b ∈ l, parts b = [expected b] ∨ expected b ∉ parts b :=
      fun b hb => hparts b (List.mem_cons_of_mem a hb)
    rw [List.flatMap_cons, List.map_cons] at h
    rcases hparts a List.mem_cons_self with hown | hnot
    · rw [hown] at h
      intro b hb
      rcases List.mem_cons.mp hb with rfl | hb
      · exact hown
      · exact ih hrest (List.cons.inj h).2 b hb
    · cases hpart : parts a with
      | nil =>
        rw [hpart, List.nil_append] at h
        exact absurd h (flatMap_ne_append_map (List.cons_ne_nil _ []) hrest)
      | cons b part =>
        rw [hpart, List.cons_append] at h
        rw [hpart, (List.cons.inj h).1] at hnot
        exact absurd List.mem_cons_self hnot

end Pieces

end Lib.Text

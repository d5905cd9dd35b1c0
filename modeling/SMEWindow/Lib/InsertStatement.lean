import SMEWindow.Lib.QuotedText

/-!
# Reading an INSERT statement

What a database makes of the text of an `INSERT INTO table(columns) VALUES(literals)`:
the tokens of the text with the contents of its literals, and the table, the columns
and the values in them. There may be several rows of values; and there is a SELECT of one
column under a condition on another.

A statement that is written as a fixed beginning and one literal for each value is read
as these values, whatever they are, as long as every quote in them is doubled: then the
lexer stays inside of the literals, as `Lib.QuotedText` says of a lexer that does not keep
their contents.

## Main definitions

* `Lib.InsertStatement.tokens` — the tokens of a text
* `Lib.InsertStatement.parse` — the statement that a text is, if it inserts one row
* `Lib.InsertStatement.parseRows`, `parseSelect` — the rows that it inserts; what it selects
* `Lib.InsertStatement.undouble` — what a literal denotes
* `Lib.InsertStatement.Begins` — a text that goes up to the first value
* `Insert.lookup` — the value in a column

## Main results

* `run_shape` — without the contents of literals, the tokens are those of `Lib.QuotedText`
* `parse_append_valueText_of_doubled` — a beginning and values between quotes are read as
  written
* `values_of_parse` — what is read of the values in front of an arbitrary rest
* `parseRows_of_parse`, `parseSelect_append` — one row, and a selection by a literal
-/

set_option autoImplicit false

namespace Lib.InsertStatement

open Lib.QuotedText (quote doubledFrom doubledFrom_of_notMem)

/-- A token, with the content of a literal. -/
inductive Token
  | word (letters : List Char)
  | punctuation (c : Char)
  | literal (content : List Char)
  deriving DecidableEq, Repr

/-- Where the lexer stands. -/
inductive Mode
  | between
  | word (letters : List Char)
  | literal (content : List Char)
  /-- Behind a quote that ends the literal, unless another follows. -/
  | closing (content : List Char)
  deriving DecidableEq, Repr

def isBlank (c : Char) : Bool := c = ' ' || c = '\t' || c = '\r' || c = '\n'

/-- A character of keywords and names. -/
def isWordChar (c : Char) : Bool := c.isAlphanum || c = '_'

/-- Begin a token. -/
def begin (c : Char) : Mode × List Token :=
  if c = quote then (.literal [], [])
  else if isBlank c then (.between, [])
  else if isWordChar c then (.word [c], [])
  else (.between, [.punctuation c])

/-- Read one character. -/
def step : Mode → Char → Mode × List Token
  | .between, c => begin c
  | .word letters, c =>
    if isWordChar c then (.word (letters ++ [c]), [])
    else ((begin c).1, .word letters :: (begin c).2)
  | .literal content, c =>
    if c = quote then (.closing content, []) else (.literal (content ++ [c]), [])
  | .closing content, c =>
    -- a doubled quote stands for one in the content
    if c = quote then (.literal (content ++ [quote]), [])
    else ((begin c).1, .literal content :: (begin c).2)

/-- Read a text. -/
def run : Mode → List Char → Mode × List Token
  | m, [] => (m, [])
  | m, c :: cs => ((run (step m c).1 cs).1, (step m c).2 ++ (run (step m c).1 cs).2)

/-- The token that the end of the text completes; a literal must have ended. -/
def finish : Mode → Option (List Token)
  | .between => some []
  | .word letters => some [.word letters]
  | .literal _ => none
  | .closing content => some [.literal content]

/-- The tokens of a text. -/
def tokens (text : List Char) : Option (List Token) :=
  (finish (run .between text).1).map ((run .between text).2 ++ ·)

/-! ### The statement -/

/-- Tokens with commas between them, up to a closing parenthesis. -/
def readList {α : Type} (read : Token → Option α) : List Token → Option (List α × List Token)
  | token :: .punctuation c :: rest =>
    match read token with
    | none => none
    | some a =>
      if c = ')' then some ([a], rest)
      else if c = ',' then (readList read rest).map fun result => (a :: result.1, result.2)
      else none
  | _ => none

def asName : Token → Option (List Char)
  | .word letters => some letters
  | _ => none

def asLiteral : Token → Option (List Char)
  | .literal content => some content
  | _ => none

/-- A keyword, in any case. -/
def isKeyword (keyword : List Char) : Token → Bool
  | .word letters => letters.map Char.toUpper = keyword
  | _ => false

/-- The table and the columns, up to the opening parenthesis of the values. -/
def readHeader : List Token → Option ((List Char × List (List Char)) × List Token)
  | first :: second :: .word table :: .punctuation '(' :: rest =>
    if isKeyword ['I', 'N', 'S', 'E', 'R', 'T'] first && isKeyword ['I', 'N', 'T', 'O'] second then
      match readList asName rest with
      | some (columns, third :: .punctuation '(' :: rest) =>
        if isKeyword ['V', 'A', 'L', 'U', 'E', 'S'] third then some ((table, columns), rest)
        else none
      | _ => none
    else none
  | _ => none

/-- A statement that inserts one row. -/
structure Insert where
  table : List Char
  columns : List (List Char)
  values : List (List Char)
  deriving DecidableEq, Repr

/-- The values, if nothing follows them. -/
def readValues (ts : List Token) : Option (List (List Char)) :=
  match readList asLiteral ts with
  | some (values, []) => some values
  | _ => none

/-- The statement that a text is. -/
def parse (text : List Char) : Option Insert :=
  (tokens text).bind fun ts => (readHeader ts).bind fun header =>
    (readValues header.2).map fun values => ⟨header.1.1, header.1.2, values⟩

/-- Rows of literals between parentheses, with commas between them; the values in `row` have been
read of the first. -/
def readRows : List (List Char) → List Token → Option (List (List (List Char)))
  | row, [.literal value, .punctuation ')'] => some [row ++ [value]]
  | row, .literal value :: .punctuation ')' :: .punctuation ',' :: .punctuation '(' :: rest =>
    (readRows [] rest).map ((row ++ [value]) :: ·)
  | row, .literal value :: .punctuation ',' :: rest => readRows (row ++ [value]) rest
  | _, _ => none

/-- The rows that a text inserts, each as a statement of its own. -/
def parseRows (text : List Char) : Option (List Insert) :=
  (tokens text).bind fun ts => (readHeader ts).bind fun header =>
    (readRows [] header.2).map fun rows => rows.map fun values =>
      ⟨header.1.1, header.1.2, values⟩

/-- A statement that selects a column of the rows in which another equals a literal. -/
structure Select where
  column : List Char
  table : List Char
  key : List Char
  value : List Char
  deriving DecidableEq, Repr

def readSelect : List Token → Option Select
  | [first, .word column, second, .word table, third, .word key, .punctuation '=',
      .literal value] =>
    if isKeyword ['S', 'E', 'L', 'E', 'C', 'T'] first && isKeyword ['F', 'R', 'O', 'M'] second &&
        isKeyword ['W', 'H', 'E', 'R', 'E'] third then
      some ⟨column, table, key, value⟩
    else none
  | _ => none

/-- The selection that a text is. -/
def parseSelect (text : List Char) : Option Select := (tokens text).bind readSelect

/-- The columns, each with its value. -/
def Insert.record (insert : Insert) : List (String × String) :=
  (insert.columns.map String.ofList).zip (insert.values.map String.ofList)

/-- The value in a column. -/
def Insert.lookup (insert : Insert) (column : String) : Option String :=
  insert.record.lookup column

/-- A text from the first keyword to the parenthesis in front of the values. -/
def Begins (header : List Char) (table : List Char) (columns : List (List Char)) : Prop :=
  (run .between header).1 = .between ∧
    readHeader (run .between header).2 = some ((table, columns), [])

instance (header table : List Char) (columns : List (List Char)) :
    Decidable (Begins header table columns) := inferInstanceAs (Decidable (_ ∧ _))

/-- Values between quotes, each with a comma behind it. -/
def columnText (value : List Char) : List Char := quote :: (value ++ [quote, ','])

/-- The last value between quotes, and the end of the statement. -/
def lastText (value : List Char) : List Char := quote :: (value ++ [quote, ')'])

/-- All values of a statement, one behind the other. -/
def valueText : List (List Char) → List Char
  | [] => []
  | [value] => lastText value
  | value :: values => columnText value ++ valueText values

variable {α : Type} {read : Token → Option α} {m : Mode} {header table value rest : List Char}
  {columns : List (List Char)}

theorem run_append (m : Mode) (xs ys : List Char) :
    run m (xs ++ ys) =
      ((run (run m xs).1 ys).1, (run m xs).2 ++ (run (run m xs).1 ys).2) := by
  induction xs generalizing m with
  | nil => simp [run]
  | cons c xs ih => rw [List.cons_append, run, run, ih, List.append_assoc]

/-- What follows a list does not matter to it. -/
theorem readList_append {ts : List Token} {result : List α × List Token}
    (h : readList read ts = some result) (more : List Token) :
    readList read (ts ++ more) = some (result.1, result.2 ++ more) := by
  fun_induction readList read ts generalizing result with
  | case1 => cases h
  | case2 token rest a hread =>
    rw [List.cons_append, List.cons_append, readList, hread, ← Option.some.inj h]
    rfl
  | case3 token rest a hread _ ih =>
    obtain ⟨result', hresult, rfl⟩ := Option.map_eq_some_iff.mp h
    rw [List.cons_append, List.cons_append, readList, hread]
    simp only [if_neg (by decide : ¬ ',' = ')'), if_true, ih hresult, Option.map_some]
  | case4 => cases h
  | case5 => cases h

theorem readHeader_append {ts rest : List Token} {result : List Char × List (List Char)}
    (h : readHeader ts = some (result, rest)) (more : List Token) :
    readHeader (ts ++ more) = some (result, rest ++ more) := by
  unfold readHeader at h
  split at h
  · next first second table names =>
    split_ifs at h with hkeywords
    split at h
    · next columns third values hnames =>
      split_ifs at h with hvalues
      have hmore := readList_append hnames more
      simp only [List.cons_append, readHeader, hkeywords, if_true, hmore, hvalues]
      rw [Option.some.injEq, Prod.mk.injEq] at h
      rw [h.1, h.2]
    · cases h
  · cases h

/-! ### Without the contents of literals -/

/-- What the characters are to this lexer. -/
def kind (c : Char) : QuotedText.Kind :=
  if isBlank c then .blank else if isWordChar c then .letter else .punctuation

/-- A token without the content of a literal. -/
def Token.shape : Token → QuotedText.Token
  | .word letters => .word letters
  | .punctuation c => .punctuation c
  | .literal _ => .literal

def Mode.shape : Mode → QuotedText.Mode
  | .between => .between
  | .word letters => .word letters
  | .literal _ => .literal
  | .closing _ => .closing

theorem isBlank_of_isWordChar {c : Char} (h : isWordChar c = true) : isBlank c = false := by
  by_contra hblank
  simp only [isBlank, Bool.not_eq_false, Bool.or_eq_true, decide_eq_true_eq] at hblank
  obtain ((rfl | rfl) | rfl) | rfl := hblank <;> exact absurd h (by decide)

theorem begin_shape (c : Char) :
    QuotedText.begin kind c = ((begin c).1.shape, (begin c).2.map Token.shape) := by
  unfold QuotedText.begin begin kind
  split_ifs <;> rfl

theorem kind_eq_letter_iff {c : Char} : kind c = .letter ↔ isWordChar c = true := by
  unfold kind
  cases hword : isWordChar c with
  | true => simp [isBlank_of_isWordChar hword]
  | false => split_ifs <;> simp_all

theorem step_shape (m : Mode) (c : Char) :
    QuotedText.step kind m.shape c = ((step m c).1.shape, (step m c).2.map Token.shape) := by
  have hbegin := begin_shape c
  cases m with
  | between => exact hbegin
  | word letters =>
    have hletter : c ≠ quote ∧ kind c = .letter ↔ isWordChar c = true := by
      rw [kind_eq_letter_iff, and_iff_right_iff_imp]
      rintro hword rfl
      exact absurd hword (by decide)
    rw [Mode.shape, QuotedText.step, step, hbegin, if_congr hletter rfl rfl]
    split_ifs <;> rfl
  | literal content =>
    rw [Mode.shape, QuotedText.step, step]
    split_ifs <;> rfl
  | closing content =>
    rw [Mode.shape, QuotedText.step, step, hbegin]
    split_ifs <;> rfl

/-- The lexer without contents goes along. -/
theorem run_shape (m : Mode) (text : List Char) :
    QuotedText.run kind m.shape text = ((run m text).1.shape, (run m text).2.map Token.shape) := by
  induction text generalizing m with
  | nil => rfl
  | cons c text ih => rw [QuotedText.run, step_shape, ih, run, List.map_append]

/-! ### Values between quotes -/

/-- The content of a literal that is written with these characters; `pending` says that the
second quote of a pair is due. -/
def undoubleFrom : Bool → List Char → List Char
  | _, [] => []
  | false, c :: cs => if c = quote then undoubleFrom true cs else c :: undoubleFrom false cs
  | true, c :: cs => c :: undoubleFrom false cs

/-- What a literal denotes: a pair of quotes is one. -/
def undouble (value : List Char) : List Char := undoubleFrom false value

theorem undouble_of_notMem (h : quote ∉ value) : undouble value = value := by
  rw [undouble]
  induction value with
  | nil => rfl
  | cons c value ih =>
    rw [List.mem_cons, not_or] at h
    rw [undoubleFrom, if_neg (Ne.symm h.1), ih h.2]

/-- As long as no token is completed, what is read is the content. -/
theorem content_of_run {content content' : List Char} :
    (run (.literal content) value = (.literal content', []) →
      content' = content ++ undoubleFrom false value) ∧
    (run (.closing content) value = (.literal content', []) →
      content' = content ++ undoubleFrom true value) := by
  induction value generalizing content with
  | nil =>
    refine ⟨fun h => ?_, fun h => nomatch h⟩
    rw [undoubleFrom, List.append_nil]
    exact (Mode.literal.inj (congrArg Prod.fst h)).symm
  | cons c value ih =>
    rw [run, run, step, step, undoubleFrom, undoubleFrom]
    split_ifs with hquote
    · refine ⟨ih.2, fun h => ?_⟩
      rw [hquote, ih.1 h, List.append_assoc]
      rfl
    · refine ⟨fun h => ?_, fun h => ?_⟩
      · rw [ih.1 h, List.append_assoc]
        rfl
      · -- another character than a quote completes the literal
        exact absurd (congrArg Prod.snd h) (List.cons_ne_nil _ _)

/-- Doubled quotes keep the lexer inside of a literal. -/
theorem run_literal_of_doubled (h : doubledFrom false value = true) (content : List Char) :
    run (.literal content) value = (.literal (content ++ undouble value), []) := by
  have hshape := run_shape (.literal content) value
  rw [Mode.shape, (QuotedText.run_eq_literal_iff kind value).1.mpr h, Prod.mk.injEq] at hshape
  obtain ⟨content', hcontent⟩ :
      ∃ content', (run (.literal content) value).1 = .literal content' := by
    cases hmode : (run (.literal content) value).1 with
    | literal content' => exact ⟨content', rfl⟩
    | between | word | closing =>
      rw [hmode] at hshape
      exact nomatch hshape.1
  have hrun : run (.literal content) value = (.literal content', []) :=
    Prod.ext hcontent (List.map_eq_nil_iff.mp hshape.2.symm)
  rw [hrun, content_of_run.1 hrun, undouble]

theorem run_columnText (h : doubledFrom false value = true) :
    run .between (columnText value) =
      (.between, [.literal (undouble value), .punctuation ',']) := by
  rw [columnText, run, step, begin, if_pos rfl, run_append, run_literal_of_doubled h]
  rfl

theorem run_lastText (h : doubledFrom false value = true) :
    run .between (lastText value) =
      (.between, [.literal (undouble value), .punctuation ')']) := by
  rw [lastText, run, step, begin, if_pos rfl, run_append, run_literal_of_doubled h]
  rfl

theorem run_flatMap_columnText {values : List (List Char)}
    (h : ∀ v ∈ values, doubledFrom false v = true) :
    run .between (values.flatMap columnText) =
      (.between, (values.map undouble).flatMap fun v => [.literal v, .punctuation ',']) := by
  induction values with
  | nil => rfl
  | cons v values ih =>
    rw [List.forall_mem_cons] at h
    rw [List.flatMap_cons, run_append, run_columnText h.1, ih h.2, List.map_cons,
      List.flatMap_cons]

/-- Literals with a comma behind each are read in front of what follows. -/
theorem readList_literals (values : List (List Char)) (ts : List Token) :
    readList asLiteral ((values.flatMap fun v => [.literal v, .punctuation ',']) ++ ts) =
      (readList asLiteral ts).map fun result => (values ++ result.1, result.2) := by
  induction values with
  | nil =>
    rw [List.flatMap_nil, List.nil_append]
    cases readList asLiteral ts <;> rfl
  | cons v values ih =>
    rw [List.flatMap_cons, List.append_assoc, List.cons_append, List.cons_append, List.nil_append,
      readList]
    simp only [asLiteral, if_neg (by decide : ¬ ',' = ')'), if_true, ih, Option.map_map]
    rfl

theorem readValues_literals (values : List (List Char)) (ts : List Token) :
    readValues ((values.flatMap fun v => [.literal v, .punctuation ',']) ++ ts) =
      (readValues ts).map (values ++ ·) := by
  rw [readValues, readValues, readList_literals]
  rcases readList asLiteral ts with _ | ⟨more, _ | ⟨token, rest⟩⟩
  · rfl
  · rfl
  · rfl

/-- The tokens of a text behind one that ends between tokens. -/
theorem tokens_append {first : List Char} (h : (run .between first).1 = .between)
    (rest : List Char) :
    tokens (first ++ rest) = (tokens rest).map ((run .between first).2 ++ ·) := by
  rw [tokens, tokens, run_append, h, Option.map_map]
  simp only [List.append_assoc]
  rfl

/-- Behind the beginning of a statement, the rest is read as values. -/
theorem parse_append (h : Begins header table columns) (rest : List Char) :
    parse (header ++ rest) =
      ((tokens rest).bind readValues).map fun values => ⟨table, columns, values⟩ := by
  rw [parse, tokens_append h.1]
  cases tokens rest with
  | none => rfl
  | some ts =>
    simp only [Option.map_some, Option.bind_some, readHeader_append h.2]
    rfl

theorem bind_readValues_columns {values : List (List Char)}
    (h : ∀ v ∈ values, doubledFrom false v = true) (rest : List Char) :
    (tokens (values.flatMap columnText ++ rest)).bind readValues =
      ((tokens rest).bind readValues).map (values.map undouble ++ ·) := by
  have hrun := run_flatMap_columnText h
  rw [tokens_append (by rw [hrun]), hrun]
  cases tokens rest with
  | none => rfl
  | some ts => exact readValues_literals (values.map undouble) ts

theorem valueText_append (values : List (List Char)) {more : List (List Char)} (h : more ≠ []) :
    valueText (values ++ more) = values.flatMap columnText ++ valueText more := by
  induction values with
  | nil => rfl
  | cons v values ih =>
    have hne : values ++ more ≠ [] := fun heq => h (List.append_eq_nil_iff.mp heq).2
    obtain ⟨w, rest, hrest⟩ := List.exists_cons_of_ne_nil hne
    rw [List.cons_append, hrest, valueText, ← hrest, ih, List.flatMap_cons, List.append_assoc]
    intro heq
    cases heq

/-- A fixed beginning and one literal for each value are read as what the literals denote. -/
theorem parse_append_valueText_of_doubled {values : List (List Char)}
    (hheader : Begins header table columns) (hne : values ≠ [])
    (hvalues : ∀ v ∈ values, doubledFrom false v = true) :
    parse (header ++ valueText values) = some ⟨table, columns, values.map undouble⟩ := by
  obtain ⟨init, last, rfl⟩ := (List.eq_nil_or_concat' values).resolve_left hne
  rw [List.forall_mem_append, List.forall_mem_singleton] at hvalues
  have htokens : tokens (lastText last) = some [.literal (undouble last), .punctuation ')'] := by
    rw [tokens, run_lastText hvalues.2]
    rfl
  rw [valueText_append init (List.cons_ne_nil last []), valueText, parse_append hheader,
    bind_readValues_columns hvalues.1, htokens, List.map_append]
  rfl

theorem map_undouble_of_notMem {values : List (List Char)} (h : ∀ v ∈ values, quote ∉ v) :
    values.map undouble = values := by
  rw [List.map_congr_left fun v hv => undouble_of_notMem (h v hv), List.map_id']

/-- Values without quotes are read as they are. -/
theorem parse_append_valueText {values : List (List Char)} (hheader : Begins header table columns)
    (hne : values ≠ []) (hvalues : ∀ v ∈ values, quote ∉ v) :
    parse (header ++ valueText values) = some ⟨table, columns, values⟩ := by
  rw [parse_append_valueText_of_doubled hheader hne
    fun v hv => doubledFrom_of_notMem (hvalues v hv), map_undouble_of_notMem hvalues]

/-- The values in front of an arbitrary rest are read as written, if the whole is read. -/
theorem values_of_parse {values : List (List Char)} {insert : Insert}
    (hheader : Begins header table columns) (hvalues : ∀ v ∈ values, quote ∉ v)
    (h : parse (header ++ (values.flatMap columnText ++ rest)) = some insert) :
    insert.columns = columns ∧ ∃ more, insert.values = values ++ more := by
  rw [parse_append hheader,
    bind_readValues_columns fun v hv => doubledFrom_of_notMem (hvalues v hv)] at h
  obtain ⟨all, hall, rfl⟩ := Option.map_eq_some_iff.mp h
  obtain ⟨more, -, rfl⟩ := Option.map_eq_some_iff.mp hall
  exact ⟨rfl, more, by rw [map_undouble_of_notMem hvalues]⟩

/-! ### Rows and selections -/

/-- The values of one row. -/
theorem readRows_of_readList {ts : List Token} {values : List (List Char)} (row : List (List Char))
    (h : readList asLiteral ts = some (values, [])) : readRows row ts = some [row ++ values] := by
  fun_induction readList asLiteral ts generalizing row values with
  | case1 => cases h
  | case2 token rest value hread =>
    obtain ⟨rfl, rfl⟩ := Prod.mk.inj (Option.some.inj h)
    cases token with
    | literal content =>
      obtain rfl := Option.some.inj hread
      rfl
    | word | punctuation => cases hread
  | case3 token rest value hread _ ih =>
    obtain ⟨result, hresult, hvalues⟩ := Option.map_eq_some_iff.mp h
    obtain ⟨rfl, hrest⟩ := Prod.mk.inj hvalues
    cases token with
    | literal content =>
      obtain rfl := Option.some.inj hread
      have hrow := ih (row ++ [content]) (hresult.trans (congrArg some (Prod.ext rfl hrest)))
      rw [readRows, hrow, List.append_assoc]
      rfl
    | word | punctuation => cases hread
  | case4 => cases h
  | case5 => cases h

/-- A statement that inserts one row. -/
theorem parseRows_of_parse {text : List Char} {insert : Insert} (h : parse text = some insert) :
    parseRows text = some [insert] := by
  obtain ⟨ts, hts, h⟩ := Option.bind_eq_some_iff.mp h
  obtain ⟨header, hheader, h⟩ := Option.bind_eq_some_iff.mp h
  obtain ⟨values, hvalues, rfl⟩ := Option.map_eq_some_iff.mp h
  have hlist : readList asLiteral header.2 = some (values, []) := by
    rw [readValues] at hvalues
    split at hvalues
    · next values' heq =>
      obtain rfl := Option.some.inj hvalues
      exact heq
    · cases hvalues
  rw [parseRows, hts, Option.bind_some, hheader, Option.bind_some, readRows_of_readList [] hlist]
  rfl

/-- A text from the first keyword of a selection to the sign in front of its literal. -/
def Selects (header column table key : List Char) : Prop :=
  run .between header = (.between, [.word ['S', 'E', 'L', 'E', 'C', 'T'], .word column,
    .word ['F', 'R', 'O', 'M'], .word table, .word ['W', 'H', 'E', 'R', 'E'], .word key,
    .punctuation '='])

instance (header column table key : List Char) : Decidable (Selects header column table key) :=
  inferInstanceAs (Decidable (_ = _))

/-- A fixed beginning with a literal behind it is read as a selection by what it denotes. -/
theorem parseSelect_append {column key : List Char} (h : Selects header column table key)
    (hvalue : doubledFrom false value = true) :
    parseSelect (header ++ quote :: (value ++ [quote])) =
      some ⟨column, table, key, undouble value⟩ := by
  have htokens : tokens (quote :: (value ++ [quote])) = some [.literal (undouble value)] := by
    rw [tokens, run, step, begin, if_pos rfl, run_append, run_literal_of_doubled hvalue]
    rfl
  rw [parseSelect, tokens_append (by rw [h]), h, htokens]
  rfl

/-- A selection inserts nothing. -/
theorem parseRows_eq_none {text : List Char} {select : Select}
    (h : parseSelect text = some select) : parseRows text = none := by
  obtain ⟨ts, hts, hselect⟩ := Option.bind_eq_some_iff.mp h
  rw [parseRows, hts, Option.bind_some]
  unfold readSelect at hselect
  split at hselect
  · next first column second table third key value =>
    -- a name stands where a header has its parenthesis
    cases second <;> rfl
  · cases hselect

/-! ### Fixed texts -/

/-- The characters of a literal are found faster than those of a text. -/
theorem toList_literal {text : String} {cs : List Char} (h : text = String.ofList cs) :
    text.toList = cs := by
  rw [h, String.toList_ofList]

theorem toList_append_literal {first second : String} {cs ds : List Char}
    (h : first.toList = cs) (h' : second = String.ofList ds) :
    (first ++ second).toList = cs ++ ds := by
  rw [String.toList_append, h, toList_literal h']

/-- A fixed text begins a statement if its characters do. -/
theorem begins_of_toList {text : String} {cs : List Char} (h : text.toList = cs)
    (hcs : Begins cs table columns) : Begins text.toList table columns := by
  rw [h]
  exact hcs

end Lib.InsertStatement

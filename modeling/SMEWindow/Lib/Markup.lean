import SMEWindow.Lib.Element

/-!
# The text of an element tree

An XML document of elements and text, as an indenting writer saves it and as a reader
that ignores white space loads it. The writer puts every element on a line of its own,
unless there is text beside it, escapes the characters of markup, and writes every line
end of a text as a carriage return and a line feed. The reader takes every line end for
a line feed, and drops a text that is nothing but white space.

So a text does not come back as it was written: its carriage returns are gone, and if it
was blank there is nothing left of it.

The writer has one tag for an element without content, and two for an element whose
content is an empty text. A `Tree` keeps the difference, which a `Node` does not.

## Main definitions

* `Lib.Markup.Tree` — an element tree with the tags of its empty elements
* `Lib.Markup.save`, `Lib.Markup.load` — the writer and the reader of documents
* `Lib.Markup.stored`, `Lib.Markup.reread` — what is left of a text, and of a tree

## Main results

* `load_save` — a saved document loads as what is left of it
* `stored_eq_self_iff` — which texts are left as they were
-/

set_option autoImplicit false

namespace Lib.Markup

open Lib.Element

/-- An element tree. An element without nodes is written in one tag, or in a pair of them. -/
inductive Tree
  | text (value : String)
  | element (name : String) (paired : Bool) (nodes : List Tree)

/-! ### Characters -/

/-- The white space of XML. -/
def isSpace (c : Char) : Bool := c = ' ' || c = '\t' || c = '\n' || c = '\r'

/-- The characters of XML. -/
def isXmlChar (c : Char) : Bool :=
  c = '\t' || c = '\n' || c = '\r' || (0x20 ≤ c.toNat && c.toNat ≤ 0xFFFD) || 0x10000 ≤ c.toNat

/-- The characters of names, as far as they are ASCII. -/
def isNameChar (c : Char) : Bool := c.isAlphanum || c = '_' || c = '-' || c = '.'

/-- The text with a line feed for every line end. -/
def lineFeeds : List Char → List Char
  | [] => []
  | '\r' :: '\n' :: cs => '\n' :: lineFeeds cs
  | '\r' :: cs => '\n' :: lineFeeds cs
  | c :: cs => c :: lineFeeds cs

/-- The text as it is written between two tags. -/
def escape : List Char → List Char
  | [] => []
  | '\r' :: '\n' :: cs => '\r' :: '\n' :: escape cs
  | '\r' :: cs => '\r' :: '\n' :: escape cs
  | '\n' :: cs => '\r' :: '\n' :: escape cs
  | '&' :: cs => '&' :: 'a' :: 'm' :: 'p' :: ';' :: escape cs
  | '<' :: cs => '&' :: 'l' :: 't' :: ';' :: escape cs
  | '>' :: cs => '&' :: 'g' :: 't' :: ';' :: escape cs
  | c :: cs => c :: escape cs

/-- The text that the five predefined references stand for. -/
def resolve : List Char → Option (List Char)
  | [] => some []
  | '&' :: 'a' :: 'm' :: 'p' :: ';' :: cs => (resolve cs).map ('&' :: ·)
  | '&' :: 'l' :: 't' :: ';' :: cs => (resolve cs).map ('<' :: ·)
  | '&' :: 'g' :: 't' :: ';' :: cs => (resolve cs).map ('>' :: ·)
  | '&' :: 'q' :: 'u' :: 'o' :: 't' :: ';' :: cs => (resolve cs).map ('\x22' :: ·)
  | '&' :: 'a' :: 'p' :: 'o' :: 's' :: ';' :: cs => (resolve cs).map ('\x27' :: ·)
  | '&' :: _ => none
  | c :: cs => (resolve cs).map (c :: ·)

/-- The text is nothing but white space. -/
def blank (cs : List Char) : Bool := cs.all isSpace

/-- Every character of the text is one of XML. -/
def XmlText (value : String) : Prop := value.toList.all isXmlChar = true

instance (value : String) : Decidable (XmlText value) := inferInstanceAs (Decidable (_ = _))

/-- What is left of a text. -/
def stored (value : String) : String :=
  if blank value.toList then "" else String.ofList (lineFeeds value.toList)

section Characters

variable {c : Char} {cs : List Char}

theorem lineFeeds_cons (h : c ≠ '\r') : lineFeeds (c :: cs) = c :: lineFeeds cs := by
  rw [lineFeeds]
  · exact fun _ hc _ => h hc
  · exact h

theorem resolve_cons (h : c ≠ '&') : resolve (c :: cs) = (resolve cs).map (c :: ·) := by
  rw [resolve]
  all_goals grind

theorem blank_escape (cs : List Char) : blank (escape cs) = blank cs := by
  unfold blank
  fun_induction escape cs with
  | case1 => rfl
  | case2 cs ih => simp [isSpace, ih]
  | case3 cs _ ih => simp [isSpace, ih]
  | case4 cs ih => simp [isSpace, ih]
  | case5 cs ih => simp [isSpace]
  | case6 cs ih => simp [isSpace]
  | case7 cs ih => simp [isSpace]
  | case8 c cs _ _ _ _ _ _ ih => rw [List.all_cons, List.all_cons, ih]

theorem lt_notMem_escape (cs : List Char) : '<' ∉ escape cs := by
  fun_induction escape cs with
  | case1 => exact List.not_mem_nil
  | case2 cs ih => simp [ih]
  | case3 cs _ ih => simp [ih]
  | case4 cs ih => simp [ih]
  | case5 cs ih => simp [ih]
  | case6 cs ih => simp [ih]
  | case7 cs ih => simp [ih]
  | case8 c cs _ _ _ _ hlt _ ih => exact List.not_mem_cons_of_ne_of_not_mem (Ne.symm hlt) ih

/-- The references stand for the characters that were escaped, and every line end is a line
feed. -/
theorem resolve_lineFeeds_escape (cs : List Char) :
    resolve (lineFeeds (escape cs)) = some (lineFeeds cs) := by
  fun_induction escape cs with
  | case1 => rfl
  | case2 cs ih => simp [lineFeeds, resolve, ih]
  | case3 cs _ ih => simp [lineFeeds, resolve, ih]
  | case4 cs ih => simp [lineFeeds, resolve, ih]
  | case5 cs ih => simp [lineFeeds, resolve, ih]
  | case6 cs ih => simp [lineFeeds, resolve, ih]
  | case7 cs ih => simp [lineFeeds, resolve, ih]
  | case8 c cs _ hreturn _ hamp _ _ ih =>
    rw [lineFeeds_cons hreturn, lineFeeds_cons hreturn, resolve_cons hamp, ih, Option.map_some]

theorem all_isXmlChar_lineFeeds (h : cs.all isXmlChar = true) :
    (lineFeeds cs).all isXmlChar = true := by
  fun_induction lineFeeds cs with
  | case1 => rfl
  | case2 cs ih => simp_all [isXmlChar]
  | case3 cs _ ih => simp_all [isXmlChar]
  | case4 c cs _ _ ih => simp_all

end Characters

/-! ### Writing -/

/-- The line end and the indentation before a tag. -/
def indent (level : ℕ) : List Char := '\r' :: '\n' :: List.replicate (2 * level) ' '

def Tree.isText : Tree → Bool
  | .text _ => true
  | .element _ _ _ => false

mutual

/-- A node inside of `level` others; `mixed` says that there is text beside one of them. -/
def Tree.write (level : ℕ) (mixed : Bool) : Tree → List Char
  | .text value => escape value.toList
  | .element name paired nodes =>
    (if mixed then [] else indent level) ++ ('<' :: name.toList ++
      if nodes.isEmpty && !paired then [' ', '/', '>']
      else '>' :: (writeAll (level + 1) mixed nodes ++
        ((if mixed || nodes.isEmpty || nodes.any Tree.isText then [] else indent level) ++
          ('<' :: '/' :: name.toList ++ ['>']))))

/-- The nodes of an element. Behind a text there is no indentation. -/
def writeAll (level : ℕ) (mixed : Bool) : List Tree → List Char
  | [] => []
  | node :: nodes => node.write level mixed ++ writeAll level (mixed || node.isText) nodes

end

/-- The declaration up to its closing bracket. -/
def declaration : List Char := "<?xml version=\"1.0\" encoding=\"utf-8\"?".toList

/-- A document with its declaration. -/
def save (root : Tree) : List Char := declaration ++ '>' :: root.write 0 false

/-! ### Reading -/

/-- What the reader finds in a document. -/
inductive Token
  | start (name : String)
  | finish (name : String)
  /-- An element in one tag. -/
  | single (name : String)
  | text (value : String)
  deriving DecidableEq, Repr

/-- Where the reader is: between two tags or inside of one, and what it has read there. -/
inductive Mode
  | run (pending : List Char)
  | tag (pending : List Char)

structure Lexer where
  tokens : List Token
  mode : Mode

/-- A name with white space behind it. Attributes are not read. -/
def parseName (cs : List Char) : Option String :=
  let name := (cs.reverse.dropWhile isSpace).reverse
  if name ≠ [] ∧ name.all isNameChar then some (String.ofList name) else none

/-- What stands between two brackets. Comments and instructions are not read. -/
def tagToken : List Char → Option Token
  | '/' :: cs => (parseName cs).map .finish
  | cs =>
    if cs.getLast? = some '/' then (parseName cs.dropLast).map .single
    else (parseName cs).map .start

/-- What stands between two tags. -/
def flush (pending : List Char) : Option (List Token) :=
  if blank pending then some []
  else (resolve (lineFeeds pending)).bind fun value =>
    if value.all isXmlChar then some [.text (String.ofList value)] else none

/-- The next character of a document. -/
def lexChar (lexer : Lexer) (c : Char) : Option Lexer :=
  match lexer.mode with
  | .run pending =>
    if c = '<' then (flush pending).map fun text => ⟨lexer.tokens ++ text, .tag []⟩
    else some { lexer with mode := .run (pending ++ [c]) }
  | .tag pending =>
    if c = '>' then (tagToken pending).map fun token => ⟨lexer.tokens ++ [token], .run []⟩
    else some { lexer with mode := .tag (pending ++ [c]) }

/-- The tokens of a document. -/
def lex (cs : List Char) : Option (List Token) :=
  match cs.foldlM lexChar ⟨[], .run []⟩ with
  | some ⟨tokens, .run pending⟩ => if blank pending then some tokens else none
  | _ => none

/-- An element that is not finished yet. -/
structure Level where
  name : String
  nodes : List Tree

/-- A node is added to the innermost element. -/
def place (node : Tree) : List Level → Option (List Level)
  | [] => none
  | level :: levels => some (⟨level.name, level.nodes ++ [node]⟩ :: levels)

/-- The next token of a document. -/
def build (levels : List Level) : Token → Option (List Level)
  | .start name => some (⟨name, []⟩ :: levels)
  | .single name => place (.element name false []) levels
  | .text value => place (.text value) levels
  | .finish name =>
    match levels with
    | [] => none
    | level :: levels =>
      if level.name = name then place (.element name true level.nodes) levels else none

/-- The root element, which is all there is. -/
def parse (tokens : List Token) : Option Tree :=
  match tokens.foldlM build [⟨"", []⟩] with
  | some [⟨_, [.element name paired nodes]⟩] => some (.element name paired nodes)
  | _ => none

/-- What follows the declaration, if the document begins with one. -/
def dropDeclaration (cs : List Char) : List Char :=
  if "<?xml ".toList.isPrefixOf cs then (cs.dropWhile (· ≠ '>')).tail else cs

/-- `none` for a document that is not well-formed, and for one with attributes, comments,
instructions or other references. -/
def load (cs : List Char) : Option Tree := (lex (dropDeclaration cs)).bind parse

/-! ### What can be written -/

/-- A name that the reader knows. -/
def IsName (name : String) : Prop := name ≠ "" ∧ name.toList.all isNameChar = true

instance (name : String) : Decidable (IsName name) := inferInstanceAs (Decidable (_ ∧ _))

/-- No two texts stand beside each other. -/
def Apart (nodes : List Node) : Prop :=
  nodes.IsChain fun node next => node.isElement = true ∨ next.isElement = true

/-- Every name is one, every character is one of XML, and texts are apart. -/
inductive Writable : Node → Prop
  | text {value : String} (h : XmlText value) : Writable (.text value)
  | element {name : String} {nodes : List Node} (hname : IsName name)
      (hnodes : ∀ node ∈ nodes, Writable node) (hapart : Apart nodes) :
      Writable (.element name nodes)

mutual

/-- Every character is one of XML. -/
def legal : Node → Bool
  | .text value => value.toList.all isXmlChar
  | .element _ nodes => legalAll nodes

def legalAll : List Node → Bool
  | [] => true
  | node :: nodes => legal node && legalAll nodes

end

theorem legal_element {name : String} {nodes : List Node} :
    legal (.element name nodes) = true ↔ ∀ node ∈ nodes, legal node = true := by
  rw [legal]
  induction nodes with
  | nil => simp [legalAll]
  | cons node nodes ih => rw [legalAll, Bool.and_eq_true, ih, List.forall_mem_cons]

theorem legal_content {value : Option String} :
    (∀ node ∈ content value, legal node = true) ↔ XmlText (value.getD "") := by
  unfold XmlText
  cases value with
  | none => simp [content]
  | some value =>
    by_cases hempty : value = ""
    · simp [content, hempty]
    · simp [content, hempty, legal]

theorem legal_leaf {name : String} {value : Option String} :
    legal (leaf name value) = true ↔ XmlText (value.getD "") := by
  rw [leaf, legal_element, legal_content]

theorem apart_of_isElement {nodes : List Node} (h : ∀ node ∈ nodes, node.isElement = true) :
    Apart nodes := by
  refine List.isChain_iff_getElem.mpr fun i hi => .inl ?_
  exact h _ (List.getElem_mem (by omega))

theorem apart_content (value : Option String) : Apart (content value) := by
  cases value with
  | none => exact .nil
  | some value =>
    rw [content]
    split_ifs
    · exact .nil
    · exact .singleton _

/-- The node is an element that can be written. -/
def WritableElement (node : Node) : Prop := Writable node ∧ node.isElement = true

/-- An element that holds elements. -/
theorem writableElement_of_forall {name : String} {nodes : List Node} (hname : IsName name)
    (h : ∀ node ∈ nodes, WritableElement node) : WritableElement (.element name nodes) :=
  ⟨.element hname (fun node hnode => (h node hnode).1)
    (apart_of_isElement fun node hnode => (h node hnode).2), rfl⟩

/-- An element that holds a text. -/
theorem writableElement_leaf {name : String} {value : Option String} (hname : IsName name)
    (h : legal (leaf name value) = true) : WritableElement (leaf name value) := by
  refine ⟨.element hname (fun node hnode => ?_) (apart_content value), rfl⟩
  have hlegal := legal_element.mp h node hnode
  cases value with
  | none => cases hnode
  | some value =>
    rw [content] at hnode
    split_ifs at hnode
    · cases hnode
    · obtain rfl := List.mem_singleton.mp hnode
      exact .text hlegal

mutual

/-- The tree without the tags of its empty elements. -/
def Tree.node : Tree → Node
  | .text value => .text value
  | .element name _ nodes => .element name (nodeAll nodes)

def nodeAll : List Tree → List Node
  | [] => []
  | node :: nodes => node.node :: nodeAll nodes

end

theorem nodeAll_eq_map (nodes : List Tree) : nodeAll nodes = nodes.map Tree.node := by
  induction nodes with
  | nil => rfl
  | cons node nodes ih => rw [nodeAll, ih, List.map_cons]

mutual

/-- The tree with one tag for each of its empty elements. -/
def ofNode : Node → Tree
  | .text value => .text value
  | .element name nodes => .element name false (ofNodeAll nodes)

def ofNodeAll : List Node → List Tree
  | [] => []
  | node :: nodes => ofNode node :: ofNodeAll nodes

end

mutual

theorem node_ofNode (node : Node) : (ofNode node).node = node := by
  match node with
  | .text value => rfl
  | .element name nodes => rw [ofNode, Tree.node, nodeAll_ofNodeAll nodes]

theorem nodeAll_ofNodeAll (nodes : List Node) : nodeAll (ofNodeAll nodes) = nodes := by
  match nodes with
  | [] => rfl
  | node :: nodes => rw [ofNodeAll, nodeAll, node_ofNode node, nodeAll_ofNodeAll nodes]

end

theorem isText_eq (node : Tree) : node.isText = !node.node.isElement := by
  cases node <;> rfl

section Nodes

variable {nodes : List Tree}

/-- The parts of an element that can be written. -/
theorem Writable.parts {name : String} {paired : Bool}
    (h : Writable (Tree.element name paired nodes).node) :
    IsName name ∧ (∀ node ∈ nodes, Writable node.node) ∧ Apart (nodes.map Tree.node) := by
  rw [Tree.node, nodeAll_eq_map] at h
  obtain ⟨⟩ | ⟨hname, hnodes, hapart⟩ := h
  exact ⟨hname, fun node hnode => hnodes _ (List.mem_map_of_mem hnode), hapart⟩

theorem Apart.tail {node : Node} (h : Apart (node :: nodes.map Tree.node)) :
    Apart (nodes.map Tree.node) :=
  List.isChain_of_isChain_cons h

theorem Apart.head {value : String} (h : Apart (.text value :: nodes.map Tree.node)) :
    ∀ node ∈ nodes.head?, node.isText = false := by
  intro node hnode
  cases nodes with
  | nil => cases hnode
  | cons next nodes =>
    obtain rfl := Option.some.inj hnode
    rw [List.map_cons] at h
    obtain htext | hnext := (List.isChain_cons_cons.mp h).1
    · cases htext
    · rw [isText_eq, hnext]
      rfl

end Nodes

mutual

/-- The tokens of a node. -/
def Tree.tokens : Tree → List Token
  | .text value =>
    if blank value.toList then [] else [.text (String.ofList (lineFeeds value.toList))]
  | .element name paired nodes =>
    if nodes.isEmpty && !paired then [.single name]
    else .start name :: (tokensAll nodes ++ [.finish name])

def tokensAll : List Tree → List Token
  | [] => []
  | node :: nodes => node.tokens ++ tokensAll nodes

end

mutual

/-- What is left of a node. -/
def Tree.loaded : Tree → List Tree
  | .text value =>
    if blank value.toList then [] else [.text (String.ofList (lineFeeds value.toList))]
  | .element name paired nodes => [.element name (paired || !nodes.isEmpty) (loadedAll nodes)]

def loadedAll : List Tree → List Tree
  | [] => []
  | node :: nodes => node.loaded ++ loadedAll nodes

end

/-! ### From characters to tokens -/

section Lexer

variable {tokens text : List Token} {token : Token} {pending cs rest : List Char} {name : String}

/-- Characters between two tags are kept. -/
theorem foldlM_run (h : '<' ∉ cs) (pending rest : List Char) :
    (cs ++ rest).foldlM lexChar ⟨tokens, .run pending⟩ =
      rest.foldlM lexChar ⟨tokens, .run (pending ++ cs)⟩ := by
  induction cs generalizing pending with
  | nil => rw [List.nil_append, List.append_nil]
  | cons c cs ih =>
    rw [List.mem_cons, not_or] at h
    rw [List.cons_append, List.foldlM_cons, lexChar]
    simp only [if_neg (Ne.symm h.1), Option.bind_eq_bind, Option.bind_some]
    rw [ih h.2, List.append_assoc, List.singleton_append]

/-- Characters inside of a tag are kept. -/
theorem foldlM_tag (h : '>' ∉ cs) (pending rest : List Char) :
    (cs ++ rest).foldlM lexChar ⟨tokens, .tag pending⟩ =
      rest.foldlM lexChar ⟨tokens, .tag (pending ++ cs)⟩ := by
  induction cs generalizing pending with
  | nil => rw [List.nil_append, List.append_nil]
  | cons c cs ih =>
    rw [List.mem_cons, not_or] at h
    rw [List.cons_append, List.foldlM_cons, lexChar]
    simp only [if_neg (Ne.symm h.1), Option.bind_eq_bind, Option.bind_some]
    rw [ih h.2, List.append_assoc, List.singleton_append]

/-- A tag begins. -/
theorem foldlM_open (hflush : flush pending = some text) (rest : List Char) :
    ('<' :: rest).foldlM lexChar ⟨tokens, .run pending⟩ =
      rest.foldlM lexChar ⟨tokens ++ text, .tag []⟩ := by
  rw [List.foldlM_cons, lexChar]
  simp only [if_true, hflush, Option.map_some, Option.bind_eq_bind, Option.bind_some]

/-- A tag ends. -/
theorem foldlM_close (htoken : tagToken pending = some token) (rest : List Char) :
    ('>' :: rest).foldlM lexChar ⟨tokens, .tag pending⟩ =
      rest.foldlM lexChar ⟨tokens ++ [token], .run []⟩ := by
  rw [List.foldlM_cons, lexChar]
  simp only [if_true, htoken, Option.map_some, Option.bind_eq_bind, Option.bind_some]

/-- A whole tag. -/
theorem foldlM_of_tagToken (h : '>' ∉ cs) (htoken : tagToken cs = some token)
    (rest : List Char) : (cs ++ '>' :: rest).foldlM lexChar ⟨tokens, .tag []⟩ =
      rest.foldlM lexChar ⟨tokens ++ [token], .run []⟩ := by
  rw [foldlM_tag h, List.nil_append, foldlM_close htoken]

theorem ne_of_isNameChar {c d : Char} (hc : isNameChar c = true) (hd : isNameChar d = false) :
    c ≠ d := by
  rintro rfl
  exact Bool.false_ne_true (hd.symm.trans hc)

theorem IsName.notMem (h : IsName name) {c : Char} (hc : isNameChar c = false) :
    c ∉ name.toList :=
  fun hmem => ne_of_isNameChar (List.all_eq_true.mp h.2 c hmem) hc rfl

theorem IsName.ne_nil (h : IsName name) : name.toList ≠ [] :=
  fun hnil => h.1 (String.toList_eq_nil_iff.mp hnil)

theorem not_isSpace_of_isNameChar {c : Char} (h : isNameChar c = true) : isSpace c = false := by
  have hne : ∀ d, isNameChar d = false → c ≠ d := fun d => ne_of_isNameChar h
  simp [isSpace, hne ' ' rfl, hne '\t' rfl, hne '\n' rfl, hne '\r' rfl]

/-- A name is read, with or without white space behind it. -/
theorem parseName_append (h : IsName name) {spaces : List Char} (hspaces : blank spaces = true) :
    parseName (name.toList ++ spaces) = some name := by
  have hdrop : ((name.toList ++ spaces).reverse.dropWhile isSpace).reverse = name.toList := by
    rw [List.reverse_append, List.dropWhile_append_of_pos]
    · have hlast : name.toList.reverse.dropWhile isSpace = name.toList.reverse := by
        cases hname : name.toList.reverse with
        | nil => rfl
        | cons c cs =>
          have hc : c ∈ name.toList := List.mem_reverse.mp (hname ▸ List.mem_cons_self)
          rw [List.dropWhile_cons_of_neg]
          rw [not_isSpace_of_isNameChar (List.all_eq_true.mp h.2 c hc)]
          exact Bool.false_ne_true
      rw [hlast, List.reverse_reverse]
    · intro c hc
      exact List.all_eq_true.mp hspaces c (List.mem_reverse.mp hc)
  rw [parseName]
  simp only [hdrop]
  rw [if_pos ⟨h.ne_nil, h.2⟩, String.ofList_toList]

theorem parseName_toList (h : IsName name) : parseName name.toList = some name := by
  have hname : parseName (name.toList ++ []) = some name := parseName_append h rfl
  rwa [List.append_nil] at hname

theorem tagToken_finish (h : IsName name) :
    tagToken ('/' :: name.toList) = some (.finish name) := by
  rw [tagToken, parseName_toList h, Option.map_some]

/-- A tag that does not begin with a slash. -/
theorem tagToken_of_name (h : IsName name) (suffix : List Char) :
    tagToken (name.toList ++ suffix) =
      if (name.toList ++ suffix).getLast? = some '/' then
        (parseName (name.toList ++ suffix).dropLast).map .single
      else (parseName (name.toList ++ suffix)).map .start := by
  cases hname : name.toList with
  | nil => exact absurd hname h.ne_nil
  | cons c cs =>
    have hmem : c ∈ name.toList := hname ▸ List.mem_cons_self
    have hne : c ≠ '/' := ne_of_isNameChar (List.all_eq_true.mp h.2 c hmem) rfl
    rw [List.cons_append, tagToken]
    exact fun _ heq => hne (List.cons.inj heq).1

theorem tagToken_start (h : IsName name) : tagToken name.toList = some (.start name) := by
  have htoken := tagToken_of_name h []
  rw [List.append_nil] at htoken
  rw [htoken, if_neg, parseName_toList h, Option.map_some]
  exact fun hlast => h.notMem rfl (List.mem_of_getLast? hlast)

theorem tagToken_single (h : IsName name) :
    tagToken (name.toList ++ [' ', '/']) = some (.single name) := by
  have hsplit : name.toList ++ [' ', '/'] = (name.toList ++ [' ']) ++ ['/'] := by simp
  rw [tagToken_of_name h, if_pos (by simp), hsplit, List.dropLast_concat,
    parseName_append h rfl, Option.map_some]

theorem flush_of_blank (h : blank pending = true) : flush pending = some [] := by
  rw [flush, if_pos h]

theorem flush_nil : flush [] = some [] := rfl

theorem blank_indent (level : ℕ) : blank (indent level) = true := by
  simp [blank, indent, isSpace]

theorem lt_notMem_indent (level : ℕ) : '<' ∉ indent level := by
  simp [indent]

theorem flush_escape {value : String} (h : XmlText value) :
    flush (escape value.toList) = some (Tree.text value).tokens := by
  rw [flush, blank_escape, Tree.tokens]
  split_ifs with hblank
  · rfl
  · rw [resolve_lineFeeds_escape, Option.bind_some, if_pos (all_isXmlChar_lineFeeds h)]

end Lexer

/-- The indentation in front of a tag is not a text, and before it there is none. -/
def Clear (mixed : Bool) (pending : List Char) : Prop := mixed = false → pending = []

section Lexing

/-- An indentation in front of a tag leaves nothing. -/
theorem foldlM_indent {tokens text : List Token} {pending : List Char} {mixed : Bool}
    (hclear : Clear mixed pending)
    (hflush : flush pending = some text) (level : ℕ) (rest : List Char) :
    ((if mixed then [] else indent level) ++ '<' :: rest).foldlM lexChar
        ⟨tokens, .run pending⟩ = rest.foldlM lexChar ⟨tokens ++ text, .tag []⟩ := by
  cases mixed with
  | true => exact foldlM_open hflush rest
  | false =>
    obtain rfl := hclear rfl
    obtain rfl : [] = text := Option.some.inj hflush
    rw [if_neg Bool.false_ne_true, foldlM_run (lt_notMem_indent level), List.nil_append,
      foldlM_open (flush_of_blank (blank_indent level))]

mutual

/-- An element is read as its tokens, behind the text that was pending. -/
theorem foldlM_write {tokens text : List Token} {pending : List Char} (level : ℕ) (mixed : Bool)
    {name : String} {paired : Bool} {nodes : List Tree}
    (h : Writable (Tree.element name paired nodes).node) (hclear : Clear mixed pending)
    (hflush : flush pending = some text) (rest : List Char) :
    ((Tree.element name paired nodes).write level mixed ++ rest).foldlM lexChar
        ⟨tokens, .run pending⟩ =
      rest.foldlM lexChar
        ⟨tokens ++ text ++ (Tree.element name paired nodes).tokens, .run []⟩ := by
  obtain ⟨hname, hnodes, hapart⟩ := h.parts
  rw [Tree.write, List.append_assoc, List.cons_append, List.cons_append,
    foldlM_indent hclear hflush]
  have hgt : '>' ∉ name.toList := hname.notMem rfl
  cases hsingle : nodes.isEmpty && !paired with
  | true =>
    have htoken : (Tree.element name paired nodes).tokens = [.single name] := by
      rw [Tree.tokens, hsingle, if_pos rfl]
    rw [htoken, if_pos rfl, List.append_assoc]
    have hsplit : name.toList ++ ([' ', '/', '>'] ++ rest) =
        (name.toList ++ [' ', '/']) ++ '>' :: rest := by simp
    rw [hsplit, foldlM_of_tagToken (by simp [hgt]) (tagToken_single hname)]
  | false =>
    have htoken : (Tree.element name paired nodes).tokens =
        .start name :: (tokensAll nodes ++ [.finish name]) := by
      rw [Tree.tokens, hsingle, if_neg Bool.false_ne_true]
    -- behind its nodes the end tag is indented, unless there is text
    have hclose : mixed = false ∧ nodes.any Tree.isText = false ∨
        (mixed || nodes.isEmpty || nodes.any Tree.isText) = true := by
      cases mixed <;> cases nodes.any Tree.isText <;> simp
    have hfinish : '>' ∉ '/' :: name.toList := by simp [hgt]
    rw [htoken, if_neg Bool.false_ne_true]
    simp only [List.append_assoc, List.cons_append, List.nil_append]
    rw [foldlM_of_tagToken hgt (tagToken_start hname), foldlM_writeAll (level + 1) mixed nodes
      hnodes hapart (fun _ => rfl) (fun hne => absurd rfl hne) flush_nil hclose level,
      ← List.cons_append, foldlM_of_tagToken hfinish (tagToken_finish hname)]
    simp only [List.append_assoc, List.cons_append, List.nil_append]
termination_by sizeOf (Tree.element name paired nodes)

/-- The nodes of an element are read as their tokens up to the next tag. If that tag is
indented, there is no text. -/
theorem foldlM_writeAll {tokens text : List Token} {pending : List Char} (level : ℕ)
    (mixed : Bool) (nodes : List Tree)
    (h : ∀ node ∈ nodes, Writable node.node) (hapart : Apart (nodes.map Tree.node))
    (hclear : Clear mixed pending)
    (hpending : pending ≠ [] → ∀ node ∈ nodes.head?, node.isText = false)
    (hflush : flush pending = some text) {close : Bool}
    (hclose : mixed = false ∧ nodes.any Tree.isText = false ∨ close = true)
    (outer : ℕ) (rest : List Char) :
    (writeAll level mixed nodes ++ ((if close then [] else indent outer) ++ '<' :: rest)).foldlM
        lexChar ⟨tokens, .run pending⟩ =
      rest.foldlM lexChar ⟨tokens ++ text ++ tokensAll nodes, .tag []⟩ := by
  match nodes with
  | [] =>
    have hclear' : Clear close pending := by
      intro hfalse
      rcases hclose with hmixed | hclose
      · exact hclear hmixed.1
      · exact nomatch hclose.symm.trans hfalse
    rw [writeAll, List.nil_append, foldlM_indent hclear' hflush, tokensAll, List.append_nil]
  | .text value :: nodes =>
    -- texts do not stand side by side, so nothing is pending
    have hnil : pending = [] := by
      by_contra hne
      exact absurd (hpending hne _ rfl) (by simp [Tree.isText])
    subst hnil
    obtain rfl : [] = text := Option.some.inj hflush
    have hvalue : XmlText value := by
      obtain ⟨hvalue⟩ : Writable (.text value) := h _ List.mem_cons_self
      exact hvalue
    have hclose' : close = true := by simpa [Tree.isText] using hclose
    rw [writeAll, Tree.write, List.append_assoc, foldlM_run (lt_notMem_escape _),
      List.nil_append, Tree.isText, Bool.or_true,
      foldlM_writeAll level true nodes (fun node hnode => h node (List.mem_cons_of_mem _ hnode))
        hapart.tail (fun hfalse => (nomatch hfalse)) (fun _ => hapart.head)
        (flush_escape hvalue) (.inr hclose') outer,
      List.append_nil, List.append_assoc, tokensAll]
  | .element name paired inner :: nodes =>
    rw [writeAll, List.append_assoc, foldlM_write level mixed (h _ List.mem_cons_self) hclear
      hflush, Tree.isText, Bool.or_false,
      foldlM_writeAll level mixed nodes (fun node hnode => h node (List.mem_cons_of_mem _ hnode))
        hapart.tail (fun _ => rfl) (fun hne => absurd rfl hne) flush_nil ?_ outer,
      List.append_nil, List.append_assoc, tokensAll]
    simpa [Tree.isText] using hclose
termination_by sizeOf nodes

end

/-- The characters of an element are its tokens. -/
theorem lex_write {name : String} {paired : Bool} {nodes : List Tree}
    (h : Writable (Tree.element name paired nodes).node) :
    lex ((Tree.element name paired nodes).write 0 false) =
      some (Tree.element name paired nodes).tokens := by
  have hrun : ((Tree.element name paired nodes).write 0 false ++ []).foldlM lexChar
      ⟨[], .run []⟩ = some ⟨(Tree.element name paired nodes).tokens, .run []⟩ :=
    foldlM_write 0 false h (fun _ => rfl) flush_nil []
  rw [List.append_nil] at hrun
  rw [lex, hrun]
  rfl

end Lexing

/-! ### From tokens to a tree -/

section Building

mutual

/-- The tokens of a node add what is left of it to the innermost element. -/
theorem foldlM_tokens (node : Tree) (level : Level) (levels : List Level) :
    node.tokens.foldlM build (level :: levels) =
      some (⟨level.name, level.nodes ++ node.loaded⟩ :: levels) := by
  match node with
  | .text value =>
    rw [Tree.tokens, Tree.loaded]
    split_ifs with hblank
    · rw [List.append_nil]
      rfl
    · rfl
  | .element name paired nodes =>
    rw [Tree.tokens, Tree.loaded]
    cases hsingle : nodes.isEmpty && !paired with
    | true =>
      rw [Bool.and_eq_true, List.isEmpty_iff, Bool.not_eq_true'] at hsingle
      obtain ⟨rfl, rfl⟩ := hsingle
      rfl
    | false =>
      have hpaired : (paired || !nodes.isEmpty) = true := by
        cases paired <;> cases hempty : nodes.isEmpty <;> simp_all
      rw [if_neg Bool.false_ne_true, hpaired, List.foldlM_cons, build, Option.bind_eq_bind,
        Option.bind_some, List.foldlM_append, foldlM_tokensAll nodes ⟨name, []⟩ (level :: levels),
        Option.bind_eq_bind, Option.bind_some, List.foldlM_cons, build]
      simp only [if_true, List.nil_append]
      rfl

theorem foldlM_tokensAll (nodes : List Tree) (level : Level) (levels : List Level) :
    (tokensAll nodes).foldlM build (level :: levels) =
      some (⟨level.name, level.nodes ++ loadedAll nodes⟩ :: levels) := by
  match nodes with
  | [] =>
    rw [loadedAll, List.append_nil]
    rfl
  | node :: nodes =>
    rw [tokensAll, loadedAll, List.foldlM_append, foldlM_tokens node, Option.bind_eq_bind,
      Option.bind_some, foldlM_tokensAll nodes, List.append_assoc]

end

end Building

theorem dropDeclaration_save (root : Tree) : dropDeclaration (save root) = root.write 0 false := by
  have hprefix : "<?xml ".toList.isPrefixOf (save root) = true := rfl
  have hdeclaration : declaration.all (· ≠ '>') = true := by decide +kernel
  have hdrop : (save root).dropWhile (· ≠ '>') = '>' :: root.write 0 false := by
    rw [save, List.dropWhile_append_of_pos (List.all_eq_true.mp hdeclaration),
      List.dropWhile_cons_of_neg (by decide)]
  rw [dropDeclaration, if_pos hprefix, hdrop, List.tail_cons]

theorem load_save_element {name : String} {paired : Bool} {nodes : List Tree}
    (h : Writable (Tree.element name paired nodes).node) :
    load (save (.element name paired nodes)) =
      some (.element name (paired || !nodes.isEmpty) (loadedAll nodes)) := by
  have hbuild := foldlM_tokens (.element name paired nodes) ⟨"", []⟩ []
  rw [List.nil_append, Tree.loaded] at hbuild
  rw [load, dropDeclaration_save, lex_write h, Option.bind_some, parse, hbuild]

/-! ### What is left -/

mutual

/-- What is left of a node. -/
def reread : Node → List Node
  | .text value => content (some (stored value))
  | .element name nodes => [.element name (rereadAll nodes)]

def rereadAll : List Node → List Node
  | [] => []
  | node :: nodes => reread node ++ rereadAll nodes

end

theorem lineFeeds_ne_nil {cs : List Char} (h : cs ≠ []) : lineFeeds cs ≠ [] := by
  unfold lineFeeds
  split
  · exact h
  · exact List.cons_ne_nil _ _
  · exact List.cons_ne_nil _ _
  · exact List.cons_ne_nil _ _

theorem content_stored (value : String) :
    content (some (stored value)) = if blank value.toList then []
      else [.text (String.ofList (lineFeeds value.toList))] := by
  unfold stored
  split_ifs with hblank
  · rfl
  · have hne : String.ofList (lineFeeds value.toList) ≠ "" := by
      intro hempty
      rw [← String.toList_eq_nil_iff, String.toList_ofList] at hempty
      refine lineFeeds_ne_nil (fun hnil => hblank ?_) hempty
      rw [hnil]
      rfl
    rw [content, if_neg hne]

mutual

theorem map_node_loaded (node : Tree) : node.loaded.map Tree.node = reread node.node := by
  match node with
  | .text value =>
    rw [Tree.loaded, Tree.node, reread, content_stored]
    split_ifs
    · rfl
    · rfl
  | .element name paired nodes =>
    rw [Tree.loaded, Tree.node, reread, List.map_singleton, Tree.node, nodeAll_eq_map,
      map_node_loadedAll nodes]

theorem map_node_loadedAll (nodes : List Tree) :
    (loadedAll nodes).map Tree.node = rereadAll (nodeAll nodes) := by
  match nodes with
  | [] => rfl
  | node :: nodes =>
    rw [loadedAll, nodeAll, rereadAll, List.map_append, map_node_loaded node,
      map_node_loadedAll nodes]

end

/-- **A saved document loads as what is left of it.** Whatever tags its empty elements have:
every text has lost its carriage returns, and a blank one is gone. -/
theorem load_save (root : Tree) {name : String} {nodes : List Node}
    (hroot : root.node = .element name nodes) (h : Writable root.node) :
    ∃ back, load (save root) = some back ∧ back.node = .element name (rereadAll nodes) := by
  cases root with
  | text value => cases hroot
  | element _ paired trees =>
    obtain ⟨rfl, rfl⟩ := Node.element.inj hroot
    refine ⟨_, load_save_element h, ?_⟩
    rw [Tree.node, nodeAll_eq_map, map_node_loadedAll]

theorem rereadAll_content (value : Option String) :
    rereadAll (content value) = content (value.map stored) := by
  cases value with
  | none => rfl
  | some value =>
    by_cases hempty : value = ""
    · subst hempty
      rfl
    · rw [content, if_neg hempty, rereadAll, rereadAll, List.append_nil, reread]
      rfl

theorem reread_leaf (name : String) (value : Option String) :
    reread (leaf name value) = [leaf name (value.map stored)] := by
  rw [leaf, reread, rereadAll_content]
  rfl

theorem rereadAll_append (nodes nodes' : List Node) :
    rereadAll (nodes ++ nodes') = rereadAll nodes ++ rereadAll nodes' := by
  induction nodes with
  | nil => rfl
  | cons node nodes ih => rw [List.cons_append, rereadAll, rereadAll, ih, List.append_assoc]

/-- Texts leave no elements. -/
theorem elements_rereadAll {nodes : List Node} (h : elements nodes = []) :
    elements (rereadAll nodes) = [] := by
  induction nodes with
  | nil => rfl
  | cons node nodes ih =>
    cases node with
    | element name inner => cases h
    | text value =>
      have hnodes : elements nodes = [] := h
      rw [rereadAll, reread, elements, List.filter_append]
      exact List.append_eq_nil_iff.mpr ⟨elements_content _, ih hnodes⟩

/-! ### Texts that are left as they were -/

/-- The text has no carriage return, and is empty or not blank. -/
def Kept (value : String) : Prop :=
  '\r' ∉ value.toList ∧ (blank value.toList = true → value = "")

instance (value : String) : Decidable (Kept value) := inferInstanceAs (Decidable (_ ∧ _))

theorem return_notMem_lineFeeds (cs : List Char) : '\r' ∉ lineFeeds cs := by
  fun_induction lineFeeds cs with
  | case1 => exact List.not_mem_nil
  | case2 cs ih => simp [ih]
  | case3 cs _ ih => simp [ih]
  | case4 c cs _ hreturn ih => exact List.not_mem_cons_of_ne_of_not_mem (Ne.symm hreturn) ih

theorem lineFeeds_eq_self_iff {cs : List Char} : lineFeeds cs = cs ↔ '\r' ∉ cs := by
  constructor
  · intro h
    rw [← h]
    exact return_notMem_lineFeeds cs
  · intro h
    induction cs with
    | nil => rfl
    | cons c cs ih =>
      rw [List.mem_cons, not_or] at h
      rw [lineFeeds_cons (Ne.symm h.1), ih h.2]

theorem stored_eq_self_iff {value : String} : stored value = value ↔ Kept value := by
  unfold stored Kept
  cases hblank : blank value.toList with
  | true =>
    rw [if_pos rfl]
    constructor
    · rintro rfl
      exact ⟨List.not_mem_nil, fun _ => rfl⟩
    · intro h
      exact (h.2 rfl).symm
  | false =>
    rw [if_neg Bool.false_ne_true, ← String.toList_inj, String.toList_ofList,
      lineFeeds_eq_self_iff]
    exact ⟨fun h => ⟨h, fun hfalse => (nomatch hfalse)⟩, fun h => h.1⟩

/-- A text without white space is left as it was. -/
theorem kept_of_not_isSpace {value : String} (h : ∀ c ∈ value.toList, isSpace c = false) :
    Kept value := by
  refine ⟨fun hreturn => Bool.true_eq_false.mp (h _ hreturn), fun hblank => ?_⟩
  rw [← String.toList_eq_nil_iff, List.eq_nil_iff_forall_not_mem]
  intro c hc
  exact Bool.false_ne_true ((h c hc).symm.trans (List.all_eq_true.mp hblank c hc))

theorem reread_leaf_of_kept {value : String} (h : Kept value) (name : String) :
    reread (leaf name (some value)) = [leaf name (some value)] := by
  rw [reread_leaf, Option.map_some, stored_eq_self_iff.mpr h]

end Lib.Markup

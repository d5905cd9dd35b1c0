import SMEWindow.Lib.Text

/-!
# Element trees

The tree of an XML document: elements with a name and child nodes, and text. Null
text and empty text leave no node behind, so both read back as empty.

A positional reader walks over siblings with a cursor. It expects an element at
every position: a text node there is a failed cast, and the end of the siblings
is a null reference.

## Main definitions

* `Lib.Element.Node` — text or an element
* `Lib.Element.leaf` — an element that holds a text
* `Lib.Element.Cursor`, `Lib.Element.atElement` — an element and what follows it

## Main results

* `valueAll_content` — a leaf reads back as its text, or as empty
* `atElement_sizeOf` — a walk only sees smaller trees
-/

set_option autoImplicit false

namespace Lib.Element

open Lib.Text

/-- A node of an element tree. -/
inductive Node
  | text (value : String)
  | element (name : String) (nodes : List Node)

namespace Node

mutual

/-- The text of a node with everything below it. -/
def value : Node → String
  | .text value => value
  | .element _ nodes => valueAll nodes

/-- The text of a list of nodes. -/
def valueAll : List Node → String
  | [] => ""
  | node :: nodes => node.value ++ valueAll nodes

end

/-- Whether a node is an element. -/
def isElement : Node → Bool
  | .text _ => false
  | .element _ _ => true

end Node

/-- The nodes that a text leaves in an element. -/
def content : Option String → List Node
  | none => []
  | some value => if value = "" then [] else [.text value]

/-- An element that holds a text. -/
def leaf (name : String) (value : Option String) : Node := .element name (content value)

/-- Add a text behind the nodes of an element. Adjacent texts become one. -/
def addText : List Node → String → List Node
  | [], value => content (some value)
  | [.text before], value => [.text (before ++ value)]
  | node :: nodes, value => node :: addText nodes value

/-- The child nodes that are elements. -/
def elements (nodes : List Node) : List Node := nodes.filter Node.isElement

theorem valueAll_content (value : Option String) :
    Node.valueAll (content value) = value.getD "" := by
  cases value with
  | none => rfl
  | some value =>
    by_cases hempty : value = ""
    · simp [content, hempty, Node.valueAll]
    · simp [content, hempty, Node.valueAll, Node.value]

theorem content_some_getD (value : Option String) :
    content (some (value.getD "")) = content value := by
  cases value with
  | none => rfl
  | some value => rfl

/-- Texts leave no elements behind. -/
theorem elements_content (value : Option String) : elements (content value) = [] := by
  cases value with
  | none => rfl
  | some value =>
    rw [content]
    split_ifs
    · rfl
    · rfl

theorem elements_addText (nodes : List Node) (value : String) :
    elements (addText nodes value) = elements nodes := by
  induction nodes, value using addText.induct with
  | case1 value => exact elements_content (some value)
  | case2 value before => rfl
  | case3 value node nodes hmore ih =>
    rw [addText]
    · simp only [elements, List.filter_cons] at ih ⊢
      rw [ih]
    · exact hmore

theorem addText_content (before value : String) :
    addText (content (some before)) value = content (some (before ++ value)) := by
  by_cases hbefore : before = ""
  · rw [hbefore, String.empty_append]
    rfl
  · have hne : before ++ value ≠ "" := by
      intro hempty
      exact hbefore (String.append_eq_empty_iff.mp hempty).1
    rw [content, if_neg hbefore, content, if_neg hne, addText]

/-- Null reads back as the empty text, which leaves the same leaf. -/
theorem leaf_some_getD (name : String) (value : Option String) :
    leaf name (some (value.getD "")) = leaf name value := by
  rw [leaf, leaf, content_some_getD]

/-! ### Walking over siblings -/

/-- An element and the siblings behind it. -/
structure Cursor where
  name : String
  nodes : List Node
  following : List Node

/-- The element under the cursor. -/
def Cursor.node (c : Cursor) : Node := .element c.name c.nodes

/-- The text of the element under the cursor. -/
def Cursor.value (c : Cursor) : String := Node.valueAll c.nodes

/-- The element at the start of the nodes. -/
def atElement : List Node → Except RuntimeException Cursor
  | [] => .error .nullReference
  | .text _ :: _ => .error .invalidCast
  | .element name nodes :: following => .ok ⟨name, nodes, following⟩

@[simp] theorem atElement_element (name : String) (nodes following : List Node) :
    atElement (.element name nodes :: following) = .ok ⟨name, nodes, following⟩ := rfl

@[simp] theorem atElement_leaf (name : String) (value : Option String) (following : List Node) :
    atElement (leaf name value :: following) = .ok ⟨name, content value, following⟩ := rfl

@[simp] theorem Cursor.value_content (name : String) (value : Option String)
    (following : List Node) : (Cursor.mk name (content value) following).value = value.getD "" :=
  valueAll_content value

/-- At an element the cursor stands on it and its siblings follow. -/
theorem exists_atElement {node : Node} (h : node.isElement = true) (following : List Node) :
    ∃ c, atElement (node :: following) = .ok c ∧ c.node = node ∧ c.following = following := by
  cases node with
  | text value => cases h
  | element name nodes => exact ⟨_, rfl, rfl, rfl⟩

theorem atElement_sizeOf {nodes : List Node} {c : Cursor} (h : atElement nodes = .ok c) :
    sizeOf c.nodes < sizeOf nodes ∧ sizeOf c.following < sizeOf nodes := by
  unfold atElement at h
  split at h
  · cases h
  · cases h
  · obtain rfl := Except.ok.inj h
    simp only [List.cons.sizeOf_spec, Node.element.sizeOf_spec]
    omega

end Lib.Element

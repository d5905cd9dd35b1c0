import SMEWindow.Lib.Element

/-!
# Frames of a call stack

A frame is a method, a file and a line. `SMECallStack` writes it as an element,
reads it back by position, and parses frames out of the text of a stack trace;
`SMECallstackInformation` is the list of frames of the domain.

## Main definitions

* `Collect.CallStack` — `SMECallStack`
* `CallStack.parseFromException` — the frames in the text of a stack trace
* `Collect.CallstackInformation` — `SMECallstackInformation`

## Main results

* `CallStack.load_toXElement`, `CallstackInformation.load_toXElement` — a written
  frame or stack reads back, with empty texts for null ones
-/

set_option autoImplicit false

namespace SMEWindow.Collect

open Lib.Element Lib.Text

/-- One frame. -/
structure CallStack where
  m_method : Option String
  m_file : Option String
  m_line : Int32
  deriving DecidableEq, Repr

namespace CallStack

def toXElement (frame : CallStack) : Node :=
  .element "Stack" [leaf "Method" frame.m_method, leaf "File" frame.m_file,
    leaf "Line" (some (intToString frame.m_line))]

/-- The text of a frame, in which null is empty. -/
def toText (frame : CallStack) : String :=
  "CallStack" ++ ":Method:" ++ frame.m_method.getD "" ++ ":FileName:" ++ frame.m_file.getD "" ++
    ":Line:" ++ intToString frame.m_line

def loadFromXElement : Node → Except RuntimeException CallStack
  | .text _ => .error .invalidCast
  | .element name nodes =>
    if name = "Stack" then do
      let el ← atElement nodes
      let m_method := el.value
      let el ← atElement el.following
      let m_file := el.value
      let el ← atElement el.following
      let m_line ← parseInt el.value
      return ⟨some m_method, some m_file, m_line⟩
    else .error (.raised "This XElement is not CallStack XElement")

/-- What a frame reads back as: null texts become empty. -/
def readBack (frame : CallStack) : CallStack :=
  ⟨some (frame.m_method.getD ""), some (frame.m_file.getD ""), frame.m_line⟩

theorem load_toXElement (frame : CallStack) :
    loadFromXElement frame.toXElement = .ok frame.readBack := by
  simp only [loadFromXElement, toXElement, if_true, atElement_leaf, ok_bind,
    Cursor.value_content, Option.getD_some, parseInt_intToString]
  rfl

theorem toXElement_readBack (frame : CallStack) :
    frame.readBack.toXElement = frame.toXElement := by
  simp only [toXElement, readBack, leaf_some_getD]

/-- The frames among the child elements, in order. -/
def loadAll (nodes : List Node) : Except RuntimeException (List CallStack) :=
  (elements nodes).mapM loadFromXElement

theorem elements_map_toXElement (frames : List CallStack) :
    elements (frames.map toXElement) = frames.map toXElement := by
  refine List.filter_eq_self.mpr fun node hnode => ?_
  obtain ⟨frame, -, rfl⟩ := List.mem_map.mp hnode
  rfl

theorem loadAll_map_toXElement (frames : List CallStack) :
    loadAll (frames.map toXElement) = .ok (frames.map readBack) := by
  rw [loadAll, elements_map_toXElement, mapM_map_eq_ok load_toXElement]

theorem map_toXElement_readBack (frames : List CallStack) :
    (frames.map readBack).map toXElement = frames.map toXElement := by
  rw [List.map_map]
  exact List.map_congr_left fun frame _ => toXElement_readBack frame

/-! ### Parsing a stack trace -/

/-- The frame of one location of a stack trace: a method, its file and the line
there, as far as they are given. A location in more than three pieces is dropped. -/
def parseLocation (location : String) : Except RuntimeException (List CallStack) :=
  match split [" 파일 ", ":줄 "] location with
  | [method] => .ok [⟨some method, some "library method", 0⟩]
  | [method, file] => .ok [⟨some method, some file, 0⟩]
  | [method, file, line] => (parseInt line).map fun n => [⟨some method, some file, n⟩]
  | _ => .ok []

/-- The frames in the text of a stack trace, null if there is none. What stands
before the first location is dropped. -/
def parseFromException (stackTrace : Option String) :
    Except RuntimeException (Option (List CallStack)) :=
  match stackTrace with
  | none => .ok none
  | some text =>
    (((split [" 위치: "] text).drop 1).mapM parseLocation).map fun frames => some frames.flatten

example : parseFromException (some "   위치: A.f() 파일 c:\\a.cs:줄 7") =
    .ok (some [⟨some "A.f()", some "c:\\a.cs", 7⟩]) := by rfl

/-- A text without anything in it has no frames to read. -/
theorem exists_parseFromException_of_empty {stackTrace : Option String}
    (h : stackTrace.getD "" = "") : ∃ frames, parseFromException stackTrace = .ok frames := by
  cases stackTrace with
  | none => exact ⟨none, rfl⟩
  | some text =>
    obtain rfl : text = "" := h
    exact ⟨some [], rfl⟩

end CallStack

/-- `SMECallstackInformation`: the frames of the domain when the error occurred. -/
structure CallstackInformation where
  m_listCallstack : List CallStack
  deriving DecidableEq, Repr

namespace CallstackInformation

def toXElement (info : CallstackInformation) : Node :=
  .element "CallStackInformation"
    [.element "DomainStack" (info.m_listCallstack.map CallStack.toXElement)]

def loadFromXElement : Node → Except RuntimeException CallstackInformation
  | .text _ => .error .invalidCast
  | .element name nodes =>
    if name = "CallStackInformation" then do
      let el ← atElement nodes
      let frames ← CallStack.loadAll el.nodes
      return ⟨frames⟩
    else .error (.raised "This XElement is not CallStackInformation XElement")

/-- The text of all frames, one on a line. -/
def toText (info : CallstackInformation) : String :=
  info.m_listCallstack.foldl (fun temp item => temp ++ item.toText ++ "\n") ""

/-- What a stack reads back as. -/
def readBack (info : CallstackInformation) : CallstackInformation :=
  ⟨info.m_listCallstack.map CallStack.readBack⟩

theorem load_toXElement (info : CallstackInformation) :
    loadFromXElement info.toXElement = .ok info.readBack := by
  simp only [loadFromXElement, toXElement, if_true, atElement_element, ok_bind,
    CallStack.loadAll_map_toXElement]
  rfl

theorem toXElement_readBack (info : CallstackInformation) :
    info.readBack.toXElement = info.toXElement := by
  rw [toXElement, toXElement, readBack, CallStack.map_toXElement_readBack]

end CallstackInformation

end SMEWindow.Collect

import SMEWindow.Collect.CallStack
import SMEWindow.Lib.Chain

/-!
# Exception information

`SMEExceptionInformation` describes an exception and, nested in it, the exceptions
it wraps. It is written as an element tree with one level inside the other, read
back by position, and built from a thrown exception by a constructor that was
meant to go down the chain but calls itself on the same exception again.

## Main definitions

* `Collect.ExceptionInformation` — the levels of one description
* `ExceptionInformation.toXElement`, `ExceptionInformation.loadFromXElement`
* `Collect.construct` — the constructor from a thrown exception, with fuel

## Main results

* `ExceptionInformation.toXElement_of_noData`, `ExceptionInformation.load_plainTree` —
  a written description without `Data` reads back, level by level
* `describes_iff_inner_none` — the constructor describes a chain of exceptions
  exactly when there is nothing but its outermost one
-/

set_option autoImplicit false

namespace SMEWindow.Collect

open Lib Lib.Element Lib.Text

/-- The entries of an `IDictionary`, as `ToString` gives them; a value may be null. -/
abbrev DataEntries := List (String × Option String)

/-- One level of a description. -/
structure ExceptionFields where
  Name : Option String
  HelpLink : Option String
  Hresult : Int32
  Message : Option String
  Data : Option DataEntries
  CallStackString : Option String
  m_listCallstack : Option (List CallStack)
  deriving DecidableEq, Repr

/-- A description and, through `InnerException`, those nested in it. -/
abbrev ExceptionInformation := Chain ExceptionFields

namespace ExceptionFields

/-- One entry of `Data`: its key and value are added as texts, and a null value throws. -/
def addEntry (nodes : List Node) : String × Option String → Except RuntimeException (List Node)
  | (_, none) => .error .nullReference
  | (key, some value) => .ok (addText (addText nodes key) value)

/-- `DataToXElement`. -/
def dataToXElement (fields : ExceptionFields) : Except RuntimeException Node :=
  match fields.Data with
  | none => .ok (.element "Data" [])
  | some entries => (entries.foldlM addEntry []).map (.element "Data")

/-- `DataToString`, in which null is empty. -/
def dataToString (fields : ExceptionFields) : String :=
  (fields.Data.getD []).foldl
    (fun datastring item => datastring ++ (":" ++ item.1 ++ ":" ++ item.2.getD "")) ""

/-- The children of a level's element up to its frames. -/
def toNodes (fields : ExceptionFields) : Except RuntimeException (List Node) := do
  let data ← fields.dataToXElement
  return [leaf "Name" fields.Name, data, leaf "Hresult" (some (intToString fields.Hresult)),
    leaf "HelpLink" fields.HelpLink, leaf "Message" fields.Message,
    .element "ExceptionStack" ((fields.m_listCallstack.getD []).map CallStack.toXElement)]

/-- `Data.Add` for one child element; a key that is there already throws. -/
def loadEntry (entries : DataEntries) (node : Node) : Except RuntimeException DataEntries :=
  match node with
  | .text _ => .ok entries
  | .element name nodes =>
    if entries.any (·.1 == name) then .error .argument
    else .ok (entries ++ [(name, some (Node.valueAll nodes))])

/-- The fields of a level, and the first node of its `InnerException` element. -/
def loadNodes (nodes : List Node) : Except RuntimeException (ExceptionFields × Option Node) := do
  let el ← atElement nodes
  let name := el.value
  let el ← atElement el.following
  let data ← (elements el.nodes).foldlM loadEntry []
  let el ← atElement el.following
  let hresult ← parseInt el.value
  let el ← atElement el.following
  let helpLink := el.value
  let el ← atElement el.following
  let message := el.value
  let el ← atElement el.following
  let frames ← CallStack.loadAll el.nodes
  let el ← atElement el.following
  return (⟨some name, some helpLink, hresult, some message, some data, none, some frames⟩,
    el.nodes.head?)

/-- The inner description is a smaller tree. -/
theorem sizeOf_inner_lt {nodes : List Node} {fields : ExceptionFields} {inner : Node}
    (h : loadNodes nodes = .ok (fields, some inner)) : sizeOf inner < sizeOf nodes := by
  -- every position of the walk holds an element of a smaller list of siblings
  simp only [loadNodes, bind_eq_ok_iff] at h
  obtain ⟨el1, h1, el2, h2, _, -, el3, h3, _, -, el4, h4, el5, h5, el6, h6, _, -, el7, h7, hok⟩ := h
  have hinner : el7.nodes.head? = some inner := congrArg Prod.snd (Except.ok.inj hok)
  have hmem : sizeOf inner < sizeOf el7.nodes :=
    List.sizeOf_lt_of_mem (List.mem_of_head? hinner)
  have := atElement_sizeOf h1
  have := atElement_sizeOf h2
  have := atElement_sizeOf h3
  have := atElement_sizeOf h4
  have := atElement_sizeOf h5
  have := atElement_sizeOf h6
  have := atElement_sizeOf h7
  omega

/-- `Data` is null or has no entries. -/
def NoData (fields : ExceptionFields) : Prop := fields.Data.getD [] = []

instance (fields : ExceptionFields) : Decidable fields.NoData :=
  inferInstanceAs (Decidable (_ = _))

/-- What a level reads back as: null texts become empty, a null list of frames
becomes an empty one, and the text of the stack trace is not kept. -/
def readBack (fields : ExceptionFields) : ExceptionFields where
  Name := some (fields.Name.getD "")
  HelpLink := some (fields.HelpLink.getD "")
  Hresult := fields.Hresult
  Message := some (fields.Message.getD "")
  Data := some []
  CallStackString := none
  m_listCallstack := some ((fields.m_listCallstack.getD []).map CallStack.readBack)

/-- The children of a level without `Data`. -/
def plainNodes (fields : ExceptionFields) : List Node :=
  [leaf "Name" fields.Name, .element "Data" [],
    leaf "Hresult" (some (intToString fields.Hresult)), leaf "HelpLink" fields.HelpLink,
    leaf "Message" fields.Message,
    .element "ExceptionStack" ((fields.m_listCallstack.getD []).map CallStack.toXElement)]

theorem toNodes_of_noData {fields : ExceptionFields} (h : fields.NoData) :
    fields.toNodes = .ok fields.plainNodes := by
  have hdata : fields.dataToXElement = .ok (.element "Data" []) := by
    unfold dataToXElement
    unfold NoData at h
    cases hentries : fields.Data with
    | none => rfl
    | some entries =>
      rw [hentries, Option.getD_some] at h
      rw [h]
      rfl
  rw [toNodes, hdata, ok_bind]
  rfl

theorem plainNodes_readBack (fields : ExceptionFields) :
    fields.readBack.plainNodes = fields.plainNodes := by
  simp only [plainNodes, readBack, leaf_some_getD, Option.getD_some,
    CallStack.map_toXElement_readBack]

theorem noData_readBack (fields : ExceptionFields) : fields.readBack.NoData := rfl

/-- The children of a level up to its frames, around those of its `Data` element. -/
def nodesAround (fields : ExceptionFields) (data : List Node) : List Node :=
  [leaf "Name" fields.Name, .element "Data" data,
    leaf "Hresult" (some (intToString fields.Hresult)), leaf "HelpLink" fields.HelpLink,
    leaf "Message" fields.Message,
    .element "ExceptionStack" ((fields.m_listCallstack.getD []).map CallStack.toXElement)]

/-- The children of a level and an `InnerException` element read back. Of its
`Data` nothing is seen if there are no elements in it. -/
theorem loadNodes_nodesAround (fields : ExceptionFields) {data : List Node}
    (hdata : elements data = []) (inner : List Node) :
    loadNodes (fields.nodesAround data ++ [.element "InnerException" inner]) =
      .ok (fields.readBack, inner.head?) := by
  have hentries : (elements data).foldlM loadEntry [] = .ok [] := by
    rw [hdata]
    rfl
  simp only [nodesAround, List.cons_append, List.nil_append, loadNodes, atElement_leaf,
    atElement_element, ok_bind, hentries, Cursor.value_content, Option.getD_some,
    parseInt_intToString, CallStack.loadAll_map_toXElement]
  rfl

theorem loadNodes_plainNodes (fields : ExceptionFields) (inner : List Node) :
    loadNodes (fields.plainNodes ++ [.element "InnerException" inner]) =
      .ok (fields.readBack, inner.head?) :=
  loadNodes_nodesAround fields rfl inner

end ExceptionFields

namespace ExceptionInformation

open ExceptionFields

/-- The element around a level's children and its inner exception. The name is
spelled as the program spells it. -/
def wrap (nodes inner : List Node) : Node :=
  .element "ExeptionInformation" (nodes ++ [.element "InnerException" inner])

def toXElement : ExceptionInformation → Except RuntimeException Node
  | .innermost fields => do
    let nodes ← fields.toNodes
    return wrap nodes []
  | .wrapping fields inner => do
    let nodes ← fields.toNodes
    let node ← toXElement inner
    return wrap nodes [node]

def loadFromXElement : Node → Except RuntimeException ExceptionInformation
  | .text _ => .error .invalidCast
  | .element name nodes =>
    if name = "ExeptionInformation" then
      match h : loadNodes nodes with
      | .error e => .error e
      | .ok (fields, none) => .ok (.innermost fields)
      | .ok (fields, some inner) =>
        have := sizeOf_inner_lt h
        (loadFromXElement inner).map (.wrapping fields)
    else .error (.raised "This XElement is not ExceptionInformation XElement")
termination_by node => sizeOf node

/-- What a description reads back as, level by level. -/
def readBack (info : ExceptionInformation) : ExceptionInformation :=
  info.map ExceptionFields.readBack

/-- No level has `Data`. -/
def NoData (info : ExceptionInformation) : Prop := ∀ fields ∈ info.toList, fields.NoData

/-- The element tree of a description without `Data`. -/
def plainTree : ExceptionInformation → Node
  | .innermost fields => wrap fields.plainNodes []
  | .wrapping fields inner => wrap fields.plainNodes [plainTree inner]

theorem toXElement_of_noData (info : ExceptionInformation) (h : NoData info) :
    toXElement info = .ok (plainTree info) := by
  induction info with
  | innermost fields =>
    rw [toXElement, toNodes_of_noData (h fields (by simp [Chain.toList]))]
    rfl
  | wrapping fields inner ih =>
    have hfields : fields.NoData := h fields (by simp [Chain.toList])
    have hinner : NoData inner := fun level hlevel => h level (by simp [Chain.toList, hlevel])
    rw [toXElement, toNodes_of_noData hfields, ok_bind, ih hinner, ok_bind]
    rfl

theorem load_innermost {nodes : List Node} {fields : ExceptionFields}
    (h : loadNodes nodes = .ok (fields, none)) :
    loadFromXElement (.element "ExeptionInformation" nodes) = .ok (.innermost fields) := by
  rw [loadFromXElement, if_pos rfl]
  split
  · next heq => rw [h] at heq; cases heq
  · next heq => rw [h] at heq; cases heq; rfl
  · next heq => rw [h] at heq; cases heq

theorem load_wrapping {nodes : List Node} {fields : ExceptionFields} {node : Node}
    (h : loadNodes nodes = .ok (fields, some node)) :
    loadFromXElement (.element "ExeptionInformation" nodes) =
      (loadFromXElement node).map (.wrapping fields) := by
  rw [loadFromXElement, if_pos rfl]
  split
  · next heq => rw [h] at heq; cases heq
  · next heq => rw [h] at heq; cases heq
  · next heq => rw [h] at heq; cases heq; rfl

/-- The written tree reads back, at every depth. -/
theorem load_plainTree (info : ExceptionInformation) :
    loadFromXElement (plainTree info) = .ok (readBack info) := by
  induction info with
  | innermost fields =>
    rw [plainTree, wrap, load_innermost (loadNodes_plainNodes fields [])]
    rfl
  | wrapping fields inner ih =>
    rw [plainTree, wrap, load_wrapping (loadNodes_plainNodes fields [plainTree inner]), ih]
    rfl

theorem plainTree_readBack (info : ExceptionInformation) :
    plainTree (readBack info) = plainTree info := by
  induction info with
  | innermost fields =>
    rw [readBack, Chain.map, plainTree, plainTree, plainNodes_readBack]
  | wrapping fields inner ih =>
    rw [readBack, Chain.map, plainTree, plainTree, plainNodes_readBack]
    exact congrArg (fun node => wrap fields.plainNodes [node]) ih

theorem noData_readBack (info : ExceptionInformation) : NoData (readBack info) := by
  intro level hlevel
  rw [readBack, Chain.toList_map] at hlevel
  obtain ⟨fields, -, rfl⟩ := List.mem_map.mp hlevel
  exact fields.noData_readBack

end ExceptionInformation

/-! ### From a thrown exception -/

/-- What `System.Exception` tells about one exception. -/
structure ThrownException where
  /-- `GetType().ToString()`. -/
  typeName : String
  Data : Option DataEntries
  HelpLink : Option String
  HResult : Int32
  Message : Option String
  StackTrace : Option String
  deriving DecidableEq, Repr

/-- The fields the constructor sets before it looks at the inner exception. -/
def ThrownException.describe (e : ThrownException) :
    Except RuntimeException ExceptionFields :=
  (CallStack.parseFromException e.StackTrace).map fun frames =>
    { Name := some e.typeName
      Data := e.Data
      HelpLink := some (e.HelpLink.getD "")
      Hresult := e.HResult
      Message := some (e.Message.getD "")
      CallStackString := e.StackTrace
      m_listCallstack := frames }

/-- The constructor from an exception: the description of an exception that
wraps another is built around a description of that same exception. `none` if the
fuel ends first. -/
def construct : ℕ → Chain ThrownException → Option (Except RuntimeException ExceptionInformation)
  | 0, _ => none
  | fuel + 1, exception =>
    match exception.outermost.describe with
    | .error e => some (.error e)
    | .ok fields =>
      match exception.inner with
      | none => some (.ok (.innermost fields))
      -- the argument is the exception itself, not the inner one
      | some _ => (construct fuel exception).map fun result => result.map (.wrapping fields)

/-- The level tells what the exception tells. -/
structure Carries (e : ThrownException) (fields : ExceptionFields) : Prop where
  name_eq : fields.Name = some e.typeName
  data_eq : fields.Data = e.Data
  helpLink_eq : fields.HelpLink.getD "" = e.HelpLink.getD ""
  hresult_eq : fields.Hresult = e.HResult
  message_eq : fields.Message.getD "" = e.Message.getD ""
  stackTrace_eq : fields.CallStackString = e.StackTrace
  frames_eq : CallStack.parseFromException e.StackTrace = .ok fields.m_listCallstack

/-- The constructor ends, with one level for each exception of the chain. -/
def Describes (exception : Chain ThrownException) : Prop :=
  ∃ fuel info, construct fuel exception = some (.ok info) ∧
    List.Forall₂ Carries exception.toList info.toList

/-- Every stack trace of the chain parses. -/
def Parses (exception : Chain ThrownException) : Prop :=
  ∀ e ∈ exception.toList, ∃ frames, CallStack.parseFromException e.StackTrace = .ok frames

theorem ThrownException.carries_of_describe {e : ThrownException} {fields : ExceptionFields}
    (h : e.describe = .ok fields) : Carries e fields := by
  obtain ⟨frames, hframes, rfl⟩ := map_eq_ok_iff.mp h
  exact ⟨rfl, rfl, rfl, rfl, rfl, rfl, hframes⟩

theorem ThrownException.exists_describe {e : ThrownException}
    (h : ∃ frames, CallStack.parseFromException e.StackTrace = .ok frames) :
    ∃ fields, e.describe = .ok fields ∧ Carries e fields := by
  obtain ⟨frames, hframes⟩ := h
  have hfields : ∃ fields, e.describe = .ok fields := by
    rw [describe, hframes]
    exact ⟨_, rfl⟩
  obtain ⟨fields, hfields⟩ := hfields
  exact ⟨fields, hfields, carries_of_describe hfields⟩

/-- An exception that wraps another is described for ever. -/
theorem construct_eq_none {exception inner : Chain ThrownException} (hparses : Parses exception)
    (hinner : exception.inner = some inner) (fuel : ℕ) : construct fuel exception = none := by
  obtain ⟨fields, hfields, -⟩ :=
    ThrownException.exists_describe (hparses _ exception.outermost_mem_toList)
  induction fuel with
  | zero => rfl
  | succ fuel ih => simp only [construct, hfields, hinner, ih, Option.map_none]

/-- **The constructor describes a chain of exceptions exactly when there is
nothing but its outermost one.** If all stack traces parse, the constructor ends
with one level for each exception, each level telling what its exception tells,
if and only if the exception wraps no other. -/
theorem describes_iff_inner_none (exception : Chain ThrownException)
    (hparses : Parses exception) : Describes exception ↔ exception.inner = none := by
  constructor
  · rintro ⟨fuel, info, hrun, -⟩
    cases hinner : exception.inner with
    | none => rfl
    | some inner =>
      -- with something to wrap the constructor would not have ended
      rw [construct_eq_none hparses hinner fuel] at hrun
      cases hrun
  · intro hinner
    cases exception with
    | wrapping e inner => cases hinner
    | innermost e =>
      obtain ⟨fields, hfields, hcarries⟩ :=
        ThrownException.exists_describe (hparses e (by simp [Chain.toList]))
      refine ⟨1, .innermost fields, ?_, .cons hcarries .nil⟩
      simp only [construct, Chain.outermost, hfields, Chain.inner]

/-- An exception that was never thrown has no stack trace. -/
def sampleException : ThrownException :=
  ⟨"System.Exception", some [], none, -2146233088, some "", none⟩

/-- An exception without an inner one is described. -/
theorem describes_innermost_sample :
    Parses (.innermost sampleException) ∧ Describes (.innermost sampleException) := by
  have hparses : Parses (.innermost sampleException) := by
    intro e he
    rw [List.mem_singleton.mp he]
    exact ⟨none, rfl⟩
  exact ⟨hparses, (describes_iff_inner_none _ hparses).mpr rfl⟩

/-- An exception around another is not. -/
theorem not_describes_wrapping_sample :
    Parses (.wrapping sampleException (.innermost sampleException)) ∧
      ¬ Describes (.wrapping sampleException (.innermost sampleException)) := by
  have hparses : Parses (.wrapping sampleException (.innermost sampleException)) := by
    intro e he
    -- both exceptions of the chain are the same
    obtain rfl : e = sampleException := by
      rcases List.mem_cons.mp he with rfl | he
      · rfl
      · exact List.mem_singleton.mp he
    exact ⟨none, rfl⟩
  refine ⟨hparses, ?_⟩
  rintro ⟨fuel, info, hrun, -⟩
  rw [construct_eq_none hparses rfl fuel] at hrun
  cases hrun

end SMEWindow.Collect

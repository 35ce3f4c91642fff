import SchemaProbe.Surface

namespace SchemaProbe

/-!
# The recording surface

The first pass of a probe: no request fails for want of data.  Each request is
recorded where it was made and answered by a value that stands in; a sequence
has one element, a keyed container one key.  When the type is done reading, the
recording is turned into a shape from the outermost node inwards.  A node is
always recorded after the one that it belongs to.
-/

/-- What a request left in a container: a shape, or a node that was opened. -/
inductive Item
  | shape (s : Shape)
  | node (id : Nat)

/-- What was recorded for a container or a decoder. -/
inductive Node
  | keyed (fields : List (String × Option Item)) (nullKeys : List String)
  | unkeyed (items : List Item) (isOptional : Bool)
  | single (value : Option Shape) (isOptional : Bool)
  | decoder (opened : Option Nat)

/-- Everything recorded while one type reads itself. -/
structure Recording where
  nodes : List Node
  sawKeyed : Bool

namespace Node

/-- Records an item under a key; the first mention of a key keeps its place. -/
def put (key : String) (item : Item) : Node → Node
  | .keyed fields nullKeys => .keyed (Table.set fields key (some item)) nullKeys
  | other => other

/-- Records that a key was asked for null. -/
def markNull (key : String) : Node → Node
  | .keyed fields nullKeys =>
    .keyed
      (if fields.any fun e => e.1 == key then fields else fields ++ [(key, none)])
      (key :: nullKeys)
  | .unkeyed items _ => .unkeyed items true
  | .single value _ => .single value true
  | other => other

/-- Records an element. -/
def push (item : Item) : Node → Node
  | .unkeyed items isOptional => .unkeyed (items ++ [item]) isOptional
  | other => other

/-- Records the value of a single-value container. -/
def setValue (s : Shape) : Node → Node
  | .single _ isOptional => .single (some s) isOptional
  | other => other

/-- Records what a decoder opened last. -/
def setOpened (id : Nat) : Node → Node
  | .decoder _ => .decoder (some id)
  | other => other

/-- The number of elements recorded. -/
def size : Node → Nat
  | .unkeyed items _ => items.length
  | _ => 0

end Node

namespace Recording

/-- The recording of a type that has not asked for anything; its decoder is the
first node. -/
def start : Recording :=
  ⟨[.decoder none], false⟩

/-- Changes a node. -/
def change (r : Recording) (id : Nat) (f : Node → Node) : Recording :=
  { r with nodes := r.nodes.modify id f }

/-- Adds a node. -/
def add (r : Recording) (n : Node) : Recording :=
  { r with nodes := r.nodes ++ [n] }

/-- The number of the next node. -/
def nextId (r : Recording) : Nat :=
  r.nodes.length

/-- The number of elements recorded in a node. -/
def sizeOf (r : Recording) (id : Nat) : Nat :=
  (r.nodes[id]?.map Node.size).getD 0

/-- Whether the type opened a container on its decoder. -/
def isRecorded (r : Recording) : Bool :=
  match r.nodes.head? with
  | some (.decoder (some _)) => true
  | _ => false

/-- Whether a type form is a class, which takes over the node of a value that
it wraps. -/
def isClass : TypeForm → Bool
  | .cls _ | .any => true
  | _ => false

/-- The common shape of the elements of a sequence, if they agree. -/
def commonElement : List Shape → Shape
  | [] => .any none
  | first :: rest => if rest.all fun s => s.agrees first then first else .any none

/-- The shape of a decoder that read a single value. -/
def wrapped
    (type : Option TypeForm)
    (value : Option Shape)
    (isOptional : Bool) :
    Shape :=
  let node := value.getD (.any type)
  let stamped :=
    if (type.map isClass).getD false && !node.isRecursive then node.ofType type else node
  if isOptional then stamped.optional true else stamped

mutual

/-- The shape of a node as what a decoder of a type opened or contains; `depth`
bounds how far nodes belong to each other. -/
def finishNode
    (r : Recording)
    (isOpen : Path → Bool)
    (type : Option TypeForm) :
    Nat → Nat → Path → Shape
  | 0, _, _ => .any type
  | depth + 1, id, relative =>
    match r.nodes[id]? with
    | some (.keyed fields nullKeys) =>
      .keyed (.of type) (!isOpen relative)
        (fields.map fun e =>
          let s := finishItem r isOpen depth e.2 (relative ++ [.key e.1])
          (e.1, if nullKeys.contains e.1 then s.optional true else s))
    | some (.unkeyed items isOptional) =>
      let element :=
        commonElement (items.map fun item =>
          finishItem r isOpen depth (some item) (relative ++ [.index 0]))
      .unkeyed (.of type) (if isOptional then element.optional true else element)
    | some (.single value isOptional) => wrapped type value isOptional
    | some (.decoder (some opened)) => finishNode r isOpen type depth opened relative
    | some (.decoder none) => .any type
    | none => .any type

/-- The shape of what a request left. -/
def finishItem
    (r : Recording)
    (isOpen : Path → Bool) :
    Nat → Option Item → Path → Shape
  | _, none, _ => .any none
  | _, some (.shape s), _ => s
  | 0, some (.node _), _ => .any none
  | depth + 1, some (.node id), relative => finishNode r isOpen none depth id relative

end

/-- The shape of a type by what was recorded while it read itself.  The keyed
containers at open paths take any key. -/
def finish
    (r : Recording)
    (type : Option TypeForm)
    (openPaths : List Path) :
    Shape :=
  finishNode r openPaths.contains type (2 * r.nodes.length) 0 []

end Recording

/-- How the recording surface finds out what a requested type looks like and
what stands in for it. -/
abbrev NestedProbe := TypeForm → Path → Step Store (Shape × Value)

namespace Recorder

/-- A step that records. -/
abbrev Act := Step (Recording × Store)

/-- Changes a node. -/
def change (id : Nat) (f : Node → Node) : Act Unit :=
  Step.own (Step.update fun r => r.change id f)

/-- Adds a node and gives its number. -/
def add (n : Node) : Act Nat := do
  let id := (← Step.current).1.nextId
  Step.own (Step.update fun r => r.add n)
  pure id

/-- Adds a keyed container and notes that there is one. -/
def addKeyed : Act Nat := do
  let id ← add (.keyed [] [])
  Step.own (Step.update fun r => { r with sawKeyed := true })
  pure id

/-- Answers the requests on a decoder. -/
def onDecoder (h : Handle) : Request TypeForm String → Act Reply
  | .openKeyed => do
    let id ← addKeyed
    change h.slot (·.setOpened id)
    pure (.handle { h with role := .keyed, slot := id })
  | .openUnkeyed => do
    let id ← add (.unkeyed [] false)
    change h.slot (·.setOpened id)
    pure (.handle { h with role := .unkeyed, slot := id })
  | .openSingle => do
    let id ← add (.single none false)
    change h.slot (·.setOpened id)
    pure (.handle { h with role := .single, slot := id })
  | _ => Step.fail .missingOperation

/-- The key under which the part of a parent class is read. -/
def parentKey (key : Option String) : String :=
  key.getD "super"

/-- The handle of what is opened under a key. -/
def keyHandle (h : Handle) (role : Role) (key : String) (id : Nat) : Handle :=
  ⟨role, h.path ++ [.key key], h.relative ++ [.key key], id⟩

/-- Answers the requests on a keyed container.  It has one key, the empty one,
and contains every key. -/
def onKeyed (probe : NestedProbe) (h : Handle) : Request TypeForm String → Act Reply
  | .decode a (some key) => do
    let (s, v) ← Step.shared (probe a (h.path ++ [.key key]))
    change h.slot (·.put key (.shape s))
    pure (.value v)
  | .decodeIfPresent a (some key) => do
    let (s, _) ← Step.shared (probe a (h.path ++ [.key key]))
    change h.slot (·.put key (.shape (s.optional true)))
    pure .null
  | .decodeNull (some key) => do
    change h.slot (·.markNull key)
    pure (.ofBool false)
  | .nestedKeyed (some key) => do
    let id ← addKeyed
    change h.slot (·.put key (.node id))
    pure (.handle (keyHandle h .keyed key id))
  | .nestedUnkeyed (some key) => do
    let id ← add (.unkeyed [] false)
    change h.slot (·.put key (.node id))
    pure (.handle (keyHandle h .unkeyed key id))
  | .parent key => do
    let id ← add (.decoder none)
    change h.slot (·.put (parentKey key) (.node id))
    pure (.handle (keyHandle h .decoder (parentKey key) id))
  | .contains _ => pure (.ofBool true)
  | .allKeys => pure (.value (.list [.text ""]))
  | _ => Step.fail .missingOperation

/-- The handle of what is opened as the next element. -/
def elementHandle (h : Handle) (role : Role) (position id : Nat) : Handle :=
  ⟨role, h.path ++ [.index position], h.relative ++ [.index 0], id⟩

/-- Answers the requests on a sequence.  It says that it has one element, and
is at its end when one has been recorded. -/
def onUnkeyed (probe : NestedProbe) (h : Handle) (request : Request TypeForm String) :
    Act Reply := do
  let position := (← Step.current).1.sizeOf h.slot
  match request with
  | .decode a none =>
    let (s, v) ← Step.shared (probe a (h.path ++ [.index position]))
    change h.slot (·.push (.shape s))
    pure (.value v)
  | .decodeIfPresent a none =>
    let (s, _) ← Step.shared (probe a (h.path ++ [.index position]))
    change h.slot (·.push (.shape (s.optional true)))
    pure .null
  | .decodeNull none =>
    change h.slot (·.markNull "")
    pure (.ofBool false)
  | .nestedKeyed none =>
    let id ← addKeyed
    change h.slot (·.push (.node id))
    pure (.handle (elementHandle h .keyed position id))
  | .nestedUnkeyed none =>
    let id ← add (.unkeyed [] false)
    change h.slot (·.push (.node id))
    pure (.handle (elementHandle h .unkeyed position id))
  | .parent none =>
    let id ← add (.decoder none)
    change h.slot (·.push (.node id))
    pure (.handle (elementHandle h .decoder position id))
  | .count => pure (.value (.int 1))
  | .isAtEnd => pure (.ofBool (decide (1 ≤ position)))
  | _ => Step.fail .missingOperation

/-- Answers the requests on a single value. -/
def onSingle (probe : NestedProbe) (h : Handle) : Request TypeForm String → Act Reply
  | .decode a none => do
    let (s, v) ← Step.shared (probe a h.path)
    change h.slot (·.setValue s)
    pure (.value v)
  | .decodeNull none => do
    change h.slot (·.markNull "")
    pure (.ofBool false)
  | _ => Step.fail .missingOperation

/-- The handle of the decoder that a type is given. -/
def decoder (path : Path) : Handle :=
  ⟨.decoder, path, [], 0⟩

end Recorder

/-- The recording surface. -/
def recorder (probe : NestedProbe) : Surface Recording where
  answer h request :=
    match h.role with
    | .decoder => Recorder.onDecoder h request
    | .keyed => Recorder.onKeyed probe h request
    | .unkeyed => Recorder.onUnkeyed probe h request
    | .single => Recorder.onSingle probe h request

end SchemaProbe

import SchemaProbe.Decoding
import SchemaProbe.Weight

namespace SchemaProbe

/-!
# Loading values

The surface that reads data: mappings as keyed containers, lists as sequences.
Requests for what is not there fail, and say where.  A scalar, and a type that
nothing says how to read, is loaded as it is.
-/

/-- What a handle stands for in the data: a value, and how far it has been read
if it is a sequence. -/
structure DataCell where
  value : Value
  position : Nat

/-- The values that handles stand for. -/
abbrev DataCells := List DataCell

/-- How a value inside another one is loaded. -/
abbrev NestedLoad := TypeForm → Value → Path → Step Store Value

namespace DataReader

/-- A step that reads data. -/
abbrev Act := Step (DataCells × Store)

/-- What a handle stands for. -/
def cell (h : Handle) : Act DataCell := do
  Step.ofOption .missingOperation (← Step.current).1[h.slot]?

/-- Keeps a value for a new handle. -/
def add (v : Value) : Act Nat := do
  let slot := (← Step.current).1.length
  Step.own (Step.update fun cells => cells ++ [⟨v, 0⟩])
  pure slot

/-- Opens a value as a keyed container. -/
def openKeyed (v : Value) (h : Handle) : Act Reply := do
  match v with
  | .dict _ _ =>
    let slot ← add v
    pure (.handle { h with role := .keyed, slot := slot })
  | _ => Step.fail (.expectedObject h.path)

/-- Opens a value as a sequence. -/
def openUnkeyed (v : Value) (h : Handle) : Act Reply := do
  match v with
  | .items .list _ _ =>
    let slot ← add v
    pure (.handle { h with role := .unkeyed, slot := slot })
  | _ => Step.fail (.expectedArray h.path)

/-- Makes a decoder over a value. -/
def openDecoder (v : Value) (h : Handle) : Act Reply := do
  let slot ← add v
  pure (.handle { h with role := .decoder, slot := slot })

/-- Answers the requests on a decoder. -/
def onDecoder (h : Handle) (request : Request TypeForm String) : Act Reply := do
  let v := (← cell h).value
  match request with
  | .openKeyed => openKeyed v h
  | .openUnkeyed => openUnkeyed v h
  | .openSingle => pure (.handle { h with role := .single })
  | _ => Step.fail .missingOperation

/-- The entries of a mapping. -/
def entries : Value → List (Value × Value)
  | .dict _ entries => entries
  | _ => []

/-- The value under a key. -/
def under? (v : Value) (key : String) : Option Value :=
  ((entries v).find? fun e => e.1.equals (.text key)).map Prod.snd

/-- The value under a key that has to be there. -/
def under (h : Handle) (v : Value) (key : String) : Act Value :=
  .ofOption (.missingKey (Text.quoted key) (h.path ++ [.key key])) (under? v key)

/-- The handle of what is under a key. -/
def atKey (h : Handle) (key : String) : Handle :=
  { h with path := h.path ++ [.key key], relative := h.relative ++ [.key key] }

/-- Answers the requests on a keyed container. -/
def onKeyed (load : NestedLoad) (h : Handle) (request : Request TypeForm String) :
    Act Reply := do
  let v := (← cell h).value
  match request with
  | .decode a (some key) =>
    let part ← under h v key
    pure (.value (← Step.shared (load a part (h.path ++ [.key key]))))
  | .decodeIfPresent a (some key) =>
    match under? v key with
    | none | some .null => pure .null
    | some part => do
      pure (.value (← Step.shared (load a part (h.path ++ [.key key]))))
  | .decodeNull (some key) => pure (.ofBool ((under? v key).getD .null).isNull)
  | .nestedKeyed (some key) => do openKeyed (← under h v key) (atKey h key)
  | .nestedUnkeyed (some key) => do openUnkeyed (← under h v key) (atKey h key)
  | .parent key =>
    let name := key.getD "super"
    openDecoder ((under? v name).getD .null) (atKey h name)
  | .contains (some key) => pure (.ofBool (under? v key).isSome)
  | .allKeys => pure (.value (.list ((entries v).map Prod.fst)))
  | _ => Step.fail .missingOperation

/-- The elements of a list. -/
def elements : Value → List Value
  | .items _ _ elements => elements
  | _ => []

/-- The handle of the next element. -/
def atPosition (h : Handle) (position : Nat) : Handle :=
  { h with path := h.path ++ [.index position], relative := h.relative ++ [.index 0] }

/-- Takes the next element of a sequence. -/
def next (h : Handle) : Act (Value × Handle) := do
  let c ← cell h
  match (elements c.value)[c.position]? with
  | some v =>
    Step.own (Step.update fun cells =>
      cells.modify h.slot fun c => { c with position := c.position + 1 })
    pure (v, atPosition h c.position)
  | none => Step.fail (.atEnd (atPosition h c.position).path)

/-- Answers the requests on a sequence. -/
def onUnkeyed (load : NestedLoad) (h : Handle) (request : Request TypeForm String) :
    Act Reply := do
  let c ← cell h
  match request with
  | .decode a none =>
    let (v, place) ← next h
    pure (.value (← Step.shared (load a v place.path)))
  | .decodeIfPresent a none =>
    let (v, place) ← next h
    if v.isNull then pure .null
    else pure (.value (← Step.shared (load a v place.path)))
  | .decodeNull none =>
    match (elements c.value)[c.position]? with
    | some .null => do
      let _ ← next h
      pure (.ofBool true)
    | _ => pure (.ofBool false)
  | .nestedKeyed none =>
    let (v, place) ← next h
    openKeyed v place
  | .nestedUnkeyed none =>
    let (v, place) ← next h
    openUnkeyed v place
  | .parent none =>
    let (v, place) ← next h
    openDecoder v place
  | .count => pure (.value (.int (elements c.value).length))
  | .isAtEnd => pure (.ofBool (decide ((elements c.value).length ≤ c.position)))
  | _ => Step.fail .missingOperation

/-- Answers the requests on a single value. -/
def onSingle (load : NestedLoad) (h : Handle) (request : Request TypeForm String) :
    Act Reply := do
  let v := (← cell h).value
  match request with
  | .decode a none => do pure (.value (← Step.shared (load a v h.path)))
  | .decodeNull none => pure (.ofBool v.isNull)
  | _ => Step.fail .missingOperation

end DataReader

/-- The surface that reads data. -/
def dataReader (load : NestedLoad) : Surface DataCells where
  answer h request :=
    match h.role with
    | .decoder => DataReader.onDecoder h request
    | .keyed => DataReader.onKeyed load h request
    | .unkeyed => DataReader.onUnkeyed load h request
    | .single => DataReader.onSingle load h request

/-- Loads a value as a type, at a place.  The first argument bounds how deep
types are read inside each other. -/
def loadTo : Nat → NestedLoad
  | 0 => fun _ _ _ => Step.exhausted
  | depth + 1 => fun a v path => do
    let caps ← lookup .shared a
    match caps.kind, caps.reader with
    | none, some reader =>
      let (outcome, _) ←
        Step.beside [⟨v, 0⟩]
          (reader.run (dataReader (loadTo depth)) ⟨.decoder, path, [], 0⟩)
      match outcome with
      | .ok loaded => pure loaded
      | .error (.fault f) => Step.fail f
      | .error .exhausted => Step.exhausted
    | _, _ => pure v

/-- Loads a value as a type, at a place. -/
def load (a : TypeForm) (v : Value) (path : Path) : Step Store Value := do
  let s ← Step.current
  loadTo (s.depthFor (a.weight + v.weight)) a v path

end SchemaProbe

import SchemaProbe.Recorder

namespace SchemaProbe

/-!
# The key-checking surface

The second pass of a probe: every request is answered at once by what stands in
for its type, and the only thing noted is which keyed containers were asked for
all their keys.  Those take any key.
-/

/-- The open keyed containers by their relative paths, and how far each
sequence has been read. -/
structure KeyCheck where
  openPaths : List Path
  cursors : List Nat

namespace KeyCheck

/-- The check of a type that has not asked for anything. -/
def start : KeyCheck :=
  ⟨[], []⟩

/-- Notes that the keyed container at a path was asked for all its keys. -/
def openAt (c : KeyCheck) (path : Path) : KeyCheck :=
  if c.openPaths.contains path then c else { c with openPaths := c.openPaths ++ [path] }

/-- How far a sequence has been read. -/
def cursor (c : KeyCheck) (slot : Nat) : Nat :=
  c.cursors[slot]?.getD 0

/-- Goes to the next element of a sequence. -/
def advance (c : KeyCheck) (slot : Nat) : KeyCheck :=
  { c with cursors := c.cursors.modify slot (· + 1) }

/-- Whether the outermost keyed container takes any key. -/
def isAdditional (c : KeyCheck) : Bool :=
  c.openPaths.contains []

end KeyCheck

/-- What stands in for a type. -/
abbrev Placeholder := TypeForm → Step Store Value

namespace KeyChecker

/-- A step that checks keys. -/
abbrev Act := Step (KeyCheck × Store)

/-- The handle of a sequence that is read from its start. -/
def addSequence (h : Handle) : Act Handle := do
  let slot := (← Step.current).1.cursors.length
  Step.own (Step.update fun c => { c with cursors := c.cursors ++ [0] })
  pure { h with role := .unkeyed, slot := slot }

/-- Answers the requests on a decoder. -/
def onDecoder (h : Handle) : Request TypeForm String → Act Reply
  | .openKeyed => pure (.handle { h with role := .keyed })
  | .openUnkeyed => do pure (.handle (← addSequence h))
  | .openSingle => pure (.handle { h with role := .single })
  | _ => Step.fail .missingOperation

/-- Answers the requests on a keyed container.  It has no key, and contains
every key. -/
def onKeyed (placeholder : Placeholder) (h : Handle) :
    Request TypeForm String → Act Reply
  | .decode a (some _) => do pure (.value (← Step.shared (placeholder a)))
  | .decodeIfPresent _ (some _) => pure .null
  | .decodeNull (some _) => pure (.ofBool false)
  | .nestedKeyed (some key) => pure (.handle (Recorder.keyHandle h .keyed key 0))
  | .nestedUnkeyed (some key) => do
    pure (.handle (← addSequence (Recorder.keyHandle h .unkeyed key 0)))
  | .parent key =>
    pure (.handle (Recorder.keyHandle h .decoder (Recorder.parentKey key) 0))
  | .contains _ => pure (.ofBool true)
  | .allKeys => do
    Step.own (Step.update fun c => c.openAt h.relative)
    pure (.value (.list []))
  | _ => Step.fail .missingOperation

/-- Answers the requests on a sequence.  It says that it has one element, and
is at its end after one request for an element. -/
def onUnkeyed (placeholder : Placeholder) (h : Handle) (request : Request TypeForm String) :
    Act Reply := do
  let position := (← Step.current).1.cursor h.slot
  if request.isElement then Step.own (Step.update fun c => c.advance h.slot)
  match request with
  | .decode a none => pure (.value (← Step.shared (placeholder a)))
  | .decodeIfPresent _ none => pure .null
  | .decodeNull none => pure (.ofBool false)
  | .nestedKeyed none => pure (.handle (Recorder.elementHandle h .keyed position 0))
  | .nestedUnkeyed none => do
    pure (.handle (← addSequence (Recorder.elementHandle h .unkeyed position 0)))
  | .parent none => pure (.handle (Recorder.elementHandle h .decoder position 0))
  | .count => pure (.value (.int 1))
  | .isAtEnd => pure (.ofBool (decide (1 ≤ position)))
  | _ => Step.fail .missingOperation

/-- Answers the requests on a single value. -/
def onSingle (placeholder : Placeholder) : Request TypeForm String → Act Reply
  | .decode a none => do pure (.value (← Step.shared (placeholder a)))
  | .decodeNull none => pure (.ofBool false)
  | _ => Step.fail .missingOperation

end KeyChecker

/-- The key-checking surface. -/
def keyChecker (placeholder : Placeholder) : Surface KeyCheck where
  answer h request :=
    match h.role with
    | .decoder => KeyChecker.onDecoder h request
    | .keyed => KeyChecker.onKeyed placeholder h request
    | .unkeyed => KeyChecker.onUnkeyed placeholder h request
    | .single => KeyChecker.onSingle placeholder request

end SchemaProbe

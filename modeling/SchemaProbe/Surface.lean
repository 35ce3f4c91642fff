import SchemaProbe.Lookup

namespace SchemaProbe

/-!
# Decoding surfaces

A surface answers the requests of a type that decodes itself.  What is opened
is referred to by handles; what a handle stands for is the surface's own
business, and so is the state behind it.  Every surface refuses the same
requests: those that a decoder or container does not know, and those without
the arguments that it needs.
-/

/-- A reference to a decoder or a container of a surface.  `relative` is the
way to it from the decoder that the type was given, with `0` for the elements
of a sequence; `slot` is where the surface keeps what belongs to it. -/
structure Handle where
  role : Role
  path : Path
  relative : Path
  slot : Nat
  deriving Repr, DecidableEq

/-- The answer to a request. -/
inductive Reply
  | value (v : Value)
  | handle (h : Handle)

namespace Reply

/-- A reply as a value. -/
def toValue : Reply → Value
  | .value v => v
  | .handle h => .container h.path

/-- Whether a reply is the true value. -/
def isTrue : Reply → Bool
  | .value (.bool b) => b
  | _ => false

/-- A truth value as a reply. -/
def ofBool (b : Bool) : Reply :=
  .value (.bool b)

/-- The reply of null. -/
def null : Reply :=
  .value .null

end Reply

/-- A path as a value. -/
def pathValue (path : Path) : Value :=
  .list (path.map fun step =>
    match step with
    | .key name => .text name
    | .index position => .int position)

/-- A surface with a private state. -/
structure Surface (σ : Type) where
  answer : Handle → Request TypeForm String → Step (σ × Store) Reply

namespace Surface

/-- Makes a request on a handle. -/
def ask
    (surface : Surface σ)
    (h : Handle)
    (request : Request TypeForm String) :
    Step (σ × Store) Reply :=
  if !request.isKnownTo h.role then Step.fail .missingOperation
  else if !request.fits h.role then Step.fail .wrongArguments
  else
    match request with
    | .path => pure (.value (pathValue h.path))
    | other => surface.answer h other

/-- Makes a request that is answered by a handle. -/
def openHandle
    (surface : Surface σ)
    (h : Handle)
    (request : Request TypeForm String) :
    Step (σ × Store) Handle := do
  match ← surface.ask h request with
  | .handle opened => pure opened
  | .value _ => Step.fail .missingOperation

/-- Makes a request that is answered by a value. -/
def value
    (surface : Surface σ)
    (h : Handle)
    (request : Request TypeForm String) :
    Step (σ × Store) Value := do
  pure (← surface.ask h request).toValue

/-- How many elements a sequence says it has. -/
def count
    (surface : Surface σ)
    (h : Handle) :
    Step (σ × Store) Nat := do
  match ← surface.value h .count with
  | .int n => pure n.toNat
  | _ => pure 0

/-- Whether a sequence has been read to its end. -/
def isAtEnd
    (surface : Surface σ)
    (h : Handle) :
    Step (σ × Store) Bool := do
  pure (← surface.ask h .isAtEnd).isTrue

/-- The keys of a keyed container. -/
def keys
    (surface : Surface σ)
    (h : Handle) :
    Step (σ × Store) (List Value) := do
  match ← surface.value h .allKeys with
  | .items _ _ elements => pure elements
  | _ => pure []

end Surface

end SchemaProbe

import SchemaProbe.TypeForm.Display

namespace SchemaProbe

/-!
# Faults

What can go wrong is named by its cause; the kind and the wording of a fault
are functions of the cause.  A fault ends what is being done, and what asked
for it may catch it.  Running out of the bound on a search is no fault: nothing
catches it, so it is always seen.
-/

/-- What sort of thing goes wrong. -/
inductive FaultKind
  | refusal
  | decoding
  | surface
  | declaration
  | usage
  | operation
  | entry
  | name
  | runtime
  deriving Repr, DecidableEq

/-- Why something goes wrong. -/
inductive Fault
  | raised (kind : FaultKind) (message : String) (location : Path)
  | invalidChoice (shown choices : String)
  | emptyKey
  | sharedDefault (field shownClass : String)
  | missingKey (shown : String) (location : Path)
  | expectedObject (location : Path)
  | expectedArray (location : Path)
  | atEnd (location : Path)
  | notAnOption (shown options : String) (location : Path)
  | notAMember (shown enumeration : String) (location : Path)
  | unresolvedReference (shown : String)
  | notATypeForm (shown : String)
  | unsupportedForm (shown : String)
  | notASchema (name typeName : String)
  | wrongArguments
  | unhashable
  | withoutReader
  | missingOperation
  | unknownEntry
  | unresolvedName
  | endlessDelegation
  deriving Repr, DecidableEq

/-- The text of a path step in a location. -/
def PathStep.text : PathStep → String
  | .key name => name
  | .index position => toString position

/-- A message with the place that it is about, unless that is the root. -/
def locatedText
    (message : String)
    (location : Path) :
    String :=
  if location.isEmpty then message
  else
    message ++ " (at " ++ String.intercalate "." (location.map PathStep.text) ++ ")"

namespace Fault

/-- The sort of a fault. -/
def kind : Fault → FaultKind
  | .raised kind _ _ => kind
  | .invalidChoice _ _ | .emptyKey | .sharedDefault _ _ => .refusal
  | .missingKey _ _ | .expectedObject _ | .expectedArray _ | .atEnd _
  | .notAnOption _ _ _ | .notAMember _ _ _ => .decoding
  | .unresolvedReference _ | .notATypeForm _ | .unsupportedForm _ => .surface
  | .notASchema _ _ => .declaration
  | .wrongArguments | .unhashable | .withoutReader => .usage
  | .missingOperation => .operation
  | .unknownEntry => .entry
  | .unresolvedName => .name
  | .endlessDelegation => .runtime

/-- Where a fault of decoding happened. -/
def location : Fault → Path
  | .raised _ _ location | .missingKey _ location | .expectedObject location
  | .expectedArray location | .atEnd location | .notAnOption _ _ location
  | .notAMember _ _ location => location
  | _ => []

/-- The wording of a fault without its place. -/
def wording : Fault → String
  | .raised _ message _ => message
  | .invalidChoice shown choices => shown ++ " is not a valid " ++ choices
  | .emptyKey => "Invalid key: empty string"
  | .sharedDefault field shownClass =>
    "mutable default " ++ shownClass ++ " for field " ++ field
      ++ " is not allowed: use default_factory"
  | .missingKey shown _ => "missing key " ++ shown
  | .expectedObject _ => "expected object"
  | .expectedArray _ => "expected array"
  | .atEnd _ => "unkeyed container is at end"
  | .notAnOption shown options _ => shown ++ " is not one of " ++ options
  | .notAMember shown enumeration _ => shown ++ " is not a valid " ++ enumeration
  | .unresolvedReference shown => "Unresolved forward reference: " ++ shown
  | .notATypeForm shown => "Not a type annotation: " ++ shown
  | .unsupportedForm shown => "Unsupported type annotation: " ++ shown
  | .notASchema name typeName =>
    name ++ " declared a schema of type " ++ typeName ++ ", expected Schema or Reference"
  | .wrongArguments => "wrong arguments"
  | .unhashable => "not hashable"
  | .withoutReader => "no decode function"
  | .missingOperation => "no such operation"
  | .unknownEntry => "no such entry"
  | .unresolvedName => "name is not defined"
  | .endlessDelegation => "delegation without end"

/-- The message of a fault: faults of decoding say where they happened. -/
def message (f : Fault) : String :=
  match f.kind with
  | .decoding => locatedText f.wording f.location
  | _ => f.wording

end Fault

/-- Why a computation stops early: a fault, which can be caught, or the end of
the bound on a search, which cannot. -/
inductive Interrupt
  | fault (f : Fault)
  | exhausted
  deriving Repr, DecidableEq

end SchemaProbe

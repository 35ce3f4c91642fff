import SchemaProbe.World

namespace SchemaProbe

/-!
# Instances

An instance of a model takes each field from what is given under its alias or,
failing that, its name, and otherwise from its default; a field without either
stays absent.  A dataclass is built from its arguments.  An instance of any
other class is as empty as the built-in class that it extends.
-/

/-- The name under which a value for a field is given, if one is. -/
def Field.givenName?
    (f : Field)
    (given : List (String × Value)) :
    Option String :=
  (f.aliasName.toList ++ [f.name]).find? fun name => given.any fun e => e.1 == name

/-- The attributes of a model instance; each given value is used once. -/
def assignFields : List Field → List (String × Value) → List (String × Value)
  | [], _ => []
  | f :: rest, given =>
    match f.givenName? given with
    | some name =>
      ((given.lookup name).toList.map fun v => (f.name, v))
        ++ assignFields rest (Table.erase given name)
    | none => (f.defaultValue?.toList.map fun v => (f.name, v)) ++ assignFields rest given

/-- The attributes of a dataclass instance; an argument that is needed and not
given is a fault. -/
def argumentFields? :
    List Field → List (String × Value) → Except Fault (List (String × Value))
  | [], _ => .ok []
  | f :: rest, given => do
    let others ← argumentFields? rest given
    match (if f.isArgument then given.lookup f.name else none).or f.defaultValue? with
    | some v => .ok ((f.name, v) :: others)
    | none => if f.isArgument then .error .wrongArguments else .ok others

/-- Elements as a sequence of a class; a set needs elements that can be looked
up and holds equal ones once. -/
def gather?
    (shape : SequenceShape)
    (cls : Option ClassRef)
    (elements : List Value) :
    Except Fault Value :=
  if shape.isSet then
    if Value.allHashable elements then .ok (.items shape cls (Value.distinct elements))
    else .error .unhashable
  else .ok (.items shape cls elements)

namespace World

/-- The shape of the sequences of a class. -/
def sequenceShape? (w : World) (c : ClassRef) : Option SequenceShape :=
  [SequenceShape.list, .set, .frozenset, .tuple].find? fun shape => w.inherits c shape.builtin

/-- What a class that is no sequence holds when it is empty. -/
def emptyValue (w : World) (c : ClassRef) (got : Option (List Value)) : Value :=
  if w.inherits c .dict then .dict (some c) []
  else if w.inherits c .bytes then .bytes (some c) []
  else if w.inherits c .str then .text ""
  else if w.inherits c .int then .int 0
  else if w.inherits c .float then .float 0
  else .object c got

/-- A new instance of a class without any arguments, holding what it got. -/
def freshInstance?
    (w : World)
    (c : ClassRef)
    (got : Option (List Value)) :
    Except Fault Value :=
  match w.body c with
  | .model fields => .ok (.record c (assignFields fields []))
  | .dataclass fields _ =>
    .ok (.record c (fields.filterMap fun f => f.default.map fun v => (f.name, v)))
  | .enumeration _ _ _ => .error .wrongArguments
  | .namedTuple size =>
    if size == 0 then .ok (.items .tuple (some c) []) else .error .wrongArguments
  | .typedDict => .ok (.dict none [])
  | .plain =>
    match w.sequenceShape? c with
    | some shape => .ok (.items shape (some c) [])
    | none => .ok (w.emptyValue c got)

/-- An instance of a class with fields from the values of its fields. -/
def construct?
    (w : World)
    (c : ClassRef)
    (given : List (String × Value)) :
    Except Fault Value :=
  match w.body c with
  | .model fields => .ok (.record c (assignFields fields given))
  | .dataclass fields refusal => do
    let attributes ← argumentFields? fields given
    match refusal with
    | some message => .error (.raised .refusal message [])
    | none => .ok (.record c attributes)
  | _ => .error .missingOperation

end World

/-- What the elements of a sequence are gathered into. -/
inductive Gathering
  | shape (s : SequenceShape)
  | cls (c : ClassRef)
  deriving Repr, DecidableEq

/-- Elements in what they are gathered into.  A named tuple takes them as one
argument. -/
def World.gatherInto?
    (w : World)
    (into : Gathering)
    (elements : List Value) :
    Except Fault Value :=
  match into with
  | .shape s => gather? s none elements
  | .cls c =>
    match w.body c with
    | .namedTuple 1 => .ok (.items .tuple (some c) [.list elements])
    | .namedTuple _ => .error .wrongArguments
    | _ =>
      match w.sequenceShape? c with
      | some s => gather? s (some c) elements
      | none => .error .wrongArguments

/-- Entries in a mapping of a class; a typed mapping is a plain one. -/
def World.mappingOf
    (w : World)
    (cls : Option ClassRef)
    (entries : List (Value × Value)) :
    Value :=
  match cls with
  | none => .dict none entries
  | some c =>
    match w.body c with
    | .typedDict => .dict none entries
    | _ => .dict cls entries

end SchemaProbe

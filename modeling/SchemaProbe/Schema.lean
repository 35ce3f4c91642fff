import SchemaProbe.Document

namespace SchemaProbe

/-!
# Schemas

A schema says what documents of a type look like; a reference says under which
name to find one.  A schema without any part accepts everything.  Only objects,
dictionaries and arrays can be shared under a name, and an enumeration of
literals is none of these whatever its data type.
-/

/-- The data types of documents. -/
inductive DataType
  | string
  | integer
  | number
  | boolean
  | object
  | array
  deriving Repr, DecidableEq

namespace DataType

/-- Every data type, in the order in which they are listed. -/
def all : List DataType :=
  [.string, .integer, .number, .boolean, .object, .array]

/-- The word for a data type. -/
def name : DataType → String
  | .string => "string"
  | .integer => "integer"
  | .number => "number"
  | .boolean => "boolean"
  | .object => "object"
  | .array => "array"

/-- The data type that a word names. -/
def ofName? (word : String) : Option DataType :=
  all.find? fun t => t.name == word

/-- The word for a data type names that data type. -/
theorem ofName?_name (t : DataType) : ofName? t.name = some t := by
  cases t <;> decide

end DataType

/-- The parts of a schema that hold no other schema. -/
structure SchemaHeader where
  type : Option DataType
  format : Option String
  description : Option String
  choices : Option (List Value)
  required : Option (List String)

/-- A schema, or a reference to one. -/
inductive Schema
  | reference (target : String) (description : Option String)
  | inline (header : SchemaHeader) (properties : Option (List (String × Schema)))
    (items : Option Schema) (additional : Option Schema)

/-- Where shared schemas are found. -/
def sharedHome : String :=
  "#/components/schemas/"

/-- What follows the last slash of a text. -/
def lastSegment (target : String) : String :=
  String.ofList ((target.toList.reverse.takeWhile (· != '/')).reverse)

namespace SchemaHeader

/-- The header without any part. -/
def empty : SchemaHeader :=
  ⟨none, none, none, none, none⟩

/-- The header with a data type alone. -/
def ofType (t : DataType) : SchemaHeader :=
  ⟨some t, none, none, none, none⟩

end SchemaHeader

namespace Schema

/-- The reference to a shared schema by its name. -/
def referenceTo (name : String) : Schema :=
  .reference (sharedHome ++ name) none

/-- The name that a reference refers to. -/
def referenceName? : Schema → Option String
  | .reference target _ => some (lastSegment target)
  | .inline _ _ _ _ => none

/-- The schema that accepts everything. -/
def any : Schema :=
  .inline .empty none none none

/-- The schema of a scalar. -/
def primitive
    (type : DataType)
    (format : Option String) :
    Schema :=
  .inline { SchemaHeader.ofType type with format := format } none none none

/-- The schema of an enumeration of literals. -/
def enumeration
    (type : DataType)
    (cases : List Value) :
    Schema :=
  .inline { SchemaHeader.ofType type with choices := some cases } none none none

/-- The schema of an object with fixed properties.  An empty list of required
names is left out. -/
def object
    (properties : List (String × Schema))
    (required : List String) :
    Schema :=
  let names := if required.isEmpty then none else some required
  .inline { SchemaHeader.ofType .object with required := names } (some properties) none none

/-- The schema of a dictionary whose values follow a schema. -/
def dictionary (values : Schema) : Schema :=
  .inline (.ofType .object) none none (some values)

/-- The schema of an array whose items follow a schema. -/
def array (element : Schema) : Schema :=
  .inline (.ofType .array) none (some element) none

/-- Whether a schema can be shared under a name. -/
def isReferenceable : Schema → Bool
  | .reference _ _ => false
  | .inline header _ _ _ =>
    header.choices.isNone
      && (header.type == some .object || header.type == some .array)

/-- A schema with another description. -/
def withDescription
    (description : Option String) :
    Schema → Schema
  | .reference target _ => .reference target description
  | .inline header properties items additional =>
    .inline { header with description := description } properties items additional

end Schema

/-- Whether two lists of values are equal one by one. -/
def Value.equalAll (a b : List Value) : Bool :=
  (Value.list a).equals (.list b)

/-- Whether two headers say the same. -/
def SchemaHeader.agrees (a b : SchemaHeader) : Bool :=
  a.type == b.type && a.format == b.format && a.description == b.description
    && a.required == b.required
    && (match a.choices, b.choices with
      | none, none => true
      | some as, some bs => Value.equalAll as bs
      | _, _ => false)

namespace Schema

mutual

/-- Whether two schemas say the same; the order of properties is no part of
what they say. -/
def agrees : Schema → Schema → Bool
  | .reference target description, .reference other note =>
    target == other && description == note
  | .inline header properties items additional, .inline otherHeader others element rest =>
    header.agrees otherHeader && agreesTable properties others && agreesPart items element
      && agreesPart additional rest
  | _, _ => false
termination_by structural x => x

/-- Whether two optional parts say the same. -/
def agreesPart : Option Schema → Option Schema → Bool
  | none, none => true
  | some a, some b => agrees a b
  | _, _ => false
termination_by structural x => x

/-- Whether two optional tables of properties say the same. -/
def agreesTable :
    Option (List (String × Schema)) → Option (List (String × Schema)) → Bool
  | none, none => true
  | some as, some bs => as.length == bs.length && agreesNamed as bs
  | _, _ => false
termination_by structural x => x

/-- Whether each property agrees with the property of its name. -/
def agreesNamed : List (String × Schema) → List (String × Schema) → Bool
  | [], _ => true
  | (name, a) :: as, bs =>
    (match bs.lookup name with
      | some b => agrees a b
      | none => false) && agreesNamed as bs
termination_by structural x => x
end

/-- An optional part of a document under its name. -/
def part
    (name : String) :
    Option Document → List (String × Document)
  | none => []
  | some d => [(name, d)]

/-- The written form of a header. -/
def headerDocument (header : SchemaHeader) : List (String × Document) :=
  part "type" (header.type.map fun t => .text t.name)
    ++ part "format" (header.format.map .text)
    ++ part "description" (header.description.map .text)
    ++ part "enum" (header.choices.map fun cases => .list (Value.documents cases))
    ++ part "required" (header.required.map fun names => .list (names.map .text))

mutual

/-- The written form of a schema: the parts that are there, the properties as
pairs in their order. -/
def document : Schema → Document
  | .reference target description =>
    .object (("$ref", .text target) :: part "description" (description.map .text))
  | .inline header properties items additional =>
    .object (headerDocument header ++ tableDocument properties ++ partDocument "items" items
      ++ partDocument "additionalProperties" additional)

/-- The written form of an optional part under its name. -/
def partDocument (name : String) : Option Schema → List (String × Document)
  | none => []
  | some s => [(name, document s)]

/-- The written form of an optional table of properties. -/
def tableDocument : Option (List (String × Schema)) → List (String × Document)
  | none => []
  | some properties => [("properties", .list (namedDocuments properties))]

/-- The written forms of properties. -/
def namedDocuments : List (String × Schema) → List Document
  | [] => []
  | (name, s) :: rest => .entry name (document s) :: namedDocuments rest

end

end Schema

end SchemaProbe

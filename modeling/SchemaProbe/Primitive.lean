namespace SchemaProbe

/-!
# Primitive kinds

The terminal scalars that a described type can end in.  A kind is written by
its own word and read back from it.
-/

/-- The kind of a terminal scalar. -/
inductive PrimitiveKind
  | bool
  | string
  | int
  | int8
  | int16
  | int32
  | int64
  | uint
  | uint8
  | uint16
  | uint32
  | uint64
  | double
  | float
  | null
  deriving Repr, DecidableEq

namespace PrimitiveKind

/-- Every kind, in the order in which kinds are listed. -/
def all : List PrimitiveKind :=
  [.bool, .string, .int, .int8, .int16, .int32, .int64, .uint, .uint8, .uint16, .uint32, .uint64,
    .double, .float, .null]

/-- The word for a kind. -/
def name : PrimitiveKind → String
  | .bool => "bool"
  | .string => "string"
  | .int => "int"
  | .int8 => "int8"
  | .int16 => "int16"
  | .int32 => "int32"
  | .int64 => "int64"
  | .uint => "uint"
  | .uint8 => "uint8"
  | .uint16 => "uint16"
  | .uint32 => "uint32"
  | .uint64 => "uint64"
  | .double => "double"
  | .float => "float"
  | .null => "null"

/-- The kind that a word names. -/
def ofName? (word : String) : Option PrimitiveKind :=
  all.find? fun kind => kind.name == word

/-- The word for a kind names that kind. -/
theorem ofName?_name (kind : PrimitiveKind) : ofName? kind.name = some kind := by
  cases kind <;> decide

end PrimitiveKind

end SchemaProbe

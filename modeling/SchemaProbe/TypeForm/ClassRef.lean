import SchemaProbe.Primitive

namespace SchemaProbe

/-!
# References to classes

A class is built in, one of the sized numbers, or declared.  A reference
carries the class's name and home, so that names and display forms are
functions of the reference alone; a declared class is identified by its name,
its home and its number among the classes declared there under that name, which
a second declaration of the same name does not share.
-/

/-- The classes that need no declaration. -/
inductive Builtin
  | object
  | noneType
  | bool
  | int
  | float
  | complex
  | str
  | bytes
  | bytearray
  | list
  | dict
  | set
  | frozenset
  | tuple
  | range
  | type
  | date
  | datetime
  | time
  | timedelta
  | uuid
  | decimal
  | orderedDict
  | deque
  | counter
  | sequence
  | mutableSequence
  | iterable
  | collection
  | abstractSet
  | mutableSet
  | mapping
  | mutableMapping
  | callable
  | enum
  | model
  | struct
  deriving Repr, DecidableEq

namespace Builtin

/-- The module that a class belongs to. -/
def home : Builtin → String
  | .date | .datetime | .time | .timedelta => "datetime"
  | .uuid => "uuid"
  | .decimal => "decimal"
  | .orderedDict | .deque | .counter => "collections"
  | .sequence | .mutableSequence | .iterable | .collection | .abstractSet | .mutableSet
  | .mapping | .mutableMapping | .callable => "collections.abc"
  | .enum => "enum"
  | .model => "model"
  | .struct => "struct"
  | _ => "builtins"

/-- The name of a class. -/
def name : Builtin → String
  | .object => "object"
  | .noneType => "NoneType"
  | .bool => "bool"
  | .int => "int"
  | .float => "float"
  | .complex => "complex"
  | .str => "str"
  | .bytes => "bytes"
  | .bytearray => "bytearray"
  | .list => "list"
  | .dict => "dict"
  | .set => "set"
  | .frozenset => "frozenset"
  | .tuple => "tuple"
  | .range => "range"
  | .type => "type"
  | .date => "date"
  | .datetime => "datetime"
  | .time => "time"
  | .timedelta => "timedelta"
  | .uuid => "UUID"
  | .decimal => "Decimal"
  | .orderedDict => "OrderedDict"
  | .deque => "deque"
  | .counter => "Counter"
  | .sequence => "Sequence"
  | .mutableSequence => "MutableSequence"
  | .iterable => "Iterable"
  | .collection => "Collection"
  | .abstractSet => "Set"
  | .mutableSet => "MutableSet"
  | .mapping => "Mapping"
  | .mutableMapping => "MutableMapping"
  | .callable => "Callable"
  | .enum => "Enum"
  | .model => "BaseModel"
  | .struct => "Struct"

/-- The class that a class directly extends, other than `object`. -/
def parent? : Builtin → Option Builtin
  | .bool => some .int
  | .datetime => some .date
  | .orderedDict | .counter => some .dict
  | .struct => some .model
  | _ => none

/-- A class and the classes it extends, nearest first.  No chain is longer
than two. -/
def lineage (b : Builtin) : List Builtin :=
  b :: b.parent?.toList

/-- The kind of the scalar that a class stands for by itself. -/
def primitiveKind? : Builtin → Option PrimitiveKind
  | .bool => some .bool
  | .str => some .string
  | .int => some .int
  | .float => some .double
  | .noneType => some .null
  | _ => none

end Builtin

/-- The number classes that fix a width, and the two classes they extend. -/
inductive SizedNumber
  | fixedInt
  | int8
  | int16
  | int32
  | int64
  | uint
  | uint8
  | uint16
  | uint32
  | uint64
  | fixedFloat
  | float32
  | float64
  deriving Repr, DecidableEq

namespace SizedNumber

/-- The name of a sized number class. -/
def name : SizedNumber → String
  | .fixedInt => "FixedInt"
  | .int8 => "Int8"
  | .int16 => "Int16"
  | .int32 => "Int32"
  | .int64 => "Int64"
  | .uint => "UInt"
  | .uint8 => "UInt8"
  | .uint16 => "UInt16"
  | .uint32 => "UInt32"
  | .uint64 => "UInt64"
  | .fixedFloat => "FixedFloat"
  | .float32 => "Float32"
  | .float64 => "Float64"

/-- The kind of scalar that a sized number stands for. -/
def kind : SizedNumber → PrimitiveKind
  | .fixedInt => .int
  | .int8 => .int8
  | .int16 => .int16
  | .int32 => .int32
  | .int64 => .int64
  | .uint => .uint
  | .uint8 => .uint8
  | .uint16 => .uint16
  | .uint32 => .uint32
  | .uint64 => .uint64
  | .fixedFloat => .double
  | .float32 => .float
  | .float64 => .double

/-- Whether a sized number extends the floating point numbers. -/
def isFloat : SizedNumber → Bool
  | .fixedFloat | .float32 | .float64 => true
  | _ => false

end SizedNumber

/-- A declared class: its number among those of its name and its home module, its name,
and its home module. -/
structure UserClass where
  id : Nat
  name : String
  home : String
  deriving Repr, DecidableEq

/-- A reference to a class. -/
inductive ClassRef
  | builtin (b : Builtin)
  | sized (number : SizedNumber) (home : String)
  | user (c : UserClass)
  deriving Repr, DecidableEq

namespace ClassRef

/-- The name of a class. -/
def name : ClassRef → String
  | .builtin b => b.name
  | .sized number _ => number.name
  | .user c => c.name

/-- The module that a class belongs to. -/
def home : ClassRef → String
  | .builtin b => b.home
  | .sized _ home => home
  | .user c => c.home

/-- Whether a class is identified by its name outside the language core, so
that a schema of it can be shared under that name. -/
def isNominal (c : ClassRef) : Bool :=
  c.home != "builtins"

/-- A class with its home in front, the core's own classes bare. -/
def qualifiedName (c : ClassRef) : String :=
  if c.isNominal then c.home ++ "." ++ c.name else c.name

/-- The display form of a class as a value. -/
def display (c : ClassRef) : String :=
  "<class '" ++ c.qualifiedName ++ "'>"

end ClassRef

end SchemaProbe

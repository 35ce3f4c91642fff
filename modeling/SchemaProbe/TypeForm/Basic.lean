import SchemaProbe.TypeForm.ClassRef
import SchemaProbe.Calendar
import SchemaProbe.Number.ExactDecimal

namespace SchemaProbe

/-!
# Values and type forms

A value is what a decode reads or stands in for; a type form says what is
to be read.  Each contains the other: literal type forms list values, and a
type form can itself be a value.  A type form also covers what stands in
the place of a type without being one, since naming and probing have a rule
for those as well.
-/

/-- A step of a decoding path: a key or a position. -/
inductive PathStep
  | key (name : String)
  | index (position : Int)
  deriving Repr, DecidableEq

/-- Where in the data a decoder stands. -/
abbrev Path := List PathStep

/-- The four kinds of item sequences. -/
inductive SequenceShape
  | list
  | tuple
  | set
  | frozenset
  deriving Repr, DecidableEq

/-- What the members of an enumeration are besides members. -/
inductive Mixin
  | plain
  | int
  | str
  | flag
  | intFlag
  deriving Repr, DecidableEq

/-- How a union was written: by name or by the bar operator. -/
inductive UnionStyle
  | named
  | bar
  deriving Repr, DecidableEq

/-- What a parametrised type form applies to. -/
inductive Origin
  | cls (c : ClassRef)
  | classVar
  | final
  deriving Repr, DecidableEq

mutual

/-- A value. -/
inductive Value
  | null
  | bool (b : Bool)
  | int (n : Int)
  | float (x : Float)
  | text (s : String)
  | bytes (cls : Option ClassRef) (data : List UInt8)
  | bytearray (data : List UInt8)
  | date (d : CalendarDate)
  | moment (m : Moment)
  | uuid (number : Nat)
  | decimal (d : Number.ExactDecimal)
  | items (shape : SequenceShape) (cls : Option ClassRef) (elements : List Value)
  | dict (cls : Option ClassRef) (entries : List (Value × Value))
  | type (a : TypeForm)
  | member (cls : UserClass) (mixin : Mixin) (name : Option String) (value : Value)
  | record (cls : ClassRef) (fields : List (String × Value))
  | object (cls : ClassRef) (got : Option (List Value))
  | container (path : Path)

/-- A type form, or what stands in the place of one. -/
inductive TypeForm
  | any
  | never
  | cls (c : ClassRef)
  | variable (name : String)
  | newType (c : UserClass)
  | bare (b : Builtin)
  | generic (origin : Origin) (args : List TypeForm)
  | callable (params : List TypeForm) (result : TypeForm)
  | union (style : UnionStyle) (members : List TypeForm)
  | literal (values : List Value)
  | annotated (inner : TypeForm) (notes : List Value)
  | reference (name : String)
  | text (s : String)
  | ellipsis
  | value (v : Value)

end

instance : Inhabited Value := ⟨.null⟩

instance : Inhabited TypeForm := ⟨.any⟩

namespace Value

/-- A list that is not of a subclass. -/
def list (elements : List Value) : Value :=
  .items .list none elements

/-- A tuple that is not of a subclass. -/
def tuple (elements : List Value) : Value :=
  .items .tuple none elements

/-- Whether a value is the null value. -/
def isNull : Value → Bool
  | .null => true
  | _ => false

end Value

namespace SequenceShape

/-- The class of the sequences of a shape. -/
def builtin : SequenceShape → Builtin
  | .list => .list
  | .tuple => .tuple
  | .set => .set
  | .frozenset => .frozenset

/-- Whether the sequences of a shape hold an element at most once. -/
def isSet : SequenceShape → Bool
  | .set | .frozenset => true
  | _ => false

end SequenceShape

namespace TypeForm

/-- The type form of a built-in class. -/
def builtin (b : Builtin) : TypeForm :=
  .cls (.builtin b)

/-- The type form of the null value's class. -/
def nullType : TypeForm :=
  .builtin .noneType

/-- Whether a type form is the null value's class. -/
def isNullType : TypeForm → Bool
  | .cls c => c == .builtin .noneType
  | _ => false

/-- What a type form applies its arguments to, if it is a parametrised or
bare alias of a class. -/
def aliasOrigin? : TypeForm → Option Origin
  | .bare b => some (.cls (.builtin b))
  | .generic origin _ => some origin
  | .callable _ _ => some (.cls (.builtin .callable))
  | _ => none

end TypeForm

/-- The class of a value. -/
def Value.classOf : Value → ClassRef
  | .null => .builtin .noneType
  | .bool _ => .builtin .bool
  | .int _ => .builtin .int
  | .float _ => .builtin .float
  | .text _ => .builtin .str
  | .bytes cls _ => cls.getD (.builtin .bytes)
  | .bytearray _ => .builtin .bytearray
  | .date _ => .builtin .date
  | .moment _ => .builtin .datetime
  | .uuid _ => .builtin .uuid
  | .decimal _ => .builtin .decimal
  | .items shape cls _ => cls.getD (.builtin shape.builtin)
  | .dict cls _ => cls.getD (.builtin .dict)
  | .type _ => .builtin .type
  | .member cls _ _ _ => .user cls
  | .record cls _ => cls
  | .object cls _ => cls
  | .container _ => .builtin .object

end SchemaProbe

import SchemaProbe.TypeForm.Display

namespace SchemaProbe

/-!
# Identity of values and type forms

Two type forms are the same type when they have the same key.  A key is a
tree of plain labels, so that sameness of keys is decidable equality and an
equivalence by construction.  The rules of sameness are the rules for
building keys: numbers of all kinds by their exact value, unions and sets
without regard to order or repetition, literal values together with their
class, classes by their identity, everything else by its parts.

What is mutable has a key, but cannot be looked up by it.  A type form that
contains something mutable is identified by its display form instead, and
then agrees with a text of that form.
-/

/-- A tree of labels. -/
inductive Key
  | tag (name : String)
  | number (r : Number.Ratio)
  | text (s : String)
  | pair (first second : Key)
  deriving Repr, DecidableEq

namespace Key

/-- The rank of the outermost label. -/
def rank : Key → Nat
  | .tag _ => 0
  | .number _ => 1
  | .text _ => 2
  | .pair _ _ => 3

/-- An order on keys: by outermost label, then by its parts. -/
def compare : Key → Key → Ordering
  | .tag a, .tag b => Ord.compare a b
  | .number a, .number b =>
    (Ord.compare a.numerator b.numerator).then (Ord.compare a.denominator b.denominator)
  | .text a, .text b => Ord.compare a b
  | .pair a b, .pair c d => (compare a c).then (compare b d)
  | a, b => Ord.compare a.rank b.rank

/-- A key for a sequence of keys. -/
def sequence : List Key → Key
  | [] => .tag "end"
  | k :: rest => .pair k (sequence rest)

/-- Puts a key into an increasing list of keys, unless it is there. -/
def insert (k : Key) : List Key → List Key
  | [] => [k]
  | head :: rest =>
    match compare k head with
    | .lt => k :: head :: rest
    | .eq => head :: rest
    | .gt => head :: insert k rest

/-- A key for a set of keys. -/
def setOf (keys : List Key) : Key :=
  sequence (keys.foldr insert [])

/-- A key with a label in front. -/
def labelled
    (label : String)
    (k : Key) :
    Key :=
  .pair (.tag label) k

/-- The key of a whole number. -/
def ofInt (n : Int) : Key :=
  .number (.ofInt n)

/-- The key of a list of whole numbers with a label in front. -/
def numbers
    (label : String)
    (ns : List Int) :
    Key :=
  labelled label (sequence (ns.map ofInt))

end Key

/-- The key of a declared class. -/
def UserClass.key (c : UserClass) : Key :=
  .pair (.text c.name) (.pair (.text c.home) (.ofInt c.id))

/-- The key of a class. -/
def ClassRef.key : ClassRef → Key
  | .builtin b => .labelled "builtin" (.text b.name)
  | .sized number _ => .labelled "sized" (.text number.name)
  | .user c => .labelled "class" c.key

/-- The key of what arguments are applied to. -/
def Origin.key : Origin → Key
  | .cls c => c.key
  | .classVar => .tag "classvar"
  | .final => .tag "final"

/-- The key of a double: its exact value, or what it is without one. -/
def floatKey (x : Float) : Key :=
  match Number.Ratio.ofBinary? (.ofFloat x) with
  | some r => .number r
  | none => .labelled "float" (.text (Number.floatText x))

/-- The key of a date. -/
def CalendarDate.key (d : CalendarDate) : Key :=
  .numbers "date" [d.year, d.month, d.day]

/-- The key of a moment. -/
def Moment.key (m : Moment) : Key :=
  .pair m.date.key
    (.numbers "moment"
      ([(m.hour : Int), m.minute, m.second, m.microsecond] ++ m.offset.toList))

/-- The label of the sequences of a shape; both kinds of set share one. -/
def SequenceShape.label : SequenceShape → String
  | .list => "list"
  | .tuple => "tuple"
  | .set | .frozenset => "set"

mutual

/-- The key of a value. -/
def Value.key : Value → Key
  | .null => .tag "null"
  | .bool b => .ofInt (if b then 1 else 0)
  | .int n => .ofInt n
  | .float x => floatKey x
  | .text s => .text s
  | .bytes _ data => .numbers "bytes" (data.map fun byte => (byte.toNat : Int))
  | .bytearray data => .numbers "bytes" (data.map fun byte => (byte.toNat : Int))
  | .date d => d.key
  | .moment m => m.key
  | .uuid number => .numbers "uuid" [number]
  | .decimal d => .number (.ofDecimal d)
  | .items shape _ elements =>
    .labelled shape.label
      (if shape.isSet then Key.setOf (Value.keys elements)
        else Key.sequence (Value.keys elements))
  | .dict _ entries => .labelled "dict" (Key.setOf (Value.entryKeys entries))
  | .type a => a.key
  | .member cls mixin _ value =>
    match mixin with
    | .plain | .flag => .labelled "member" (.pair cls.key value.key)
    | _ => value.key
  | .record cls fields =>
    .labelled "record" (.pair cls.key (Key.sequence (Value.fieldKeys fields)))
  | .object cls _ => .labelled "object" cls.key
  | .container _ => .tag "container"

/-- The keys of values. -/
def Value.keys : List Value → List Key
  | [] => []
  | v :: rest => v.key :: Value.keys rest

/-- The keys of entries. -/
def Value.entryKeys : List (Value × Value) → List Key
  | [] => []
  | (key, value) :: rest => .pair key.key value.key :: Value.entryKeys rest

/-- The keys of fields with their names. -/
def Value.fieldKeys : List (String × Value) → List Key
  | [] => []
  | (name, value) :: rest => .pair (.text name) value.key :: Value.fieldKeys rest

/-- The keys of literal values, each with its class. -/
def Value.literalKeys : List Value → List Key
  | [] => []
  | v :: rest => .pair v.key v.classOf.key :: Value.literalKeys rest

/-- The key of a type form by its parts. -/
def TypeForm.key : TypeForm → Key
  | .any => .tag "any"
  | .never => .tag "never"
  | .cls c => c.key
  | .variable name => .labelled "variable" (.text name)
  | .newType c => .labelled "newtype" c.key
  | .bare b => .labelled "bare" (.text b.name)
  | .generic origin args =>
    .labelled "generic" (.pair origin.key (Key.sequence (TypeForm.keys args)))
  | .callable params result =>
    .labelled "callable" (.pair result.key (Key.sequence (TypeForm.keys params)))
  | .union _ members => .labelled "union" (Key.setOf (TypeForm.keys members))
  | .literal values => .labelled "literal" (Key.setOf (Value.literalKeys values))
  | .annotated inner notes =>
    .labelled "annotated" (.pair inner.key (Key.sequence (Value.keys notes)))
  | .reference name => .labelled "reference" (.text name)
  | .text s => .text s
  | .ellipsis => .tag "ellipsis"
  | .value v => v.key

/-- The keys of type forms. -/
def TypeForm.keys : List TypeForm → List Key
  | [] => []
  | a :: rest => a.key :: TypeForm.keys rest

end

mutual

/-- Whether a value can be looked up: nothing in it is mutable. -/
def Value.isHashable : Value → Bool
  | .bytearray _ => false
  | .items .list _ _ => false
  | .items .set _ _ => false
  | .items _ _ elements => Value.allHashable elements
  | .dict _ _ => false
  | .record _ _ => false
  | .type a => a.isHashable
  | _ => true

/-- Whether all values can be looked up. -/
def Value.allHashable : List Value → Bool
  | [] => true
  | v :: rest => v.isHashable && Value.allHashable rest

/-- Whether a type form can be looked up by its parts. -/
def TypeForm.isHashable : TypeForm → Bool
  | .generic _ args => TypeForm.allHashable args
  | .callable params result => TypeForm.allHashable params && result.isHashable
  | .union _ members => TypeForm.allHashable members
  | .literal values => Value.allHashable values
  | .annotated inner notes => inner.isHashable && Value.allHashable notes
  | .value v => v.isHashable
  | _ => true

/-- Whether all type forms can be looked up by their parts. -/
def TypeForm.allHashable : List TypeForm → Bool
  | [] => true
  | a :: rest => a.isHashable && TypeForm.allHashable rest

end

/-- What identifies a type form in every table: its key, or the text of its
display form when something in it is mutable. -/
def TypeForm.identity (a : TypeForm) : Key :=
  if a.isHashable then a.key else .text a.display

/-- Whether two type forms are the same type. -/
def TypeForm.same
    (a b : TypeForm) :
    Bool :=
  a.identity == b.identity

mutual

/-- Whether a value is compared by its content all the way down.  Objects are
compared by where they live instead, so two of them never agree. -/
def Value.hasContent : Value → Bool
  | .items _ _ elements => Value.allContent elements
  | .dict _ entries => Value.entriesContent entries
  | .record _ fields => Value.fieldsContent fields
  | .object _ _ => false
  | .container _ => false
  | _ => true

/-- Whether all values are compared by their content. -/
def Value.allContent : List Value → Bool
  | [] => true
  | v :: rest => v.hasContent && Value.allContent rest

/-- Whether all entries are compared by their content. -/
def Value.entriesContent : List (Value × Value) → Bool
  | [] => true
  | (key, value) :: rest => key.hasContent && value.hasContent && Value.entriesContent rest

/-- Whether all fields are compared by their content. -/
def Value.fieldsContent : List (String × Value) → Bool
  | [] => true
  | (_, value) :: rest => value.hasContent && Value.fieldsContent rest

end

/-- Equality of values: the same content, numbers of all kinds by value. -/
def Value.equals
    (a b : Value) :
    Bool :=
  a.hasContent && b.hasContent && a.key == b.key

/-- Values without those equal to an earlier one. -/
def Value.distinct : List Value → List Value
  | [] => []
  | v :: rest => v :: (Value.distinct rest).filter fun w => !v.equals w

/-- Sets a key of a mapping: a new key goes to the end, a known one keeps its
place. -/
def Value.setEntry
    (entries : List (Value × Value))
    (key value : Value) :
    List (Value × Value) :=
  if entries.any fun e => e.1.equals key then
    entries.map fun e => if e.1.equals key then (e.1, value) else e
  else entries ++ [(key, value)]

/-- The entries of a mapping built one after the other. -/
def Value.entriesOf (pairs : List (Value × Value)) : List (Value × Value) :=
  pairs.foldl (fun entries pair => Value.setEntry entries pair.1 pair.2) []

end SchemaProbe

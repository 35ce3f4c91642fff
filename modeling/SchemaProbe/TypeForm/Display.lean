import SchemaProbe.TypeForm.Basic
import SchemaProbe.Text.Quoted

namespace SchemaProbe

/-!
# Display forms

The text that stands for a value or a type form in a message.  A class is
shown in angle brackets on its own and by its qualified name inside another
type form; a text is quoted; a collection shows its elements between its
brackets.
-/

/-- A universally unique identifier in groups of hexadecimal digits. -/
def uuidText (number : Nat) : String :=
  let digits := Text.hexDigits 32 number
  String.intercalate "-"
    [String.ofList (digits.take 8), String.ofList ((digits.drop 8).take 4),
      String.ofList ((digits.drop 12).take 4), String.ofList ((digits.drop 16).take 4),
      String.ofList (digits.drop 20)]

/-- The word for a truth value. -/
def boolText (b : Bool) : String :=
  if b then "True" else "False"

/-- Parts between brackets, separated by commas. -/
def enclosed
    (opening : String)
    (parts : List String)
    (closing : String) :
    String :=
  opening ++ String.intercalate ", " parts ++ closing

/-- The elements of a tuple in parentheses; a single one is followed by a
comma. -/
def tupleText : List String → String
  | [part] => "(" ++ part ++ ",)"
  | parts => enclosed "(" parts ")"

/-- The elements of a set; braces are for sets that are not empty and not of
another class. -/
def setText
    (shape : SequenceShape)
    (cls : Option ClassRef)
    (parts : List String) :
    String :=
  let name := (cls.map ClassRef.name).getD shape.builtin.name
  if parts.isEmpty then name ++ "()"
  else if shape == .set && cls.isNone then enclosed "\x7b" parts "\x7d"
  else name ++ "(" ++ enclosed "\x7b" parts "\x7d" ++ ")"

/-- A sequence between the brackets of its shape. -/
def sequenceText
    (shape : SequenceShape)
    (cls : Option ClassRef)
    (parts : List String) :
    String :=
  match shape with
  | .list => enclosed "[" parts "]"
  | .tuple => tupleText parts
  | _ => setText shape cls parts

/-- A mapping by its entries; a subclass that comes with the core shows its
name around them. -/
def dictText
    (cls : Option ClassRef)
    (entries : List (String × String)) :
    String :=
  let braces := enclosed "\x7b" (entries.map fun e => e.1 ++ ": " ++ e.2) "\x7d"
  match cls with
  | some (.builtin .orderedDict) =>
    if entries.isEmpty then "OrderedDict()"
    else "OrderedDict("
      ++ enclosed "[" (entries.map fun e => tupleText [e.1, e.2]) "]" ++ ")"
  | some (.builtin .counter) =>
    if entries.isEmpty then "Counter()" else "Counter(" ++ braces ++ ")"
  | _ => braces

/-- An alias with its arguments; without arguments it shows an empty tuple. -/
def appliedText
    (head : String)
    (parts : List String) :
    String :=
  if parts.isEmpty then head ++ "[()]" else enclosed (head ++ "[") parts "]"

/-- The name of what arguments are applied to, as type forms show it. -/
def Origin.display : Origin → String
  | .cls c => c.qualifiedName
  | .classVar => "typing.ClassVar"
  | .final => "typing.Final"

/-- The name of a bare alias. -/
def bareAliasName : Builtin → String
  | .list => "List"
  | .dict => "Dict"
  | .set => "Set"
  | .tuple => "Tuple"
  | .frozenset => "FrozenSet"
  | b => b.name

/-- A union by the display forms of its members, each with whether it is the
null value's class.  A named union of something and null is an optional. -/
def unionText : UnionStyle → List (Bool × String) → String
  | .named, [(true, _), (_, other)] => "typing.Optional[" ++ other ++ "]"
  | .named, [(_, other), (true, _)] => "typing.Optional[" ++ other ++ "]"
  | .named, members => appliedText "typing.Union" (members.map Prod.snd)
  | .bar, members =>
    String.intercalate " | " (members.map fun m => if m.1 then "None" else m.2)

mutual

/-- The display form of a value. -/
def Value.display : Value → String
  | .null => "None"
  | .bool b => boolText b
  | .int n => toString n
  | .float x => Number.floatText x
  | .text s => Text.quoted s
  | .bytes _ data => Text.quotedBytes data
  | .bytearray data => "bytearray(" ++ Text.quotedBytes data ++ ")"
  | .date d => d.display
  | .moment m => m.display
  | .uuid number => "UUID('" ++ uuidText number ++ "')"
  | .decimal d => "Decimal('" ++ d.text ++ "')"
  | .items shape cls elements => sequenceText shape cls (Value.displayAll elements)
  | .dict cls entries => dictText cls (Value.displayEntries entries)
  | .type (.cls c) => c.display
  | .type .ellipsis => "Ellipsis"
  | .type a => a.displayInside
  | .member cls _ (some name) value =>
    "<" ++ cls.name ++ "." ++ name ++ ": " ++ value.display ++ ">"
  | .member cls _ none value => "<" ++ cls.name ++ ": " ++ value.display ++ ">"
  | .record cls fields => enclosed (cls.name ++ "(") (Value.displayFields fields) ")"
  | .object cls _ => "<" ++ cls.qualifiedName ++ " object>"
  | .container _ => "<container>"

/-- The display forms of values. -/
def Value.displayAll : List Value → List String
  | [] => []
  | v :: rest => v.display :: Value.displayAll rest

/-- The display forms of the entries of a mapping. -/
def Value.displayEntries : List (Value × Value) → List (String × String)
  | [] => []
  | (key, value) :: rest => (key.display, value.display) :: Value.displayEntries rest

/-- The display forms of fields, each after its name. -/
def Value.displayFields : List (String × Value) → List String
  | [] => []
  | (name, value) :: rest => (name ++ "=" ++ value.display) :: Value.displayFields rest

/-- The display form of a type form inside another. -/
def TypeForm.displayInside : TypeForm → String
  | .any => "typing.Any"
  | .never => "typing.NoReturn"
  | .cls c => c.qualifiedName
  | .variable name => "~" ++ name
  | .newType c => c.home ++ "." ++ c.name
  | .bare b => "typing." ++ bareAliasName b
  | .generic origin args => appliedText origin.display (TypeForm.displayArguments args)
  | .callable params result =>
    enclosed "collections.abc.Callable["
      [enclosed "[" (TypeForm.displayArguments params) "]", result.displayInside] "]"
  | .union style members => unionText style (TypeForm.displayMembers members)
  | .literal values => appliedText "typing.Literal" (Value.displayAll values)
  | .annotated inner notes =>
    enclosed "typing.Annotated[" (inner.displayInside :: Value.displayAll notes) "]"
  | .reference name => "ForwardRef(" ++ Text.quoted name ++ ")"
  | .text s => Text.quoted s
  | .ellipsis => "..."
  | .value v => v.display

/-- The display forms of arguments. -/
def TypeForm.displayArguments : List TypeForm → List String
  | [] => []
  | a :: rest => a.displayInside :: TypeForm.displayArguments rest

/-- The display forms of the members of a union, each with whether it is the
null value's class. -/
def TypeForm.displayMembers : List TypeForm → List (Bool × String)
  | [] => []
  | a :: rest => (a.isNullType, a.displayInside) :: TypeForm.displayMembers rest

end

/-- The display form of a type form that stands by itself. -/
def TypeForm.display (a : TypeForm) : String :=
  (Value.type a).display

end SchemaProbe

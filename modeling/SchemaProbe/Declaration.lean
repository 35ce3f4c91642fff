import SchemaProbe.Program

namespace SchemaProbe

/-!
# Declarations

What is said about a class when it is declared: what it extends, its fields or
members, and the hooks by which it takes part in probing.  Terms stay as they
are written; declaring resolves them.
-/

/-- What makes a default value each time that one is needed. -/
inductive Factory
  | list
  | dict
  | set
  | str
  | int
  deriving Repr, DecidableEq

/-- A value that a factory makes. -/
def Factory.make : Factory → Value
  | .list => .list []
  | .dict => .dict none []
  | .set => .items .set none []
  | .str => .text ""
  | .int => .int 0

/-- A field as it is declared. -/
structure FieldDeclaration where
  name : String
  type : TypeTerm
  isQuoted : Bool
  default : Option ValueTerm
  factory : Option Factory
  key : Option String
  aliasName : Option String
  isExcluded : Bool
  isArgument : Bool

/-- How a class lists its cases. -/
inductive CasesHook
  | listed (values : List ValueTerm)
  | refused (message : String)

/-- How a class describes its own schema. -/
inductive SchemaHook
  | declared (schema : Schema)
  | other (value : ValueTerm)
  | refused (message : String)

/-- The hooks of a class. -/
structure Hooks where
  description : Option String
  kind : Option PrimitiveKind
  cases : Option CasesHook
  schema : Option SchemaHook
  program : Option Program
  text : Option String

namespace Hooks

/-- No hook. -/
def none : Hooks :=
  ⟨.none, .none, .none, .none, .none, .none⟩

/-- The hooks of a class over those that it inherits. -/
def inheriting (own inherited : Hooks) : Hooks where
  description := own.description.or inherited.description
  kind := own.kind.or inherited.kind
  cases := own.cases.or inherited.cases
  schema := own.schema.or inherited.schema
  program := own.program.or inherited.program
  text := own.text.or inherited.text

end Hooks

/-- How a class with fields is declared. -/
inductive FieldStyle
  | struct
  | model
  | dataclass
  deriving Repr, DecidableEq

/-- What is declared. -/
inductive ClassForm
  | fields (style : FieldStyle) (fields : List FieldDeclaration) (refusal : Option String)
  | enumeration (mixin : Mixin) (members : List (String × ValueTerm))
  | plain
  | namedTuple (size : Nat)
  | typedDict
  | newType

/-- The declaration of a class. -/
structure ClassDeclaration where
  name : String
  home : String
  base : Option TypeTerm
  params : List String
  hooks : Hooks
  form : ClassForm

end SchemaProbe

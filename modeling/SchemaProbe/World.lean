import SchemaProbe.TypeForm.Substitution
import SchemaProbe.Declaration
import SchemaProbe.Step
import SchemaProbe.Table

namespace SchemaProbe

/-!
# The declared classes

A world holds every class declared so far, the latest declaration under each
name, the classes made by giving arguments to generic models, and the first
spelling of each typing form.  Classes are never removed, so a reference to a
class stays good when its name is declared again.
-/

/-- A field of a class.  `type form` is what the field is read as; it is
resolved from what was written as soon as every name in it is known. -/
structure Field where
  name : String
  written : TypeForm
  form : TypeForm
  isResolved : Bool
  default : Option Value
  factory : Option Factory
  key : Option String
  aliasName : Option String
  isExcluded : Bool
  isArgument : Bool

namespace Field

/-- Whether a field can do without a value. -/
def hasDefault (f : Field) : Bool :=
  f.default.isSome || f.factory.isSome

/-- The value of a field that is not given. -/
def defaultValue? (f : Field) : Option Value :=
  match f.default with
  | some v => some v
  | none => f.factory.map Factory.make

end Field

/-- What a class consists of. -/
inductive ClassBody
  | plain
  | model (fields : List Field)
  | dataclass (fields : List Field) (refusal : Option String)
  | enumeration (mixin : Mixin) (members aliases : List (String × Value))
  | namedTuple (size : Nat)
  | typedDict

/-- A declared class.  Its lineage starts with itself and leaves out `object`,
which everything extends. -/
structure ClassRecord where
  cls : UserClass
  lineage : List ClassRef
  base : Option TypeForm
  params : List String
  hooks : Hooks
  body : ClassBody

/-- Everything declared so far. -/
structure World where
  classes : List ClassRecord
  names : List (String × TypeForm)
  specialised : List (Key × UserClass)
  spellings : List (Key × TypeForm)

namespace World

/-- The world before any declaration. -/
def empty : World :=
  ⟨[], [], [], []⟩

/-- The record of a declared class. -/
def record? (w : World) (c : UserClass) : Option ClassRecord :=
  w.classes.find? fun r => r.cls == c

/-- The next class of a name and a home. -/
def nextClass (w : World) (name home : String) : UserClass :=
  let earlier := w.classes.filter fun r => r.cls.name == name && r.cls.home == home
  ⟨earlier.length + 1, name, home⟩

/-- The classes that a class extends, nearest first and itself included. -/
def lineage (w : World) : ClassRef → List ClassRef
  | .builtin b => b.lineage.map .builtin
  | .sized number home =>
    let family : List ClassRef :=
      if number.isFloat then [.sized .fixedFloat home, .builtin .float]
      else [.sized .fixedInt home, .builtin .int]
    if family.contains (.sized number home) then family else .sized number home :: family
  | .user c => ((w.record? c).map (·.lineage)).getD [.user c]

/-- Whether a class extends a built-in class. -/
def inherits (w : World) (c : ClassRef) (b : Builtin) : Bool :=
  b == .object || (w.lineage c).contains (.builtin b)

/-- The hooks of a class with those that it inherits. -/
def hooks (w : World) : ClassRef → Hooks
  | .builtin _ => .none
  | .sized number _ => { Hooks.none with kind := some number.kind }
  | .user c => ((w.record? c).map (·.hooks)).getD .none

/-- What a class consists of. -/
def body (w : World) : ClassRef → ClassBody
  | .builtin .enum => .enumeration .plain [] []
  | .builtin .struct => .model []
  | .user c => ((w.record? c).map (·.body)).getD .plain
  | _ => .plain

/-- Puts the new record of a class in the place of its old one. -/
def replace (w : World) (r : ClassRecord) : World :=
  { w with classes := w.classes.map fun old => if old.cls == r.cls then r else old }

/-- Adds a class. -/
def add (w : World) (r : ClassRecord) : World :=
  { w with classes := w.classes ++ [r] }

/-- Lets a name refer to a type form from now on. -/
def bindName (w : World) (name : String) (a : TypeForm) : World :=
  { w with names := Table.set w.names name a }

/-- The built-in classes that a name can mean by itself. -/
def coreName? (name : String) : Option TypeForm :=
  [Builtin.object, .bool, .int, .float, .complex, .str, .bytes, .bytearray, .list, .dict, .set,
    .frozenset, .tuple, .range, .type].find? (fun b => b.name == name) |>.map .builtin

/-- What a name refers to. -/
def typeOf? (w : World) (name : String) : Option TypeForm :=
  (w.names.lookup name).or (coreName? name)

/-- The arguments that a class or one that it extends gives to a built-in
collection. -/
def baseArguments (w : World) (c : ClassRef) (b : Builtin) : List TypeForm :=
  ((w.lineage c).filterMap fun ancestor =>
    match ancestor with
    | .user u =>
      match (w.record? u).bind (·.base) with
      | some (.generic (.cls (.builtin origin)) args) => if origin == b then some args else none
      | _ => none
    | _ => none).head?.getD []

/-- The members that an enumeration lists: of flags, those that are a single
bit. -/
def listedMembers (mixin : Mixin) (members : List (String × Value)) : List (String × Value) :=
  match mixin with
  | .flag | .intFlag =>
    members.filter fun m =>
      match m.2 with
      | .int n => decide (0 < n) && Nat.pow 2 n.toNat.log2 == n.toNat
      | _ => false
  | _ => members

end World

/-- A member of an enumeration as a value. -/
def memberValue
    (cls : UserClass)
    (mixin : Mixin)
    (m : String × Value) :
    Value :=
  .member cls mixin (some m.1) m.2

end SchemaProbe

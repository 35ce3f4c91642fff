import SchemaProbe.Declaring

namespace SchemaProbe

/-!
# Field plans

A plan says for each field of a class under which key it is read, what it is
read as, and whether it may be missing.  A field may be missing when null is
among its types or when it has a default.
-/

/-- How one field is read.  `name` is the argument that the value is given
for, `inner` the type form without its null branch. -/
structure FieldPlan where
  name : String
  key : String
  form : TypeForm
  inner : TypeForm
  isOptional : Bool
  hasDefault : Bool

namespace FieldPlan

/-- The plan of a field for a name, a key and a type form. -/
def of
    (name key : String)
    (form : TypeForm)
    (hasDefault : Bool) :
    FieldPlan :=
  let (inner, isNullable) := form.stripNull
  { name := name
    key := key
    form := form
    inner := inner
    isOptional := isNullable || hasDefault
    hasDefault := hasDefault }

/-- The written form of a plan. -/
def document (p : FieldPlan) : Document :=
  .object
    [("name", .text p.name), ("key", .text p.key), ("annotation", p.form.document),
      ("inner", p.inner.document), ("optional", .bool p.isOptional),
      ("has_default", .bool p.hasDefault)]

end FieldPlan

/-- The first of some texts that is there and not empty, or a default. -/
def firstText (texts : List (Option String)) (otherwise : String) : String :=
  ((texts.filterMap id).find? fun s => !s.isEmpty).getD otherwise

namespace Field

/-- The plan of a field of a model: its alias, if it has one, is both its key
and its argument. -/
def modelPlan (f : Field) : FieldPlan :=
  let name := firstText [f.aliasName] f.name
  .of name name f.form f.hasDefault

/-- The plan of a field of a struct: it is given by its own name and read under
its key, its alias or its name. -/
def structPlan (f : Field) : FieldPlan :=
  .of f.name (firstText [f.key, f.aliasName] f.name) f.form f.hasDefault

/-- The plan of a field of a dataclass, read as a resolved type form without
notes. -/
def dataclassPlan (hint : TypeForm) (f : Field) : FieldPlan :=
  .of f.name (f.key.getD f.name) hint f.hasDefault

end Field

namespace World

/-- The plans of the fields of a model. -/
def modelPlans? (w : World) (c : ClassRef) : Except Fault (List FieldPlan) :=
  match c, w.body c with
  | .builtin _, _ => .error .missingOperation
  | _, .model fields => .ok ((fields.filter fun f => !f.isExcluded).map Field.modelPlan)
  | _, _ => .error .missingOperation

/-- The plans of the fields of a struct. -/
def structPlans? (w : World) (c : ClassRef) : Except Fault (List FieldPlan) :=
  match w.body c with
  | .model fields =>
    if w.inherits c .struct then
      .ok ((fields.filter fun f => !f.isExcluded).map Field.structPlan)
    else .error .missingOperation
  | _ => .error .missingOperation

/-- The resolved type form of a field of a dataclass, without notes at any
depth. -/
def hint? (w : World) (f : Field) : Except Fault TypeForm :=
  match f.written.resolveNames? w.typeOf? with
  | some a => .ok a.plain
  | none => .error .unresolvedName

/-- The plans of the fields of a dataclass.  Every name in every field has to
be known. -/
def dataclassPlans? (w : World) (c : ClassRef) : Except Fault (List FieldPlan) :=
  match w.body c with
  | .dataclass fields _ => do
    let hints ← fields.mapM fun f => do pure (f, ← w.hint? f)
    .ok ((hints.filter fun h => h.1.isArgument).map fun h => h.1.dataclassPlan h.2)
  | _ => .error .wrongArguments

/-- Whether a class is a struct. -/
def isStruct (w : World) (c : ClassRef) : Bool :=
  w.inherits c .struct

end World

/-- The plans of a model, after trying once more to settle its fields. -/
def settledModelPlans (c : ClassRef) : Step World (List FieldPlan) := do
  Step.update fun w => w.settle c
  Step.ofExcept ((← Step.current).modelPlans? c)

/-- The plans of a struct, after trying once more to settle its fields. -/
def settledStructPlans (c : ClassRef) : Step World (List FieldPlan) := do
  Step.update fun w => w.settle c
  Step.ofExcept ((← Step.current).structPlans? c)

/-- The class that a type form is, or a fault. -/
def TypeForm.asClass (otherwise : Fault) : TypeForm → Step World ClassRef
  | .cls c => pure c
  | _ => Step.fail otherwise

/-- The plans of a type form that is a class of a style. -/
def TypeForm.plans (style : FieldStyle) (a : TypeForm) : Step World (List FieldPlan) := do
  match style with
  | .struct => settledStructPlans (← a.asClass .missingOperation)
  | .model => settledModelPlans (← a.asClass .missingOperation)
  | .dataclass =>
    let c ← a.asClass .wrongArguments
    Step.ofExcept ((← Step.current).dataclassPlans? c)

/-- The plans by which a class with fields is decoded. -/
def decodingPlans (c : ClassRef) : Step World (List FieldPlan) := do
  let w ← Step.current
  match w.body c with
  | .dataclass _ _ => Step.ofExcept (w.dataclassPlans? c)
  | _ => if w.isStruct c then settledStructPlans c else settledModelPlans c

/-- The plans by which a class is decoded, if they can be made. -/
def World.plansOf? (w : World) (c : ClassRef) : Option (List FieldPlan) :=
  ((decodingPlans c).run w).1.toOption

end SchemaProbe

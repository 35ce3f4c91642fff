import SchemaProbe.Resolution

namespace SchemaProbe

/-!
# Declaring classes

A declaration adds a class to the world and binds its name.  A field keeps what
was written beside what it is read as, so that a name which is declared later
can still be settled: for a model once, when every field can be; for a
dataclass each time that its fields are read.
-/

/-- What a whole type form that cannot be resolved is read as: a name refers
to a class to come. -/
def TypeForm.unresolved (isQuoted : Bool) (a : TypeForm) : TypeForm :=
  if isQuoted then .reference a.shownAsArgument
  else
    match a.withoutNotes with
    | .text s => .reference s
    | other => other

/-- The null value in the place of a type stands for its class. -/
def TypeForm.fieldType (a : TypeForm) : TypeForm :=
  match a with
  | .value .null => .nullType
  | other => other

namespace Field

/-- A field as it is read before its names are looked up. -/
def ofWritten
    (d : FieldDeclaration)
    (written : TypeForm)
    (default : Option Value) :
    Field where
  name := d.name
  written := written
  form := written.unresolved d.isQuoted
  isResolved := false
  default := default
  factory := d.factory
  key := d.key
  aliasName := d.aliasName
  isExcluded := d.isExcluded
  isArgument := d.isArgument

/-- A field with the names of its type form looked up, if all are known. -/
def resolve? (ofName : String → Option TypeForm) (f : Field) : Option Field :=
  if f.isResolved then some f
  else
    (f.written.resolveNames? ofName).map fun a =>
      { f with form := a.withoutNotes, isResolved := true }

/-- Fields in the place of inherited fields of the same name, the others after
them. -/
def override (inherited own : List Field) : List Field :=
  own.foldl (fun fields f =>
    if fields.any fun g => g.name == f.name then
      fields.map fun g => if g.name == f.name then f else g
    else fields ++ [f]) inherited

end Field

/-- Whether a field of a style may have a default; what can be changed is not
shared between the instances of a dataclass. -/
def checkDefault
    (style : FieldStyle)
    (name : String) :
    Option Value → Except Fault Unit
  | some v =>
    let isShared :=
      match v with
      | .items .list _ _ | .items .set _ _ | .dict _ _ | .bytearray _ | .record _ _ => true
      | _ => false
    if style == .dataclass && isShared then .error (.sharedDefault name v.classOf.display)
    else .ok ()
  | none => .ok ()

/-- Whether the key of a field of a style may be used. -/
def checkKey (style : FieldStyle) (d : FieldDeclaration) : Except Fault Unit :=
  if style == .struct && d.key == some "" && d.aliasName.isNone && !d.isExcluded then
    .error .emptyKey
  else .ok ()

/-- Resolves the terms of a field's declaration. -/
def FieldDeclaration.resolve
    (own : String)
    (style : FieldStyle)
    (d : FieldDeclaration) :
    Step World Field := do
  let naming := if d.isQuoted then Naming.deferred else Naming.inside own
  let written ← d.type.resolve naming
  let default ←
    match d.default with
    | some t => do pure (some (← t.resolve .strict))
    | none => pure none
  Step.ofExcept (checkKey style d)
  Step.ofExcept (checkDefault style d.name default)
  pure (Field.ofWritten d written.fieldType default)

/-- The built-in classes that no class can extend. -/
def Builtin.isFinal : Builtin → Bool
  | .bool | .noneType | .range | .callable => true
  | _ => false

/-- What a class extends: the nearest class, and the type form with arguments
that it was named by. -/
structure Extension where
  parent : Option ClassRef
  base : Option TypeForm

/-- What a class extends by the type form of its base. -/
def Extension.ofBase? : TypeForm → Except Fault Extension
  | .any => .ok ⟨none, none⟩
  | .cls (.builtin .object) => .ok ⟨none, none⟩
  | .cls (.builtin b) =>
    if b.isFinal then .error .wrongArguments else .ok ⟨some (.builtin b), none⟩
  | .cls c => .ok ⟨some c, none⟩
  | .bare b => .ok ⟨some (.builtin b), some (.generic (.cls (.builtin b)) [])⟩
  | .generic (.cls c) args => .ok ⟨some c, some (.generic (.cls c) args)⟩
  | _ => .error .wrongArguments

/-- What a class extends when it names no base. -/
def ClassForm.defaultParent : ClassForm → Option ClassRef
  | .fields .struct _ _ => some (.builtin .struct)
  | .fields .model _ _ => some (.builtin .model)
  | .fields .dataclass _ _ => none
  | .enumeration _ _ => some (.builtin .enum)
  | .plain => none
  | .namedTuple _ => some (.builtin .tuple)
  | .typedDict => some (.builtin .dict)
  | .newType => none

namespace World

/-- The fields that a class inherits from the class it extends. -/
def inheritedFields (w : World) (parent : Option ClassRef) : List Field :=
  match parent.map w.body with
  | some (.model fields) => fields
  | some (.dataclass fields _) => fields
  | _ => []

/-- The refusal of a dataclass that a class extends. -/
def inheritedRefusal (w : World) (parent : Option ClassRef) : Option String :=
  match parent.map w.body with
  | some (.dataclass _ refusal) => refusal
  | _ => none

/-- What a class consists of that declares nothing of its own. -/
def inheritedBody? (w : World) (parent : Option ClassRef) : Except Fault ClassBody :=
  match parent with
  | none => .ok .plain
  | some c =>
    match w.body c with
    | .enumeration mixin [] aliases => .ok (.enumeration mixin [] aliases)
    | .enumeration _ _ _ => .error .wrongArguments
    | .plain => .ok (if w.inherits c .model then .model [] else .plain)
    | body => .ok body

end World

/-- What a declared class consists of, before its fields are looked up. -/
def ClassForm.body
    (own : String)
    (parent : Option ClassRef)
    (form : ClassForm) :
    Step World ClassBody := do
  match form with
  | .fields style declarations refusal =>
    let fields ← Step.each (FieldDeclaration.resolve own style) declarations
    let w ← Step.current
    let all := Field.override (w.inheritedFields parent) fields
    match style with
    | .dataclass => pure (.dataclass all (refusal.or (w.inheritedRefusal parent)))
    | _ => pure (.model all)
  | .enumeration mixin members =>
    let named ← Step.each (fun (m : String × ValueTerm) => do
      let v ← m.2.resolve .strict
      pure (m.1, ← Step.ofExcept (Enumeration.memberValue? mixin v))) members
    let (listed, aliases) := Enumeration.split named
    pure (.enumeration mixin listed aliases)
  | .plain => do Step.ofExcept ((← Step.current).inheritedBody? parent)
  | .namedTuple size => pure (.namedTuple size)
  | .typedDict => pure .typedDict
  | .newType => pure .plain

/-- The built-in class of the members of an enumeration. -/
def ClassForm.mixinLineage : ClassForm → List ClassRef
  | .enumeration .int _ | .enumeration .intFlag _ => [.builtin .int]
  | .enumeration .str _ => [.builtin .str]
  | _ => []

namespace World

/-- What a name means inside a class: the class itself under its own name. -/
def typeInside? (w : World) (c : UserClass) (name : String) : Option TypeForm :=
  if name == c.name then some (.cls (.user c)) else w.typeOf? name

/-- Looks up the names of the fields that a model declares itself, each field
by itself.  Inherited fields stay as they were found. -/
def settleEach (w : World) (own : List String) (r : ClassRecord) : ClassRecord :=
  match r.body with
  | .model fields =>
    { r with
      body := .model (fields.map fun f =>
        if own.contains f.name then (f.resolve? (w.typeInside? r.cls)).getD f else f) }
  | _ => r

/-- Looks up the names of all fields of a model, or of none. -/
def settleAll (w : World) (r : ClassRecord) : ClassRecord :=
  match r.body with
  | .model fields =>
    match fields.mapM (Field.resolve? (w.typeInside? r.cls)) with
    | some settled => { r with body := .model settled }
    | none => r
  | _ => r

/-- Tries once more to look up the names of a model's fields. -/
def settle (w : World) (c : ClassRef) : World :=
  match c with
  | .user u =>
    match w.record? u with
    | some r => w.replace (w.settleAll r)
    | none => w
  | _ => w

end World

/-- The names of the fields that a declaration writes itself. -/
def ClassForm.fieldNames : ClassForm → List String
  | .fields _ declarations _ => declarations.map (·.name)
  | _ => []

/-- Adds a declared class to the world and binds its name. -/
def ClassDeclaration.declare (d : ClassDeclaration) : Step World Unit := do
  let extension ←
    match d.base with
    | some t => do Step.ofExcept (Extension.ofBase? (← t.resolve .strict))
    | none => pure ⟨d.form.defaultParent, none⟩
  let body ← d.form.body d.name extension.parent
  let w ← Step.current
  let cls := w.nextClass d.name d.home
  let inherited := ((extension.parent.map w.lineage).getD []) ++ d.form.mixinLineage
  let record : ClassRecord :=
    { cls := cls
      lineage := .user cls :: inherited
      base := extension.base
      params := d.params
      hooks := d.hooks.inheriting ((extension.parent.map w.hooks).getD .none)
      body := body }
  let meaning : TypeForm :=
    match d.form with
    | .newType => .newType cls
    | _ => .cls (.user cls)
  let known := (w.add record).bindName d.name meaning
  Step.update fun _ => known.replace (known.settleEach d.form.fieldNames record)

end SchemaProbe

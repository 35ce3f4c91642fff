import SchemaProbe.Store

namespace SchemaProbe

/-!
# Looking up capabilities

What is registered for a type comes first; everything else is found out from
the form of the type form or from the class, and remembered.  Equal types
share what was found out for the first of them.
-/

/-- How a class with hooks, fields, members or elements is read. -/
def World.reader? (w : World) (c : ClassRef) : Option Reader :=
  match (w.hooks c).program with
  | some body => some (.program (.cls c) body)
  | none =>
    match w.body c with
    | .enumeration _ _ _ => some (.member c)
    | .model _ => some (.fields c)
    | .dataclass _ _ => some (.fields c)
    | _ =>
      if w.inherits c .model then some (.fields c)
      else if w.inherits c .dict then
        let value :=
          match w.baseArguments c .dict with
          | [_, value] => value
          | _ => .any
        some (.mapping value (if c == .builtin .dict then none else some c))
      else
        (w.sequenceShape? c).map fun shape =>
          let item := (w.baseArguments c shape.builtin).head?.getD .any
          .sequence item
            (if c == .builtin shape.builtin then .shape shape else .cls c)

/-- The scalar that a class is, by its hook or by itself. -/
def World.kind? (w : World) (c : ClassRef) : Option PrimitiveKind :=
  (w.hooks c).kind.or
    (match c with
      | .builtin b => b.primitiveKind?
      | _ => none)

/-- The capabilities of a class. -/
def classCapabilities (c : ClassRef) : Step World Capabilities := do
  let w ← Step.current
  let hooks := w.hooks c
  let base : Capabilities :=
    { Capabilities.named (.cls c) c.schemaName with description := hooks.description }
  match w.kind? c with
  | some kind => pure { base with kind := some kind, placeholder := kind.zero }
  | none =>
    if w.inherits c .date then
      pure
        { base with
          placeholder := if w.inherits c .datetime then epochMoment else epochDay
          isDate := true }
    else
      let cases ← classCases c
      let reached ← Step.current
      pure
        { base with
          reader := reached.reader? c
          placeholder := (cases.bind List.head?).getD .null
          cases := cases.map fun values => values.map reached.label
          schema := hooks.schema
          isReferenceable := c.isNominal }

/-- Whether nothing says how a class is read, although something should. -/
def Capabilities.lacksReader (c : Capabilities) : Bool :=
  c.reader.isNone && c.kind.isNone && !c.isDate

/-- Finds out the capabilities of a class and notes when nothing says how it is
read. -/
def resolveClass (c : ClassRef) : Step Store Capabilities := do
  let found ← Step.inWorld (classCapabilities c)
  if found.lacksReader then Step.note (.withoutReader found.name)
  pure found

/-- What is known about a type, or what is found out and remembered. -/
def remembered
    (scope : Scope)
    (a : TypeForm)
    (resolve : Step Store Capabilities) :
    Step Store Capabilities := do
  match ((← Step.current).registry scope).find? a with
  | some known => pure known
  | none =>
    let found ← resolve
    Step.update fun s => s.changeRegistry scope fun r => r.remember a found
    pure found

/-- The capabilities of a class. -/
def lookupClass (scope : Scope) (c : ClassRef) : Step Store Capabilities :=
  remembered scope (.cls c)
    (if c == .builtin .object then pure (.named (.cls c) anyName) else resolveClass c)

/-- The shape of the sequences that a type form of a class stands for. -/
def Builtin.sequenceShape? : Builtin → Option SequenceShape
  | .list | .sequence | .mutableSequence | .iterable | .collection => some .list
  | .set | .mutableSet => some .set
  | .frozenset | .abstractSet => some .frozenset
  | _ => none

/-- Whether a type form of a class stands for mappings. -/
def Builtin.isMappingOrigin : Builtin → Bool
  | .dict | .mapping | .mutableMapping => true
  | _ => false

/-- How a fixed or a uniform tuple is read. -/
def tupleReader : List TypeForm → Reader
  | [item, .ellipsis] => .sequence item (.shape .tuple)
  | items => .positions items

/-- The capabilities of a type form that applies something to arguments. -/
def resolveApplied
    (scope : Scope)
    (a : TypeForm)
    (origin : Origin)
    (args : List TypeForm) :
    Step Store Capabilities :=
  match origin with
  | .cls (.builtin b) =>
    match b.sequenceShape? with
    | some shape =>
      pure (.readBy a (.sequence (args.head?.getD .any) (.shape shape)) (.items shape none []))
    | none =>
      if b == .tuple then pure (.readBy a (tupleReader args) (.tuple []))
      else if b.isMappingOrigin then
        let value :=
          match args with
          | [_, value] => value
          | _ => .any
        pure (.readBy a (.mapping value none) (.dict none []))
      else asOrigin (.builtin b)
  | .cls c => asOrigin c
  | _ => Step.fail (.unsupportedForm a.display)
where
  /-- A class with arguments has the capabilities of the class. -/
  asOrigin (c : ClassRef) : Step Store Capabilities := do
    let found ← lookupClass scope c
    pure { found with type := a, name := a.schemaName }

/-- The capabilities of a union: one of null and something else is read as that
and may be null; any other has no single shape. -/
def unionCapabilities (a : TypeForm) : Capabilities :=
  match a.stripNull with
  | (inner, true) =>
    { Capabilities.named a inner.schemaName with reader := some (.nullable inner) }
  | (_, false) => .named a a.schemaName

/-- The capabilities of a literal type form. -/
def literalCapabilities (w : World) (a : TypeForm) (values : List Value) : Capabilities :=
  { Capabilities.readBy a (.oneOf values) (values.head?.getD .null) with
    cases := some (values.map w.label) }

/-- Finds out the capabilities of a type form without notes. -/
def resolveBare (scope : Scope) (a : TypeForm) : Step Store Capabilities := do
  match a with
  | .any | .variable _ => pure (.named a anyName)
  | .cls c => lookupClass scope c
  | .text _ | .reference _ => Step.fail (.unresolvedReference a.display)
  | .union _ _ => pure (unionCapabilities a)
  | .literal values => pure (literalCapabilities (← Step.current).world a values)
  | .bare b => resolveApplied scope a (.cls (.builtin b)) []
  | .generic origin args => resolveApplied scope a origin args
  | .callable params result =>
    resolveApplied scope a (.cls (.builtin .callable)) (params ++ [result])
  | _ => Step.fail (.notATypeForm a.display)

/-- The capabilities of a type.  Notes do not change them. -/
def lookup (scope : Scope) : TypeForm → Step Store Capabilities
  | .annotated inner notes => remembered scope (.annotated inner notes) (lookup scope inner)
  | a => remembered scope a (resolveBare scope a)

end SchemaProbe

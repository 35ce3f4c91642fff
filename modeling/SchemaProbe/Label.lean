import SchemaProbe.Resolution

namespace SchemaProbe

/-!
# Cases and their labels

Some types have finitely many values that can be listed: literals,
enumerations, and classes with a hook that lists them.  Each is labelled by a
scalar: a member by its value, a scalar by itself, anything else by its text.
-/

namespace World

/-- The text of attributes, each after its name. -/
def attributeText (fields : List (String × Value)) : String :=
  String.intercalate " " (fields.map fun f => f.1 ++ "=" ++ f.2.display)

/-- The text of a value: what its class says, or the usual form. -/
def textOf (w : World) (v : Value) : String :=
  match (w.hooks v.classOf).text with
  | some text => text
  | none =>
    match v with
    | .text s => s
    | .date d => d.isoText
    | .moment m => m.spacedText
    | .uuid number => uuidText number
    | .decimal d => d.text
    | .member cls mixin name value =>
      match mixin with
      | .int | .intFlag => value.display
      | _ => cls.name ++ "." ++ name.getD value.display
    | .record c fields =>
      match w.body c with
      | .model _ => attributeText fields
      | _ => v.display
    | _ => v.display

/-- Whether a value is a scalar that labels itself. -/
def isLabel : Value → Bool
  | .null | .bool _ | .int _ | .float _ | .text _ => true
  | .member _ .int _ _ | .member _ .intFlag _ _ | .member _ .str _ _ => true
  | _ => false

/-- The label of a case. -/
def label (w : World) (v : Value) : Value :=
  let bare :=
    match v with
    | .member _ _ _ value => value
    | other => other
  if isLabel bare then bare else .text (w.textOf bare)

end World

/-- The kind of scalar that a label is. -/
def labelKind : Value → PrimitiveKind
  | .null => .null
  | .bool _ => .bool
  | .int _ | .member _ .int _ _ | .member _ .intFlag _ _ => .int
  | .float _ => .double
  | _ => .string

/-- The cases of a class: those of its hook, or the members that it lists. -/
def classCases (c : ClassRef) : Step World (Option (List Value)) := do
  let w ← Step.current
  match (w.hooks c).cases with
  | some (.listed values) => do pure (some (← ValueTerm.resolveAll .strict values))
  | some (.refused message) => Step.fail (.raised .refusal message [])
  | none => pure (w.members? c)

/-- The cases of a type form, if they can be listed. -/
def TypeForm.listCases : TypeForm → Step World (Option (List Value))
  | .annotated inner _ => inner.listCases
  | .literal values => pure (some values)
  | .cls c => classCases c
  | _ => pure none

/-- The labels of the cases of a type form. -/
def TypeForm.listLabels (a : TypeForm) : Step World (Option (List Value)) := do
  let cases ← a.listCases
  let w ← Step.current
  pure (cases.map fun values => values.map w.label)

/-- The first case of a type form, or null. -/
def TypeForm.firstCase (a : TypeForm) : Step World Value := do
  let cases ← a.listCases
  pure ((cases.bind List.head?).getD .null)

end SchemaProbe

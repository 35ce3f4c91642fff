import SchemaProbe.Config
import SchemaProbe.SchemaRegistry
import SchemaProbe.Store
import SchemaProbe.Lookup

namespace SchemaProbe

/-!
# Synthesis

A shape becomes a schema from the leaves up.  Dates and types that describe
their own schema are not looked into.  A node that refers back to a type
becomes a reference by name, and the node of that name further up is shared
under it even when nothing else is.
-/

/-- The data type and the format of a scalar. -/
def PrimitiveKind.format : PrimitiveKind → DataType × Option String
  | .int8 | .int16 | .int32 | .uint8 | .uint16 | .uint32 => (.integer, some "int32")
  | .int | .int64 | .uint | .uint64 => (.integer, some "int64")
  | .double => (.number, some "double")
  | .float => (.number, some "float")
  | .bool => (.boolean, none)
  | .string | .null => (.string, none)

/-- The schema of a scalar. -/
def PrimitiveKind.schema (kind : PrimitiveKind) : Schema :=
  .primitive kind.format.1 kind.format.2

/-- What synthesis changes: the shared schemas, and the names that were
referred back to. -/
structure Synthesis where
  registry : SchemaRegistry
  recursiveNames : List String

/-- A step of synthesis. -/
abbrev Synthesizing := Step (Synthesis × Store)

/-- The capabilities of a type, unless it is no type form. -/
def lookup? (a : TypeForm) : Step Store (Option Capabilities) := do
  match ← Step.attempt (lookup .current a) with
  | .ok caps => pure (some caps)
  | .error f => if f.kind == .surface then pure none else Step.fail f

/-- The capabilities of a type, if there is one. -/
def lookupOptional : Option TypeForm → Step Store (Option Capabilities)
  | none => pure none
  | some a => lookup? a

/-- The schema that a type declares for itself. -/
def SchemaHook.evaluate (name : String) : SchemaHook → Step World Schema
  | .declared s => pure s
  | .other t => do
    let v ← t.resolve .strict
    Step.fail (.notASchema name v.classOf.name)
  | .refused message => Step.fail (.raised .refusal message [])

/-- Shares a schema under a name and notes when it takes another type's
place. -/
def shareSchema
    (name : String)
    (schema : Schema)
    (origin : TypeForm) :
    Synthesizing Schema := do
  let registry := (← Step.current).1.registry
  if schema.isReferenceable && registry.wouldReplace name (some origin) then
    Step.shared (Step.note (.overwritten name))
  let (changed, result) := registry.register name schema (some origin)
  Step.own (Step.update fun s => { s with registry := changed })
  pure result

/-- A schema with what is known about its type: its description, and a name to
share it under. -/
def finishSchema
    (config : SchemaConfig)
    (caps : Capabilities)
    (schema : Schema) :
    Synthesizing Schema := do
  let described :=
    match caps.description with
    | some text => schema.withDescription (some text)
    | none => schema
  let isForced := (← Step.current).1.recursiveNames.contains caps.name
  if isForced || (config.extractsReferences && caps.isReferenceable) then
    shareSchema caps.name described caps.type
  else pure described

/-- A property and the names that are required so far. -/
def addRequired (required : List String) (key : String) (isOptional : Bool) : List String :=
  if isOptional || required.contains key then required else required ++ [key]

/-- The schema of a node by what is known about its type, or by its structure. -/
def synthesizeKnown
    (config : SchemaConfig)
    (type : Option TypeForm)
    (structural : Synthesizing Schema) :
    Synthesizing Schema := do
  match ← Step.shared (lookupOptional type) with
  | none => structural
  | some caps =>
    if caps.isDate then
      finishSchema config caps (config.dateSchema (← Step.current).2.world (some caps.type))
    else
      match caps.schema with
      | some hook =>
        let schema ← Step.shared (Step.inWorld (hook.evaluate caps.name))
        finishSchema config caps schema
      | none =>
        let schema ← structural
        finishSchema config caps schema

mutual

/-- The schema of a shape; `given` is the type of a root that names none. -/
def Shape.synthesize
    (config : SchemaConfig)
    (given : Option TypeForm) :
    Shape → Synthesizing Schema
  | .single h kind => do
    synthesizeKnown config (h.type.or given)
      (pure (match h.cases with
        | some cases => Schema.enumeration kind.format.1 cases
        | none => kind.schema))
  | .keyed h true fields => do
    synthesizeKnown config (h.type.or given) do
      let (properties, required) ← Shape.synthesizeFields config fields [] []
      pure (Schema.object properties required)
  | .keyed h false [] =>
    synthesizeKnown config (h.type.or given) (pure (.dictionary .any))
  | .keyed h false ((_, first) :: _) =>
    synthesizeKnown config (h.type.or given) do
      pure (.dictionary (← first.synthesize config none))
  | .unkeyed h element =>
    synthesizeKnown config (h.type.or given) do
      pure (.array (← element.synthesize config none))
  | .recursive h marker =>
    synthesizeKnown config (h.type.or given) do
      let caps ← Step.shared (lookup? marker)
      let name := (caps.map (·.name)).getD anyName
      Step.shared (Step.note (.backReference name))
      Step.own (Step.update fun s =>
        { s with recursiveNames := s.recursiveNames ++ [name] })
      pure (.referenceTo name)
  | .unconstrained h => synthesizeKnown config (h.type.or given) (pure .any)

/-- The properties of fields, and the names among them that are required. -/
def Shape.synthesizeFields
    (config : SchemaConfig) :
    List (String × Shape) → List (String × Schema) → List String →
      Synthesizing (List (String × Schema) × List String)
  | [], properties, required => pure (properties, required)
  | (name, s) :: rest, properties, required => do
    let key := config.keyEncoder.encode name
    let schema ← s.synthesize config none
    Shape.synthesizeFields config rest (Table.set properties key schema)
      (addRequired required key s.isOptional)

end

end SchemaProbe

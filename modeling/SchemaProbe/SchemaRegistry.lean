import SchemaProbe.Schema
import SchemaProbe.Table

namespace SchemaProbe

/-!
# Shared schemas

The schemas that are shared under a name, in the order in which the names were
first used, each with the type that it was made for.
-/

/-- The shared schemas and the types that they were made for. -/
structure SchemaRegistry where
  schemas : List (String × Schema)
  origins : List (String × Option TypeForm)

namespace SchemaRegistry

/-- The registry without any schema. -/
def empty : SchemaRegistry :=
  ⟨[], []⟩

/-- The schema under a name. -/
def get? (r : SchemaRegistry) (name : String) : Option Schema :=
  r.schemas.lookup name

/-- The names in use. -/
def names (r : SchemaRegistry) : List String :=
  r.schemas.map Prod.fst

/-- The type that the schema under a name was made for. -/
def origin? (r : SchemaRegistry) (name : String) : Option TypeForm :=
  (r.origins.lookup name).join

/-- Whether a schema for a type would take the place of another type's. -/
def wouldReplace
    (r : SchemaRegistry)
    (name : String)
    (origin : Option TypeForm) :
    Bool :=
  match (r.get? name).isSome, origin, r.origin? name with
  | true, some a, some previous => !(previous.key == a.key)
  | _, _, _ => false

/-- Shares a schema under a name, and gives what refers to it.  What cannot be
shared is given back as it is. -/
def register
    (r : SchemaRegistry)
    (name : String)
    (schema : Schema)
    (origin : Option TypeForm) :
    SchemaRegistry × Schema :=
  if schema.isReferenceable then
    (⟨Table.set r.schemas name schema, Table.set r.origins name origin⟩, .referenceTo name)
  else (r, schema)

/-- The written form of the registry: pairs of names and schemas. -/
def document (r : SchemaRegistry) : Document :=
  .list (r.schemas.map fun e => .entry e.1 e.2.document)

/-- The display form of the registry: its names. -/
def display (r : SchemaRegistry) : String :=
  "SchemaRegistry(" ++ enclosed "[" (r.names.map Text.quoted) "]" ++ ")"

end SchemaRegistry

end SchemaProbe

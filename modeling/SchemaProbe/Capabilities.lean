import SchemaProbe.TypeForm.Name
import SchemaProbe.Guard
import SchemaProbe.Label
import SchemaProbe.Plan

namespace SchemaProbe

/-!
# Capabilities

The capabilities of a type are everything that probing and synthesis need to
know about it: how it is read, which scalar it is, what stands in for it, which
cases and which schema it declares.  A type that is a date or describes its own
schema is not probed.
-/

/-- What a decode program makes an instance of. -/
inductive Maker
  | cls (c : ClassRef)
  | nothing
  deriving Repr, DecidableEq

/-- How a type reads itself from a decoder. -/
inductive Reader
  | fields (c : ClassRef)
  | sequence (item : TypeForm) (into : Gathering)
  | positions (items : List TypeForm)
  | mapping (value : TypeForm) (cls : Option ClassRef)
  | nullable (inner : TypeForm)
  | oneOf (values : List Value)
  | member (c : ClassRef)
  | program (maker : Maker) (body : Program)

/-- What is known about a type. -/
structure Capabilities where
  type : TypeForm
  name : String
  reader : Option Reader
  kind : Option PrimitiveKind
  placeholder : Value
  cases : Option (List Value)
  schema : Option SchemaHook
  description : Option String
  isDate : Bool
  isReferenceable : Bool

/-- The value that stands in for a scalar. -/
def PrimitiveKind.zero : PrimitiveKind → Value
  | .bool => .bool false
  | .string => .text ""
  | .double | .float => .float 0
  | .null => .null
  | _ => .int 0

/-- The moment that stands in for a date with a time. -/
def epochMoment : Value :=
  .moment Moment.epoch

/-- The day that stands in for a date. -/
def epochDay : Value :=
  .date Moment.epoch.date

namespace Capabilities

/-- Nothing is known about a type but its name. -/
def named (type : TypeForm) (name : String) : Capabilities where
  type := type
  name := name
  reader := none
  kind := none
  placeholder := .null
  cases := none
  schema := none
  description := none
  isDate := false
  isReferenceable := false

/-- A type that is only known by how it is read and what stands in for it. -/
def readBy
    (type : TypeForm)
    (reader : Reader)
    (placeholder : Value) :
    Capabilities :=
  { named type type.schemaName with reader := some reader, placeholder := placeholder }

/-- Whether a type is not probed. -/
def bypassesProbe (c : Capabilities) : Bool :=
  c.isDate || c.schema.isSome

/-- The written form of what is known about a type. -/
def document (c : Capabilities) : Document :=
  .object
    [("type", c.type.document), ("name", .text c.name), ("decodes", .bool c.reader.isSome),
      ("kind", (c.kind.map fun k => Document.text k.name).getD .null),
      ("placeholder", c.placeholder.document),
      ("cases", (c.cases.map fun cases => Document.list (Value.documents cases)).getD .null),
      ("self_describing", .bool c.schema.isSome),
      ("description", (c.description.map Document.text).getD .null),
      ("is_date", .bool c.isDate), ("referenceable", .bool c.isReferenceable),
      ("bypasses", .bool c.bypassesProbe)]

end Capabilities

/-- What is said about a type when it is registered. -/
structure Registration where
  type : TypeForm
  reader : Option Reader
  kind : Option PrimitiveKind
  placeholder : Value
  cases : Option (List Value)
  schema : Option SchemaHook
  description : Option String
  isDate : Bool
  name : Option String
  isReferenceable : Bool

/-- The capabilities that a registration gives.  Cases become labels, a scalar
without a placeholder gets the usual one, and an empty name is none. -/
def Registration.capabilities (w : World) (r : Registration) : Capabilities where
  type := r.type
  name := firstText [r.name] r.type.schemaName
  reader := r.reader
  kind := r.kind
  placeholder := if r.placeholder.isNull then (r.kind.map (·.zero)).getD .null else r.placeholder
  cases := r.cases.map fun values => values.map w.label
  schema := r.schema
  description := r.description
  isDate := r.isDate
  isReferenceable := r.isReferenceable

/-- The registered capabilities, and those that were found out before. -/
structure CapabilityRegistry where
  explicit : List (Key × Capabilities)
  cache : List (Key × Capabilities)

namespace CapabilityRegistry

/-- The registry without any registration. -/
def empty : CapabilityRegistry :=
  ⟨[], []⟩

/-- Registers capabilities for their type and forgets what was found out about
it. -/
def register (r : CapabilityRegistry) (c : Capabilities) : CapabilityRegistry where
  explicit := Table.set r.explicit c.type.identity c
  cache := Table.erase r.cache c.type.identity

/-- What is found without resolving a type: what was found before, or what is
registered. -/
def find? (r : CapabilityRegistry) (a : TypeForm) : Option Capabilities :=
  (r.cache.lookup a.identity).or (r.explicit.lookup a.identity)

/-- Remembers what was found out about a type. -/
def remember
    (r : CapabilityRegistry)
    (a : TypeForm)
    (c : Capabilities) :
    CapabilityRegistry :=
  { r with cache := Table.set r.cache a.identity c }

/-- A type with a scalar schema of its own and a value that stands in for
it. -/
def selfDescribing
    (b : Builtin)
    (schema : Schema)
    (placeholder : Value) :
    Capabilities :=
  { Capabilities.named (.builtin b) (ClassRef.builtin b).schemaName with
    schema := some (.declared schema)
    placeholder := placeholder }

/-- The registry with the types that are registered from the start. -/
def defaults : CapabilityRegistry :=
  [selfDescribing .uuid (.primitive .string (some "uuid")) (.uuid 0),
    selfDescribing .decimal (.primitive .number none) (.decimal .zero),
    selfDescribing .bytes (.primitive .string (some "byte")) (.bytes none []),
    selfDescribing .bytearray (.primitive .string (some "byte")) (.bytearray [])].foldl
    register empty

end CapabilityRegistry

end SchemaProbe

import SchemaProbe.Schema

namespace SchemaProbe

/-!
# Shape trees

A shape says in which containers a type presents itself when it is decoded.  A
keyed shape has fixed fields or is open, in which case its first field stands
for every value; a recursive shape refers back to a type further up.
-/

/-- What every node of a shape tree says: the type that it stands for, whether
it may be missing where it stands, and its literal cases. -/
structure ShapeHeader where
  type : Option TypeForm
  isOptional : Bool
  cases : Option (List Value)

namespace ShapeHeader

/-- The header of a node that stands for a type, or for none. -/
def of (type : Option TypeForm) : ShapeHeader :=
  ⟨type, false, none⟩

end ShapeHeader

/-- A shape tree. -/
inductive Shape
  | single (header : ShapeHeader) (kind : PrimitiveKind)
  | keyed (header : ShapeHeader) (isFixed : Bool) (fields : List (String × Shape))
  | unkeyed (header : ShapeHeader) (element : Shape)
  | recursive (header : ShapeHeader) (marker : TypeForm)
  | unconstrained (header : ShapeHeader)

namespace Shape

/-- What a node says about itself. -/
def header : Shape → ShapeHeader
  | .single h _ | .keyed h _ _ | .unkeyed h _ | .recursive h _ | .unconstrained h => h

/-- A node that says something else about itself. -/
def withHeader (h : ShapeHeader) : Shape → Shape
  | .single _ kind => .single h kind
  | .keyed _ isFixed fields => .keyed h isFixed fields
  | .unkeyed _ element => .unkeyed h element
  | .recursive _ marker => .recursive h marker
  | .unconstrained _ => .unconstrained h

/-- The type that a node stands for. -/
def type (s : Shape) : Option TypeForm :=
  s.header.type

/-- Whether a node may be missing. -/
def isOptional (s : Shape) : Bool :=
  s.header.isOptional

/-- The literal cases of a node. -/
def cases (s : Shape) : Option (List Value) :=
  s.header.cases

/-- A node that may, or may not, be missing. -/
def optional (isOptional : Bool) (s : Shape) : Shape :=
  s.withHeader { s.header with isOptional := isOptional }

/-- A node that stands for another type. -/
def ofType (s : Shape) (type : Option TypeForm) : Shape :=
  s.withHeader { s.header with type := type }

/-- The node about which nothing is known but its type. -/
def any (type : Option TypeForm) : Shape :=
  .unconstrained (.of type)

/-- The word for the sort of a node. -/
def kindName : Shape → String
  | .single _ _ => "single"
  | .keyed _ _ _ => "keyed"
  | .unkeyed _ _ => "unkeyed"
  | .recursive _ _ => "recursive"
  | .unconstrained _ => "any"

/-- Whether a node refers back to a type. -/
def isRecursive : Shape → Bool
  | .recursive _ _ => true
  | _ => false

/-- The shape that stands for every value of an open node. -/
def representative? : Shape → Option Shape
  | .keyed _ _ ((_, first) :: _) => some first
  | _ => none

mutual

/-- Whether some node of a tree refers back to a type. -/
def hasRecursive : Shape → Bool
  | .recursive _ _ => true
  | .keyed _ _ fields => anyRecursive fields
  | .unkeyed _ element => hasRecursive element
  | _ => false

/-- Whether some field's tree refers back to a type. -/
def anyRecursive : List (String × Shape) → Bool
  | [] => false
  | (_, s) :: rest => hasRecursive s || anyRecursive rest

end

end Shape

/-- Whether two optional type forms are equal. -/
def sameType (a b : Option TypeForm) : Bool :=
  match a, b with
  | none, none => true
  | some a, some b => a.key == b.key
  | _, _ => false

/-- Whether two headers say the same. -/
def ShapeHeader.agrees (a b : ShapeHeader) : Bool :=
  sameType a.type b.type && a.isOptional == b.isOptional
    && (match a.cases, b.cases with
      | none, none => true
      | some as, some bs => Value.equalAll as bs
      | _, _ => false)

namespace Shape

mutual

/-- Whether two trees are equal; the order of fields does not matter. -/
def agrees : Shape → Shape → Bool
  | .single h kind, .single h' kind' => h.agrees h' && kind == kind'
  | .keyed h isFixed fields, .keyed h' isFixed' fields' =>
    h.agrees h' && isFixed == isFixed' && fields.length == fields'.length
      && agreesFields fields fields'
  | .unkeyed h element, .unkeyed h' element' => h.agrees h' && agrees element element'
  | .recursive h marker, .recursive h' marker' => h.agrees h' && marker.key == marker'.key
  | .unconstrained h, .unconstrained h' => h.agrees h'
  | _, _ => false

/-- Whether each field is equal to the field of its name. -/
def agreesFields : List (String × Shape) → List (String × Shape) → Bool
  | [], _ => true
  | (name, s) :: rest, fields =>
    (match fields.lookup name with
      | some t => agrees s t
      | none => false) && agreesFields rest fields

end

/-- The written form of what every node says. -/
def headerDocument (kind : String) (h : ShapeHeader) : List (String × Document) :=
  [("kind", .text kind), ("optional", .bool h.isOptional),
    ("type", (h.type.map TypeForm.document).getD .null)]
    ++ Schema.part "cases" (h.cases.map fun cases => .list (Value.documents cases))

mutual

/-- The written form of a tree. -/
def document : Shape → Document
  | .single h kind => .object (("prim", .text kind.name) :: headerDocument "single" h)
  | .keyed h isFixed fields =>
    .object (("fixed", .bool isFixed) :: ("fields", .list (fieldDocuments fields))
      :: headerDocument "keyed" h)
  | .unkeyed h element =>
    .object (("element", document element) :: headerDocument "unkeyed" h)
  | .recursive h marker =>
    .object (("marker", marker.document) :: headerDocument "recursive" h)
  | .unconstrained h => .object (headerDocument "any" h)

/-- The written forms of fields. -/
def fieldDocuments : List (String × Shape) → List Document
  | [] => []
  | (name, s) :: rest => .entry name (document s) :: fieldDocuments rest

end

end Shape

end SchemaProbe

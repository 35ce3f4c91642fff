import SchemaProbe.Probe

namespace SchemaProbe

/-!
# Plain unfolding

The tree that a type stands for can be read off what is known about types: a
type asks for other types, and its node is made from theirs.  Plain unfolding
carries only the types that are being expanded; there is no memo, no recording
and no second pass.  A type that is met again below itself is referred back to.
-/

/-- How a type that is looked into presents itself.  Nothing is asked for where
the layout is unknown. -/
inductive Layout
  | unknown
  | record (plans : List FieldPlan)
  | sequence (item : TypeForm)
  | tuple (items : List TypeForm)
  | mapping (value : TypeForm)
  | nullable (inner : TypeForm)
  | scalar (value : TypeForm) (cases : List Value)

/-- What a type form stands for: a node without parts, or a type that is looked
into. -/
inductive Entry
  | leaf (shape : Shape)
  | inner (type : TypeForm) (layout : Layout)

/-- The type form under which the field of a plan is asked for. -/
def FieldPlan.requested (p : FieldPlan) : TypeForm :=
  if p.isOptional then p.inner else p.form

namespace Layout

/-- The type forms that a layout asks for, in the order of asking.  A field that
may be missing is asked for without its null branch. -/
def requests : Layout → List TypeForm
  | .unknown => []
  | .record plans => plans.map fun p => if p.isOptional then p.inner else p.form
  | .sequence item => [item]
  | .tuple items => items
  | .mapping value => [value]
  | .nullable inner => [inner]
  | .scalar value _ => [value]

/-- The kind of a type with cases: that of the value's node if it is a scalar,
or else that of the first case. -/
def scalarKind (cases : List Value) : List Shape → PrimitiveKind
  | .single _ kind :: _ => kind
  | _ => (cases.head?.map labelKind).getD .string

/-- The node of a type by the nodes of what its layout asks for.  The last field
of a key counts, at the place of the first; a type with cases is of a known
kind where there is one. -/
def node
    (type : TypeForm)
    (known : Option PrimitiveKind) :
    Layout → List Shape → Shape
  | .unknown, _ => .any (some type)
  | .record plans, shapes =>
    .keyed (.of (some type)) true
      ((plans.zip shapes).foldl
        (fun fields e => Table.set fields e.1.key (e.2.optional e.1.isOptional)) [])
  | .sequence _, shapes => .unkeyed (.of (some type)) (shapes.head?.getD (.any none))
  | .tuple _, shapes => .unkeyed (.of (some type)) (Recording.commonElement shapes)
  | .mapping _, shapes =>
    .keyed (.of (some type)) false [("", shapes.head?.getD (.any none))]
  | .nullable _, shapes => (shapes.head?.getD (.any none)).optional true
  | .scalar _ cases, shapes =>
    .single ⟨some type, false, some cases⟩ (known.getD (scalarKind cases shapes))

end Layout

/-- The node that refers back to a type. -/
def Shape.back (type : TypeForm) : Shape :=
  .recursive (.of (some type)) type

/-- The tree of a type form below the types that are being expanded, where some
types with cases are of a known kind.  The first number bounds the depth. -/
def unfoldWith
    (entry : TypeForm → Entry)
    (kinds : Key → Option PrimitiveKind) :
    Nat → List Key → TypeForm → Option Shape
  | 0, _, _ => none
  | depth + 1, above, a =>
    match entry a with
    | .leaf shape => some shape
    | .inner type layout =>
      if above.contains type.identity then some (.back type)
      else
        (layout.requests.mapM (unfoldWith entry kinds depth (type.identity :: above))).map
          fun shapes => layout.node type (kinds type.identity) shapes

/-! ## What a state knows -/

/-- The node of a type that is not looked into. -/
def Capabilities.leaf (caps : Capabilities) : Shape :=
  match caps.kind with
  | some kind => .single (.of (some caps.type)) kind
  | none => .any (some caps.type)

namespace Store

/-- The layout of a type by the way it is read. -/
def layout (s : Store) (caps : Capabilities) : Reader → Layout
  | .fields c =>
    match s.world.plansOf? c with
    | some plans => .record plans
    | none => .unknown
  | .sequence item _ => .sequence item
  | .positions items => .tuple items
  | .mapping value _ => .mapping value
  | .nullable inner => .nullable inner
  | .oneOf values =>
    .scalar (.cls ((values.head?.map Value.classOf).getD (.builtin .str)))
      (caps.cases.getD [])
  | .member c => .scalar (.cls (s.world.memberClass c)) (caps.cases.getD [])
  | .program _ _ => .unknown

/-- What a type is by its capabilities: scalars, dates and types that describe
themselves are not looked into. -/
def entryOf (s : Store) (caps : Capabilities) : Entry :=
  match caps.kind, caps.bypassesProbe, caps.reader with
  | none, false, some reader => .inner caps.type (s.layout caps reader)
  | _, _, _ => .leaf caps.leaf

/-- What a type form stands for; what is no type stands for an unconstrained
node. -/
def entry (s : Store) (a : TypeForm) : Entry :=
  match (s.registry .current).find? a with
  | some caps => s.entryOf caps
  | none => .leaf (.any none)

/-- The tree of a type form by plain unfolding. -/
def unfold (s : Store) (depth : Nat) (above : List Key) (a : TypeForm) : Option Shape :=
  unfoldWith s.entry (fun _ => none) depth above a

end Store

end SchemaProbe

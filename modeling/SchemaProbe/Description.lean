import SchemaProbe.Probe
import SchemaProbe.Synthesis
import SchemaProbe.Weight

namespace SchemaProbe

/-!
# Describing types and deriving schemas

A description probes a type with a guard of its own.  A schema is synthesised
from a description, into a registry that the caller keeps.
-/

/-- The shape of a type, probed to a depth with a guard of its own. -/
def describeTo (depth : Nat) (a : TypeForm) : Step Store Shape := do
  Step.note .probeStarted
  Step.changeGuard fun _ => .empty
  let (shape, _) ← probe depth a []
  Step.note (.probeEnded shape.kindName)
  pure shape

/-- The shape of a type. -/
def describe (a : TypeForm) : Step Store Shape := do
  describeTo ((← Step.current).depthFor a.weight) a

/-- The schema of a shape, synthesised into a registry; the registry keeps what
was shared also when synthesis fails. -/
def synthesize
    (config : SchemaConfig)
    (shape : Shape)
    (type : Option TypeForm) :
    Step (SchemaRegistry × Store) Schema :=
  ⟨fun s =>
    let whole : Synthesizing Schema := do
      Step.shared (Step.note .synthesisStarted)
      shape.synthesize config type
    let (outcome, reached) := whole.run (⟨s.1, []⟩, s.2)
    (outcome, reached.1.registry, reached.2)⟩

/-- The schema of a type, synthesised into a registry. -/
def schemaFor
    (config : SchemaConfig)
    (a : TypeForm) :
    Step (SchemaRegistry × Store) Schema := do
  let shape ← Step.shared (describe a)
  synthesize config shape (some a)

/-- The class of a value as a type form. -/
def Value.asType (v : Value) : TypeForm :=
  .cls v.classOf

/-- A type form that is a struct, which alone can be asked about itself. -/
def TypeForm.asStruct (a : TypeForm) : Step World TypeForm := do
  let c ← a.asClass .missingOperation
  if (← Step.current).isStruct c then pure a else Step.fail .missingOperation

/-- The schemas of types, one after the other, synthesised into a registry. -/
def schemasFor
    (config : SchemaConfig)
    (types : List TypeForm) :
    Step (SchemaRegistry × Store) Unit :=
  Step.visit (fun a => do let _ ← schemaFor config a) types

end SchemaProbe

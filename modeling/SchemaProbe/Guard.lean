import SchemaProbe.Shape
import SchemaProbe.Table

namespace SchemaProbe

/-!
# The cycle guard

A guard remembers, for one description, which types are being probed and what
came out for those that are done.  A type that is met again while it is in
progress is not entered a second time.
-/

/-- What a guard knows about a type. -/
inductive GuardEntry
  | inProgress
  | completed (shape : Shape) (placeholder : Value)

namespace GuardEntry

/-- Whether a type is being probed. -/
def isInProgress : GuardEntry → Bool
  | .inProgress => true
  | .completed _ _ => false

/-- The shape of a type that is done. -/
def shape? : GuardEntry → Option Shape
  | .inProgress => none
  | .completed shape _ => some shape

/-- The value that stands in for a type that is done, or null. -/
def placeholder : GuardEntry → Value
  | .inProgress => .null
  | .completed _ placeholder => placeholder

end GuardEntry

/-- The types that a description has met, and how many of them are in
progress. -/
structure CycleGuard where
  entries : List (Key × GuardEntry)
  depth : Int

namespace CycleGuard

/-- The guard that has met nothing. -/
def empty : CycleGuard :=
  ⟨[], 0⟩

/-- What the guard knows about a type. -/
def get? (g : CycleGuard) (a : TypeForm) : Option GuardEntry :=
  g.entries.lookup a.identity

/-- Whether a type is being probed. -/
def isInProgress (g : CycleGuard) (a : TypeForm) : Bool :=
  ((g.get? a).map (·.isInProgress)).getD false

/-- Notes that the probing of a type begins. -/
def enter (g : CycleGuard) (a : TypeForm) : CycleGuard where
  entries := Table.set g.entries a.identity .inProgress
  depth := g.depth + 1

/-- Notes what came out of probing a type. -/
def complete
    (g : CycleGuard)
    (a : TypeForm)
    (shape : Shape)
    (placeholder : Value) :
    CycleGuard where
  entries := Table.set g.entries a.identity (.completed shape placeholder)
  depth := g.depth - 1

end CycleGuard

end SchemaProbe

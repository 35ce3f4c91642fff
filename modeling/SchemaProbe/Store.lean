import SchemaProbe.Capabilities
import SchemaProbe.Event

namespace SchemaProbe

/-!
# The shared state

Everything that probing and synthesis read and change: the declared classes,
the capability registries, the cycle guard of the description that is under
way, and the events so far.  A session may have a registry of its own; what a
decode program delegates to is found in the shared one all the same.
-/

/-- Which capability registry is asked. -/
inductive Scope
  | shared
  | current
  deriving Repr, DecidableEq

/-- The shared state. -/
structure Store where
  world : World
  shared : CapabilityRegistry
  own : Option CapabilityRegistry
  guard : CycleGuard
  events : List Event

namespace Store

/-- The state before any declaration. -/
def initial : Store :=
  ⟨.empty, .defaults, none, .empty, []⟩

/-- The registry that is asked. -/
def registry (s : Store) : Scope → CapabilityRegistry
  | .shared => s.shared
  | .current => s.own.getD s.shared

/-- Changes the registry that is asked. -/
def changeRegistry
    (scope : Scope)
    (change : CapabilityRegistry → CapabilityRegistry)
    (s : Store) :
    Store :=
  match scope, s.own with
  | .current, some own => { s with own := some (change own) }
  | _, _ => { s with shared := change s.shared }

end Store

namespace Step

/-- Runs a step on the declared classes. -/
def inWorld (step : Step World α) : Step Store α :=
  within Store.world (fun world s => { s with world := world }) step

/-- Notes that something happens. -/
def note (e : Event) : Step Store Unit :=
  update fun s => { s with events := s.events ++ [e] }

/-- Changes the cycle guard. -/
def changeGuard (change : CycleGuard → CycleGuard) : Step Store Unit :=
  update fun s => { s with guard := change s.guard }

end Step

end SchemaProbe

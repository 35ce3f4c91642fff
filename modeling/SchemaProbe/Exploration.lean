import SchemaProbe.Probe
import SchemaProbe.Weight

namespace SchemaProbe

/-!
# Exploring the surfaces

Statements can be run one by one on the two surfaces of a probe side by side.
Each surface has variables of its own, what stands in for a type comes from one
guard, and a fault on one surface stops neither the other nor what follows.
-/

/-- The two surfaces under way. -/
structure Exploration where
  recording : Frame Recording
  check : Frame KeyCheck

/-- How a statement went on a surface: its reply, if it has one, or its
fault. -/
abbrev Trial := Except Fault (Option Reply)

/-- The reply of a statement that went well. -/
def Outcome.reply? : Outcome → Option Reply
  | .went reply => reply
  | .gave _ => none

namespace Exploration

/-- Both surfaces before the first statement. -/
def start (path : Path) : Exploration :=
  ⟨.start .start (Recorder.decoder path), .start .start (Recorder.decoder path)⟩

/-- Runs a statement on a surface that is under way. -/
def tryOn
    (surface : Surface σ)
    (s : Statement) :
    Run σ Trial := do
  match ← Step.attempt (s.run surface (Reader.runTo surface delegationDepth)) with
  | .ok outcome => pure (.ok outcome.reply?)
  | .error f => pure (.error f)

/-- Runs a statement on both surfaces, the recording one first. -/
def step (depth : Nat) (s : Statement) : Step (Exploration × Store) (Trial × Trial) := do
  let onRecorder ←
    Step.within (fun whole => (whole.1.recording, whole.2))
      (fun part whole => ({ whole.1 with recording := part.1 }, part.2))
      (tryOn (recorder (nestedProbe (probe depth))) s)
  let onChecker ←
    Step.within (fun whole => (whole.1.check, whole.2))
      (fun part whole => ({ whole.1 with check := part.1 }, part.2))
      (tryOn (keyChecker placeholderOf) s)
  pure (onRecorder, onChecker)

/-- The shape of a type by what was recorded so far. -/
def shape (e : Exploration) (type : Option TypeForm) : Shape :=
  e.recording.surface.finish type e.check.surface.openPaths

end Exploration

/-- What is seen of a type when it is probed under a guard that is already in
use: what stood in for it before, its shape and value, and what stands in for
it after. -/
structure Sighting where
  before : Value
  shape : Shape
  value : Value
  after : Value
  depth : Int

/-- Probes a type under the guard in use. -/
def sight (a : TypeForm) : Step Store Sighting := do
  let before ← placeholderOf a
  let depth := (← Step.current).depthFor a.weight
  let (shape, value) ← nestedProbe (probe depth) a []
  let after ← placeholderOf a
  pure ⟨before, shape, value, after, (← Step.current).guard.depth⟩

end SchemaProbe

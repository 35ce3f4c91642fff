import SchemaProbe.Decoding
import SchemaProbe.KeyCheck

namespace SchemaProbe

/-!
# Probing a type

A type is described without any data: it reads itself from the recording
surface, and if it opened a keyed container it reads itself a second time from
the key-checking surface.  A fault of the type's own reading is not the
description's fault; what was recorded before it is kept.  Types that are met
again while they are being probed are referred back to, and types that are done
are not probed again unless their shape refers back to something.
-/

/-- What stands in for a type: what came out of probing it, or what is known
from the start. -/
def placeholderOf (a : TypeForm) : Step Store Value := do
  match ← Step.attempt (lookup .current a) with
  | .ok caps =>
    match (← Step.current).guard.get? caps.type with
    | some (.completed _ placeholder) => pure placeholder
    | _ => pure caps.placeholder
  | .error f => if f.kind == .surface then pure .null else Step.fail f

/-- The open keyed containers of a type, by reading it from the key-checking
surface. -/
def checkKeys (name : String) (reader : Reader) : Step Store (List Path) := do
  let (outcome, check) ←
    Step.beside KeyCheck.start
      (reader.run (keyChecker placeholderOf) (Recorder.decoder []))
  match outcome with
  | .ok _ => pure ()
  | .error (.fault f) => Step.note (.checkFailed name f)
  | .error .exhausted => Step.exhausted
  if !check.openPaths.isEmpty then Step.note (.openKeys name check.openPaths)
  pure check.openPaths

/-- The node of a type with literal cases: a scalar of the kind that was read
or, failing that, of the kind of the first label. -/
def Shape.withCases
    (s : Shape)
    (type : TypeForm)
    (cases : List Value) :
    Shape :=
  let kind :=
    match s with
    | .single _ kind => kind
    | _ => (cases.head?.map labelKind).getD .string
  .single ⟨some type, s.isOptional, some cases⟩ kind

/-- Reads a type from the recording surface and turns the recording into its
shape and the value that stands in for it. -/
def probeReading
    (nested : NestedProbe)
    (caps : Capabilities)
    (reader : Reader)
    (path : Path) :
    Step Store (Shape × Value) := do
  let (outcome, recording) ←
    Step.beside Recording.start (reader.run (recorder nested) (Recorder.decoder path))
  let value ←
    match outcome with
    | .ok v => pure v
    | .error (.fault f) => do
      Step.note (.failed caps.name path f)
      pure caps.placeholder
    | .error .exhausted => Step.exhausted
  let openPaths ← if recording.sawKeyed then checkKeys caps.name reader else pure []
  let shape := recording.finish (some caps.type) openPaths
  match caps.cases with
  | some cases => pure (shape.withCases caps.type cases, value)
  | none => pure (shape, value)

/-- Probes a type inside another one: what is no type form is described as
unconstrained. -/
def nestedProbe
    (probe : NestedProbe)
    (a : TypeForm)
    (path : Path) :
    Step Store (Shape × Value) :=
  Step.recover (probe a path) fun f =>
    if f.kind == .surface then do
      Step.note (.unprobeable path f.message)
      pure (.any none, .null)
    else Step.fail f

/-- Probes a type that is entered into the cycle guard. -/
def probeGuarded
    (nested : NestedProbe)
    (caps : Capabilities)
    (reader : Reader)
    (path : Path) :
    Step Store (Shape × Value) := do
  Step.changeGuard fun g => g.enter caps.type
  let (shape, value) ← probeReading nested caps reader path
  Step.changeGuard fun g => g.complete caps.type shape value
  pure (shape, value)

/-- The shape of a type and the value that stands in for it.  The first
argument bounds how deep types are probed inside each other. -/
def probe : Nat → NestedProbe
  | 0 => fun _ _ => Step.exhausted
  | depth + 1 => fun a path => do
    let caps ← lookup .current a
    match caps.kind with
    | some kind => pure (.single (.of (some caps.type)) kind, caps.placeholder)
    | none =>
      match caps.bypassesProbe, caps.reader with
      | false, some reader =>
        match (← Step.current).guard.get? caps.type with
        | some .inProgress =>
          Step.note (.recursion path caps.name)
          pure (.recursive (.of (some caps.type)) caps.type, caps.placeholder)
        | some (.completed shape placeholder) =>
          if shape.hasRecursive then do
            Step.note (.probedAgain caps.name path)
            probeGuarded (nestedProbe (probe depth)) caps reader path
          else pure (shape, placeholder)
        | none => probeGuarded (nestedProbe (probe depth)) caps reader path
      | _, _ => pure (.any (some caps.type), caps.placeholder)

end SchemaProbe

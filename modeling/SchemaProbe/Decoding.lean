import SchemaProbe.Surface

namespace SchemaProbe

/-!
# Decoding on a surface

How each kind of reader uses a surface, and how a decode program runs.  A
program keeps variables and what it got; statements before a fault have had
their effect.  A loop to the end of a sequence is bounded by the number of its
elements and some idle rounds; delegation to other types is bounded by depth.
-/

/-- The state of a running program beside the state of its surface. -/
structure Frame (σ : Type) where
  surface : σ
  bindings : List (String × Reply)
  got : List Value

namespace Frame

/-- The frame of a program that starts on a decoder. -/
def start (s : σ) (decoder : Handle) : Frame σ :=
  ⟨s, [("d", .handle decoder)], []⟩

end Frame

/-- How a statement ends: with the reply of a request, or with the result of
the program. -/
inductive Outcome
  | went (reply : Option Reply)
  | gave (result : Value)

/-- A program under way on a surface. -/
abbrev Run (σ α : Type) := Step (Frame σ × Store) α

namespace Run

/-- Runs a step on the surface of a program. -/
def onSurface (step : Step (σ × Store) α) : Run σ α :=
  Step.within (fun s => (s.1.surface, s.2))
    (fun part s => ({ s.1 with surface := part.1 }, part.2)) step

/-- Runs a step on the declared classes. -/
def inWorld (step : Step World α) : Run σ α :=
  Step.shared (Step.inWorld step)

/-- What a variable is bound to. -/
def binding (name : String) : Run σ Reply := do
  Step.ofOption .unknownEntry ((← Step.current).1.bindings.lookup name)

/-- The handle that a variable is bound to; a value knows no requests. -/
def handle (name : String) : Run σ Handle := do
  match ← binding name with
  | .handle h => pure h
  | .value _ => Step.fail .missingOperation

/-- Binds a variable, if there is a name for it. -/
def store (name : Option String) (reply : Reply) : Run σ Unit :=
  match name with
  | some n =>
    Step.update fun s => ({ s.1 with bindings := Table.set s.1.bindings n reply }, s.2)
  | none => pure ()

/-- Adds a result to what the program got. -/
def collect (v : Value) : Run σ Unit :=
  Step.update fun s => ({ s.1 with got := s.1.got ++ [v] }, s.2)

/-- The text that a key stands for. -/
def key : KeyTerm → Run σ String
  | .literal name => pure name
  | .variable name => do
    match ← binding name with
    | .value (.text s) => pure s
    | _ => Step.fail .wrongArguments

/-- The text that an optional key stands for. -/
def optionalKey : Option KeyTerm → Run σ (Option String)
  | none => pure none
  | some t => do pure (some (← key t))

/-- The request that a written request is, with its type and key settled. -/
def request : Request TypeTerm KeyTerm → Run σ (Request TypeForm String)
  | .openKeyed => pure .openKeyed
  | .openUnkeyed => pure .openUnkeyed
  | .openSingle => pure .openSingle
  | .decode t k => do
    let type ← inWorld (t.resolve .strict)
    pure (.decode type (← optionalKey k))
  | .decodeIfPresent t k => do
    let type ← inWorld (t.resolve .strict)
    pure (.decodeIfPresent type (← optionalKey k))
  | .decodeNull k => do pure (.decodeNull (← optionalKey k))
  | .nestedKeyed k => do pure (.nestedKeyed (← optionalKey k))
  | .nestedUnkeyed k => do pure (.nestedUnkeyed (← optionalKey k))
  | .parent k => do pure (.parent (← optionalKey k))
  | .contains k => do pure (.contains (← optionalKey k))
  | .allKeys => pure .allKeys
  | .count => pure .count
  | .isAtEnd => pure .isAtEnd
  | .path => pure .path

/-- The result that a program gives. -/
def result : ResultTerm → Run σ Value
  | .value t => inWorld (t.resolve .strict)
  | .variable name => do pure (← binding name).toValue

end Run

/-- How a type other than the one under way is read from a decoder. -/
abbrev Delegate (σ : Type) := Reader → Handle → Step (σ × Store) Value

/-- Runs a body for each key until it gives a result. -/
def forEachKey
    (name : String)
    (body : Run σ Outcome) :
    List Value → Run σ Outcome
  | [] => pure (.went none)
  | k :: rest => do
    Run.store (some name) (.value k)
    match ← body with
    | .gave result => pure (.gave result)
    | .went _ => forEachKey name body rest

/-- Runs a body until the end of a sequence or until it gives a result. -/
def repeatToEnd
    (isAtEnd : Run σ Bool)
    (body : Run σ Outcome) :
    Nat → Run σ Outcome
  | 0 => Step.exhausted
  | bound + 1 => do
    if ← isAtEnd then pure (.went none)
    else
      match ← body with
      | .gave result => pure (.gave result)
      | .went _ => repeatToEnd isAtEnd body bound

/-- The rounds that a loop to the end of a sequence may spend without getting
on. -/
def idleRounds : Nat :=
  64

/-- The reader of a type in the shared registry. -/
def sharedReader (t : TypeTerm) : Step Store Reader := do
  let a ← Step.inWorld (t.resolve .strict)
  match (← lookup .shared a).reader with
  | some reader => pure reader
  | none => Step.fail .withoutReader

/-- A reply without what it was the reply to. -/
def Outcome.done : Outcome → Outcome
  | .went _ => .went none
  | .gave result => .gave result

mutual

/-- Runs a statement. -/
def Statement.run
    (surface : Surface σ)
    (delegate : Delegate σ) :
    Statement → Run σ Outcome
  | .request on written store => do
    let h ← Run.handle on
    if !written.isKnownTo h.role then Step.fail .missingOperation
    else
      let settled ← Run.request written
      let reply ← Run.onSurface (surface.ask h settled)
      if settled.isCollected then Run.collect reply.toValue
      Run.store store reply
      pure (.went (some reply))
  | .delegate on type store => do
    let target ← Run.binding on
    let reader ← Step.shared (sharedReader type)
    match target with
    | .handle h =>
      let v ← Run.onSurface (delegate reader h)
      Run.collect v
      Run.store store (.value v)
      pure (.went (some (.value v)))
    | .value _ => Step.fail .missingOperation
  | .forKeys on key body => do
    let h ← Run.handle on
    let keys ← Run.onSurface (surface.keys h)
    forEachKey key (Statement.runAll surface delegate body) keys
  | .untilEnd on body => do
    let h ← Run.handle on
    let isAtEnd := Run.onSurface (surface.isAtEnd h)
    let _ ← isAtEnd
    let count ← Run.onSurface (surface.count h)
    repeatToEnd isAtEnd (Statement.runAll surface delegate body) (count + idleRounds)
  | .branch subject expected agreed otherwise => do
    let reply ← Run.binding subject
    let outcome ←
      if expected.agrees reply.toValue.document then
        Statement.runAll surface delegate agreed
      else Statement.runAll surface delegate otherwise
    pure outcome.done
  | .attempt body handler => do
    let outcome ←
      Step.recover (Statement.runAll surface delegate body)
        fun _ => Statement.runAll surface delegate handler
    pure outcome.done
  | .give result => do pure (.gave (← Run.result result))
  | .fail kind message location => Step.fail (.raised kind message location)

/-- Runs statements in order until one gives a result. -/
def Statement.runAll
    (surface : Surface σ)
    (delegate : Delegate σ) :
    List Statement → Run σ Outcome
  | [] => pure (.went none)
  | first :: rest => do
    match ← first.run surface delegate with
    | .gave result => pure (.gave result)
    | .went _ => Statement.runAll surface delegate rest

end

/-- The class of the objects that a registered program makes. -/
def anonymousClass : ClassRef :=
  .user ⟨0, "Opaque", "registered"⟩

/-- What a program makes that gives no result of its own. -/
def Maker.make? (w : World) (got : List Value) : Maker → Except Fault Value
  | .cls c => w.freshInstance? c (some got)
  | .nothing => .ok (.object anonymousClass (some got))

/-- The result of a program that ran to its end. -/
def Outcome.result (maker : Maker) : Outcome → Run σ Value
  | .gave result => pure result
  | .went _ => do
    let s ← Step.current
    Step.ofExcept (maker.make? s.2.world s.1.got)

/-- Runs a program on a decoder; the surface keeps what was asked of it, also
after an interrupt. -/
def Program.run
    (surface : Surface σ)
    (delegate : Delegate σ)
    (maker : Maker)
    (body : Program)
    (decoder : Handle) :
    Step (σ × Store) Value :=
  ⟨fun s =>
    let whole : Run σ Value := do
      let outcome ← Statement.runAll surface delegate body
      outcome.result maker
    let (outcome, reached) := whole.run (.start s.1 decoder, s.2)
    (outcome, reached.1.surface, reached.2)⟩

/-- Reads the fields of a plan from a keyed container.  A missing value with a
default is left to the default. -/
def readFields
    (surface : Surface σ)
    (container : Handle) :
    List FieldPlan → List (String × Value) → Step (σ × Store) (List (String × Value))
  | [], values => pure values
  | plan :: rest, values => do
    if plan.isOptional then
      let v ← surface.value container (.decodeIfPresent plan.inner (some plan.key))
      if v.isNull && plan.hasDefault then readFields surface container rest values
      else readFields surface container rest (Table.set values plan.name v)
    else
      let v ← surface.value container (.decode plan.form (some plan.key))
      readFields surface container rest (Table.set values plan.name v)

/-- Reads elements to the end of a sequence. -/
def readElements
    (surface : Surface σ)
    (container : Handle)
    (item : TypeForm) :
    Nat → Step (σ × Store) (List Value)
  | 0 => Step.exhausted
  | bound + 1 => do
    if ← surface.isAtEnd container then pure []
    else
      let v ← surface.value container (.decode item none)
      pure (v :: (← readElements surface container item bound))

/-- Reads one element for each of some type forms. -/
def readPositions
    (surface : Surface σ)
    (container : Handle) :
    List TypeForm → Step (σ × Store) (List Value)
  | [] => pure []
  | item :: rest => do
    let v ← surface.value container (.decode item none)
    pure (v :: (← readPositions surface container rest))

/-- Reads the value of each key. -/
def readEntries
    (surface : Surface σ)
    (container : Handle)
    (value : TypeForm) :
    List Value → Step (σ × Store) (List (Value × Value))
  | [] => pure []
  | k :: rest => do
    match k with
    | .text name =>
      let v ← surface.value container (.decode value (some name))
      pure ((k, v) :: (← readEntries surface container value rest))
    | _ => Step.fail .wrongArguments

/-- The class that the values of an enumeration's members belong to. -/
def World.memberClass (w : World) (c : ClassRef) : ClassRef :=
  match (w.members? c).bind List.head? with
  | some (.member _ _ _ value) => value.classOf
  | _ => .builtin .str

/-- Reads a type by its reader; `delegate` reads other types from the same
surface. -/
def Reader.runWith
    (surface : Surface σ)
    (delegate : Delegate σ)
    (reader : Reader)
    (decoder : Handle) :
    Step (σ × Store) Value := do
  match reader with
  | .fields c =>
    let plans ← Step.shared (Step.inWorld (decodingPlans c))
    let container ← surface.openHandle decoder .openKeyed
    let values ← readFields surface container plans []
    Step.ofExcept ((← Step.current).2.world.construct? c values)
  | .sequence item into =>
    let container ← surface.openHandle decoder .openUnkeyed
    let count ← surface.count container
    let elements ← readElements surface container item (count + 1)
    Step.ofExcept ((← Step.current).2.world.gatherInto? into elements)
  | .positions items =>
    let container ← surface.openHandle decoder .openUnkeyed
    pure (.tuple (← readPositions surface container items))
  | .mapping value cls =>
    let container ← surface.openHandle decoder .openKeyed
    let keys ← surface.keys container
    let entries ← readEntries surface container value keys
    pure ((← Step.current).2.world.mappingOf cls (Value.entriesOf entries))
  | .nullable inner =>
    let container ← surface.openHandle decoder .openSingle
    if (← surface.ask container (.decodeNull none)).isTrue then pure .null
    else surface.value container (.decode inner none)
  | .oneOf values =>
    let container ← surface.openHandle decoder .openSingle
    let type := (values.head?.map Value.classOf).getD (.builtin .str)
    let raw ← surface.value container (.decode (.cls type) none)
    if values.any raw.equals then pure raw
    else
      Step.fail (.notAnOption raw.display (Value.list values).display decoder.path)
  | .member c =>
    let container ← surface.openHandle decoder .openSingle
    let type := (← Step.current).2.world.memberClass c
    let raw ← surface.value container (.decode (.cls type) none)
    match (← Step.current).2.world.memberOf? c raw with
    | some found => pure found
    | none => Step.fail (.notAMember raw.display c.name decoder.path)
  | .program maker body => Program.run surface delegate maker body decoder

/-- Reads a type, with delegation down to a depth. -/
def Reader.runTo (surface : Surface σ) : Nat → Delegate σ
  | 0 => fun _ _ => Step.fail .endlessDelegation
  | depth + 1 => fun reader decoder =>
    reader.runWith surface (Reader.runTo surface depth) decoder

/-- The depth to which types can delegate to each other. -/
def delegationDepth : Nat :=
  256

/-- Reads a type by its reader from a decoder of a surface. -/
def Reader.run
    (surface : Surface σ)
    (reader : Reader)
    (decoder : Handle) :
    Step (σ × Store) Value :=
  Reader.runTo surface delegationDepth reader decoder

end SchemaProbe

import SchemaProbe.Enumeration
import SchemaProbe.Instance

namespace SchemaProbe

/-!
# Resolving terms

A term becomes a type form or a value in a world.  Resolving can declare
something: a generic model with arguments is a class of its own, made the first
time that it is asked for.  Typing forms of the same parts are one type form,
the one that was written first.
-/

/-- How a name in a term is understood, and whether the term is put off as a
whole, so that bars stand between names until these are known. -/
structure Naming where
  meaning : World → String → Except Fault TypeForm
  isDeferred : Bool

namespace Naming

/-- A name must be declared. -/
def strict : Naming where
  meaning w name :=
    match w.names.lookup name with
    | some a => .ok a
    | none => .error .unknownEntry
  isDeferred := false

/-- Inside a class, its own name and names that are not declared yet stay
names. -/
def inside (own : String) : Naming where
  meaning w name :=
    .ok (if name == own then .text name else (w.names.lookup name).getD (.text name))
  isDeferred := false

/-- Every name stays a name. -/
def deferred : Naming where
  meaning _ name := .ok (.text name)
  isDeferred := true

end Naming

/-- What may stand as an argument of a typing form. -/
def TypeForm.checkedArgument? (a : TypeForm) : Except Fault TypeForm :=
  match a with
  | .generic .classVar _ | .generic .final _ => .error .wrongArguments
  | .value (.items .tuple none _) => .error .wrongArguments
  | _ => .ok a.argument

/-- A typing form of parts: the one that was first built from the same parts. -/
def spelled
    (form : String)
    (parts : List TypeForm)
    (built : TypeForm) :
    Step World TypeForm := do
  let key := Key.labelled form (.sequence (TypeForm.keys parts))
  match (← Step.current).spellings.lookup key with
  | some first => pure first
  | none =>
    Step.update fun w => { w with spellings := w.spellings ++ [(key, built)] }
    pure built

/-- The named union of type forms. -/
def namedUnion (members : List TypeForm) : Step World TypeForm := do
  let checked ← Step.each (fun a => .ofExcept a.checkedArgument?) members
  if checked.isEmpty then Step.fail .wrongArguments
  else if !TypeForm.allHashable checked then Step.fail .unhashable
  else spelled "union" checked (.unionOf checked)

/-- Two type forms that are neither of them typing forms with a bar between them,
which can stand beside a name if it is put off. -/
def TypeForm.barred? (isDeferred : Bool) (left right : TypeForm) : Option TypeForm :=
  if isDeferred then
    if left.argument.standsBesideBar && right.argument.standsBesideBar then
      some (unionIn .bar [left.argument, right.argument])
    else none
  else left.bar? right

/-- Two type forms with a bar between them. -/
def barPair (isDeferred : Bool) (left right : TypeForm) : Step World TypeForm :=
  if left.isTypingForm || right.isTypingForm then namedUnion [left, right]
  else .ofOption .wrongArguments (left.barred? isDeferred right)

/-- Type forms with bars between them. -/
def barChain (isDeferred : Bool) (first : TypeForm) : List TypeForm → Step World TypeForm
  | [] => pure first
  | next :: rest => do
    let pair ← barPair isDeferred first next
    barChain isDeferred pair rest

/-- A type form with a note. -/
def noted (a : TypeForm) (note : Value) : Step World TypeForm :=
  let built := a.withNote note
  if a.isHashable && note.isHashable then spelled "noted" [a, .value note] built
  else pure built

/-- A field with arguments in the place of variables. -/
def Field.specialise (ofVariable : String → Option TypeForm) (f : Field) : Field :=
  { f with
    written := f.written.substitute (fun _ => none) ofVariable
    form := f.form.substitute (fun _ => none) ofVariable }

/-- The name of the class that a generic model with arguments is. -/
def ClassRecord.specialisedName (r : ClassRecord) (args : List TypeForm) : String :=
  r.cls.name ++ enclosed "[" (args.map (·.shownAsArgument)) "]"

/-- The class that a generic model with arguments is. -/
def ClassRecord.specialised
    (r : ClassRecord)
    (cls : UserClass)
    (args : List TypeForm)
    (fields : List Field) :
    ClassRecord :=
  let ofVariable := fun v => (r.params.zip args).lookup v
  { cls := cls
    lineage := .user cls :: r.lineage
    base := none
    params := (TypeForm.typeVariablesAll args).eraseDups
    hooks := r.hooks
    body := .model (fields.map (Field.specialise ofVariable)) }

/-- The record of the class that a generic model is when it is given arguments for the
first time. -/
def World.specialisation
    (w : World)
    (r : ClassRecord)
    (args : List TypeForm)
    (fields : List Field) :
    ClassRecord :=
  r.specialised (w.nextClass (r.specialisedName args) r.cls.home) args fields

/-- A generic model with arguments; with its own variables it is itself. -/
def specialise
    (r : ClassRecord)
    (fields : List Field)
    (args : List TypeForm) :
    Step World TypeForm := do
  if r.params.isEmpty || r.params.length != args.length then Step.fail .wrongArguments
  else if TypeForm.keys args == TypeForm.keys (r.params.map .variable) then
    pure (.cls (.user r.cls))
  else
    let shown := args.map fun a => Key.pair a.identity (.text a.display)
    let key := Key.pair r.cls.key (.sequence shown)
    match (← Step.current).specialised.lookup key with
    | some cls => pure (.cls (.user cls))
    | none =>
      let record := (← Step.current).specialisation r args fields
      Step.update fun w =>
        { w.add record with specialised := w.specialised ++ [(key, record.cls)] }
      pure (.cls (.user record.cls))

/-- The built-in classes that take arguments. -/
def Builtin.takesArguments : Builtin → Bool
  | .list | .dict | .set | .frozenset | .tuple | .type | .orderedDict | .deque | .counter
  | .sequence | .mutableSequence | .iterable | .collection | .abstractSet | .mutableSet
  | .mapping | .mutableMapping | .callable => true
  | _ => false

/-- A class with arguments. -/
def applyClass (c : ClassRef) (args : List TypeForm) : Step World TypeForm := do
  let w ← Step.current
  match c with
  | .builtin b =>
    if b.takesArguments then pure (.generic (.cls c) args) else Step.fail .wrongArguments
  | .sized _ _ => Step.fail .wrongArguments
  | .user u =>
    match w.record? u with
    | none => Step.fail .wrongArguments
    | some r =>
      match r.body with
      | .model fields => specialise r fields args
      | _ =>
        if r.params.isEmpty then
          if (w.lineage c).any fun ancestor =>
              match ancestor with
              | .builtin b => b.takesArguments
              | _ => false
          then pure (.generic (.cls c) args)
          else Step.fail .wrongArguments
        else if r.params.length != args.length then Step.fail .wrongArguments
        else
          let checked ← Step.each (fun a => .ofExcept a.checkedArgument?) args
          pure (.generic (.cls c) checked)

/-- A mapping with keys that can be looked up. -/
def dictOf? (entries : List (Value × Value)) : Except Fault Value :=
  if entries.all fun e => e.1.isHashable then .ok (.dict none (Value.entriesOf entries))
  else .error .unhashable

/-- The class that a name refers to. -/
def classNamed (naming : Naming) (name : String) : Step World ClassRef := do
  match ← Step.ofExcept (naming.meaning (← Step.current) name) with
  | .cls c => pure c
  | _ => Step.fail .unknownEntry

mutual

/-- Resolves a written type form. -/
def TypeTerm.resolve (naming : Naming) : TypeTerm → Step World TypeForm
  | .known a => pure a
  | .named name => do Step.ofExcept (naming.meaning (← Step.current) name)
  | .optional inner => do namedUnion [← inner.resolve naming, .nullType]
  | .union members => do namedUnion (← TypeTerm.resolveAll naming members)
  | .bar members => do
    match ← TypeTerm.resolveAll naming members with
    | [] => Step.fail .wrongArguments
    | first :: rest => barChain naming.isDeferred first rest
  | .literal values => do pure (.literalOf (← ValueTerm.resolveAll naming values))
  | .annotated inner note => do
    let a ← inner.resolve naming
    noted a (← note.resolve naming)
  | .generic (.cls c) args => do pure (.generic (.cls c) (← TypeTerm.resolveAll naming args))
  | .generic origin args => do
    let resolved ← TypeTerm.resolveAll naming args
    pure (.generic origin (← Step.each (fun a => .ofExcept a.checkedArgument?) resolved))
  | .callable params result => do
    let resolved ← TypeTerm.resolveAll naming params
    pure (.callable resolved (← result.resolve naming))
  | .applied generic args => do
    match ← generic.resolve naming with
    | .cls c => applyClass c (← TypeTerm.resolveAll naming args)
    | _ => Step.fail .wrongArguments
  | .inPlace value => do pure (.ofValue (← value.resolve naming))

/-- Resolves written type forms. -/
def TypeTerm.resolveAll (naming : Naming) : List TypeTerm → Step World (List TypeForm)
  | [] => pure []
  | t :: rest => do
    let a ← t.resolve naming
    pure (a :: (← TypeTerm.resolveAll naming rest))

/-- Resolves a written value. -/
def ValueTerm.resolve (naming : Naming) : ValueTerm → Step World Value
  | .known v => pure v
  | .items shape elements => do
    Step.ofExcept (gather? shape none (← ValueTerm.resolveAll naming elements))
  | .dict entries => do Step.ofExcept (dictOf? (← ValueTerm.resolveEntries naming entries))
  | .type t => do pure (.type (← t.resolve naming))
  | .member enumeration name => do
    let c ← classNamed naming enumeration
    Step.ofOption .unknownEntry ((← Step.current).memberNamed? c name)
  | .instanceOf name => do
    let c ← classNamed naming name
    Step.ofExcept ((← Step.current).freshInstance? c none)

/-- Resolves written values. -/
def ValueTerm.resolveAll (naming : Naming) : List ValueTerm → Step World (List Value)
  | [] => pure []
  | t :: rest => do
    let v ← t.resolve naming
    pure (v :: (← ValueTerm.resolveAll naming rest))

/-- Resolves the entries of a written mapping. -/
def ValueTerm.resolveEntries (naming : Naming) :
    List (ValueTerm × ValueTerm) → Step World (List (Value × Value))
  | [] => pure []
  | (k, t) :: rest => do
    let key ← k.resolve naming
    let v ← t.resolve naming
    pure ((key, v) :: (← ValueTerm.resolveEntries naming rest))

end

end SchemaProbe

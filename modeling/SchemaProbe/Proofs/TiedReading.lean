import SchemaProbe.Proofs.Needs
import SchemaProbe.Proofs.Tied

namespace SchemaProbe

/-!
# Reading side by side

A type reads itself by making requests of a surface and by relying on what can be
found out about types.  From states that are tied it reads itself in the same way on
two surfaces that answer in the same way, as long as it finds out the same in both:
the programs of the statements, the fields, the elements and the entries all end tied.
The surfaces of a probe answer in the same way if the probes of nested types end in
the same way.
-/

open Step

/-! ## Worlds in which the same is made -/

/-- A field without its type. -/
def Field.untyped (f : Field) : Field :=
  { f with written := .any, form := .any, isResolved := true }

/-- Whether two classes consist of the same, but for the types of their fields. -/
inductive ClassBody.Resembles : ClassBody → ClassBody → Prop
  | same (body : ClassBody) : Resembles body body
  | model {fields others : List Field} :
      others.map Field.untyped = fields.map Field.untyped →
        Resembles (.model fields) (.model others)
  | dataclass {fields others : List Field} (refusal : Option String) :
      others.map Field.untyped = fields.map Field.untyped →
        Resembles (.dataclass fields refusal) (.dataclass others refusal)

/-- What is given to fields does not depend on their types. -/
theorem assignFields_untyped (fields : List Field) (given : List (String × Value)) :
    assignFields (fields.map Field.untyped) given = assignFields fields given := by
  induction fields generalizing given with
  | nil => rfl
  | cons f rest inductionHypothesis =>
      rw [List.map_cons, assignFields, assignFields]
      simp only [inductionHypothesis]
      rfl

/-- What arguments give to fields does not depend on their types. -/
theorem argumentFields?_untyped (fields : List Field) (given : List (String × Value)) :
    argumentFields? (fields.map Field.untyped) given = argumentFields? fields given := by
  induction fields with
  | nil => rfl
  | cons f rest inductionHypothesis =>
      rw [List.map_cons, argumentFields?, argumentFields?, inductionHypothesis]
      rfl

/-- What a class without types has by default. -/
theorem filterMap_untyped (fields : List Field) :
    ((fields.map Field.untyped).filterMap fun f => f.default.map fun v => (f.name, v)) =
      fields.filterMap fun f => f.default.map fun v => (f.name, v) := by
  rw [List.filterMap_map]
  rfl

namespace World

/-- Whether a class consists of the same, but for the types of its fields, and extends the
same in two worlds. -/
structure MakesAlikeAt (w other : World) (c : ClassRef) : Prop where
  body : (w.body c).Resembles (other.body c)
  lineage : other.lineage c = w.lineage c

namespace MakesAlikeAt

variable {w other : World} {c : ClassRef} (alike : w.MakesAlikeAt other c)

include alike

theorem inherits (b : Builtin) : other.inherits c b = w.inherits c b := by
  rw [World.inherits, World.inherits, alike.lineage]

theorem sequenceShape? : other.sequenceShape? c = w.sequenceShape? c := by
  unfold World.sequenceShape?
  simp only [alike.inherits]

theorem members? : other.members? c = w.members? c := by
  have body := alike.body
  unfold World.members?
  generalize w.body c = before, other.body c = after at body
  cases body <;> rfl

theorem memberClass : other.memberClass c = w.memberClass c := by
  rw [World.memberClass, World.memberClass, alike.members?]

theorem memberOf? (raw : Value) : other.memberOf? c raw = w.memberOf? c raw := by
  have body := alike.body
  unfold World.memberOf?
  generalize w.body c = before, other.body c = after at body
  cases body <;> rfl

theorem memberNamed? (name : String) : other.memberNamed? c name = w.memberNamed? c name := by
  have body := alike.body
  unfold World.memberNamed?
  generalize w.body c = before, other.body c = after at body
  cases body <;> rfl

theorem freshInstance? (got : Option (List Value)) :
    other.freshInstance? c got = w.freshInstance? c got := by
  have body := alike.body
  unfold World.freshInstance? World.emptyValue
  simp only [alike.sequenceShape?, alike.inherits]
  generalize w.body c = before, other.body c = after at body
  cases body with
  | same => rfl
  | model same =>
      dsimp only
      rw [← assignFields_untyped, same, assignFields_untyped]
  | dataclass refusal same =>
      dsimp only
      rw [← filterMap_untyped, same, filterMap_untyped]

theorem construct? (given : List (String × Value)) :
    other.construct? c given = w.construct? c given := by
  have body := alike.body
  unfold World.construct?
  generalize w.body c = before, other.body c = after at body
  cases body with
  | same => rfl
  | model same =>
      dsimp only
      rw [← assignFields_untyped, same, assignFields_untyped]
  | dataclass refusal same =>
      dsimp only
      rw [← argumentFields?_untyped, same, argumentFields?_untyped]

end MakesAlikeAt

/-- Whether all classes consist of the same and extend the same in two worlds. -/
def MakesAlike (w other : World) : Prop :=
  ∀ c, w.MakesAlikeAt other c

/-- Worlds in which classes are the same make the same. -/
theorem MakesAlike.of_same
    {w other : World}
    (body : ∀ c, other.body c = w.body c)
    (lineage : ∀ c, other.lineage c = w.lineage c) :
    w.MakesAlike other := by
  intro c
  refine ⟨?_, lineage c⟩
  rw [body c]
  exact .same _

theorem MakesAlike.refl (w : World) : w.MakesAlike w :=
  .of_same (fun _ => rfl) fun _ => rfl

namespace MakesAlike

variable {w other : World} (alike : w.MakesAlike other)

include alike

theorem gatherInto? (into : Gathering) (elements : List Value) :
    other.gatherInto? into elements = w.gatherInto? into elements := by
  cases into with
  | shape s => rfl
  | cls c =>
      have body := (alike c).body
      unfold World.gatherInto?
      simp only [(alike c).sequenceShape?]
      generalize w.body c = before, other.body c = after at body
      cases body <;> rfl

theorem mappingOf (cls : Option ClassRef) (entries : List (Value × Value)) :
    other.mappingOf cls entries = w.mappingOf cls entries := by
  cases cls with
  | none => rfl
  | some c =>
      have body := (alike c).body
      unfold World.mappingOf
      dsimp only
      generalize w.body c = before, other.body c = after at body
      cases body <;> rfl

/-- A program makes the same of what it got. -/
theorem make? (maker : Maker) (got : List Value) : maker.make? other got = maker.make? w got := by
  cases maker with
  | cls c => exact (alike c).freshInstance? (some got)
  | nothing => rfl

end MakesAlike

end World

/-- Whether the same is made in states that are tied. -/
def Bond.Makes (B : Bond Store Store) : Prop :=
  ∀ s t, B.ties s t → s.world.MakesAlike t.world

/-- What holds of a state makes what it makes itself. -/
theorem Regime.bond_makes (R : Regime Store) : R.bond.Makes := by
  rintro s _ ⟨rfl, -⟩
  exact .refl _

/-! ## What is relied on in states that are tied -/

mutual

/-- Whether what a statement relies on ends tied and in the same way, and asks for type
forms and readers of a sort. -/
def Statement.IsTied
    (B : Bond Store Store)
    (met : TypeForm → Prop)
    (reads : Reader → Prop) :
    Statement → Prop
  | .request _ written _ =>
    ∀ t, written.form? = some t →
      Tied B (Same met) (inWorld (t.resolve .strict)) (inWorld (t.resolve .strict))
  | .delegate _ type _ => Tied B (Same reads) (sharedReader type) (sharedReader type)
  | .forKeys _ _ body => Statement.AreTied B met reads body
  | .untilEnd _ body => B.allows .exhausted ∧ Statement.AreTied B met reads body
  | .branch _ _ agreed otherwise =>
    Statement.AreTied B met reads agreed ∧ Statement.AreTied B met reads otherwise
  | .attempt body handler =>
    Statement.AreTied B met reads body ∧ Statement.AreTied B met reads handler
  | .give (.value v) =>
    Tied B (Same anything) (inWorld (v.resolve .strict)) (inWorld (v.resolve .strict))
  | .give (.variable _) => True
  | .fail _ _ _ => True

/-- Whether what statements rely on ends tied and in the same way. -/
def Statement.AreTied
    (B : Bond Store Store)
    (met : TypeForm → Prop)
    (reads : Reader → Prop) :
    List Statement → Prop
  | [] => True
  | first :: rest => first.IsTied B met reads ∧ Statement.AreTied B met reads rest

end

/-- Whether what a reader relies on ends tied and in the same way, and asks for type
forms and readers of a sort. -/
def Reader.IsTied
    (B : Bond Store Store)
    (met : TypeForm → Prop)
    (reads : Reader → Prop) :
    Reader → Prop
  | .fields c =>
    Tied B (Same fun plans => ∀ p ∈ plans, met p.requested) (inWorld (decodingPlans c))
      (inWorld (decodingPlans c))
  | .sequence item _ => met item
  | .positions items => ∀ item ∈ items, met item
  | .mapping value _ => met value
  | .nullable inner => met inner
  | .oneOf values => met (.cls ((values.head?.map Value.classOf).getD (.builtin .str)))
  | .member c => ∀ s t, B.ties s t → met (.cls (t.world.memberClass c))
  | .program _ body => Statement.AreTied B met reads body

/-- The bond of programs on surfaces of whose private state something is kept. -/
abbrev Bond.framed
    (B : Bond Store Store)
    (keeps : σ → Prop) :
    Bond (Frame σ × Store) (Frame σ × Store) :=
  B.alongside fun frame => keeps frame.surface

section

variable {σ : Type} {B : Bond Store Store} {keeps : σ → Prop} {met : TypeForm → Prop}
  {reads : Reader → Prop}

/-! ## Surfaces that answer in the same way -/

/-- Reads the elements of a sequence from a decoder. -/
def readSequence
    (surface : Surface σ)
    (decoder : Handle)
    (item : TypeForm) :
    Step (σ × Store) (List Value) := do
  let container ← surface.openHandle decoder .openUnkeyed
  let count ← surface.count container
  readElements surface container item (count + 1)

/-- Whether two surfaces answer in the same way in states that are tied, if they are
asked for certain type forms only, and let the elements of a sequence be read in the
same way. -/
structure Surface.AnswersTied
    (B : Bond Store Store)
    (met : TypeForm → Prop)
    (first second : Surface σ)
    (keeps : σ → Prop := fun _ => True) :
    Prop where
  answer : ∀ h request, (∀ a, request.form? = some a → met a) →
    Tied (B.alongside keeps) (Same anything) (first.answer h request) (second.answer h request)
  sequence : ∀ decoder item, met item →
    Tied (B.alongside keeps) (Same anything) (readSequence first decoder item)
      (readSequence second decoder item)

/-- The elements of a sequence are read in the same way if there is at most one. -/
theorem readSequence_tiedAt
    {first second : Surface σ}
    {decoder container : Handle}
    {item : TypeForm}
    {part opened : σ}
    {s t : Store}
    (opens : (first.openHandle decoder .openUnkeyed).run (part, s) = (.ok container, opened, s) ∧
      (second.openHandle decoder .openUnkeyed).run (part, t) = (.ok container, opened, t))
    (counts : (first.count container).run (opened, s) = (.ok 1, opened, s) ∧
      (second.count container).run (opened, t) = (.ok 1, opened, t))
    (begins : (first.isAtEnd container).run (opened, s) = (.ok false, opened, s) ∧
      (second.isAtEnd container).run (opened, t) = (.ok false, opened, t))
    (decodes : TiedAt (B.alongside keeps) (Same anything) (first.value container (.decode item none))
      (second.value container (.decode item none)) (opened, s) (opened, t))
    (ends : ∀ v reached,
      (first.value container (.decode item none)).run (opened, s) = (.ok v, reached) →
        (first.isAtEnd container).run reached = (.ok true, reached))
    (otherEnds : ∀ v reached,
      (second.value container (.decode item none)).run (opened, t) = (.ok v, reached) →
        (second.isAtEnd container).run reached = (.ok true, reached)) :
    TiedAt (B.alongside keeps) (Same anything) (readSequence first decoder item)
      (readSequence second decoder item) (part, s) (part, t) := by
  refine .bind_of_run ?_ opens.1 opens.2
  refine .bind_of_run ?_ counts.1 counts.2
  refine .bind_of_run ?_ begins.1 begins.2
  refine decodes.bind_run fun v w reached other ran otherRan ties same => ?_
  obtain ⟨rfl, -⟩ := same
  have last : TiedAt (B.alongside keeps) (Same anything) (readElements first container item 1)
      (readElements second container item 1) reached other :=
    .bind_of_run (.pure ties ⟨rfl, trivial⟩) (ends v reached ran) (otherEnds v other otherRan)
  exact last.bind_same fun _ _ _ lastTies _ => .pure lastTies ⟨rfl, trivial⟩

namespace Surface.AnswersTied

variable {first second : Surface σ}

/-- Surfaces that answer in the same way do so when they are asked. -/
theorem ask
    (answers : AnswersTied B met first second keeps)
    (faults : B.AllowsFaults)
    (h : Handle)
    {request : Request TypeForm String}
    (isMet : ∀ a, request.form? = some a → met a) :
    Tied (B.alongside keeps) (Same anything) (first.ask h request) (second.ask h request) := by
  unfold Surface.ask
  split
  · exact .fail (faults _)
  · split
    · exact .fail (faults _)
    · split
      · exact .pure_same trivial
      · exact answers.answer h _ isMet

/-- Surfaces that answer in the same way give the same handles. -/
theorem openHandle
    (answers : AnswersTied B met first second keeps)
    (faults : B.AllowsFaults)
    (h : Handle)
    {request : Request TypeForm String}
    (isMet : ∀ a, request.form? = some a → met a) :
    Tied (B.alongside keeps) (Same anything) (first.openHandle h request)
      (second.openHandle h request) := by
  refine (answers.ask faults h isMet).bind_same fun reply _ => ?_
  cases reply with
  | handle opened => exact .pure_same trivial
  | value v => exact .fail (faults _)

/-- Surfaces that answer in the same way give the same values. -/
theorem value
    (answers : AnswersTied B met first second keeps)
    (faults : B.AllowsFaults)
    (h : Handle)
    {request : Request TypeForm String}
    (isMet : ∀ a, request.form? = some a → met a) :
    Tied (B.alongside keeps) (Same anything) (first.value h request) (second.value h request) :=
  (answers.ask faults h isMet).bind_same fun _ _ => .pure_same trivial

/-- Surfaces that answer in the same way count in the same way. -/
theorem count
    (answers : AnswersTied B met first second keeps)
    (faults : B.AllowsFaults)
    (h : Handle) :
    Tied (B.alongside keeps) (Same anything) (first.count h) (second.count h) := by
  refine (answers.value faults h (by simp [Request.form?])).bind_same fun v _ => ?_
  split <;> exact .pure_same trivial

/-- Surfaces that answer in the same way are at the end of a sequence together. -/
theorem isAtEnd
    (answers : AnswersTied B met first second keeps)
    (faults : B.AllowsFaults)
    (h : Handle) :
    Tied (B.alongside keeps) (Same anything) (first.isAtEnd h) (second.isAtEnd h) :=
  (answers.ask faults h (by simp [Request.form?])).bind_same fun _ _ => .pure_same trivial

/-- Surfaces that answer in the same way list the same keys. -/
theorem keys
    (answers : AnswersTied B met first second keeps)
    (faults : B.AllowsFaults)
    (h : Handle) :
    Tied (B.alongside keeps) (Same anything) (first.keys h) (second.keys h) := by
  refine (answers.value faults h (by simp [Request.form?])).bind_same fun v _ => ?_
  split <;> exact .pure_same trivial

end Surface.AnswersTied

/-! ## Statements -/

section Running

variable {first second : Surface σ} {firstDelegate secondDelegate : Delegate σ}

/-- What a program does to its own frame ends tied to itself. -/
theorem frame_update
    (change : Frame σ → Frame σ)
    (isSame : ∀ frame, (change frame).surface = frame.surface) :
    Tied (B.framed keeps) (Same anything)
      (Step.update fun s => (change s.1, s.2)) (Step.update fun s => (change s.1, s.2)) := by
  refine .update fun s _ ties => ⟨⟨congrArg change ties.1.1, ?_⟩, ties.2⟩
  dsimp only
  rw [isSame]
  exact ties.1.2

/-- A surface is used in the same way inside a program. -/
theorem onSurface_tied
    {good : α → β → Prop}
    {step : Step (σ × Store) α}
    {other : Step (σ × Store) β}
    (tied : Tied (B.alongside keeps) good step other) :
    Tied (B.framed keeps) good (Run.onSurface step) (Run.onSurface other) := by
  refine tied.within (fun _ _ ties => ⟨⟨congrArg Frame.surface ties.1.1, ties.1.2⟩, ties.2⟩) ?_
    (fun _ allowed => allowed) fun lapses => lapses
  intro part other s t ties partTies
  exact ⟨⟨by rw [ties.1.1, partTies.1.1], partTies.1.2⟩, partTies.2⟩

/-- Looking at a variable ends tied to itself. -/
theorem binding_tied
    (faults : B.AllowsFaults)
    (name : String) :
    Tied (B.framed keeps) (Same anything) (Run.binding name) (Run.binding name) := by
  have takes (result : Option Reply) :
      Tied (B.framed keeps) (Same anything) (Step.ofOption .unknownEntry result)
        (Step.ofOption .unknownEntry result) :=
    .ofOption faults fun _ _ => trivial
  refine .current_bind fun s t ties => ?_
  rw [← ties.1.1]
  exact takes _ s t ties

/-- Looking at a handle ends tied to itself. -/
theorem handle_tied
    (faults : B.AllowsFaults)
    (name : String) :
    Tied (B.framed keeps) (Same anything) (Run.handle name) (Run.handle name) := by
  refine (binding_tied faults name).bind_same fun reply _ => ?_
  cases reply with
  | handle h => exact .pure_same trivial
  | value v => exact .fail (faults _)

/-- Binding a variable ends tied to itself. -/
theorem store_tied
    (name : Option String)
    (reply : Reply) :
    Tied (B.framed keeps) (Same anything) (Run.store name reply) (Run.store name reply) := by
  cases name with
  | none => exact .pure_same trivial
  | some n =>
      exact frame_update (fun frame => { frame with bindings := Table.set frame.bindings n reply })
        fun _ => rfl

/-- Collecting a result ends tied to itself. -/
theorem collect_tied (v : Value) :
    Tied (B.framed keeps) (Same anything) (Run.collect v) (Run.collect v) :=
  frame_update (fun frame => { frame with got := frame.got ++ [v] }) fun _ => rfl

/-- Settling a key ends tied to itself. -/
theorem optionalKey_tied
    (faults : B.AllowsFaults)
    (key : Option KeyTerm) :
    Tied (B.framed keeps) (Same anything) (Run.optionalKey key) (Run.optionalKey key) := by
  cases key with
  | none => exact .pure_same trivial
  | some t =>
      have settles : Tied (B.framed keeps) (Same anything) (Run.key t) (Run.key t) := by
        cases t with
        | literal name => exact .pure_same trivial
        | «variable» name =>
            refine (binding_tied faults name).bind_same fun reply _ => ?_
            split
            · exact .pure_same trivial
            · exact .fail (faults _)
      exact settles.bind_same fun _ _ => .pure_same trivial

/-- Settling a request ends tied to itself, and with a type form that is asked for. -/
theorem request_tied
    (faults : B.AllowsFaults)
    {written : Request TypeTerm KeyTerm}
    (isTied : ∀ t, written.form? = some t →
      Tied B (Same met) (inWorld (t.resolve .strict)) (inWorld (t.resolve .strict))) :
    Tied (B.framed keeps) (Same fun settled => ∀ a, settled.form? = some a → met a)
      (Run.request written) (Run.request written) := by
  have keyed (key : Option KeyTerm) {make : Option String → Request TypeForm String}
      (isGood : ∀ key a, (make key).form? = some a → met a) :
      Tied (B.framed keeps) (Same fun settled => ∀ a, settled.form? = some a → met a)
        (do pure (make (← Run.optionalKey key))) (do pure (make (← Run.optionalKey key))) :=
    (optionalKey_tied faults key).bind_same fun settled _ => .pure_same (isGood settled)
  cases written with
  | decode t key =>
      exact (isTied t rfl).shared.bind_same fun a isMet => keyed key (Request.form?_decode isMet)
  | decodeIfPresent t key =>
      exact (isTied t rfl).shared.bind_same fun a isMet =>
        keyed key (Request.form?_decodeIfPresent isMet)
  | decodeNull key => exact keyed key (by simp [Request.form?])
  | nestedKeyed key => exact keyed key (by simp [Request.form?])
  | nestedUnkeyed key => exact keyed key (by simp [Request.form?])
  | parent key => exact keyed key (by simp [Request.form?])
  | contains key => exact keyed key (by simp [Request.form?])
  | _ => exact .pure_same (by simp [Request.form?])

/-- A body is run in the same way for each key. -/
theorem forEachKey_tied
    (name : String)
    {body other : Run σ Outcome}
    (tied : Tied (B.framed keeps) (Same anything) body other)
    (keys : List Value) :
    Tied (B.framed keeps) (Same anything) (forEachKey name body keys)
      (forEachKey name other keys) := by
  induction keys with
  | nil => exact .pure_same trivial
  | cons k rest inductionHypothesis =>
      refine (store_tied _ _).bind_same fun _ _ => tied.bind_same fun outcome _ => ?_
      cases outcome with
      | gave result => exact .pure_same trivial
      | went reply => exact inductionHypothesis

/-- A body is run in the same way to the end of a sequence. -/
theorem repeatToEnd_tied
    {atEnd otherAtEnd : Run σ Bool}
    {body other : Run σ Outcome}
    (endless : B.allows .exhausted)
    (atEndTied : Tied (B.framed keeps) (Same anything) atEnd otherAtEnd)
    (tied : Tied (B.framed keeps) (Same anything) body other)
    (bound : Nat) :
    Tied (B.framed keeps) (Same anything) (repeatToEnd atEnd body bound)
      (repeatToEnd otherAtEnd other bound) := by
  induction bound with
  | zero => exact .exhausted endless
  | succ bound inductionHypothesis =>
      refine atEndTied.bind_same fun isAtEnd _ => ?_
      split
      · exact .pure_same trivial
      · refine tied.bind_same fun outcome _ => ?_
        cases outcome with
        | gave result => exact .pure_same trivial
        | went reply => exact inductionHypothesis

mutual

/-- A statement runs in the same way on surfaces that answer in the same way. -/
theorem Statement.run_tied
    (faults : B.AllowsFaults)
    (answers : Surface.AnswersTied B met first second keeps)
    (delegates : ∀ reader, reads reader → ∀ h,
      Tied (B.alongside keeps) (Same anything) (firstDelegate reader h) (secondDelegate reader h))
    (statement : Statement)
    (isTied : statement.IsTied B met reads) :
    Tied (B.framed keeps) (Same anything) (statement.run first firstDelegate)
      (statement.run second secondDelegate) := by
  cases statement with
  | request on written name =>
      rw [Statement.run, Statement.run]
      rw [Statement.IsTied] at isTied
      refine (handle_tied faults on).bind_same fun h _ => ?_
      split
      · exact .fail (faults _)
      · refine (request_tied faults isTied).bind_same fun settled isMet => ?_
        refine (onSurface_tied (answers.ask faults h isMet)).bind_same fun reply _ => ?_
        split
        · exact (collect_tied _).bind_same fun _ _ =>
            (store_tied _ _).bind_same fun _ _ => .pure_same trivial
        · exact (store_tied _ _).bind_same fun _ _ => .pure_same trivial
  | delegate on type name =>
      rw [Statement.run, Statement.run]
      rw [Statement.IsTied] at isTied
      refine (binding_tied faults on).bind_same fun target _ =>
        isTied.shared.bind_same fun reader isRead => ?_
      cases target with
      | handle h =>
          refine (onSurface_tied (delegates reader isRead h)).bind_same fun v _ => ?_
          exact (collect_tied v).bind_same fun _ _ =>
            (store_tied _ _).bind_same fun _ _ => .pure_same trivial
      | value v => exact .fail (faults _)
  | forKeys on key body =>
      rw [Statement.run, Statement.run]
      rw [Statement.IsTied] at isTied
      refine (handle_tied faults on).bind_same fun h _ => ?_
      refine (onSurface_tied (answers.keys faults h)).bind_same fun keys _ => ?_
      exact forEachKey_tied key
        (Statement.runAll_tied faults answers delegates body isTied) keys
  | untilEnd on body =>
      rw [Statement.run, Statement.run]
      rw [Statement.IsTied] at isTied
      refine (handle_tied faults on).bind_same fun h _ => ?_
      have atEnd := onSurface_tied (answers.isAtEnd faults h)
      refine atEnd.bind_same fun _ _ => ?_
      refine (onSurface_tied (answers.count faults h)).bind_same fun count _ => ?_
      exact repeatToEnd_tied isTied.1 atEnd
        (Statement.runAll_tied faults answers delegates body isTied.2) _
  | branch subject expected agreed otherwise =>
      rw [Statement.run, Statement.run]
      rw [Statement.IsTied] at isTied
      refine (binding_tied faults subject).bind_same fun reply _ => ?_
      split
      · exact (Statement.runAll_tied faults answers delegates agreed isTied.1).bind_same
          fun _ _ => .pure_same trivial
      · exact (Statement.runAll_tied faults answers delegates otherwise isTied.2).bind_same
          fun _ _ => .pure_same trivial
  | attempt body handler =>
      rw [Statement.run, Statement.run]
      rw [Statement.IsTied] at isTied
      have bodyTied := Statement.runAll_tied faults answers delegates body isTied.1
      have handlerTied := Statement.runAll_tied faults answers delegates handler isTied.2
      exact (bodyTied.recover fun _ => handlerTied).bind_same fun _ _ => .pure_same trivial
  | give result =>
      rw [Statement.run, Statement.run]
      cases result with
      | value v =>
          rw [Statement.IsTied] at isTied
          exact isTied.shared.bind_same fun _ _ => .pure_same trivial
      | «variable» name =>
          have found : Tied (B.framed keeps) (Same anything) (Run.result (.variable name))
              (Run.result (.variable name)) :=
            (binding_tied faults name).bind_same fun _ _ => .pure_same trivial
          exact found.bind_same fun _ _ => .pure_same trivial
  | fail kind message location =>
      rw [Statement.run, Statement.run]
      exact .fail (faults _)
termination_by structural statement

/-- Statements run in the same way on surfaces that answer in the same way. -/
theorem Statement.runAll_tied
    (faults : B.AllowsFaults)
    (answers : Surface.AnswersTied B met first second keeps)
    (delegates : ∀ reader, reads reader → ∀ h,
      Tied (B.alongside keeps) (Same anything) (firstDelegate reader h) (secondDelegate reader h))
    (body : List Statement)
    (areTied : Statement.AreTied B met reads body) :
    Tied (B.framed keeps) (Same anything) (Statement.runAll first firstDelegate body)
      (Statement.runAll second secondDelegate body) := by
  cases body with
  | nil =>
      rw [Statement.runAll, Statement.runAll]
      exact .pure_same trivial
  | cons statement rest =>
      rw [Statement.runAll, Statement.runAll]
      rw [Statement.AreTied] at areTied
      refine (Statement.run_tied faults answers delegates statement areTied.1).bind_same
        fun outcome _ => ?_
      cases outcome with
      | gave result => exact .pure_same trivial
      | went reply => exact Statement.runAll_tied faults answers delegates rest areTied.2
termination_by structural body

end

/-! ## Readers -/

/-- The frame of a program stands beside the shared state like the state of the surface
itself: programs end tied if what is run in their frames does. -/
theorem Program.run_tied_of_runAll
    (makes : B.Makes)
    (faults : B.AllowsFaults)
    (maker : Maker)
    {body : Program}
    (decoder : Handle)
    (tied : Tied (B.framed keeps) (Same anything) (Statement.runAll first firstDelegate body)
      (Statement.runAll second secondDelegate body)) :
    Tied (B.alongside keeps) (Same anything) (Program.run first firstDelegate maker body decoder)
      (Program.run second secondDelegate maker body decoder) := by
  have finishes (outcome : Outcome) :
      Tied (B.framed keeps) (Same anything) (outcome.result maker) (outcome.result maker) := by
    cases outcome with
    | gave result => exact .pure_same trivial
    | went reply =>
        refine .current_bind fun reached other ties => ?_
        rw [(makes _ _ ties.2).make?, ties.1.1]
        exact Tied.ofExcept (B := B.framed keeps) faults (fun _ _ => trivial) reached other ties
  have whole := tied.bind_same fun outcome _ => finishes outcome
  have framed : Tied (B.alongside keeps) (Same anything)
      (Step.within (fun s => (Frame.start s.1 decoder, s.2))
        (fun part _ => (part.1.surface, part.2))
        (Statement.runAll first firstDelegate body >>= Outcome.result maker))
      (Step.within (fun s => (Frame.start s.1 decoder, s.2))
        (fun part _ => (part.1.surface, part.2))
        (Statement.runAll second secondDelegate body >>= Outcome.result maker)) :=
    whole.within (fun _ _ ties => ⟨⟨by rw [ties.1.1], ties.1.2⟩, ties.2⟩)
      (fun _ _ _ _ _ partTies => ⟨⟨congrArg Frame.surface partTies.1.1, partTies.1.2⟩, partTies.2⟩)
      (fun _ allowed => allowed) fun lapses => lapses
  exact framed

/-- Fields are read in the same way. -/
theorem readFields_tied
    (faults : B.AllowsFaults)
    (answers : Surface.AnswersTied B met first second keeps)
    (container : Handle)
    {plans : List FieldPlan}
    (areMet : ∀ p ∈ plans, met p.requested)
    (values : List (String × Value)) :
    Tied (B.alongside keeps) (Same anything) (readFields first container plans values)
      (readFields second container plans values) := by
  induction plans generalizing values with
  | nil => exact .pure_same trivial
  | cons plan rest inductionHypothesis =>
      obtain ⟨isMet, restMet⟩ := List.forall_mem_cons.mp areMet
      unfold FieldPlan.requested at isMet
      rw [readFields, readFields]
      split
      · rename_i isOptional
        rw [if_pos isOptional] at isMet
        refine (answers.value faults container
          (Request.form?_decodeIfPresent isMet _)).bind_same fun v _ => ?_
        · split
          · exact inductionHypothesis restMet values
          · exact inductionHypothesis restMet _
      · rename_i isRequired
        rw [if_neg isRequired] at isMet
        exact (answers.value faults container (Request.form?_decode isMet _)).bind_same
          fun v _ => inductionHypothesis restMet _

/-- Positions are read in the same way. -/
theorem readPositions_tied
    (faults : B.AllowsFaults)
    (answers : Surface.AnswersTied B met first second keeps)
    (container : Handle)
    {items : List TypeForm}
    (areMet : ∀ a ∈ items, met a) :
    Tied (B.alongside keeps) (Same anything) (readPositions first container items)
      (readPositions second container items) := by
  induction items with
  | nil => exact .pure_same trivial
  | cons item rest inductionHypothesis =>
      obtain ⟨isMet, restMet⟩ := List.forall_mem_cons.mp areMet
      exact (answers.value faults container (Request.form?_decode isMet none)).bind_same
        fun v _ => (inductionHypothesis restMet).bind_same fun _ _ => .pure_same trivial

/-- Entries are read in the same way. -/
theorem readEntries_tied
    (faults : B.AllowsFaults)
    (answers : Surface.AnswersTied B met first second keeps)
    (container : Handle)
    {value : TypeForm}
    (isMet : met value)
    (keys : List Value) :
    Tied (B.alongside keeps) (Same anything) (readEntries first container value keys)
      (readEntries second container value keys) := by
  induction keys with
  | nil => exact .pure_same trivial
  | cons k rest inductionHypothesis =>
      cases k with
      | text name =>
          exact (answers.value faults container (Request.form?_decode isMet _)).bind_same
            fun v _ => inductionHypothesis.bind_same fun _ _ => .pure_same trivial
      | _ => exact .fail (faults _)

/-- A reader reads in the same way on surfaces that answer in the same way. -/
theorem Reader.runWith_tied
    (makes : B.Makes)
    (faults : B.AllowsFaults)
    (answers : Surface.AnswersTied B met first second keeps)
    (delegates : ∀ reader, reads reader → ∀ h,
      Tied (B.alongside keeps) (Same anything) (firstDelegate reader h) (secondDelegate reader h))
    (reader : Reader)
    (isTied : reader.IsTied B met reads)
    (decoder : Handle) :
    Tied (B.alongside keeps) (Same anything) (reader.runWith first firstDelegate decoder)
      (reader.runWith second secondDelegate decoder) := by
  have opens {request : Request TypeForm String} (formless : request.form? = none) :
      Tied (B.alongside keeps) (Same anything) (first.openHandle decoder request)
        (second.openHandle decoder request) := by
    refine answers.openHandle faults decoder fun a isForm => ?_
    rw [formless] at isForm
    cases isForm
  have decodes (h : Handle) {a : TypeForm} (isMet : met a) :
      Tied (B.alongside keeps) (Same anything) (first.value h (.decode a none))
        (second.value h (.decode a none)) :=
    answers.value faults h (Request.form?_decode isMet none)
  have takes (result : World → Except Fault Value)
      (same : ∀ s t, B.ties s t → result t.world = result s.world) :
      Tied (B.alongside keeps) (Same anything) (do Step.ofExcept (result (← current).2.world))
        (do Step.ofExcept (result (← current).2.world)) := by
    refine .current_bind fun s t ties => ?_
    rw [same _ _ ties.2]
    exact Tied.ofExcept (B := B.alongside keeps) faults (fun _ _ => trivial) s t ties
  cases reader with
  | fields c =>
      rw [Reader.IsTied] at isTied
      refine isTied.shared.bind_same fun plans areMet => (opens rfl).bind_same fun container _ => ?_
      exact (readFields_tied faults answers container areMet []).bind_same fun values _ =>
        takes (fun w => w.construct? c values) fun s t ties => (makes s t ties c).construct? values
  | sequence item into =>
      have reads := (answers.sequence decoder item isTied).bind_same fun elements _ =>
        takes (fun w => w.gatherInto? into elements) fun s t ties =>
          (makes s t ties).gatherInto? into elements
      simp only [readSequence, Step.bind_bind] at reads
      exact reads
  | positions items =>
      exact (opens rfl).bind_same fun container _ =>
        (readPositions_tied faults answers container isTied).bind_same fun _ _ => .pure_same trivial
  | mapping value cls =>
      refine (opens rfl).bind_same fun container _ =>
        (answers.keys faults container).bind_same fun keys _ =>
          (readEntries_tied faults answers container isTied keys).bind_same fun _ _ =>
            .current_bind fun reached other ties => .pure ties ⟨?_, trivial⟩
      exact ((makes _ _ ties.2).mappingOf _ _).symm
  | nullable inner =>
      refine (opens rfl).bind_same fun container _ => ?_
      refine (answers.ask faults container (by simp [Request.form?])).bind_same fun reply _ => ?_
      split
      · exact .pure_same trivial
      · exact decodes container isTied
  | oneOf values =>
      refine (opens rfl).bind_same fun container _ =>
        (decodes container isTied).bind_same fun raw _ => ?_
      split
      · exact .pure_same trivial
      · exact .fail (faults _)
  | member c =>
      refine (opens rfl).bind_same fun container _ => .current_bind fun s t ties => ?_
      dsimp only
      rw [← (makes _ _ ties.2 c).memberClass]
      have isMet : met (.cls (t.2.world.memberClass c)) := isTied _ _ ties.2
      refine (decodes container isMet s t ties).bind_same fun raw reached other reachedTies _ => ?_
      refine .current_bind ?_
      rw [(makes _ _ reachedTies.2 c).memberOf?]
      split
      · exact .pure reachedTies ⟨rfl, trivial⟩
      · exact .fail reachedTies (faults _)
  | program maker body =>
      exact Program.run_tied_of_runAll makes faults maker decoder
        (Statement.runAll_tied faults answers delegates body isTied)

/-- Readers that delegate to each other read in the same way on surfaces that answer in
the same way. -/
theorem Reader.runTo_tied
    (makes : B.Makes)
    (faults : B.AllowsFaults)
    (answers : Surface.AnswersTied B met first second keeps)
    (closed : ∀ reader, reads reader → reader.IsTied B met reads)
    (depth : Nat)
    {reader : Reader}
    (isRead : reads reader)
    (decoder : Handle) :
    Tied (B.alongside keeps) (Same anything) (Reader.runTo first depth reader decoder)
      (Reader.runTo second depth reader decoder) := by
  induction depth generalizing reader decoder with
  | zero => exact .fail (faults _)
  | succ depth inductionHypothesis =>
      exact Reader.runWith_tied makes faults answers
        (fun other otherRead h => inductionHypothesis otherRead h) reader (closed reader isRead)
        decoder

end Running

end

end SchemaProbe

import SchemaProbe.Proofs.Lookups
import SchemaProbe.Proofs.Memo

namespace SchemaProbe

/-!
# Reading a type from both surfaces

On the recording surface a type asks for exactly what its layout requests, in
order, and what it leaves there is finished into the node that its layout makes
of the answers.  On the key-checking surface it learns nothing new but whether
it takes any key, which is so for mappings alone.
-/

/-! ## Requests -/

/-- Whether a request can be made on what a handle stands for. -/
def Request.IsOpenTo (h : Handle) (request : Request TypeForm String) : Prop :=
  request.isKnownTo h.role = true ∧ request.fits h.role = true ∧ request ≠ .path

section

variable {σ : Type} {surface : Surface σ} {h : Handle} {request : Request TypeForm String}
  {reply : Reply} {whole after : σ × Store}

/-- A step on the shared state runs as it does by itself. -/
theorem run_shared_of_ok
    {α : Type}
    {step : Step Store α}
    {a : α}
    {s reached : Store}
    (ran : step.run s = (.ok a, reached))
    (part : σ) :
    (Step.shared step).run (part, s) = (.ok a, part, reached) := by
  rw [Step.shared, Step.run_within, ran]

/-- What is not delegated is read directly. -/
theorem run_eq_runWith
    (surface : Surface σ)
    (reader : Reader)
    (decoder : Handle) :
    reader.run surface decoder =
      reader.runWith surface (Reader.runTo surface 255) decoder :=
  rfl

theorem ask_of_answer
    (isOpen : request.IsOpenTo h)
    (answered : (surface.answer h request).run whole = (.ok reply, after)) :
    (surface.ask h request).run whole = (.ok reply, after) := by
  obtain ⟨known, fits, notPath⟩ := isOpen
  have asks : surface.ask h request = surface.answer h request := by
    unfold Surface.ask
    rw [known, fits]
    cases request with
    | path => exact absurd rfl notPath
    | _ => rfl
  rw [asks, answered]

theorem value_of_answer
    {v : Value}
    (isOpen : request.IsOpenTo h)
    (answered : (surface.answer h request).run whole = (.ok (.value v), after)) :
    (surface.value h request).run whole = (.ok v, after) := by
  rw [Surface.value, Step.run_bind_of_ok (ask_of_answer isOpen answered)]
  rfl

theorem openHandle_of_answer
    {opened : Handle}
    (isOpen : request.IsOpenTo h)
    (answered : (surface.answer h request).run whole = (.ok (.handle opened), after)) :
    (surface.openHandle h request).run whole = (.ok opened, after) := by
  rw [Surface.openHandle, Step.run_bind_of_ok (ask_of_answer isOpen answered)]
  rfl

end

section

variable {s reached last : Store} {forms : List TypeForm} {allowed : Allowance}

/-! ## Checking keys -/

/-- What stands in for a type of the universe is always found, and finding it leaves no
trace where the type is known. -/
theorem placeholderOf_known
    {a : TypeForm}
    (ready : s.Ready forms allowed)
    (member : a ∈ forms)
    (known : s.Knows a) :
    ∃ value, (placeholderOf a).run s = (.ok value, s) := by
  cases accepted : a.hasCapabilities with
  | true =>
      obtain ⟨caps, found⟩ := Option.isSome_iff_exists.mp (known accepted)
      have attempted : (Step.attempt (lookup .current a)).run s = (.ok (.ok caps), s) := by
        rw [Step.run_attempt, Store.run_lookup_of_known (ready.covers.plain a member) found]
      rw [placeholderOf, Step.run_bind_of_ok attempted]
      simp only
      rw [Step.run_bind_of_ok (Step.run_current s)]
      split
      · exact ⟨_, rfl⟩
      · exact ⟨_, rfl⟩
  | false =>
      obtain ⟨f, ran, surface⟩ := lookup_fails ready member accepted
      have attempted : (Step.attempt (lookup .current a)).run s = (.ok (.error f), s) := by
        rw [Step.run_attempt, ran]
      rw [placeholderOf, Step.run_bind_of_ok attempted]
      simp only [surface, beq_self_eq_true, if_true]
      exact ⟨.null, rfl⟩

/-- The keyed container that is opened on the decoder of a type. -/
def Handle.keyed (path : Path) (slot : Nat) : Handle :=
  ⟨.keyed, path, [], slot⟩

/-- Fields of known types that are read from the key-checking surface leave no trace. -/
theorem readFields_keyChecker
    {plans : List FieldPlan}
    (ready : s.Ready forms allowed)
    (covered : ∀ request ∈ (Layout.record plans).requests, request ∈ forms)
    (known : ∀ request ∈ (Layout.record plans).requests, s.Knows request)
    (path : Path)
    (slot : Nat)
    (check : KeyCheck)
    (values : List (String × Value)) :
    ∃ found,
      (readFields (keyChecker placeholderOf) (.keyed path slot) plans values).run (check, s) =
        (.ok found, check, s) := by
  induction plans generalizing values with
  | nil => exact ⟨values, rfl⟩
  | cons plan rest inductionHypothesis =>
      have restRead := inductionHypothesis
        (fun request asked => covered request (List.mem_cons_of_mem _ asked))
        (fun request asked => known request (List.mem_cons_of_mem _ asked))
      have first := covered _ List.mem_cons_self
      have firstKnown := known _ List.mem_cons_self
      cases isOptional : plan.isOptional with
      | true =>
          have asked :
              ((keyChecker placeholderOf).value (.keyed path slot)
                (.decodeIfPresent plan.inner (some plan.key))).run (check, s) =
                (.ok .null, check, s) := by
            refine value_of_answer ⟨rfl, rfl, by simp⟩ ?_
            rfl
          rw [readFields, if_pos isOptional, Step.run_bind_of_ok asked]
          split
          · exact restRead values
          · exact restRead _
      | false =>
          simp only [isOptional, Bool.false_eq_true, if_false] at first firstKnown
          obtain ⟨value, found⟩ := placeholderOf_known ready first firstKnown
          have asked :
              ((keyChecker placeholderOf).value (.keyed path slot)
                (.decode plan.form (some plan.key))).run (check, s) =
                (.ok value, check, s) := by
            refine value_of_answer ⟨rfl, rfl, by simp⟩ ?_
            exact Step.run_bind_of_ok (run_shared_of_ok found check) _
          rw [readFields, isOptional, if_neg Bool.false_ne_true, Step.run_bind_of_ok asked]
          exact restRead _

/-- Finding the plans of a class settles classes and nothing else. -/
theorem decodingPlans_settles
    (s : Store)
    (c : ClassRef) :
    ∃ reached, s.SettlesTo reached ∧
      ((∃ plans, s.world.plansOf? c = some plans ∧
          (Step.inWorld (decodingPlans c)).run s = (.ok plans, reached)) ∨
        ∃ f, s.world.plansOf? c = none ∧
          (Step.inWorld (decodingPlans c)).run s = (.error (.fault f), reached)) := by
  obtain ⟨world, settles, outcomes⟩ := s.world.exists_run_decodingPlans c
  refine ⟨{ s with world := world }, ⟨settles, rfl, rfl⟩, ?_⟩
  rcases outcomes with ⟨plans, found, ran⟩ | ⟨f, unknown, ran⟩
  · exact .inl ⟨plans, found, by rw [Step.inWorld, Step.run_within, ran]⟩
  · exact .inr ⟨f, unknown, by rw [Step.inWorld, Step.run_within, ran]⟩

/-- A result or a fault is not the end of a bound. -/
theorem mapError_ne_exhausted
    {α : Type}
    (result : Except Fault α) :
    result.mapError Interrupt.fault ≠ .error .exhausted := by
  cases result <;> simp [Except.mapError]

/-- Reading fields of known types from the key-checking surface asks for no keys. -/
theorem fields_keyChecker
    {c : ClassRef}
    (ready : s.Ready forms allowed)
    (covered : ∀ plans, s.world.plansOf? c = some plans →
      ∀ request ∈ (Layout.record plans).requests, request ∈ forms)
    (known : ∀ plans, s.world.plansOf? c = some plans →
      ∀ request ∈ (Layout.record plans).requests, s.Knows request) :
    ∃ outcome reached,
      ((Reader.fields c).run (keyChecker placeholderOf) (Recorder.decoder [])).run (.start, s) =
          (outcome, .start, reached) ∧
        outcome ≠ .error .exhausted ∧ s.SettlesTo reached := by
  rw [run_eq_runWith]
  obtain ⟨settled, settles, outcomes⟩ := decodingPlans_settles s c
  rcases outcomes with ⟨plans, found, ran⟩ | ⟨f, _, ran⟩
  · have opened :
        ((keyChecker placeholderOf).openHandle (Recorder.decoder []) .openKeyed).run
            (KeyCheck.start, settled) =
          (.ok (.keyed [] 0), .start, settled) :=
      openHandle_of_answer ⟨rfl, rfl, by simp⟩ rfl
    obtain ⟨values, fieldsRan⟩ :=
      readFields_keyChecker (settles.learns ready).ready (covered plans found)
        (fun request asked => (known plans found request asked).of_settlesTo settles) [] 0 .start []
    refine ⟨_, settled, ?_, mapError_ne_exhausted (settled.world.construct? c values), settles⟩
    rw [Reader.runWith, Step.run_bind_of_ok (run_shared_of_ok ran KeyCheck.start),
      Step.run_bind_of_ok opened, Step.run_bind_of_ok fieldsRan,
      Step.run_bind_of_ok (Step.run_current _), Step.run_ofExcept]
  · refine ⟨.error (.fault f), settled, ?_, by simp, settles⟩
    rw [Reader.runWith]
    refine Step.run_bind_of_error ?_ _
    rw [Step.shared, Step.run_within, ran]

/-- Reading a mapping from the key-checking surface asks for all its keys, and
finds none. -/
theorem mapping_keyChecker
    (value : TypeForm)
    (cls : Option ClassRef)
    (s : Store) :
    ∃ result, ((Reader.mapping value cls).run (keyChecker placeholderOf) (Recorder.decoder [])).run
      (.start, s) = (.ok result, ⟨[[]], []⟩, s) :=
  ⟨_, rfl⟩

/-- Checking keys finds the containers that were asked for all their keys. -/
theorem checkKeys_of_run
    {reader : Reader}
    {outcome : Except Interrupt Value}
    {check : KeyCheck}
    (name : String)
    (ran : (reader.run (keyChecker placeholderOf) (Recorder.decoder [])).run (.start, s) =
      (outcome, check, reached))
    (bounded : outcome ≠ .error .exhausted) :
    ∃ events, (checkKeys name reader).run s =
      (.ok check.openPaths, { reached with events := events }) := by
  have beside :
      (Step.beside KeyCheck.start
        (reader.run (keyChecker placeholderOf) (Recorder.decoder []))).run s =
        (.ok (outcome, check), reached) := by
    unfold Step.beside
    simp only [ran]
  rw [checkKeys, Step.run_bind_of_ok beside]
  have noted (events : List Event) :
      ∃ later, (do
        if !check.openPaths.isEmpty then Step.note (.openKeys name check.openPaths)
        pure check.openPaths : Step Store (List Path)).run { reached with events := events } =
          (.ok check.openPaths, { reached with events := later }) := by
    cases check.openPaths.isEmpty with
    | true => exact ⟨events, rfl⟩
    | false => exact ⟨_, rfl⟩
  cases outcome with
  | ok value => exact noted reached.events
  | error interrupt =>
      cases interrupt with
      | fault f => exact noted _
      | exhausted => exact absurd rfl bounded

end

/-! ## Recording -/

/-- What came out of asking for type forms one after the other. -/
inductive Asked (nested : NestedProbe) : Store → List TypeForm → List Shape → Store → Prop
  | nil {s : Store} : Asked nested s [] [] s
  | cons {s between last : Store} {a : TypeForm} {rest : List TypeForm} {shape : Shape}
      {shapes : List Shape} {path : Path} {value : Value} :
      (nested a path).run s = (.ok (shape, value), between) →
      Asked nested between rest shapes last →
      Asked nested s (a :: rest) (shape :: shapes) last

/-- Whether everything that is asked for in a universe is answered, while an
invariant holds that finding things out does not break. -/
structure Responds
    (nested : NestedProbe)
    (forms : List TypeForm)
    (allowed : Allowance)
    (Holds : Store → Prop) :
    Prop where
  ready : ∀ s, Holds s → s.Ready forms allowed
  learns : ∀ s reached, Holds s → s.Learns reached forms allowed → Holds reached
  answers : ∀ a ∈ forms, ∀ path s, Holds s → ∃ shape value reached,
    (nested a path).run s = (.ok (shape, value), reached) ∧ Holds reached ∧ s.GrowsTo reached ∧
      reached.Knows a

/-- The fields that answers leave in a keyed container. -/
def recordedFields
    (plans : List FieldPlan)
    (shapes : List Shape)
    (fields : List (String × Option Item)) :
    List (String × Option Item) :=
  (plans.zip shapes).foldl
    (fun fields e =>
      Table.set fields e.1.key
        (some (.shape (if e.1.isOptional then e.2.optional true else e.2)))) fields

/-- What the answers to the requests of a layout leave on the recording
surface. -/
def Layout.trace : Layout → List Shape → Node
  | .record plans, shapes => .keyed (recordedFields plans shapes []) []
  | .mapping _, shapes => .keyed [("", shapes.head?.map .shape)] []
  | .sequence _, shapes | .tuple _, shapes => .unkeyed (shapes.map .shape) false
  | .nullable _, shapes => .single shapes.head? true
  | .scalar _ _, shapes => .single shapes.head? false
  | .unknown, _ => .decoder none

/-- Whether a layout opens a keyed container. -/
def Layout.isKeyed : Layout → Bool
  | .record _ | .mapping _ => true
  | _ => false

/-- The recording of a type that opened one container on its decoder. -/
def Recording.opened (n : Node) (sawKeyed : Bool) : Recording :=
  ⟨[.decoder (some 1), n], sawKeyed⟩

/-- What is recorded when a type with a layout has read itself. -/
def Layout.recording : Layout → List Shape → Recording
  | .unknown, _ => .start
  | layout, shapes => .opened (layout.trace shapes) layout.isKeyed

section

variable {nested : NestedProbe} {forms : List TypeForm} {allowed : Allowance}
  {Holds : Store → Prop} {s : Store}

/-- Fields that are read from the recording surface are asked for in order and
recorded under their keys. -/
theorem readFields_recorder
    (responds : Responds nested forms allowed Holds)
    {plans : List FieldPlan}
    (holds : Holds s)
    (covered : ∀ request ∈ (Layout.record plans).requests, request ∈ forms)
    (path : Path)
    (fields : List (String × Option Item))
    (values : List (String × Value)) :
    ∃ found shapes last,
      (readFields (recorder nested) (.keyed path 1) plans values).run
            (.opened (.keyed fields []) true, s) =
          (.ok found, .opened (.keyed (recordedFields plans shapes fields) []) true, last) ∧
        Asked nested s (Layout.record plans).requests shapes last ∧ Holds last := by
  induction plans generalizing s fields values with
  | nil => exact ⟨values, [], s, rfl, .nil, holds⟩
  | cons plan rest inductionHypothesis =>
      have restCovered : ∀ request ∈ (Layout.record rest).requests, request ∈ forms :=
        fun request asked => covered request (List.mem_cons_of_mem _ asked)
      obtain ⟨shape, value, between, answered, betweenHolds, _, _⟩ :=
        responds.answers _ (covered _ List.mem_cons_self) (path ++ [.key plan.key]) s holds
      cases isOptional : plan.isOptional with
      | true =>
          have asked :
              ((recorder nested).value (.keyed path 1)
                (.decodeIfPresent plan.inner (some plan.key))).run
                  (.opened (.keyed fields []) true, s) =
                (.ok .null, .opened (.keyed
                  (Table.set fields plan.key (some (.shape (shape.optional true)))) []) true,
                  between) := by
            simp only [isOptional, if_true] at answered
            refine value_of_answer ⟨rfl, rfl, by simp⟩ ?_
            exact Step.run_bind_of_ok (run_shared_of_ok answered _) _
          rw [readFields, if_pos isOptional, Step.run_bind_of_ok asked]
          have later (values : List (String × Value)) :=
            inductionHypothesis betweenHolds restCovered
              (Table.set fields plan.key (some (.shape (shape.optional true)))) values
          split
          · obtain ⟨found, shapes, last, ran, others, lastHolds⟩ := later values
            refine ⟨found, shape :: shapes, last, ?_, .cons answered others, lastHolds⟩
            rw [ran, recordedFields, recordedFields, List.zip_cons_cons, List.foldl_cons,
              if_pos isOptional]
          · obtain ⟨found, shapes, last, ran, others, lastHolds⟩ :=
              later (Table.set values plan.name .null)
            refine ⟨found, shape :: shapes, last, ?_, .cons answered others, lastHolds⟩
            rw [ran, recordedFields, recordedFields, List.zip_cons_cons, List.foldl_cons,
              if_pos isOptional]
      | false =>
          have asked :
              ((recorder nested).value (.keyed path 1)
                (.decode plan.form (some plan.key))).run
                  (.opened (.keyed fields []) true, s) =
                (.ok value, .opened (.keyed (Table.set fields plan.key (some (.shape shape))) [])
                  true, between) := by
            simp only [isOptional, Bool.false_eq_true, if_false] at answered
            refine value_of_answer ⟨rfl, rfl, by simp⟩ ?_
            exact Step.run_bind_of_ok (run_shared_of_ok answered _) _
          rw [readFields, isOptional, if_neg Bool.false_ne_true, Step.run_bind_of_ok asked]
          obtain ⟨found, shapes, last, ran, others, lastHolds⟩ :=
            inductionHypothesis betweenHolds restCovered
              (Table.set fields plan.key (some (.shape shape)))
              (Table.set values plan.name value)
          refine ⟨found, shape :: shapes, last, ?_, .cons answered others, lastHolds⟩
          rw [ran, recordedFields, recordedFields, List.zip_cons_cons, List.foldl_cons, isOptional,
            if_neg Bool.false_ne_true]

/-- The sequence that is opened on the decoder of a type. -/
def Handle.unkeyed (path : Path) : Handle :=
  ⟨.unkeyed, path, [], 1⟩

/-- The single-value container that is opened on the decoder of a type. -/
def Handle.single (path : Path) : Handle :=
  ⟨.single, path, [], 1⟩

/-- An element that is read from the recording surface is recorded last. -/
theorem decode_unkeyed
    {a : TypeForm}
    {path : Path}
    {items : List Item}
    {shape : Shape}
    {value : Value}
    {reached : Store}
    (answered : (nested a (path ++ [.index items.length])).run s = (.ok (shape, value), reached)) :
    ((recorder nested).value (.unkeyed path) (.decode a none)).run
        (.opened (.unkeyed items false) false, s) =
      (.ok value, .opened (.unkeyed (items ++ [.shape shape]) false) false, reached) := by
  refine value_of_answer ⟨rfl, rfl, by simp⟩ ?_
  exact Step.run_bind_of_ok (run_shared_of_ok answered _) _

/-- The value of a single-value container is recorded. -/
theorem decode_single
    {a : TypeForm}
    {path : Path}
    {shape : Shape}
    {value : Value}
    {reached : Store}
    (answered : (nested a path).run s = (.ok (shape, value), reached))
    (before : Option Shape)
    (isOptional : Bool) :
    ((recorder nested).value (.single path) (.decode a none)).run
        (.opened (.single before isOptional) false, s) =
      (.ok value, .opened (.single (some shape) isOptional) false, reached) := by
  refine value_of_answer ⟨rfl, rfl, by simp⟩ ?_
  exact Step.run_bind_of_ok (run_shared_of_ok answered _) _

/-- Positions that are read from the recording surface are asked for and recorded
in order. -/
theorem readPositions_recorder
    (responds : Responds nested forms allowed Holds)
    {positions : List TypeForm}
    (holds : Holds s)
    (covered : ∀ request ∈ positions, request ∈ forms)
    (path : Path)
    (items : List Item) :
    ∃ values shapes last,
      (readPositions (recorder nested) (.unkeyed path) positions).run
            (.opened (.unkeyed items false) false, s) =
          (.ok values, .opened (.unkeyed (items ++ shapes.map .shape) false) false, last) ∧
        Asked nested s positions shapes last ∧ Holds last := by
  induction positions generalizing s items with
  | nil => exact ⟨[], [], s, by simp [readPositions], .nil, holds⟩
  | cons position rest inductionHypothesis =>
      obtain ⟨shape, value, between, answered, betweenHolds, _, _⟩ :=
        responds.answers _ (covered _ List.mem_cons_self) (path ++ [.index items.length]) s holds
      obtain ⟨values, shapes, last, ran, others, lastHolds⟩ :=
        inductionHypothesis betweenHolds (fun request asked =>
          covered request (List.mem_cons_of_mem _ asked)) (items ++ [.shape shape])
      refine ⟨value :: values, shape :: shapes, last, ?_, .cons answered others, lastHolds⟩
      rw [readPositions, Step.run_bind_of_ok (decode_unkeyed answered), Step.run_bind_of_ok ran,
        List.append_assoc]
      rfl

/-- A sequence that is read from the recording surface is asked for one
element. -/
theorem readElements_recorder
    (responds : Responds nested forms allowed Holds)
    {item : TypeForm}
    (holds : Holds s)
    (covered : item ∈ forms)
    (path : Path) :
    ∃ values shape last,
      (readElements (recorder nested) (.unkeyed path) item 2).run
            (.opened (.unkeyed [] false) false, s) =
          (.ok values, .opened (.unkeyed [.shape shape] false) false, last) ∧
        Asked nested s [item] [shape] last ∧ Holds last := by
  obtain ⟨shape, value, last, answered, lastHolds, _, _⟩ :=
    responds.answers item covered (path ++ [.index 0]) s holds
  have notAtEnd (s : Store) :
      ((recorder nested).isAtEnd (.unkeyed path)).run (.opened (.unkeyed [] false) false, s) =
        (.ok false, .opened (.unkeyed [] false) false, s) :=
    rfl
  have atEnd (s : Store) :
      ((recorder nested).isAtEnd (.unkeyed path)).run
          (.opened (.unkeyed [.shape shape] false) false, s) =
        (.ok true, .opened (.unkeyed [.shape shape] false) false, s) :=
    rfl
  refine ⟨[value], shape, last, ?_, .cons answered .nil, lastHolds⟩
  have ended :
      (readElements (recorder nested) (.unkeyed path) item 1).run
          (.opened (.unkeyed [.shape shape] false) false, last) =
        (.ok [], .opened (.unkeyed [.shape shape] false) false, last) := by
    rw [readElements, Step.run_bind_of_ok (atEnd last)]
    rfl
  rw [readElements, Step.run_bind_of_ok (notAtEnd s), if_neg Bool.false_ne_true,
    Step.run_bind_of_ok (decode_unkeyed answered), List.nil_append, Step.run_bind_of_ok ended]
  rfl

/-- Whether reading a type from the recording surface asks for what a layout
requests, and records the answers. -/
def ReadsAs
    (nested : NestedProbe)
    (Holds : Store → Prop)
    (s : Store)
    (layout : Layout)
    (reading : Step (Recording × Store) Value) :
    Prop :=
  ∃ outcome between shapes last,
    reading.run (.start, s) = (outcome, layout.recording shapes, last) ∧
      outcome ≠ .error .exhausted ∧ s.SettlesTo between ∧
      Asked nested between layout.requests shapes last ∧ Holds last

theorem fields_readsAs
    {c : ClassRef}
    {caps : Capabilities}
    (responds : Responds nested forms allowed Holds)
    (holds : Holds s)
    (covered : ∀ request ∈ (s.layout caps (.fields c)).requests, request ∈ forms)
    (path : Path) :
    ReadsAs nested Holds s (s.layout caps (.fields c))
      ((Reader.fields c).run (recorder nested) (Recorder.decoder path)) := by
  obtain ⟨settled, settles, outcomes⟩ := decodingPlans_settles s c
  have settledHolds := responds.learns s settled holds (settles.learns (responds.ready s holds))
  rw [run_eq_runWith, Store.layout] at *
  rcases outcomes with ⟨plans, found, ran⟩ | ⟨f, unknown, ran⟩
  · simp only [found] at covered ⊢
    have opened :
        ((recorder nested).openHandle (Recorder.decoder path) .openKeyed).run
            (Recording.start, settled) =
          (.ok (.keyed path 1), .opened (.keyed [] []) true, settled) :=
      openHandle_of_answer ⟨rfl, rfl, by simp⟩ rfl
    obtain ⟨values, shapes, last, fieldsRan, asked, lastHolds⟩ :=
      readFields_recorder responds settledHolds covered path [] []
    refine ⟨_, settled, shapes, last, ?_, mapError_ne_exhausted (last.world.construct? c values),
      settles, asked, lastHolds⟩
    rw [Reader.runWith, Step.run_bind_of_ok (run_shared_of_ok ran Recording.start),
      Step.run_bind_of_ok opened, Step.run_bind_of_ok fieldsRan,
      Step.run_bind_of_ok (Step.run_current _), Step.run_ofExcept]
    rfl
  · simp only [unknown]
    refine ⟨.error (.fault f), settled, [], settled, ?_, by simp, settles, .nil, settledHolds⟩
    rw [Reader.runWith]
    refine Step.run_bind_of_error ?_ _
    rw [Step.shared, Step.run_within, ran]
    rfl

theorem sequence_readsAs
    {item : TypeForm}
    (responds : Responds nested forms allowed Holds)
    (holds : Holds s)
    (covered : item ∈ forms)
    (into : Gathering)
    (path : Path) :
    ReadsAs nested Holds s (.sequence item)
      ((Reader.sequence item into).run (recorder nested) (Recorder.decoder path)) := by
  have opened :
      ((recorder nested).openHandle (Recorder.decoder path) .openUnkeyed).run
          (Recording.start, s) =
        (.ok (.unkeyed path), .opened (.unkeyed [] false) false, s) :=
    openHandle_of_answer ⟨rfl, rfl, by simp⟩ rfl
  have counted :
      ((recorder nested).count (.unkeyed path)).run (.opened (.unkeyed [] false) false, s) =
        (.ok 1, .opened (.unkeyed [] false) false, s) :=
    rfl
  obtain ⟨values, shape, last, elementsRan, asked, lastHolds⟩ :=
    readElements_recorder responds holds covered path
  refine ⟨_, s, [shape], last, ?_, mapError_ne_exhausted (last.world.gatherInto? into values),
    .refl s, asked, lastHolds⟩
  rw [run_eq_runWith, Reader.runWith, Step.run_bind_of_ok opened, Step.run_bind_of_ok counted,
    Step.run_bind_of_ok elementsRan, Step.run_bind_of_ok (Step.run_current _), Step.run_ofExcept]
  rfl

theorem positions_readsAs
    {items : List TypeForm}
    (responds : Responds nested forms allowed Holds)
    (holds : Holds s)
    (covered : ∀ request ∈ items, request ∈ forms)
    (path : Path) :
    ReadsAs nested Holds s (.tuple items)
      ((Reader.positions items).run (recorder nested) (Recorder.decoder path)) := by
  have opened :
      ((recorder nested).openHandle (Recorder.decoder path) .openUnkeyed).run
          (Recording.start, s) =
        (.ok (.unkeyed path), .opened (.unkeyed [] false) false, s) :=
    openHandle_of_answer ⟨rfl, rfl, by simp⟩ rfl
  obtain ⟨values, shapes, last, positionsRan, asked, lastHolds⟩ :=
    readPositions_recorder responds holds covered path []
  refine ⟨.ok (.tuple values), s, shapes, last, ?_, by simp, .refl s, asked,
    lastHolds⟩
  rw [run_eq_runWith, Reader.runWith, Step.run_bind_of_ok opened,
    Step.run_bind_of_ok positionsRan]
  rfl

theorem mapping_readsAs
    {value : TypeForm}
    (responds : Responds nested forms allowed Holds)
    (holds : Holds s)
    (covered : value ∈ forms)
    (cls : Option ClassRef)
    (path : Path) :
    ReadsAs nested Holds s (.mapping value)
      ((Reader.mapping value cls).run (recorder nested) (Recorder.decoder path)) := by
  have opened :
      ((recorder nested).openHandle (Recorder.decoder path) .openKeyed).run
          (Recording.start, s) =
        (.ok (.keyed path 1), .opened (.keyed [] []) true, s) :=
    openHandle_of_answer ⟨rfl, rfl, by simp⟩ rfl
  have keyed :
      ((recorder nested).keys (.keyed path 1)).run (.opened (.keyed [] []) true, s) =
        (.ok [.text ""], .opened (.keyed [] []) true, s) :=
    rfl
  obtain ⟨shape, v, last, answered, lastHolds, _, _⟩ :=
    responds.answers value covered (path ++ [.key ""]) s holds
  have asked :
      ((recorder nested).value (.keyed path 1) (.decode value (some ""))).run
          (.opened (.keyed [] []) true, s) =
        (.ok v, .opened (.keyed [("", some (.shape shape))] []) true, last) := by
    refine value_of_answer ⟨rfl, rfl, by simp⟩ ?_
    exact Step.run_bind_of_ok (run_shared_of_ok answered _) _
  have entries :
      (readEntries (recorder nested) (.keyed path 1) value [.text ""]).run
          (.opened (.keyed [] []) true, s) =
        (.ok [(.text "", v)], .opened (.keyed [("", some (.shape shape))] []) true, last) := by
    rw [readEntries]
    exact Step.run_bind_of_ok asked _
  refine ⟨.ok (last.world.mappingOf cls (Value.entriesOf [(.text "", v)])), s, [shape], last, ?_,
    by simp, .refl s, .cons answered .nil, lastHolds⟩
  rw [run_eq_runWith, Reader.runWith, Step.run_bind_of_ok opened, Step.run_bind_of_ok keyed,
    Step.run_bind_of_ok entries]
  rfl

theorem nullable_readsAs
    {inner : TypeForm}
    (responds : Responds nested forms allowed Holds)
    (holds : Holds s)
    (covered : inner ∈ forms)
    (path : Path) :
    ReadsAs nested Holds s (.nullable inner)
      ((Reader.nullable inner).run (recorder nested) (Recorder.decoder path)) := by
  have opened :
      ((recorder nested).openHandle (Recorder.decoder path) .openSingle).run
          (Recording.start, s) =
        (.ok (.single path), .opened (.single none false) false, s) :=
    openHandle_of_answer ⟨rfl, rfl, by simp⟩ rfl
  have notNull :
      ((recorder nested).ask (.single path) (.decodeNull none)).run
          (.opened (.single none false) false, s) =
        (.ok (.ofBool false), .opened (.single none true) false, s) :=
    ask_of_answer ⟨rfl, rfl, by simp⟩ rfl
  obtain ⟨shape, value, last, answered, lastHolds, _, _⟩ :=
    responds.answers inner covered path s holds
  refine ⟨.ok value, s, [shape], last, ?_, by simp, .refl s,
    .cons answered .nil, lastHolds⟩
  rw [run_eq_runWith, Reader.runWith, Step.run_bind_of_ok opened, Step.run_bind_of_ok notNull]
  exact decode_single answered none true

/-- A type with cases asks for the value of one, and takes it or not. -/
theorem scalar_readsAs
    {c : ClassRef}
    {reader : Reader}
    (responds : Responds nested forms allowed Holds)
    (holds : Holds s)
    (covered : .cls c ∈ forms)
    (cases : List Value)
    (path : Path)
    (chooses : ∀ shape raw last,
      (nested (.cls c) path).run s = (.ok (shape, raw), last) →
      ∃ result : Except Fault Value,
        (reader.run (recorder nested) (Recorder.decoder path)).run (.start, s) =
          (result.mapError .fault, .opened (.single (some shape) false) false, last)) :
    ReadsAs nested Holds s (.scalar (.cls c) cases)
      (reader.run (recorder nested) (Recorder.decoder path)) := by
  obtain ⟨shape, raw, last, answered, lastHolds, _, _⟩ := responds.answers _ covered path s holds
  obtain ⟨result, ran⟩ := chooses shape raw last answered
  exact ⟨_, s, [shape], last, ran, mapError_ne_exhausted result, .refl s,
    .cons answered .nil, lastHolds⟩

theorem oneOf_readsAs
    {values : List Value}
    (responds : Responds nested forms allowed Holds)
    (holds : Holds s)
    (covered : .cls ((values.head?.map Value.classOf).getD (.builtin .str)) ∈ forms)
    (cases : List Value)
    (path : Path) :
    ReadsAs nested Holds s
      (.scalar (.cls ((values.head?.map Value.classOf).getD (.builtin .str))) cases)
      ((Reader.oneOf values).run (recorder nested) (Recorder.decoder path)) := by
  have opened :
      ((recorder nested).openHandle (Recorder.decoder path) .openSingle).run
          (Recording.start, s) =
        (.ok (.single path), .opened (.single none false) false, s) :=
    openHandle_of_answer ⟨rfl, rfl, by simp⟩ rfl
  refine scalar_readsAs responds holds covered cases path ?_
  intro shape raw last answered
  rw [run_eq_runWith, Reader.runWith, Step.run_bind_of_ok opened,
    Step.run_bind_of_ok (decode_single answered none false)]
  by_cases isOption : values.any raw.equals = true
  · rw [if_pos isOption]
    exact ⟨.ok raw, rfl⟩
  · rw [if_neg isOption]
    exact ⟨.error _, rfl⟩

theorem member_readsAs
    {c : ClassRef}
    (responds : Responds nested forms allowed Holds)
    (holds : Holds s)
    (covered : .cls (s.world.memberClass c) ∈ forms)
    (cases : List Value)
    (path : Path) :
    ReadsAs nested Holds s (.scalar (.cls (s.world.memberClass c)) cases)
      ((Reader.member c).run (recorder nested) (Recorder.decoder path)) := by
  have opened :
      ((recorder nested).openHandle (Recorder.decoder path) .openSingle).run
          (Recording.start, s) =
        (.ok (.single path), .opened (.single none false) false, s) :=
    openHandle_of_answer ⟨rfl, rfl, by simp⟩ rfl
  refine scalar_readsAs responds holds covered cases path ?_
  intro shape raw last answered
  rw [run_eq_runWith, Reader.runWith, Step.run_bind_of_ok opened,
    Step.run_bind_of_ok (Step.run_current _),
    Step.run_bind_of_ok (decode_single answered none false),
    Step.run_bind_of_ok (Step.run_current _)]
  simp only
  cases last.world.memberOf? c raw with
  | some found => exact ⟨.ok found, rfl⟩
  | none => exact ⟨.error _, rfl⟩

/-- However a type is read that is not decoded by a program, it asks for what its
layout requests and records the answers. -/
theorem reader_readsAs
    {reader : Reader}
    {caps : Capabilities}
    (responds : Responds nested forms allowed Holds)
    (holds : Holds s)
    (covered : ∀ request ∈ (s.layout caps reader).requests, request ∈ forms)
    (noProgram : ∀ maker body, reader ≠ .program maker body)
    (path : Path) :
    ReadsAs nested Holds s (s.layout caps reader)
      (reader.run (recorder nested) (Recorder.decoder path)) := by
  cases reader with
  | fields c => exact fields_readsAs responds holds covered path
  | sequence item into =>
      exact sequence_readsAs responds holds (covered item List.mem_cons_self) into path
  | positions items => exact positions_readsAs responds holds covered path
  | mapping value cls =>
      exact mapping_readsAs responds holds (covered value List.mem_cons_self) cls path
  | nullable inner =>
      exact nullable_readsAs responds holds (covered inner List.mem_cons_self) path
  | oneOf values =>
      exact oneOf_readsAs responds holds (covered _ List.mem_cons_self) _ path
  | member c => exact member_readsAs responds holds (covered _ List.mem_cons_self) _ path
  | program maker body => exact absurd rfl (noProgram maker body)

end

/-! ## Finishing -/

/-- What holds before asking holds afterwards, and what was asked for is known. -/
theorem Asked.holds
    {nested : NestedProbe}
    {forms : List TypeForm}
    {allowed : Allowance}
    {Holds : Store → Prop}
    {s last : Store}
    {requests : List TypeForm}
    {shapes : List Shape}
    (asked : Asked nested s requests shapes last)
    (responds : Responds nested forms allowed Holds)
    (covered : ∀ request ∈ requests, request ∈ forms)
    (holds : Holds s) :
    Holds last ∧ s.GrowsTo last ∧ ∀ request ∈ requests, last.Knows request := by
  induction asked with
  | nil => exact ⟨holds, .refl _, nofun⟩
  | cons ran _ inductionHypothesis =>
      rename_i path value _
      obtain ⟨shape, _, reached, answered, reachedHolds, grows, known⟩ :=
        responds.answers _ (covered _ List.mem_cons_self) path _ holds
      obtain ⟨_, rfl⟩ := Prod.mk.inj (answered.symm.trans ran)
      obtain ⟨lastHolds, growsLater, laterKnown⟩ :=
        inductionHypothesis (fun request later => covered request (List.mem_cons_of_mem _ later))
          reachedHolds
      refine ⟨lastHolds, grows.trans growsLater, fun request asked => ?_⟩
      rcases List.mem_cons.mp asked with rfl | later
      · exact known.of_growsTo growsLater
      · exact laterKnown request later

theorem Asked.length_eq
    {nested : NestedProbe}
    {s last : Store}
    {requests : List TypeForm}
    {shapes : List Shape}
    (asked : Asked nested s requests shapes last) :
    shapes.length = requests.length := by
  induction asked with
  | nil => rfl
  | cons _ _ inductionHypothesis => simp [inductionHypothesis]

/-- The keyed containers of a layout that take any key. -/
def Layout.openPaths : Layout → List Path
  | .mapping _ => [[]]
  | _ => []

/-- Setting a key and changing what belongs to keys can be done in either
order. -/
theorem Table.map_set
    {κ α β : Type}
    [BEq κ]
    (f : κ → α → β)
    (table : List (κ × α))
    (key : κ)
    (a : α) :
    (Table.set table key a).map (fun e => (e.1, f e.1 e.2)) =
      Table.set (table.map fun e => (e.1, f e.1 e.2)) key (f key a) := by
  unfold Table.set
  rw [List.any_map, Function.comp_def]
  split
  · rw [List.map_map, List.map_map]
    refine List.map_congr_left fun e _ => ?_
    simp only [Function.comp_apply]
    split <;> rfl
  · rw [List.map_append]
    rfl

/-- The fields of a recording are finished into those that answers give. -/
theorem map_recordedFields
    (finish : String → Option Item → Shape)
    (finishes : ∀ key s, finish key (some (.shape s)) = s)
    (plans : List FieldPlan)
    (shapes : List Shape)
    (fields : List (String × Option Item)) :
    (recordedFields plans shapes fields).map (fun e => (e.1, finish e.1 e.2)) =
      (plans.zip shapes).foldl
        (fun fields e =>
          Table.set fields e.1.key (if e.1.isOptional then e.2.optional true else e.2))
        (fields.map fun e => (e.1, finish e.1 e.2)) := by
  unfold recordedFields
  induction plans.zip shapes generalizing fields with
  | nil => rfl
  | cons e rest inductionHypothesis =>
      rw [List.foldl_cons, List.foldl_cons, inductionHypothesis]
      have set := Table.map_set finish fields e.1.key
        (some (.shape (if e.1.isOptional then e.2.optional true else e.2)))
      rw [set, finishes]

/-- A type with cases is a scalar of the kind of the value that was read. -/
theorem withCases_wrapped
    (type : TypeForm)
    (cases : List Value)
    (s : Shape) :
    (Recording.wrapped (some type) (some s) false).withCases type cases =
      .single ⟨some type, s.isOptional, some cases⟩ (Layout.scalarKind cases [s]) := by
  unfold Recording.wrapped
  simp only [Option.getD_some, Bool.false_eq_true, if_false]
  split
  · cases s <;> rfl
  · cases s <;> rfl

/-- What was recorded is finished into the node that a layout makes of the
answers. -/
theorem finish_recording
    {s : Store}
    {caps : Capabilities}
    {reader : Reader}
    {allowed : Allowance}
    {shapes : List Shape}
    (fits : reader.Fits caps allowed)
    (noProgram : ∀ maker body, reader ≠ .program maker body)
    (complete : shapes.length = (s.layout caps reader).requests.length) :
    (match caps.cases with
      | some cases =>
        (((s.layout caps reader).recording shapes).finish (some caps.type)
          (s.layout caps reader).openPaths).withCases caps.type cases
      | none =>
        ((s.layout caps reader).recording shapes).finish (some caps.type)
          (s.layout caps reader).openPaths) =
      (s.layout caps reader).recorded caps.type shapes := by
  have single (request : TypeForm) (one : shapes.length = [request].length) :
      ∃ shape, shapes = [shape] :=
    List.length_eq_one_iff.mp one
  cases reader with
  | fields c =>
      rw [fits.2]
      simp only [Store.layout] at complete ⊢
      cases s.world.plansOf? c with
      | none => rfl
      | some plans =>
          have finished := map_recordedFields
            (fun key item => Recording.finishItem
              (.opened (.keyed (recordedFields plans shapes []) []) true)
              (Layout.openPaths (.record plans)).contains 2 item ([] ++ [.key key]))
            (fun _ _ => rfl) plans shapes []
          exact congrArg (Shape.keyed (.of (some caps.type)) true) finished
  | sequence item into =>
      rw [fits.2]
      obtain ⟨shape, rfl⟩ := single item complete
      rfl
  | positions items =>
      rw [fits.2]
      have elements : (shapes.map fun s => Item.shape s).map
          (fun item => Recording.finishItem (.opened (.unkeyed (shapes.map .shape) false) false)
            (Layout.openPaths (.tuple items)).contains 2 (some item) ([] ++ [.index 0])) = shapes := by
        rw [List.map_map]
        exact List.map_id shapes
      exact congrArg (fun found => Shape.unkeyed (.of (some caps.type))
        (Recording.commonElement found)) elements
  | mapping value cls =>
      rw [fits.2]
      obtain ⟨shape, rfl⟩ := single value complete
      rfl
  | nullable inner =>
      obtain ⟨noCases, isNullable⟩ := fits
      obtain ⟨shape, rfl⟩ := single inner complete
      have noClass : Recording.isClass caps.type = false := by
        cases typeCase : caps.type with
        | cls c =>
            rw [typeCase] at isNullable
            cases isNullable
        | any =>
            rw [typeCase] at isNullable
            cases isNullable
        | _ => rfl
      have unstamped : Recording.wrapped (some caps.type) (some shape) true = shape.optional true := by
        simp [Recording.wrapped, noClass]
      rw [noCases]
      exact unstamped
  | oneOf values =>
      obtain ⟨_, cases, hasCases, _⟩ := fits
      simp only [Store.layout] at complete ⊢
      obtain ⟨shape, rfl⟩ := single _ complete
      rw [hasCases]
      exact withCases_wrapped caps.type cases shape
  | member c =>
      obtain ⟨_, cases, hasCases, _⟩ := fits
      simp only [Store.layout] at complete ⊢
      obtain ⟨shape, rfl⟩ := single _ complete
      rw [hasCases]
      exact withCases_wrapped caps.type cases shape
  | program maker body => exact absurd rfl (noProgram maker body)

section

variable {nested : NestedProbe} {forms : List TypeForm} {allowed : Allowance}
  {Holds : Store → Prop} {s : Store}

/-- Checking the keys of a type whose requests are known learns nothing and finds the
containers of its layout that take any key. -/
theorem checkKeys_settles
    {caps : Capabilities}
    {reader : Reader}
    (ready : s.Ready forms allowed)
    (covered : ∀ request ∈ (s.layout caps reader).requests, request ∈ forms)
    (known : ∀ request ∈ (s.layout caps reader).requests, s.Knows request)
    (isKeyed : (s.layout caps reader).isKeyed = true)
    (name : String) :
    ∃ reached, (checkKeys name reader).run s =
        (.ok (s.layout caps reader).openPaths, reached) ∧
      s.SettlesTo reached := by
  cases reader with
  | fields c =>
      have plansCovered : ∀ plans, s.world.plansOf? c = some plans →
          ∀ request ∈ (Layout.record plans).requests, request ∈ forms := by
        intro plans found
        simpa only [Store.layout, found] using covered
      have plansKnown : ∀ plans, s.world.plansOf? c = some plans →
          ∀ request ∈ (Layout.record plans).requests, s.Knows request := by
        intro plans found
        simpa only [Store.layout, found] using known
      obtain ⟨outcome, reached, ran, bounded, settles⟩ :=
        fields_keyChecker ready plansCovered plansKnown
      obtain ⟨events, checked⟩ := checkKeys_of_run name ran bounded
      have noOpen : (s.layout caps (.fields c)).openPaths = [] := by
        rw [Store.layout]
        cases s.world.plansOf? c <;> rfl
      rw [noOpen]
      exact ⟨_, checked, settles.trans (.note reached events)⟩
  | mapping value cls =>
      obtain ⟨result, ran⟩ := mapping_keyChecker value cls s
      obtain ⟨events, checked⟩ := checkKeys_of_run name ran (by simp)
      exact ⟨_, checked, .note s events⟩
  | sequence item into => cases isKeyed
  | positions items => cases isKeyed
  | nullable inner => cases isKeyed
  | oneOf values => cases isKeyed
  | member c => cases isKeyed
  | program maker body => cases isKeyed

theorem sawKeyed_recording
    (layout : Layout)
    (shapes : List Shape) :
    (layout.recording shapes).sawKeyed = layout.isKeyed := by
  cases layout <;> rfl

theorem openPaths_of_not_isKeyed
    {layout : Layout}
    (notKeyed : layout.isKeyed = false) :
    layout.openPaths = [] := by
  cases layout <;> first | rfl | cases notKeyed

/-- What a probe makes of a recording. -/
def concludeReading
    (caps : Capabilities)
    (reader : Reader)
    (recording : Recording)
    (value : Value) :
    Step Store (Shape × Value) := do
  let openPaths ←
    (if recording.sawKeyed then checkKeys caps.name reader else pure [] : Step Store (List Path))
  let shape := recording.finish (some caps.type) openPaths
  match caps.cases with
  | some cases => pure (shape.withCases caps.type cases, value)
  | none => pure (shape, value)

/-- The two passes of a probe, one after the other. -/
theorem probeReading_eq
    (caps : Capabilities)
    (reader : Reader)
    (path : Path) :
    probeReading nested caps reader path = (do
      let found ←
        Step.beside Recording.start (reader.run (recorder nested) (Recorder.decoder path))
      match found.1 with
      | .ok value => concludeReading caps reader found.2 value
      | .error (.fault f) => do
        Step.note (.failed caps.name path f)
        concludeReading caps reader found.2 caps.placeholder
      | .error .exhausted => Step.exhausted) := by
  refine congrArg _ (funext fun found => ?_)
  obtain ⟨outcome, recording⟩ := found
  have concludes (value : Value) :
      (if recording.sawKeyed then
          checkKeys caps.name reader >>= fun openPaths =>
            match caps.cases with
            | some cases =>
              pure ((recording.finish (some caps.type) openPaths).withCases caps.type cases, value)
            | none => pure (recording.finish (some caps.type) openPaths, value)
        else
          pure [] >>= fun openPaths =>
            match caps.cases with
            | some cases =>
              pure ((recording.finish (some caps.type) openPaths).withCases caps.type cases, value)
            | none => pure (recording.finish (some caps.type) openPaths, value)) =
        concludeReading caps reader recording value := by
    unfold concludeReading
    split <;> rfl
  cases outcome with
  | ok value => exact concludes value
  | error interrupt =>
      cases interrupt with
      | fault f =>
          exact congrArg (fun next => Step.note (.failed caps.name path f) >>= next)
            (funext fun _ : Unit => concludes caps.placeholder)
      | exhausted => rfl

/-- Both passes together ask for what the layout of a type requests and give the
node that it makes of the answers. -/
theorem probeReading_recorded
    {key : Key}
    {caps : Capabilities}
    {reader : Reader}
    (responds : Responds nested forms allowed Holds)
    (holds : Holds s)
    (sound : caps.Sound s forms allowed key)
    (isNone : caps.kind = none)
    (probed : caps.bypassesProbe = false)
    (reads : caps.reader = some reader)
    (noProgram : ∀ maker body, reader ≠ .program maker body)
    (path : Path) :
    ∃ value between shapes last reached,
      (probeReading nested caps reader path).run s =
          (.ok ((s.layout caps reader).recorded caps.type shapes, value), reached) ∧
        s.SettlesTo between ∧
        Asked nested between (s.layout caps reader).requests shapes last ∧
        last.SettlesTo reached := by
  have covered := sound.closed reader isNone probed reads
  obtain ⟨outcome, between, shapes, last, ran, bounded, settles, asked, lastHolds⟩ :=
    reader_readsAs responds holds covered noProgram path
  have learns := settles.learns (responds.ready s holds)
  obtain ⟨-, growsAsking, known⟩ :=
    asked.holds responds covered (responds.learns s between holds learns)
  have grows : s.GrowsTo last := learns.grows.trans growsAsking
  have finished := finish_recording (sound.fits reader isNone probed reads) noProgram
    asked.length_eq
  have beside :
      (Step.beside Recording.start (reader.run (recorder nested) (Recorder.decoder path))).run s =
        (.ok (outcome, (s.layout caps reader).recording shapes), last) := by
    unfold Step.beside
    simp only [ran]
  have ready := responds.ready last lastHolds
  -- A fault of the reading is noted, and what was recorded before it counts.
  have concluded (value : Value) (noted : Store) (notedSettles : last.SettlesTo noted) :
      ∃ reached,
        (concludeReading caps reader ((s.layout caps reader).recording shapes) value).run noted =
            (.ok ((s.layout caps reader).recorded caps.type shapes, value), reached) ∧
          last.SettlesTo reached := by
    have notedLearns := notedSettles.learns ready
    have layoutAfter : noted.layout caps reader = s.layout caps reader :=
      Store.layout_congr (grows.trans notedLearns.grows).reading caps reader
    obtain ⟨reached, openRan, openSettles⟩ :
        ∃ reached,
          (if ((s.layout caps reader).recording shapes).sawKeyed then checkKeys caps.name reader
            else pure [] : Step Store (List Path)).run noted =
              (.ok (s.layout caps reader).openPaths, reached) ∧
            noted.SettlesTo reached := by
      rw [sawKeyed_recording, ← layoutAfter]
      cases isKeyed : (noted.layout caps reader).isKeyed with
      | true =>
          rw [if_pos rfl]
          refine checkKeys_settles notedLearns.ready (by rw [layoutAfter]; exact covered) ?_ isKeyed _
          rw [layoutAfter]
          exact fun request asked => (known request asked).of_settlesTo notedSettles
      | false =>
          rw [if_neg Bool.false_ne_true, openPaths_of_not_isKeyed isKeyed]
          exact ⟨noted, rfl, .refl noted⟩
    refine ⟨reached, ?_, notedSettles.trans openSettles⟩
    rw [← finished, concludeReading, Step.run_bind_of_ok openRan]
    cases caps.cases <;> rfl
  cases outcome with
  | ok value =>
      obtain ⟨reached, ran, settlesLater⟩ := concluded value last (.refl last)
      refine ⟨value, between, shapes, last, reached, ?_, settles, asked, settlesLater⟩
      rw [probeReading_eq, Step.run_bind_of_ok beside]
      exact ran
  | error interrupt =>
      cases interrupt with
      | fault f =>
          obtain ⟨reached, ran, settlesLater⟩ :=
            concluded caps.placeholder _ (.note last _)
          refine ⟨caps.placeholder, between, shapes, last, reached, ?_, settles, asked,
            settlesLater⟩
          rw [probeReading_eq, Step.run_bind_of_ok beside]
          exact ran
      | exhausted => exact absurd rfl bounded

end

end SchemaProbe

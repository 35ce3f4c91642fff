import Mathlib
import SchemaProbe.Proofs.Containing
import SchemaProbe.Proofs.Passes
import SchemaProbe.Proofs.Surfaces
import SchemaProbe.Proofs.Wrappers

namespace SchemaProbe

/-!
# The two passes run in lockstep

A program whose keys are literal, that neither loops over keys nor delegates, and
that tests no value that it read, leaves the same marks on the recording surface
and on the key-checking surface, and ends at the same statement in the same way.
So what the second pass finds open is what the first pass was asked for.
-/

open Step

/-! ## Programs in step -/

/-- Whether a program has come equally far on both surfaces: its variables stand for
the same things, and but for unsteady ones hold the same. -/
structure InStep
    (start : World)
    (unsteady : List String)
    (s : Frame Recording × Store)
    (t : Frame KeyCheck × Store) :
    Prop where
  bindings : ∀ name, Option.Rel (Reply.Matches s.1.surface) (s.1.bindings.lookup name)
    (t.1.bindings.lookup name)
  steady : ∀ name, name ∉ unsteady → s.1.bindings.lookup name = t.1.bindings.lookup name
  keepsUp : t.1.surface.KeepsUp s.1.surface
  reaches : start.Reaches s.2.world
  checks : start.Reaches t.2.world

/-- Whether a program stays in step while it leaves marks. -/
structure StaysInStep
    (start : World)
    (unsteady : List String)
    (marks : List Mark)
    (s : Frame Recording × Store)
    (t : Frame KeyCheck × Store)
    (last : Frame Recording × Store)
    (other : Frame KeyCheck × Store) :
    Prop where
  inStep : InStep start (leavesAll unsteady marks) last other
  goesOn : s.1.surface.GoesOn last.1.surface
  opens : ∀ p, p ∈ other.1.surface.openPaths ↔
    p ∈ t.1.surface.openPaths ∨ .asked .keyed p .allKeys ∈ marks

/-- How something ends on both surfaces: with results that are related, or with
faults. -/
inductive EndInStep
    (start : World)
    (unsteady : List String)
    (related : Frame Recording × Store → α → β → Prop)
    (marks : List Mark)
    (s : Frame Recording × Store)
    (t : Frame KeyCheck × Store)
    (first : Except Interrupt α × Frame Recording × Store)
    (second : Except Interrupt β × Frame KeyCheck × Store) :
    Prop
  | ended {a : α} {b : β} {last : Frame Recording × Store} {other : Frame KeyCheck × Store} :
      first = (.ok a, last) → second = (.ok b, other) → related last a b →
        StaysInStep start unsteady marks s t last other →
          EndInStep start unsteady related marks s t first second
  | raised {f g : Fault} {last : Frame Recording × Store} {other : Frame KeyCheck × Store} :
      first = (.error (.fault f), last) → second = (.error (.fault g), other) →
        StaysInStep start unsteady marks s t last other →
          EndInStep start unsteady related marks s t first second

section

variable {start : World} {unsteady : List String} {marks others : List Mark}
  {s last final : Frame Recording × Store} {t other end' : Frame KeyCheck × Store}

/-- Marks that set no variable and ask for no keys change nothing. -/
theorem StaysInStep.of_idle
    (inStep : InStep start unsteady s t)
    (leaves : leavesAll unsteady marks = unsteady)
    (opens : ∀ p, .asked .keyed p .allKeys ∉ marks) :
    StaysInStep start unsteady marks s t s t :=
  ⟨leaves.symm ▸ inStep, .refl _, fun p => ⟨.inl, fun either => either.elim id (absurd · (opens p))⟩⟩

/-- A program stays in step through one thing after another. -/
theorem StaysInStep.trans
    (first : StaysInStep start unsteady marks s t last other)
    (second : StaysInStep start (leavesAll unsteady marks) others last other final end') :
    StaysInStep start unsteady (marks ++ others) s t final end' where
  inStep := by
    rw [leavesAll_append]
    exact second.inStep
  goesOn := first.goesOn.trans second.goesOn
  opens p := by
    rw [second.opens, first.opens, List.mem_append, or_assoc]

/-- What follows something that ended in step ends in step with it. -/
theorem EndInStep.after
    {related : Frame Recording × Store → α → β → Prop}
    {first : Except Interrupt α × Frame Recording × Store}
    {second : Except Interrupt β × Frame KeyCheck × Store}
    (stays : StaysInStep start unsteady marks s t last other)
    (ends : EndInStep start (leavesAll unsteady marks) related others last other first second) :
    EndInStep start unsteady related (marks ++ others) s t first second := by
  cases ends with
  | ended firstEnded secondEnded related later =>
      exact .ended firstEnded secondEnded related (stays.trans later)
  | raised firstEnded secondEnded later =>
      exact .raised firstEnded secondEnded (stays.trans later)

end

/-- Whether outcomes are alike: both results of the program, or none. -/
def Outcome.Resembles (_ : Frame Recording × Store) (outcome other : Outcome) : Prop :=
  Ending.of (.ok outcome) = Ending.of (.ok other)

/-- Whether something that a program does runs in lockstep on both surfaces wherever
something holds of the recording, and leaves the same marks, as long as it tests
nothing unsteady and its first run does not use up a bound. -/
def InLockstep
    (start : World)
    (holds : Recording → Prop)
    (run : Run Recording Outcome)
    (trace : Frame Recording × Store → List Mark)
    (otherRun : Run KeyCheck Outcome)
    (otherTrace : Frame KeyCheck × Store → List Mark) :
    Prop :=
  ∀ unsteady s t, holds s.1.surface → InStep start unsteady s t →
    (run.run s).1 ≠ .error .exhausted → areBlind unsteady (trace s) = true →
      otherTrace t = trace s ∧
        EndInStep start unsteady Outcome.Resembles (trace s) s t (run.run s) (otherRun.run t)

/-! ## Requests -/

/-- The name that a key is written by. -/
def KeyTerm.name : KeyTerm → String
  | .literal name | .variable name => name

/-- A written request with a type form and literal keys. -/
def Request.settle (a : TypeForm) : Request TypeTerm KeyTerm → Request TypeForm String
  | .openKeyed => .openKeyed
  | .openUnkeyed => .openUnkeyed
  | .openSingle => .openSingle
  | .decode _ key => .decode a (key.map KeyTerm.name)
  | .decodeIfPresent _ key => .decodeIfPresent a (key.map KeyTerm.name)
  | .decodeNull key => .decodeNull (key.map KeyTerm.name)
  | .nestedKeyed key => .nestedKeyed (key.map KeyTerm.name)
  | .nestedUnkeyed key => .nestedUnkeyed (key.map KeyTerm.name)
  | .parent key => .parent (key.map KeyTerm.name)
  | .contains key => .contains (key.map KeyTerm.name)
  | .allKeys => .allKeys
  | .count => .count
  | .isAtEnd => .isAtEnd
  | .path => .path

section

variable {σ : Type} {written : Request TypeTerm KeyTerm}

theorem Request.settle_withForm
    (a b : TypeForm)
    (written : Request TypeTerm KeyTerm) :
    (written.settle a).withForm b = written.settle b := by
  cases written <;> rfl

theorem Request.isSteady_settle
    (a : TypeForm)
    (written : Request TypeTerm KeyTerm) :
    (written.settle a).isSteady = written.isSteady := by
  cases written <;> rfl

theorem Request.settle_eq_allKeys_iff
    (a : TypeForm)
    (written : Request TypeTerm KeyTerm) :
    written.settle a = .allKeys ↔ written = .allKeys := by
  cases written <;> simp [settle]

theorem Request.form?_settle
    {a b : TypeForm}
    (isForm : (written.settle a).form? = some b) :
    b = a ∧ ∃ t, written.form? = some t := by
  cases written with
  | decode t key | decodeIfPresent t key => exact ⟨(Option.some.inj isForm).symm, t, rfl⟩
  | _ => cases isForm

/-- A literal key is settled at once. -/
theorem run_optionalKey
    {key : Option KeyTerm}
    (literal : ∀ k, key = some k → ∃ name, k = .literal name)
    (whole : Frame σ × Store) :
    (Run.optionalKey key : Run σ _).run whole = (.ok (key.map KeyTerm.name), whole) := by
  cases key with
  | none => rfl
  | some k =>
      obtain ⟨name, rfl⟩ := literal k rfl
      rfl

/-- A written request without a type is settled at once. -/
theorem run_request_of_none
    (literal : ∀ key, written.key? = some key → ∃ name, key = .literal name)
    (noForm : written.form? = none)
    (a : TypeForm)
    (whole : Frame σ × Store) :
    (Run.request written : Run σ _).run whole = (.ok (written.settle a), whole) := by
  have key := run_optionalKey literal whole
  cases written with
  | decode t key | decodeIfPresent t key => cases noForm
  | openKeyed | openUnkeyed | openSingle | allKeys | count | isAtEnd | path => rfl
  | _ => exact Step.run_bind_of_ok key _

/-- A written request with a type is settled when the type is. -/
theorem run_request_of_some
    {t : TypeTerm}
    {a : TypeForm}
    {frame : Frame σ}
    {s : Store}
    {w : World}
    (literal : ∀ key, written.key? = some key → ∃ name, key = .literal name)
    (isForm : written.form? = some t)
    (resolved : (t.resolve .strict).run s.world = (.ok a, w)) :
    (Run.request written : Run σ _).run (frame, s) =
      (.ok (written.settle a), frame, { s with world := w }) := by
  have key := run_optionalKey (σ := σ) literal (frame, { s with world := w })
  have inWorld : (Run.inWorld (t.resolve .strict) : Run σ TypeForm).run (frame, s) =
      (.ok a, frame, { s with world := w }) := by
    refine run_shared_of_ok ?_ frame
    rw [Step.inWorld, Step.run_within, resolved]
  cases written with
  | decode u k | decodeIfPresent u k =>
      cases isForm
      rw [Run.request, Step.run_bind_of_ok inWorld]
      exact Step.run_bind_of_ok key _
  | _ => cases isForm

/-- A written request with a type that is none fails. -/
theorem run_request_of_fault
    {t : TypeTerm}
    {f : Fault}
    {frame : Frame σ}
    {s : Store}
    {w : World}
    (isForm : written.form? = some t)
    (failed : (t.resolve .strict).run s.world = (.error (.fault f), w)) :
    (Run.request written : Run σ _).run (frame, s) =
      (.error (.fault f), frame, { s with world := w }) := by
  have inWorld : (Run.inWorld (t.resolve .strict) : Run σ TypeForm).run (frame, s) =
      (.error (.fault f), frame, { s with world := w }) := by
    rw [Run.inWorld, Step.shared, Step.run_within, Step.inWorld, Step.run_within, failed]
  cases written with
  | decode u k | decodeIfPresent u k =>
      cases isForm
      exact Step.run_bind_of_error inWorld _
  | _ => cases isForm

end

section

variable {σ : Type} {surface : Surface σ} {delegate : Delegate σ} {on : String}
  {written : Request TypeTerm KeyTerm} {store : Option String} {h : Handle}
  {whole : Frame σ × Store}

/-- A handle is what its variable is bound to. -/
theorem lookup_of_handle
    (handle : (Run.handle on : Run σ Handle).run whole = (.ok h, whole)) :
    whole.1.bindings.lookup on = some (.handle h) := by
  have bound := run_binding (σ := σ) on whole
  cases isBound : whole.1.bindings.lookup on with
  | none =>
      rw [isBound] at bound
      rw [Run.handle, Step.run_bind_of_error bound] at handle
      cases handle
  | some reply =>
      rw [isBound] at bound
      rw [Run.handle, Step.run_bind_of_ok bound] at handle
      cases reply <;> cases handle
      rfl

/-- A request that its target does not know fails. -/
theorem run_request_of_unknown
    (handle : (Run.handle on : Run σ Handle).run whole = (.ok h, whole))
    (unknown : written.isKnownTo h.role = false) :
    ((Statement.request on written store).run surface delegate).run whole =
      (.error (.fault .missingOperation), whole) := by
  rw [Statement.run, Step.run_bind_of_ok handle, unknown]
  rfl

/-- A request that is not settled fails. -/
theorem run_request_of_unsettled
    {interrupt : Interrupt}
    {reached : Frame σ × Store}
    (handle : (Run.handle on : Run σ Handle).run whole = (.ok h, whole))
    (known : written.isKnownTo h.role = true)
    (failed : (Run.request written : Run σ _).run whole = (.error interrupt, reached)) :
    ((Statement.request on written store).run surface delegate).run whole =
      (.error interrupt, reached) := by
  rw [Statement.run, Step.run_bind_of_ok handle, known]
  exact Step.run_bind_of_error failed _

/-- A request that is refused fails. -/
theorem run_request_of_refused
    {settled : Request TypeForm String}
    {interrupt : Interrupt}
    {frame : Frame σ}
    {s last : Store}
    {part : σ}
    (handle : (Run.handle on : Run σ Handle).run whole = (.ok h, whole))
    (known : written.isKnownTo h.role = true)
    (settles : (Run.request written : Run σ _).run whole = (.ok settled, frame, s))
    (refused : (surface.ask h settled).run (frame.surface, s) = (.error interrupt, part, last)) :
    ((Statement.request on written store).run surface delegate).run whole =
      (.error interrupt, { frame with surface := part }, last) := by
  have asked : (Run.onSurface (surface.ask h settled)).run (frame, s) =
      (.error interrupt, { frame with surface := part }, last) := by
    rw [Run.onSurface, Step.run_within, refused]
  rw [Statement.run, Step.run_bind_of_ok handle, known]
  simp only [Bool.not_true, Bool.false_eq_true, if_false]
  rw [Step.run_bind_of_ok settles]
  exact Step.run_bind_of_error asked _

/-- A request that uses up a bound when it is asked does so as a statement. -/
theorem ask_ends_of_run
    {settled : Request TypeForm String}
    {frame : Frame σ}
    {s : Store}
    (handle : (Run.handle on : Run σ Handle).run whole = (.ok h, whole))
    (known : written.isKnownTo h.role = true)
    (settles : (Run.request written : Run σ _).run whole = (.ok settled, frame, s))
    (ends : (((Statement.request on written store).run surface delegate).run whole).1 ≠
      .error .exhausted) :
    ((surface.ask h settled).run (frame.surface, s)).1 ≠ .error .exhausted := by
  intro interrupted
  cases asked : (surface.ask h settled).run (frame.surface, s) with
  | mk outcome reached =>
      rw [asked] at interrupted
      obtain rfl : outcome = _ := interrupted
      exact ends (congrArg Prod.fst (run_request_of_refused handle known settles asked))

end

section

variable {start : World} {unsteady : List String} {s : Frame Recording × Store}
  {t : Frame KeyCheck × Store} {nested : NestedProbe} {placeholder : Placeholder}
  {delegate : Delegate Recording} {otherDelegate : Delegate KeyCheck} {on : String}
  {written : Request TypeTerm KeyTerm} {store : Option String}

/-- A variable holds handles of the same thing on both surfaces, or on neither. -/
theorem InStep.handle
    (inStep : InStep start unsteady s t)
    (on : String) :
    (∃ f, (Run.handle on : Run Recording Handle).run s = (.error (.fault f), s) ∧
        (Run.handle on : Run KeyCheck Handle).run t = (.error (.fault f), t)) ∨
      ∃ h other, (Run.handle on : Run Recording Handle).run s = (.ok h, s) ∧
        (Run.handle on : Run KeyCheck Handle).run t = (.ok other, t) ∧
        h.Matches s.1.surface other := by
  have related := inStep.bindings on
  have first := run_binding (σ := Recording) on s
  have second := run_binding (σ := KeyCheck) on t
  cases isFirst : s.1.bindings.lookup on with
  | none =>
      cases isSecond : t.1.bindings.lookup on with
      | some reply => rw [isFirst, isSecond] at related; cases related
      | none =>
          rw [isFirst] at first
          rw [isSecond] at second
          exact .inl ⟨_, Step.run_bind_of_error first _, Step.run_bind_of_error second _⟩
  | some reply =>
      cases isSecond : t.1.bindings.lookup on with
      | none => rw [isFirst, isSecond] at related; cases related
      | some otherReply =>
          rw [isFirst] at first
          rw [isSecond] at second
          rw [isFirst, isSecond] at related
          cases related with
          | some same =>
              cases same with
              | value v w =>
                  exact .inl ⟨_, Step.run_bind_of_ok first _, Step.run_bind_of_ok second _⟩
              | handle same =>
                  exact .inr ⟨_, _, Step.run_bind_of_ok first _, Step.run_bind_of_ok second _,
                    same⟩

/-- A reply that is stored keeps programs in step. -/
theorem InStep.bindReply
    {reply other : Reply}
    {later : Recording}
    {check : KeyCheck}
    {after next : Store}
    (inStep : InStep start unsteady s t)
    (goesOn : s.1.surface.GoesOn later)
    (keepsUp : check.KeepsUp later)
    (same : reply.Matches later other)
    (steady : written.isSteady = true → reply = other)
    (reaches : start.Reaches after.world)
    (checks : start.Reaches next.world)
    (store : Option String)
    (got others : List Value) :
    InStep start (leavesAll unsteady (store.toList.map (Mark.stored · written)))
      (⟨later, SchemaProbe.bindReply s.1.bindings store reply, got⟩, after)
      (⟨check, SchemaProbe.bindReply t.1.bindings store other, others⟩, next) where
  bindings name := by
    have before : Option.Rel (Reply.Matches later) (s.1.bindings.lookup name)
        (t.1.bindings.lookup name) := by
      have related := inStep.bindings name
      cases isFirst : s.1.bindings.lookup name <;> cases isSecond : t.1.bindings.lookup name <;>
        rw [isFirst, isSecond] at related
      · exact .none
      · cases related
      · cases related
      · cases related with
        | some earlier => exact .some (earlier.goOn goesOn)
    cases store with
    | none => exact before
    | some stored =>
        dsimp only [SchemaProbe.bindReply]
        by_cases isStored : name = stored
        · rw [isStored, Table.lookup_set_self, Table.lookup_set_self]
          exact .some same
        · rw [Table.lookup_set_of_ne _ _ isStored, Table.lookup_set_of_ne _ _ isStored]
          exact before
  steady name isSteady := by
    cases store with
    | none => exact inStep.steady name isSteady
    | some stored =>
        dsimp only [SchemaProbe.bindReply]
        by_cases isStored : name = stored
        · rw [isStored, Table.lookup_set_self, Table.lookup_set_self]
          cases steadyRequest : written.isSteady with
          | true => rw [steady steadyRequest]
          | false => exact absurd (by simp [Mark.leaves, steadyRequest, isStored]) isSteady
        · rw [Table.lookup_set_of_ne _ _ isStored, Table.lookup_set_of_ne _ _ isStored]
          refine inStep.steady name fun member => isSteady ?_
          cases steadyRequest : written.isSteady <;>
            simp [Mark.leaves, steadyRequest, isStored, member]
  keepsUp := keepsUp
  reaches := reaches
  checks := checks

/-- Worlds that are reached stay reached while a type is resolved. -/
theorem TypeTerm.reaches_of_resolve
    {w reached : World}
    {outcome : Except Interrupt TypeForm}
    (t : TypeTerm)
    (reaches : start.Reaches w)
    (resolved : (t.resolve .strict).run w = (outcome, reached)) :
    start.Reaches reached := by
  have alike := TypeTerm.resolve_alike start.reaching_resolves .strict t w reaches
  have holds : start.Reaches ((t.resolve .strict).run w).2 := alike.holds_run
  rwa [resolved] at holds

/-- A straight request is settled on both surfaces, or on neither. -/
theorem InStep.settle
    (inStep : InStep start unsteady s t)
    (straight : (Statement.request on written store).IsStraight start) :
    (∃ f g after next,
        (Run.request written : Run Recording _).run s = (.error (.fault f), s.1, after) ∧
        (Run.request written : Run KeyCheck _).run t = (.error (.fault g), t.1, next) ∧
        written ≠ .allKeys ∧ start.Reaches after.world ∧ start.Reaches next.world) ∨
      ∃ a b after next,
        (Run.request written : Run Recording _).run s = (.ok (written.settle a), s.1, after) ∧
        (Run.request written : Run KeyCheck _).run t = (.ok (written.settle b), t.1, next) ∧
        (∀ c, written.form? = some c → a.HooksReturn start ∧ b.HooksReturn start) ∧
        start.Reaches after.world ∧ start.Reaches next.world := by
  obtain ⟨literal, requests⟩ := straight
  cases isForm : written.form? with
  | none =>
      exact .inr ⟨.any, .any, s.2, t.2, run_request_of_none literal isForm .any s,
        run_request_of_none literal isForm .any t, nofun, inStep.reaches, inStep.checks⟩
  | some c =>
      obtain ⟨steady, returns⟩ := requests c isForm
      rcases steady with resolves | fails
      · obtain ⟨a, w, first⟩ := resolves _ inStep.reaches
        obtain ⟨b, v, second⟩ := resolves _ inStep.checks
        refine .inr ⟨a, b, { s.2 with world := w }, { t.2 with world := v },
          run_request_of_some literal isForm first, run_request_of_some literal isForm second,
          fun _ _ => ⟨returns _ a w inStep.reaches first, returns _ b v inStep.checks second⟩,
          c.reaches_of_resolve inStep.reaches first, c.reaches_of_resolve inStep.checks second⟩
      · obtain ⟨f, w, first⟩ := fails _ inStep.reaches
        obtain ⟨g, v, second⟩ := fails _ inStep.checks
        refine .inl ⟨f, g, { s.2 with world := w }, { t.2 with world := v },
          run_request_of_fault isForm first, run_request_of_fault isForm second, ?_,
          c.reaches_of_resolve inStep.reaches first, c.reaches_of_resolve inStep.checks second⟩
        rintro rfl
        cases isForm

/-- Marks of something that was asked, but not for the keys of a keyed container, are
idle. -/
theorem StaysInStep.of_refused
    {place : List Nat}
    {role : Role}
    {relative : Path}
    {after next : Store}
    (inStep : InStep start unsteady s t)
    (isOther : role = .keyed → written ≠ .allKeys)
    (reaches : start.Reaches after.world)
    (checks : start.Reaches next.world) :
    StaysInStep start unsteady [.reached place, .asked role relative written] s t (s.1, after)
      (t.1, next) where
  inStep := { inStep with reaches := reaches, checks := checks }
  goesOn := .refl _
  opens p := by
    refine ⟨.inl, fun either => either.elim id fun member => ?_⟩
    simp only [List.mem_cons, reduceCtorEq, Mark.asked.injEq, List.not_mem_nil, or_false,
      false_or] at member
    exact absurd member.2.2.symm (isOther member.1.symm)

/-- A straight request runs in lockstep. -/
theorem Statement.request_inLockstep
    (quiet : ∀ a : TypeForm, a.HooksReturn start → a.IsQuiet start nested placeholder)
    (straight : (Statement.request on written store).IsStraight start)
    (place : List Nat) :
    InLockstep start Step.anything
      ((Statement.request on written store).run (recorder nested) delegate)
      (Statement.trace (recorder nested) delegate place (.request on written store))
      ((Statement.request on written store).run (keyChecker placeholder) otherDelegate)
      (Statement.trace (keyChecker placeholder) otherDelegate place
        (.request on written store)) := by
  intro unsteady s t _ inStep ends _
  rw [Statement.trace, Statement.trace]
  obtain ⟨f, first, second⟩ | ⟨h, other, first, second, same⟩ := inStep.handle on
  · rw [Step.follow_of_error first, Step.follow_of_error second]
    have firstRan : ((Statement.request on written store).run (recorder nested) delegate).run s =
        (.error (.fault f), s) :=
      Step.run_bind_of_error first _
    have secondRan : ((Statement.request on written store).run (keyChecker placeholder)
        otherDelegate).run t = (.error (.fault f), t) :=
      Step.run_bind_of_error second _
    exact ⟨rfl, .raised firstRan secondRan (.of_idle inStep rfl (by simp))⟩
  · rw [Step.follow_of_ok first, Step.follow_of_ok second, same.role, same.relative]
    cases known : written.isKnownTo h.role with
    | false =>
        have otherUnknown : written.isKnownTo other.role = false := by rw [same.role, known]
        have firstRan :
            ((Statement.request on written store).run (recorder nested) delegate).run s = _ :=
          run_request_of_unknown first known
        have secondRan :
            ((Statement.request on written store).run (keyChecker placeholder)
              otherDelegate).run t = _ :=
          run_request_of_unknown second otherUnknown
        rw [Step.follow_of_error firstRan, Step.follow_of_error secondRan]
        refine ⟨rfl, .raised firstRan secondRan
          (.of_refused inStep (fun isKeyed => ?_) inStep.reaches inStep.checks)⟩
        rintro rfl
        rw [isKeyed] at known
        cases known
    | true =>
        have otherKnown : written.isKnownTo other.role = true := by rw [same.role, known]
        obtain ⟨f, g, after, next, firstFailed, secondFailed, isOther, reaches, checks⟩ |
          ⟨a, b, after, next, firstSettled, secondSettled, returns, reaches, checks⟩ :=
          inStep.settle straight
        · have firstRan :
              ((Statement.request on written store).run (recorder nested) delegate).run s = _ :=
            run_request_of_unsettled first known firstFailed
          have secondRan :
              ((Statement.request on written store).run (keyChecker placeholder)
                otherDelegate).run t = _ :=
            run_request_of_unsettled second otherKnown secondFailed
          rw [Step.follow_of_error firstRan, Step.follow_of_error secondRan]
          exact ⟨rfl, .raised firstRan secondRan
            (.of_refused inStep (fun _ => isOther) reaches checks)⟩
        · have asks : ∀ c, (written.settle a).form? = some c →
              c.IsQuiet start nested placeholder ∧ b.IsQuiet start nested placeholder := by
            intro c isForm
            obtain ⟨rfl, d, isWritten⟩ := Request.form?_settle isForm
            obtain ⟨firstReturns, secondReturns⟩ := returns d isWritten
            exact ⟨quiet c firstReturns, quiet b secondReturns⟩
          have answered := ask_answered (b := b) inStep.keepsUp same reaches checks asks
            (ask_ends_of_run first known firstSettled ends)
          rw [Request.settle_withForm] at answered
          cases answered with
          | refused firstAsked secondAsked isOther =>
              have firstRan :
                  ((Statement.request on written store).run (recorder nested) delegate).run s = _ :=
                run_request_of_refused first known firstSettled firstAsked
              have secondRan :
                  ((Statement.request on written store).run (keyChecker placeholder)
                    otherDelegate).run t = _ :=
                run_request_of_refused second otherKnown secondSettled secondAsked
              rw [Step.follow_of_error firstRan, Step.follow_of_error secondRan]
              refine ⟨rfl, .raised firstRan secondRan
                (.of_refused inStep (fun isKeyed isKeys => isOther isKeyed ?_) reaches checks)⟩
              exact (Request.settle_eq_allKeys_iff a written).mpr isKeys
          | replied firstAsked secondAsked goesOn keepsUp replies steady opens reached checked =>
              rename_i reply otherReply later check firstLast secondLast
              obtain ⟨got, firstRan⟩ : ∃ got,
                  ((Statement.request on written store).run (recorder nested) delegate).run s =
                    (.ok (.went (some reply)), ⟨later, bindReply s.1.bindings store reply, got⟩,
                      firstLast) :=
                run_request (lookup_of_handle first) known firstSettled firstAsked
              obtain ⟨others, secondRan⟩ : ∃ others,
                  ((Statement.request on written store).run (keyChecker placeholder)
                    otherDelegate).run t =
                    (.ok (.went (some otherReply)),
                      ⟨check, bindReply t.1.bindings store otherReply, others⟩, secondLast) :=
                run_request (lookup_of_handle second) otherKnown secondSettled secondAsked
              rw [Step.follow_of_ok firstRan, Step.follow_of_ok secondRan]
              refine ⟨rfl, .ended firstRan secondRan rfl ⟨?_, goesOn, fun p => ?_⟩⟩
              · exact inStep.bindReply goesOn keepsUp replies
                  (fun isSteady => steady (by rw [Request.isSteady_settle, isSteady])) reached
                  checked store got others
              · rw [opens p, Request.settle_eq_allKeys_iff]
                cases store <;> simp [eq_comm]

end

/-! ## One thing after another -/

section

variable {start : World} {holds : Recording → Prop} {run next : Run Recording Outcome}
  {trace nextTrace : Frame Recording × Store → List Mark}
  {otherRun otherNext : Run KeyCheck Outcome}
  {otherTrace otherNextTrace : Frame KeyCheck × Store → List Mark}

/-- What is followed by something does not use up a bound if both together do not. -/
theorem ends_of_bind
    {step : Step σ α}
    {next : α → Step σ β}
    {s : σ}
    (ends : ((step >>= next).run s).1 ≠ .error .exhausted) :
    (step.run s).1 ≠ .error .exhausted := by
  intro interrupted
  cases ran : step.run s with
  | mk outcome reached =>
      rw [ran] at interrupted
      obtain rfl : outcome = _ := interrupted
      exact ends (congrArg Prod.fst (Step.run_bind_of_error ran next))

/-- What runs in lockstep from everywhere does so from where something holds. -/
theorem InLockstep.weaken
    (lockstep : InLockstep start Step.anything run trace otherRun otherTrace) :
    InLockstep start holds run trace otherRun otherTrace :=
  fun unsteady s t _ => lockstep unsteady s t trivial

/-- What goes on unless there is a result runs in lockstep if its parts do. -/
theorem InLockstep.seq
    (stable : ∀ r later : Recording, r.GoesOn later → holds r → holds later)
    (first : InLockstep start holds run trace otherRun otherTrace)
    (second : InLockstep start holds next nextTrace otherNext otherNextTrace) :
    InLockstep start holds
      (run >>= fun outcome =>
        match outcome with
        | .gave result => pure (.gave result)
        | .went _ => next)
      (fun s => trace s ++ run.follow s fun outcome reached =>
        match outcome with
        | .gave _ => []
        | .went _ => nextTrace reached)
      (otherRun >>= fun outcome =>
        match outcome with
        | .gave result => pure (.gave result)
        | .went _ => otherNext)
      (fun t => otherTrace t ++ otherRun.follow t fun outcome reached =>
        match outcome with
        | .gave _ => []
        | .went _ => otherNextTrace reached) := by
  intro unsteady s t held inStep ends blind
  dsimp only at blind ⊢
  rw [areBlind_append, Bool.and_eq_true] at blind
  obtain ⟨same, ended⟩ := first unsteady s t held inStep (ends_of_bind ends) blind.1
  rw [same]
  cases ended with
  | raised firstRan secondRan stays =>
      rw [Step.follow_of_error firstRan, Step.follow_of_error secondRan, List.append_nil]
      exact ⟨rfl, .raised (Step.run_bind_of_error firstRan _) (Step.run_bind_of_error secondRan _)
        stays⟩
  | @ended outcome other last otherLast firstRan secondRan alike stays =>
      rw [Step.follow_of_ok firstRan] at blind ⊢
      rw [Step.follow_of_ok secondRan, Step.run_bind_of_ok firstRan,
        Step.run_bind_of_ok secondRan]
      rw [Step.run_bind_of_ok firstRan] at ends
      cases outcome <;> cases other <;> try cases alike
      · obtain ⟨nextSame, nextEnded⟩ := second _ last otherLast
          (stable _ _ stays.goesOn held) stays.inStep ends blind.2
        exact ⟨congrArg _ nextSame, nextEnded.after stays⟩
      · dsimp only
        rw [List.append_nil]
        exact ⟨rfl, .ended rfl rfl rfl stays⟩

/-- What is tried runs in lockstep if it does and so does what handles its fault. -/
theorem InLockstep.recover
    (stable : ∀ r later : Recording, r.GoesOn later → holds r → holds later)
    (first : InLockstep start holds run trace otherRun otherTrace)
    (second : InLockstep start holds next nextTrace otherNext otherNextTrace) :
    InLockstep start holds (Step.recover run fun _ => next)
      (fun s => trace s ++ (Step.attempt run).follow s fun outcome reached =>
        match outcome with
        | .ok _ => []
        | .error _ => nextTrace reached)
      (Step.recover otherRun fun _ => otherNext)
      (fun t => otherTrace t ++ (Step.attempt otherRun).follow t fun outcome reached =>
        match outcome with
        | .ok _ => []
        | .error _ => otherNextTrace reached) := by
  intro unsteady s t held inStep ends blind
  dsimp only at blind ⊢
  rw [areBlind_append, Bool.and_eq_true] at blind
  have runEnds : (run.run s).1 ≠ .error .exhausted := by
    refine fun interrupted => ends_of_bind ends ?_
    rw [Step.run_attempt]
    cases ran : run.run s with
    | mk outcome reached =>
        rw [ran] at interrupted
        obtain rfl : outcome = _ := interrupted
        rfl
  obtain ⟨same, ended⟩ := first unsteady s t held inStep runEnds blind.1
  rw [same]
  cases ended with
  | @ended outcome other last otherLast firstRan secondRan alike stays =>
      have firstTried : (Step.attempt run).run s = (.ok (.ok outcome), last) := by
        rw [Step.run_attempt, firstRan]
      have secondTried : (Step.attempt otherRun).run t = (.ok (.ok other), otherLast) := by
        rw [Step.run_attempt, secondRan]
      rw [Step.follow_of_ok firstTried, Step.follow_of_ok secondTried]
      dsimp only
      rw [List.append_nil]
      exact ⟨rfl, .ended (Step.run_bind_of_ok firstTried _) (Step.run_bind_of_ok secondTried _)
        alike stays⟩
  | @raised f g last otherLast firstRan secondRan stays =>
      have firstTried : (Step.attempt run).run s = (.ok (.error f), last) := by
        rw [Step.run_attempt, firstRan]
      have secondTried : (Step.attempt otherRun).run t = (.ok (.error g), otherLast) := by
        rw [Step.run_attempt, secondRan]
      rw [Step.follow_of_ok firstTried] at blind ⊢
      rw [Step.follow_of_ok secondTried, Step.recover, Step.recover,
        Step.run_bind_of_ok firstTried, Step.run_bind_of_ok secondTried]
      rw [Step.recover, Step.run_bind_of_ok firstTried] at ends
      obtain ⟨nextSame, nextEnded⟩ := second _ last otherLast (stable _ _ stays.goesOn held)
        stays.inStep ends blind.2
      exact ⟨congrArg _ nextSame, nextEnded.after stays⟩

/-- What forgets its reply runs in lockstep all the same. -/
theorem InLockstep.done
    (lockstep : InLockstep start holds run trace otherRun otherTrace) :
    InLockstep start holds (run >>= fun outcome => pure outcome.done) trace
      (otherRun >>= fun outcome => pure outcome.done) otherTrace := by
  intro unsteady s t held inStep ends blind
  obtain ⟨same, ended⟩ := lockstep unsteady s t held inStep (ends_of_bind ends) blind
  refine ⟨same, ?_⟩
  cases ended with
  | raised firstRan secondRan stays =>
      exact .raised (Step.run_bind_of_error firstRan _) (Step.run_bind_of_error secondRan _) stays
  | @ended outcome other last otherLast firstRan secondRan alike stays =>
      refine .ended (Step.run_bind_of_ok firstRan _) (Step.run_bind_of_ok secondRan _) ?_ stays
      cases outcome <;> cases other <;> first | rfl | cases alike

end

/-! ## Loops to the end of a sequence -/

section

variable {start : World} {unsteady : List String} {s : Frame Recording × Store}
  {t : Frame KeyCheck × Store} {nested : NestedProbe} {placeholder : Placeholder}
  {h other : Handle}

/-- A request that is steady and names no type is asked in lockstep, and so is what is
made of its reply. -/
theorem InStep.ask_steady
    {settled : Request TypeForm String}
    {written : Request TypeTerm KeyTerm}
    (inStep : InStep start unsteady s t)
    (same : h.Matches s.1.surface other)
    (writes : written.settle .any = settled)
    (steady : written.isSteady = true)
    (noForm : written.form? = none)
    (view : Reply → α)
    (ends : ((Run.onSurface ((recorder nested).ask h settled >>= fun reply =>
      pure (view reply))).run s).1 ≠ .error .exhausted) :
    EndInStep start unsteady (fun _ a b => a = b) [.asked h.role h.relative written] s t
      ((Run.onSurface ((recorder nested).ask h settled >>= fun reply =>
        pure (view reply))).run s)
      ((Run.onSurface ((keyChecker placeholder).ask other settled >>= fun reply =>
        pure (view reply))).run t) := by
  subst writes
  have isOther : written ≠ .allKeys := by
    rintro rfl
    cases steady
  have stays {later : Recording} {check : KeyCheck} {after next : Store}
      (goesOn : s.1.surface.GoesOn later) (keepsUp : check.KeepsUp later)
      (opens : ∀ p, p ∈ check.openPaths ↔ p ∈ t.1.surface.openPaths)
      (reaches : start.Reaches after.world) (checks : start.Reaches next.world) :
      StaysInStep start unsteady [.asked h.role h.relative written] s t
        ({ s.1 with surface := later }, after) ({ t.1 with surface := check }, next) := by
    refine ⟨⟨?_, inStep.steady, keepsUp, reaches, checks⟩, goesOn, fun p => ?_⟩
    · exact (inStep.bindReply goesOn keepsUp (.value .null .null)
        (fun _ : written.isSteady = true => rfl) reaches checks none [] []).bindings
    · rw [opens]
      refine ⟨.inl, fun either => either.elim id fun member => ?_⟩
      obtain ⟨-, -, isKeys⟩ := Mark.asked.inj (List.mem_singleton.mp member)
      exact absurd isKeys.symm isOther
  have asks : ∀ c, (written.settle .any).form? = some c →
      c.IsQuiet start nested placeholder ∧ TypeForm.any.IsQuiet start nested placeholder := by
    intro c isForm
    obtain ⟨-, d, isWritten⟩ := Request.form?_settle isForm
    rw [noForm] at isWritten
    cases isWritten
  have endsAsking : (((recorder nested).ask h (written.settle .any) >>= fun reply =>
      pure (view reply)).run (s.1.surface, s.2)).1 ≠ .error .exhausted :=
    ends
  have answered := ask_answered inStep.keepsUp same inStep.reaches inStep.checks asks
    (ends_of_bind endsAsking)
  rw [Request.settle_withForm] at answered
  rw [Run.onSurface, Run.onSurface, Step.run_within, Step.run_within]
  cases answered with
  | refused firstAsked secondAsked _ =>
      rw [Step.run_bind_of_error firstAsked, Step.run_bind_of_error secondAsked]
      exact .raised rfl rfl (stays (.refl _) inStep.keepsUp (fun _ => Iff.rfl) inStep.reaches
        inStep.checks)
  | replied firstAsked secondAsked goesOn keepsUp _ agrees opens reaches checks =>
      rw [Step.run_bind_of_ok firstAsked, Step.run_bind_of_ok secondAsked]
      refine .ended rfl rfl ?_ (stays goesOn keepsUp (fun p => ?_) reaches checks)
      · rw [agrees (by rw [Request.isSteady_settle, steady])]
      · refine (opens p).trans ⟨fun either => either.elim id fun asked => absurd asked.2.2 ?_, .inl⟩
        exact fun isKeys => isOther ((Request.settle_eq_allKeys_iff _ _).mp isKeys)

/-- Both surfaces are at the end of a sequence together. -/
theorem InStep.isAtEnd
    (placeholder : Placeholder)
    (inStep : InStep start unsteady s t)
    (same : h.Matches s.1.surface other)
    (ends : ((Run.onSurface ((recorder nested).isAtEnd h)).run s).1 ≠ .error .exhausted) :
    EndInStep start unsteady (fun _ a b => a = b) [.asked h.role h.relative .isAtEnd] s t
      ((Run.onSurface ((recorder nested).isAtEnd h)).run s)
      ((Run.onSurface ((keyChecker placeholder).isAtEnd other)).run t) :=
  inStep.ask_steady same rfl rfl rfl Reply.isTrue ends

/-- The number that a reply says. -/
def Reply.toCount (reply : Reply) : Nat :=
  match reply.toValue with
  | .int n => n.toNat
  | _ => 0

/-- Counting the elements of a sequence is asking for their number. -/
theorem count_eq
    (surface : Surface σ)
    (h : Handle) :
    surface.count h = surface.ask h .count >>= fun reply => pure reply.toCount := by
  rw [Surface.count, Surface.value, bind_assoc]
  refine congrArg _ (funext fun reply => ?_)
  rw [pure_bind, Reply.toCount]
  cases reply.toValue <;> rfl

/-- Both surfaces count the same. -/
theorem InStep.count
    (placeholder : Placeholder)
    (inStep : InStep start unsteady s t)
    (same : h.Matches s.1.surface other)
    (ends : ((Run.onSurface ((recorder nested).count h)).run s).1 ≠ .error .exhausted) :
    EndInStep start unsteady (fun _ a b => a = b) [.asked h.role h.relative .count] s t
      ((Run.onSurface ((recorder nested).count h)).run s)
      ((Run.onSurface ((keyChecker placeholder).count other)).run t) := by
  rw [count_eq] at ends
  rw [count_eq, count_eq]
  exact inStep.ask_steady same rfl rfl rfl Reply.toCount ends

/-- A loop to the end of a sequence runs in lockstep if its body does. -/
theorem toEnd_inLockstep
    {body : Run Recording Outcome}
    {trace : Frame Recording × Store → List Mark}
    {otherBody : Run KeyCheck Outcome}
    {otherTrace : Frame KeyCheck × Store → List Mark}
    (lockstep : InLockstep start Step.anything body trace otherBody otherTrace)
    (bound : Nat) :
    InLockstep start (fun r => h.Matches r other)
      (repeatToEnd (Run.onSurface ((recorder nested).isAtEnd h)) body bound)
      (traceToEnd (Run.onSurface ((recorder nested).isAtEnd h)) body
        (.asked h.role h.relative .isAtEnd) trace bound)
      (repeatToEnd (Run.onSurface ((keyChecker placeholder).isAtEnd other)) otherBody bound)
      (traceToEnd (Run.onSurface ((keyChecker placeholder).isAtEnd other)) otherBody
        (.asked h.role h.relative .isAtEnd) otherTrace bound) := by
  induction bound with
  | zero => exact fun _ _ _ _ _ ends _ => absurd rfl ends
  | succ bound inductionHypothesis =>
      intro unsteady s t same inStep ends blind
      have stable (r later : Recording) (goesOn : r.GoesOn later) (matched : h.Matches r other) :
          h.Matches later other :=
        matched.goOn goesOn
      have rounds := lockstep.weaken.seq stable inductionHypothesis
      rw [repeatToEnd] at ends ⊢
      rw [repeatToEnd, traceToEnd]
      rw [traceToEnd] at blind ⊢
      rw [areBlind, Bool.and_eq_true] at blind
      cases inStep.isAtEnd placeholder same (ends_of_bind ends) with
      | raised firstRan secondRan stays =>
          rw [Step.follow_of_error firstRan, Step.follow_of_error secondRan]
          exact ⟨rfl, .raised (Step.run_bind_of_error firstRan _)
            (Step.run_bind_of_error secondRan _) stays⟩
      | @ended isDone otherDone last otherLast firstRan secondRan agrees stays =>
          subst agrees
          rw [Step.follow_of_ok firstRan] at blind ⊢
          rw [Step.follow_of_ok secondRan, Step.run_bind_of_ok firstRan,
            Step.run_bind_of_ok secondRan]
          rw [Step.run_bind_of_ok firstRan] at ends
          cases isDone with
          | true => exact ⟨rfl, .ended rfl rfl rfl stays⟩
          | false =>
              obtain ⟨roundSame, roundEnded⟩ := rounds _ last otherLast
                (same.goOn stays.goesOn) stays.inStep ends blind.2
              exact ⟨congrArg _ roundSame, roundEnded.after stays⟩

end

/-! ## Statements -/

section

variable {start : World} {nested : NestedProbe} {placeholder : Placeholder}
  {delegate : Delegate Recording} {otherDelegate : Delegate KeyCheck}

/-- A branch runs in lockstep if what it can lead to does. -/
theorem Statement.branch_inLockstep
    {agreed otherwise : List Statement}
    {place : List Nat}
    (subject : String)
    (expected : Document)
    (agreedLockstep : InLockstep start Step.anything
      (Statement.runAll (recorder nested) delegate agreed)
      (Statement.traceAll (recorder nested) delegate (place ++ [0]) 0 agreed)
      (Statement.runAll (keyChecker placeholder) otherDelegate agreed)
      (Statement.traceAll (keyChecker placeholder) otherDelegate (place ++ [0]) 0 agreed))
    (otherwiseLockstep : InLockstep start Step.anything
      (Statement.runAll (recorder nested) delegate otherwise)
      (Statement.traceAll (recorder nested) delegate (place ++ [1]) 0 otherwise)
      (Statement.runAll (keyChecker placeholder) otherDelegate otherwise)
      (Statement.traceAll (keyChecker placeholder) otherDelegate (place ++ [1]) 0 otherwise)) :
    InLockstep start Step.anything
      ((Statement.branch subject expected agreed otherwise).run (recorder nested) delegate)
      (Statement.trace (recorder nested) delegate place
        (.branch subject expected agreed otherwise))
      ((Statement.branch subject expected agreed otherwise).run (keyChecker placeholder)
        otherDelegate)
      (Statement.trace (keyChecker placeholder) otherDelegate place
        (.branch subject expected agreed otherwise)) := by
  intro unsteady s t _ inStep ends blind
  rw [Statement.run] at ends ⊢
  rw [Statement.run, Statement.trace]
  rw [Statement.trace] at blind ⊢
  rw [areBlind, areBlind, Bool.and_eq_true, Bool.and_eq_true] at blind
  have isSteady : subject ∉ unsteady := by
    simpa [Mark.isBlindTo, Mark.leaves] using blind.2.1
  have first := run_binding (σ := Recording) subject s
  have second := run_binding (σ := KeyCheck) subject t
  rw [← inStep.steady subject isSteady] at second
  have stays : StaysInStep start unsteady [.reached place, .tested subject] s t s t :=
    .of_idle inStep rfl (by simp)
  cases bound : s.1.bindings.lookup subject with
  | none =>
      rw [bound] at first second
      rw [Step.follow_of_error first, Step.follow_of_error second]
      exact ⟨rfl, .raised (Step.run_bind_of_error first _) (Step.run_bind_of_error second _) stays⟩
  | some reply =>
      rw [bound] at first second
      rw [Step.follow_of_ok first] at blind ⊢
      rw [Step.follow_of_ok second, Step.run_bind_of_ok first, Step.run_bind_of_ok second]
      rw [Step.run_bind_of_ok first] at ends
      cases agrees : expected.agrees reply.toValue.document with
      | true =>
          rw [agrees] at blind ends
          obtain ⟨same, ended⟩ :=
            agreedLockstep.done unsteady s t trivial inStep ends blind.2.2
          exact ⟨congrArg (_ :: _ :: ·) same, ended.after stays⟩
      | false =>
          rw [agrees] at blind ends
          obtain ⟨same, ended⟩ :=
            otherwiseLockstep.done unsteady s t trivial inStep ends blind.2.2
          exact ⟨congrArg (_ :: _ :: ·) same, ended.after stays⟩

/-- A loop to the end of a sequence runs in lockstep if its body does. -/
theorem Statement.untilEnd_inLockstep
    {body : List Statement}
    {place : List Nat}
    (on : String)
    (lockstep : InLockstep start Step.anything
      (Statement.runAll (recorder nested) delegate body)
      (Statement.traceAll (recorder nested) delegate place 0 body)
      (Statement.runAll (keyChecker placeholder) otherDelegate body)
      (Statement.traceAll (keyChecker placeholder) otherDelegate place 0 body)) :
    InLockstep start Step.anything
      ((Statement.untilEnd on body).run (recorder nested) delegate)
      (Statement.trace (recorder nested) delegate place (.untilEnd on body))
      ((Statement.untilEnd on body).run (keyChecker placeholder) otherDelegate)
      (Statement.trace (keyChecker placeholder) otherDelegate place (.untilEnd on body)) := by
  intro unsteady s t _ inStep ends blind
  rw [Statement.run] at ends ⊢
  rw [Statement.run, Statement.trace]
  rw [Statement.trace] at blind ⊢
  have come : StaysInStep start unsteady [.reached place] s t s t :=
    .of_idle inStep rfl (by simp)
  obtain ⟨f, first, second⟩ | ⟨h, other, first, second, same⟩ := inStep.handle on
  · rw [Step.follow_of_error first, Step.follow_of_error second]
    exact ⟨rfl, .raised (Step.run_bind_of_error first _) (Step.run_bind_of_error second _) come⟩
  rw [Step.follow_of_ok first] at blind ⊢
  rw [Step.follow_of_ok second, same.role, same.relative, Step.run_bind_of_ok first,
    Step.run_bind_of_ok second]
  rw [Step.run_bind_of_ok first] at ends
  cases inStep.isAtEnd placeholder same (ends_of_bind ends) with
  | raised firstAtEnd secondAtEnd atEnd =>
      rw [Step.follow_of_error firstAtEnd, Step.follow_of_error secondAtEnd]
      exact ⟨rfl, .after come (.raised (Step.run_bind_of_error firstAtEnd _)
        (Step.run_bind_of_error secondAtEnd _) atEnd)⟩
  | @ended isDone _ begun otherBegun firstAtEnd secondAtEnd _ atEnd =>
      rw [Step.follow_of_ok firstAtEnd] at blind ⊢
      rw [Step.follow_of_ok secondAtEnd, Step.run_bind_of_ok firstAtEnd,
        Step.run_bind_of_ok secondAtEnd]
      rw [Step.run_bind_of_ok firstAtEnd] at ends
      have sameBegun := same.goOn atEnd.goesOn
      cases atEnd.inStep.count placeholder sameBegun (ends_of_bind ends) with
      | raised firstCount secondCount counted =>
          rw [Step.follow_of_error firstCount, Step.follow_of_error secondCount]
          exact ⟨rfl, .after come (.after atEnd (.raised (Step.run_bind_of_error firstCount _)
            (Step.run_bind_of_error secondCount _) counted))⟩
      | @ended count otherCount reached otherReached firstCount secondCount agrees counted =>
          subst agrees
          rw [Step.follow_of_ok firstCount] at blind ⊢
          rw [Step.follow_of_ok secondCount, Step.run_bind_of_ok firstCount,
            Step.run_bind_of_ok secondCount]
          rw [Step.run_bind_of_ok firstCount] at ends
          simp only [areBlind, Bool.and_eq_true] at blind
          obtain ⟨loopSame, loopEnded⟩ := toEnd_inLockstep lockstep (count + idleRounds) _ reached
            otherReached (sameBegun.goOn counted.goesOn) counted.inStep ends blind.2.2.2
          exact ⟨congrArg (_ :: _ :: _ :: ·) loopSame,
            .after come (.after atEnd (loopEnded.after counted))⟩

/-- What is tried runs in lockstep if it does and so does what handles its fault. -/
theorem Statement.attempt_inLockstep
    {body handler : List Statement}
    {place : List Nat}
    (bodyLockstep : InLockstep start Step.anything
      (Statement.runAll (recorder nested) delegate body)
      (Statement.traceAll (recorder nested) delegate (place ++ [0]) 0 body)
      (Statement.runAll (keyChecker placeholder) otherDelegate body)
      (Statement.traceAll (keyChecker placeholder) otherDelegate (place ++ [0]) 0 body))
    (handlerLockstep : InLockstep start Step.anything
      (Statement.runAll (recorder nested) delegate handler)
      (Statement.traceAll (recorder nested) delegate (place ++ [1]) 0 handler)
      (Statement.runAll (keyChecker placeholder) otherDelegate handler)
      (Statement.traceAll (keyChecker placeholder) otherDelegate (place ++ [1]) 0 handler)) :
    InLockstep start Step.anything
      ((Statement.attempt body handler).run (recorder nested) delegate)
      (Statement.trace (recorder nested) delegate place (.attempt body handler))
      ((Statement.attempt body handler).run (keyChecker placeholder) otherDelegate)
      (Statement.trace (keyChecker placeholder) otherDelegate place (.attempt body handler)) := by
  intro unsteady s t _ inStep ends blind
  rw [Statement.run] at ends ⊢
  rw [Statement.run, Statement.trace]
  rw [Statement.trace, List.cons_append] at blind ⊢
  rw [List.cons_append]
  rw [areBlind, Bool.and_eq_true] at blind
  have come : StaysInStep start unsteady [.reached place] s t s t :=
    .of_idle inStep rfl (by simp)
  obtain ⟨same, ended⟩ := (bodyLockstep.recover (fun _ _ _ _ => trivial) handlerLockstep).done
    unsteady s t trivial inStep ends blind.2
  exact ⟨congrArg _ same, ended.after come⟩

/-- What a program gives is given in lockstep. -/
theorem Statement.give_inLockstep
    {result : ResultTerm}
    (straight : (Statement.give result).IsStraight start)
    (place : List Nat) :
    InLockstep start Step.anything
      ((Statement.give result).run (recorder nested) delegate)
      (Statement.trace (recorder nested) delegate place (.give result))
      ((Statement.give result).run (keyChecker placeholder) otherDelegate)
      (Statement.trace (keyChecker placeholder) otherDelegate place (.give result)) := by
  intro unsteady s t _ inStep _ _
  rw [Statement.run, Statement.run, Statement.trace, Statement.trace]
  refine ⟨rfl, ?_⟩
  have come : StaysInStep start unsteady [.reached place] s t s t :=
    .of_idle inStep rfl (by simp)
  cases result with
  | value written =>
      have reached {w : World} (reaches : start.Reaches w) :
          start.Reaches ((written.resolve .strict).run w).2 :=
        (ValueTerm.resolve_alike start.reaching_resolves .strict written w reaches).holds_run
      have later {firstWorld secondWorld : World} (first : start.Reaches firstWorld)
          (second : start.Reaches secondWorld) :
          StaysInStep start unsteady [.reached place] s t
            (s.1, { s.2 with world := firstWorld }) (t.1, { t.2 with world := secondWorld }) :=
        { come with inStep := { inStep with reaches := first, checks := second } }
      have run_inWorld {σ : Type} (whole : Frame σ × Store) :
          (Run.inWorld (written.resolve .strict) : Run σ Value).run whole =
            (((written.resolve .strict).run whole.2.world).1, whole.1,
              { whole.2 with world := ((written.resolve .strict).run whole.2.world).2 }) :=
        rfl
      have firstReached := reached inStep.reaches
      have secondReached := reached inStep.checks
      have firstRan := run_inWorld s
      have secondRan := run_inWorld t
      rcases straight with resolves | fails
      · obtain ⟨v, w, first⟩ := resolves _ inStep.reaches
        obtain ⟨u, x, second⟩ := resolves _ inStep.checks
        rw [first] at firstReached firstRan
        rw [second] at secondReached secondRan
        exact .ended (Step.run_bind_of_ok firstRan _) (Step.run_bind_of_ok secondRan _) rfl
          (later firstReached secondReached)
      · obtain ⟨f, w, first⟩ := fails _ inStep.reaches
        obtain ⟨g, x, second⟩ := fails _ inStep.checks
        rw [first] at firstReached firstRan
        rw [second] at secondReached secondRan
        exact .raised (Step.run_bind_of_error firstRan _) (Step.run_bind_of_error secondRan _)
          (later firstReached secondReached)
  | «variable» name =>
      have related := inStep.bindings name
      have first := run_binding (σ := Recording) name s
      have second := run_binding (σ := KeyCheck) name t
      cases isFirst : s.1.bindings.lookup name <;> cases isSecond : t.1.bindings.lookup name <;>
        rw [isFirst, isSecond] at related <;> rw [isFirst] at first <;> rw [isSecond] at second
      · exact .raised (Step.run_bind_of_error (Step.run_bind_of_error first _) _)
          (Step.run_bind_of_error (Step.run_bind_of_error second _) _) come
      · cases related
      · cases related
      · rename_i reply other
        have firstResult : (Run.result (.variable name) : Run Recording Value).run s =
            (.ok reply.toValue, s) :=
          Step.run_bind_of_ok first _
        have secondResult : (Run.result (.variable name) : Run KeyCheck Value).run t =
            (.ok other.toValue, t) :=
          Step.run_bind_of_ok second _
        exact .ended (Step.run_bind_of_ok firstResult _) (Step.run_bind_of_ok secondResult _) rfl
          come

mutual

/-- A straight statement runs in lockstep. -/
theorem Statement.run_inLockstep
    (quiet : ∀ a : TypeForm, a.HooksReturn start → a.IsQuiet start nested placeholder)
    (statement : Statement)
    (straight : statement.IsStraight start)
    (place : List Nat) :
    InLockstep start Step.anything
      (statement.run (recorder nested) delegate)
      (statement.trace (recorder nested) delegate place)
      (statement.run (keyChecker placeholder) otherDelegate)
      (statement.trace (keyChecker placeholder) otherDelegate place) := by
  cases statement with
  | request on written store => exact request_inLockstep quiet straight place
  | delegate on type store => cases straight
  | forKeys on key body => cases straight
  | untilEnd on body =>
      exact untilEnd_inLockstep on (Statement.runAll_inLockstep quiet body straight place 0)
  | branch subject expected agreed otherwise =>
      exact branch_inLockstep subject expected
        (Statement.runAll_inLockstep quiet agreed straight.1 _ 0)
        (Statement.runAll_inLockstep quiet otherwise straight.2 _ 0)
  | attempt body handler =>
      exact attempt_inLockstep (Statement.runAll_inLockstep quiet body straight.1 _ 0)
        (Statement.runAll_inLockstep quiet handler straight.2 _ 0)
  | give result => exact give_inLockstep straight place
  | fail kind message location =>
      intro unsteady s t _ inStep _ _
      rw [Statement.run, Statement.run, Statement.trace, Statement.trace]
      exact ⟨rfl, .raised rfl rfl (.of_idle inStep rfl (by simp))⟩

/-- Straight statements run in lockstep. -/
theorem Statement.runAll_inLockstep
    (quiet : ∀ a : TypeForm, a.HooksReturn start → a.IsQuiet start nested placeholder)
    (body : List Statement)
    (straight : Statement.AreStraight start body)
    (place : List Nat)
    (number : Nat) :
    InLockstep start Step.anything
      (Statement.runAll (recorder nested) delegate body)
      (Statement.traceAll (recorder nested) delegate place number body)
      (Statement.runAll (keyChecker placeholder) otherDelegate body)
      (Statement.traceAll (keyChecker placeholder) otherDelegate place number body) := by
  cases body with
  | nil =>
      intro unsteady s t _ inStep _ _
      rw [Statement.runAll, Statement.runAll, Statement.traceAll, Statement.traceAll]
      exact ⟨rfl, .ended rfl rfl rfl (.of_idle inStep rfl (by simp))⟩
  | cons first rest =>
      have both := (Statement.run_inLockstep quiet first straight.1 (place ++ [number])).seq
        (fun _ _ _ _ => trivial)
        (Statement.runAll_inLockstep quiet rest straight.2 place (number + 1))
      intro unsteady s t held inStep ends blind
      rw [Statement.runAll] at ends ⊢
      rw [Statement.runAll, Statement.traceAll]
      rw [Statement.traceAll] at blind ⊢
      exact both unsteady s t held inStep ends blind

end

end

/-! ## Types whose hooks do not raise -/

/-- The regime of all states whose declared classes can be reached from some. -/
def World.leading (start : World) (allowed : Interrupt → Prop) : Regime Store where
  holds s := start.Reaches s.world
  allows := allowed

section

variable {start : World} {allowed : Interrupt → Prop} {a : TypeForm} {s : Store}

/-- Finding out about the declared classes leads to classes that can be reached. -/
theorem World.leading_inWorld
    {find : Step World α}
    (finds : Alike start.reaching anything find find)
    (returns : ∀ w interrupt, start.Reaches w → (find.run w).1 = .error interrupt →
      allowed interrupt) :
    Alike (start.leading allowed) anything (inWorld find) (inWorld find) := fun s holds =>
  .of_run (finds s.world holds).holds_run (returns s.world · holds) fun _ _ => trivial

/-- Looking up declares nothing but by listing cases. -/
theorem World.leading_keeps (surface : ∀ f, f.kind = .surface → allowed (.fault f)) :
    (start.leading allowed).Keeps fun _ => True where
  surface := surface
  notes _ _ holds := holds
  remembers s scope a caps holds _ := by
    have world : (s.changeRegistry scope fun r => r.remember a caps).world = s.world := by
      unfold Store.changeRegistry
      split <;> rfl
    change start.Reaches _
    rwa [world]
  known _ _ _ _ _ _ _ _ := trivial
  declared _ _ _ _ _ := trivial

/-- Classes that can be reached survive probing. -/
theorem World.leading_survives :
    (start.leading Interrupt.IsAny).Survives start fun _ => True where
  interrupts _ := trivial
  looks :=
    { World.leading_keeps fun _ _ => trivial with
      cases := fun c => World.leading_inWorld (classCases_alike start.reaching_resolves c)
        fun _ _ _ _ => trivial }
  besides _ _ _ holds := holds
  finds _ finds := World.leading_inWorld finds fun _ _ _ _ => trivial

/-- Looking up a type whose hooks do not raise fails only if it is no type. -/
theorem TypeForm.HooksReturn.lookup_alike
    (returns : a.HooksReturn start) :
    Alike (start.leading Interrupt.IsSurface) (fun caps => caps.IsAccepted fun _ => True)
      (lookup .current a) (lookup .current a) := by
  refine lookup_alike_of_lists (World.leading_keeps fun _ isSurface => isSurface) .current
    fun c isListed => ?_
  refine World.leading_inWorld (classCases_alike start.reaching_resolves c)
    fun w interrupt reaches interrupted => ?_
  obtain ⟨values, reached, ran⟩ := returns c isListed w reaches
  rw [ran] at interrupted
  cases interrupted

/-- A nested probe raises nothing if looking up fails only for what is no type. -/
theorem nestedProbe_ne_fault
    (surface : ∀ f, ((lookup .current a).run s).1 = .error (.fault f) → f.kind = .surface)
    (depth : Nat)
    (path : Path)
    (f : Fault) :
    ((nestedProbe (probe depth) a path).run s).1 ≠ .error (.fault f) := by
  rw [nestedProbe, Step.recover]
  cases probed : (probe depth a path).run s with
  | mk outcome reached =>
      have attempted := run_attempt (probe depth a path) s
      rw [probed] at attempted
      cases outcome with
      | ok found =>
          rw [run_bind_of_ok attempted]
          intro failed
          cases failed
      | error interrupt =>
          cases interrupt with
          | exhausted =>
              rw [run_bind_of_error attempted]
              intro failed
              cases failed
          | fault g =>
              have isSurface : g.kind = .surface := by
                cases depth with
                | zero => cases probed
                | succ depth => exact surface g ((probe_fault_iff depth path).mp (by rw [probed]))
              rw [run_bind_of_ok attempted]
              simp only [isSurface, beq_self_eq_true, if_true]
              intro failed
              cases failed

/-- What stands in for a type is found if looking it up fails only for what is no
type. -/
theorem exists_placeholderOf
    (surface : ∀ f, ((lookup .current a).run s).1 = .error (.fault f) → f.kind = .surface) :
    ∃ v reached, (placeholderOf a).run s = (.ok v, reached) := by
  cases found : (lookup .current a).run s with
  | mk outcome reached =>
      cases outcome with
      | error interrupt =>
          cases interrupt with
          | exhausted => exact absurd (congrArg Prod.fst found) (lookup_ends .current a s)
          | fault f =>
              have failed := congrArg Prod.fst found
              obtain ⟨last, ran⟩ := placeholderOf_surface failed (surface f failed)
              exact ⟨.null, last, ran⟩
      | ok caps =>
          have attempted := run_attempt (lookup .current a) s
          rw [found] at attempted
          rw [placeholderOf, run_bind_of_ok attempted]
          dsimp only
          rw [run_bind_of_ok (run_current reached)]
          split <;> exact ⟨_, _, rfl⟩

/-- Types whose hooks do not raise are quiet. -/
theorem TypeForm.HooksReturn.isQuiet
    (returns : a.HooksReturn start)
    (depth : Nat) :
    a.IsQuiet start (nestedProbe (probe depth)) placeholderOf := by
  have faults : (start.leading Interrupt.IsAny).AllowsFaults := fun _ => trivial
  have survives : (start.leading Interrupt.IsAny).Survives start fun _ => True :=
    World.leading_survives
  have surface (s : Store) (reaches : start.Reaches s.world) (f : Fault)
      (failed : ((lookup .current a).run s).1 = .error (.fault f)) : f.kind = .surface :=
    (returns.lookup_alike s reaches).allows_run failed
  refine ⟨fun path s reaches => ?_, fun path s f reaches => ?_, fun t reaches => ?_⟩
  · have alike := nestedProbe_alike faults (fun _ _ holds => holds) (survives.probe depth a path)
    exact (alike s reaches).holds_run
  · exact nestedProbe_ne_fault (surface s reaches) depth path f
  · obtain ⟨v, reached, ran⟩ := exists_placeholderOf (surface t reaches)
    refine ⟨v, reached, ran, ?_⟩
    have holds : start.Reaches ((placeholderOf a).run t).2.world :=
      (placeholderOf_alike faults (SchemaProbe.lookup_alike survives.looks .current a) t
        reaches).holds_run
    rwa [ran] at holds

end

/-! ## Both passes of a probe -/

/-- The marks of a program in the first pass. -/
def recordedMarks
    (nested : NestedProbe)
    (body : Program)
    (path : Path)
    (s : Store) :
    List Mark :=
  body.trace (recorder nested) (Reader.runTo (recorder nested) 255) (Recorder.decoder path)
    (.start, s)

/-- How the statements of a program end in the first pass. -/
def recordedEnding
    (nested : NestedProbe)
    (body : Program)
    (path : Path)
    (s : Store) :
    Ending :=
  body.ending (recorder nested) (Reader.runTo (recorder nested) 255) (Recorder.decoder path)
    (.start, s)

/-- The marks of a program in the second pass. -/
def checkedMarks
    (body : Program)
    (t : Store) :
    List Mark :=
  body.trace (keyChecker placeholderOf) (Reader.runTo (keyChecker placeholderOf) 255)
    (Recorder.decoder []) (.start, t)

/-- How the statements of a program end in the second pass. -/
def checkedEnding
    (body : Program)
    (t : Store) :
    Ending :=
  body.ending (keyChecker placeholderOf) (Reader.runTo (keyChecker placeholderOf) 255)
    (Recorder.decoder []) (.start, t)

section

variable {body : Program} {maker : Maker} {path : Path} {depth : Nat} {s t between : Store}
  {outcome : Except Interrupt Value} {recording : Recording}

/-- A program starts in step. -/
theorem inStep_start
    {start : World}
    (path : Path)
    (reaches : start.Reaches s.world)
    (checks : start.Reaches t.world) :
    InStep start ["d"] (.start .start (Recorder.decoder path), s)
      (.start .start (Recorder.decoder []), t) where
  bindings name := by
    rw [Frame.start, Frame.start, List.lookup_cons, List.lookup_cons]
    cases name == "d" with
    | true => exact .some (.handle ⟨rfl, rfl, nofun, nofun⟩)
    | false => exact .none
  steady name isSteady := by
    have different : (name == "d") = false := by simpa using isSteady
    rw [Frame.start, Frame.start, List.lookup_cons, List.lookup_cons, different]
  keepsUp := ⟨rfl, nofun⟩
  reaches := reaches
  checks := checks

/-- A pass of a program ends with what its statements reach. -/
theorem Program.run_surface
    {σ : Type}
    {surface : Surface σ}
    {delegate : Delegate σ}
    {decoder : Handle}
    {start : σ}
    {ended : Except Interrupt Outcome}
    {reached : Frame σ × Store}
    (maker : Maker)
    (ran : (Statement.runAll surface delegate body).run (.start start decoder, s) =
      (ended, reached)) :
    ∃ result : Except Interrupt Value,
      (Program.run surface delegate maker body decoder).run (start, s) =
          (result, reached.1.surface, reached.2) ∧
        (result = .error .exhausted ↔ ended = .error .exhausted) := by
  let shown (r : Except Interrupt Value × Frame σ × Store) := (r.1, r.2.1.surface, r.2.2)
  cases ended with
  | error interrupt =>
      have whole : (Statement.runAll surface delegate body >>= fun outcome =>
          outcome.result maker).run (.start start decoder, s) = (.error interrupt, reached) :=
        run_bind_of_error ran _
      exact ⟨.error interrupt, congrArg shown whole, by simp⟩
  | ok outcome =>
      obtain ⟨value, made⟩ := result_final (σ := σ) maker outcome reached
      have whole : (Statement.runAll surface delegate body >>= fun outcome =>
          outcome.result maker).run (.start start decoder, s) =
            (value.mapError .fault, reached) :=
        (run_bind_of_ok ran _).trans made
      exact ⟨value.mapError .fault, congrArg shown whole, by cases value <;> simp [Except.mapError]⟩

/-- Statements that end in step end in the same way. -/
theorem EndInStep.endings
    {start : World}
    {unsteady : List String}
    {marks : List Mark}
    {ended : Except Interrupt Outcome}
    {first reached : Frame Recording × Store}
    {second : Frame KeyCheck × Store}
    {run : Except Interrupt Outcome × Frame KeyCheck × Store}
    (ends : EndInStep start unsteady Outcome.Resembles marks first second (ended, reached) run) :
    ∃ otherEnded other, run = (otherEnded, other) ∧ Ending.of otherEnded = Ending.of ended ∧
      otherEnded ≠ .error .exhausted ∧
      StaysInStep start unsteady marks first second reached other := by
  cases ends with
  | ended firstRan secondRan alike stays =>
      cases firstRan
      exact ⟨_, _, secondRan, alike.symm, nofun, stays⟩
  | raised firstRan secondRan stays =>
      cases firstRan
      exact ⟨_, _, secondRan, rfl, nofun, stays⟩

/-- Both passes of a straight program that tests nothing it read leave the same marks
and end in the same way, and the second one finds open what the first one was asked
for. -/
theorem passes_lockstep
    (straight : Statement.AreStraight s.world body)
    (first : (firstPass (nestedProbe (probe depth)) (.program maker body) path).run s =
      (.ok (outcome, recording), between))
    (ends : outcome ≠ .error .exhausted)
    (blind : areBlind ["d"] (recordedMarks (nestedProbe (probe depth)) body path s) = true)
    (later : s.world.Reaches t.world) :
    (checkedMarks body t = recordedMarks (nestedProbe (probe depth)) body path s ∧
      checkedEnding body t = recordedEnding (nestedProbe (probe depth)) body path s) ∧
      s.world.Reaches between.world ∧
      ∃ result check after, (secondPass (.program maker body)).run t = (.ok (result, check), after) ∧
        result ≠ .error .exhausted ∧
        ∀ p, (recording.sawKeyed = true ∧ p ∈ check.openPaths) ↔
          .asked .keyed p .allKeys ∈ recordedMarks (nestedProbe (probe depth)) body path s := by
  let nested := nestedProbe (probe depth)
  let shown {σ : Type} (r : Except Interrupt Value × σ × Store) :
      Except Interrupt (Except Interrupt Value × σ) × Store :=
    (.ok (r.1, r.2.1), r.2.2)
  have lockstep : InLockstep s.world Step.anything
      (Statement.runAll (recorder nested) (Reader.runTo (recorder nested) 255) body) _
      (Statement.runAll (keyChecker placeholderOf) (Reader.runTo (keyChecker placeholderOf) 255)
        body) _ :=
    Statement.runAll_inLockstep (fun a returns => returns.isQuiet depth) body straight [] 0
  cases firstRan : (Statement.runAll (recorder nested) (Reader.runTo (recorder nested) 255)
      body).run (.start .start (Recorder.decoder path), s) with
  | mk ended reached =>
      obtain ⟨found, ran, isExhausted⟩ := Program.run_surface maker firstRan
      have passed : (firstPass nested (.program maker body) path).run s =
          (.ok (found, reached.1.surface), reached.2) :=
        congrArg shown ran
      rw [passed] at first
      cases first
      have inStep := inStep_start path .start later
      have runEnds : ((Statement.runAll (recorder nested) (Reader.runTo (recorder nested) 255)
          body).run (.start .start (Recorder.decoder path), s)).1 ≠ .error .exhausted := by
        rw [firstRan]
        exact fun same => ends (isExhausted.mpr same)
      obtain ⟨same, ends⟩ := lockstep ["d"] _ _ trivial inStep runEnds blind
      rw [firstRan] at ends
      obtain ⟨otherEnded, other, secondRan, sameEnding, otherEnds, stays⟩ := ends.endings
      obtain ⟨result, checked, otherExhausted⟩ := Program.run_surface maker secondRan
      have second : (secondPass (.program maker body)).run t =
          (.ok (result, other.1.surface), other.2) :=
        congrArg shown checked
      refine ⟨⟨same, ?_⟩, stays.inStep.reaches, result, other.1.surface, other.2, second,
        fun isEnd => otherEnds (otherExhausted.mp isEnd), fun p => ?_⟩
      · rw [checkedEnding, recordedEnding, Program.ending, Program.ending, secondRan]
        exact sameEnding.trans (congrArg (fun r => Ending.of r.1) firstRan.symm)
      · have opens := stays.opens p
        have nothing : p ∉ (Frame.start KeyCheck.start (Recorder.decoder [])).surface.openPaths :=
          List.not_mem_nil
        rw [or_iff_right nothing] at opens
        refine Iff.trans ?_ opens
        exact ⟨fun isOpen => isOpen.2, fun isOpen =>
          ⟨stays.inStep.keepsUp.opened p isOpen, isOpen⟩⟩

/-- A reading that was recorded without using up a bound is concluded if its second
pass does not use one up either. -/
theorem exists_probeReading
    {nested : NestedProbe}
    {reader : Reader}
    (caps : Capabilities)
    (first : (firstPass nested reader path).run s = (.ok (outcome, recording), between))
    (ends : outcome ≠ .error .exhausted)
    (second : ∀ events, ∃ result check after,
      (secondPass reader).run (between.withEvents events) = (.ok (result, check), after) ∧
        result ≠ .error .exhausted) :
    ∃ shape value last, (probeReading nested caps reader path).run s =
      (.ok (shape, value), last) := by
  have concludes (value : Value) (events : List Event) : ∃ shape v last,
      (concludeReading caps reader recording value).run (between.withEvents events) =
        (.ok (shape, v), last) := by
    let shown (r : Except Interrupt Value × KeyCheck × Store) :
        Except Interrupt (Except Interrupt Value × KeyCheck) × Store :=
      (.ok (r.1, r.2.1), r.2.2)
    have checked : ∃ openPaths after,
        ((if recording.sawKeyed then checkKeys caps.name reader else pure [] :
          Step Store (List Path)).run (between.withEvents events)) = (.ok openPaths, after) := by
      cases recording.sawKeyed with
      | false => exact ⟨[], _, rfl⟩
      | true =>
          obtain ⟨result, check, after, passed, notExhausted⟩ := second events
          cases ran : (reader.run (keyChecker placeholderOf) (Recorder.decoder [])).run
              (.start, between.withEvents events) with
          | mk found reached =>
              have same : shown (found, reached) = (.ok (result, check), after) :=
                (congrArg shown ran).symm.trans passed
              cases same
              obtain ⟨later, isChecked⟩ := checkKeys_of_run caps.name ran notExhausted
              exact ⟨_, _, isChecked⟩
    obtain ⟨openPaths, after, found⟩ := checked
    rw [concludeReading, run_bind_of_ok found]
    dsimp only
    split <;> exact ⟨_, _, _, rfl⟩
  rw [probeReading_eq]
  have passed : (Step.beside Recording.start
      (reader.run (recorder nested) (Recorder.decoder path))).run s =
        (.ok (outcome, recording), between) :=
    first
  rw [run_bind_of_ok passed]
  cases outcome with
  | ok v => exact concludes v between.events
  | error interrupt =>
      cases interrupt with
      | exhausted => exact absurd rfl ends
      | fault f => exact concludes caps.placeholder (between.events ++ [.failed caps.name path f])

/-- The two passes of a type with a straight program that tests nothing it read run in
lockstep if the first one terminates: in every state that it can lead to, the second
pass leaves the same marks and ends at the same statement in the same way; the type is
described; and a keyed container is open in its tree exactly if the first pass asked
one for all its keys where it stands. -/
theorem probe_lockstep
    (caps : Capabilities)
    (straight : Statement.AreStraight s.world body)
    (first : (firstPass (nestedProbe (probe depth)) (.program maker body) path).run s =
      (.ok (outcome, recording), between))
    (ends : outcome ≠ .error .exhausted)
    (blind : areBlind ["d"] (recordedMarks (nestedProbe (probe depth)) body path s) = true) :
    (∀ t : Store, s.world.Reaches t.world →
      checkedMarks body t = recordedMarks (nestedProbe (probe depth)) body path s ∧
        checkedEnding body t = recordedEnding (nestedProbe (probe depth)) body path s) ∧
      ∃ shape value last,
        (probeReading (nestedProbe (probe depth)) caps (.program maker body) path).run s =
            (.ok (shape, value), last) ∧
          ∀ id p header isFixed fields items nullKeys,
            recording.Shows shape id p (.keyed header isFixed fields) →
            recording.nodes[id]? = some (.keyed items nullKeys) →
              (isFixed = false ↔
                .asked .keyed p .allKeys ∈
                  recordedMarks (nestedProbe (probe depth)) body path s) := by
  have passes {t : Store} (later : s.world.Reaches t.world) :=
    passes_lockstep straight first ends blind later
  have reaches : s.world.Reaches between.world := (passes (t := s) .start).2.1
  refine ⟨fun t later => (passes later).1, ?_⟩
  obtain ⟨shape, value, last, probed⟩ := exists_probeReading caps first ends fun events => by
    obtain ⟨-, -, result, check, after, second, notExhausted, -⟩ :=
      passes (t := between.withEvents events) reaches
    exact ⟨result, check, after, second, notExhausted⟩
  refine ⟨shape, value, last, probed, fun id p header isFixed fields items nullKeys shows isKeyed => ?_⟩
  obtain ⟨-, events, _, check, _, -, second, concludes⟩ := probeReading_passes first probed
  obtain ⟨-, -, _, _, _, otherSecond, -, opens⟩ := passes (t := between.withEvents events) reaches
  rw [second] at otherSecond
  cases otherSecond
  exact (shows.isFixed_iff concludes isKeyed).trans (opens p)

end

/-! ## A program in lockstep -/

/-- Built-in classes have no hooks that raise. -/
theorem TypeTerm.isRequested_builtin
    (start : World)
    (b : Builtin) :
    (TypeTerm.known (.builtin b)).IsRequested start where
  steady := .inl fun w _ => ⟨_, w, rfl⟩
  returns w a reached _ resolved := by
    cases resolved
    intro c isListed v _
    cases isListed
    exact ⟨v.members? (.builtin b), v, rfl⟩

/-- A ledger has any fields beside its rows, which are numbers, and a part that is read
after something else has failed. -/
def ledgerProgram : Program :=
  [.request "d" .openKeyed (some "ledger"),
    .request "ledger" .allKeys none,
    .request "ledger" (.nestedUnkeyed (some (.literal "rows"))) (some "rows"),
    .untilEnd "rows" [.request "rows" (.decode (.known (.builtin .int)) none) none],
    .attempt [.fail .decoding "unreadable" []]
      [.request "ledger" (.nestedKeyed (some (.literal "notes"))) (some "notes")]]

/-- What the first pass records of a ledger. -/
def ledgerRecording : Recording :=
  ⟨[.decoder (some 1), .keyed [("rows", some (.node 2)), ("notes", some (.node 3))] [],
    .unkeyed [.shape (.single (.of (some (.builtin .int))) .int)] false, .keyed [] []], true⟩

/-- The first pass of a ledger. -/
def ledgerPass : Except Interrupt (Except Interrupt Value × Recording) × Store :=
  (firstPass (nestedProbe (probe 1)) (.program .nothing ledgerProgram) []).run .initial

set_option maxRecDepth 20000 in
/-- The first pass of a ledger reads one row. -/
theorem ledgerPass_eq :
    (firstPass (nestedProbe (probe 1)) (.program .nothing ledgerProgram) []).run .initial =
      (.ok (.ok (.object anonymousClass (some [.list [.text ""], .int 0])), ledgerRecording),
        ledgerPass.2) := by
  refine Prod.ext ?_ rfl
  cbv

/-- A ledger is read by a straight program. -/
theorem areStraight_ledger (start : World) : Statement.AreStraight start ledgerProgram := by
  have literal (name : String) :
      ∀ key : KeyTerm, some (KeyTerm.literal name) = some key → ∃ name, key = .literal name := by
    rintro _ ⟨⟩
    exact ⟨name, rfl⟩
  have row : (Statement.request "rows" (.decode (.known (.builtin .int)) none) none).IsStraight
      start := by
    refine ⟨nofun, ?_⟩
    rintro _ ⟨⟩
    exact TypeTerm.isRequested_builtin start .int
  exact ⟨⟨nofun, nofun⟩, ⟨nofun, nofun⟩, ⟨literal _, nofun⟩, ⟨row, trivial⟩,
    ⟨⟨trivial, trivial⟩, ⟨literal _, nofun⟩, trivial⟩, trivial⟩

set_option maxRecDepth 20000 in
/-- A ledger is read in lockstep, and open if it was asked for its keys. -/
theorem probe_lockstep_ledger :
    checkedMarks ledgerProgram .initial =
        recordedMarks (nestedProbe (probe 1)) ledgerProgram [] .initial ∧
      ∃ shape value last,
        (probeReading (nestedProbe (probe 1)) (.named .any "Ledger")
            (.program .nothing ledgerProgram) []).run .initial = (.ok (shape, value), last) ∧
          ∀ header isFixed fields,
            ledgerRecording.Shows shape 1 [] (.keyed header isFixed fields) →
              (isFixed = false ↔ .asked .keyed [] .allKeys ∈
                recordedMarks (nestedProbe (probe 1)) ledgerProgram [] .initial) := by
  have blind : areBlind ["d"]
      (recordedMarks (nestedProbe (probe 1)) ledgerProgram [] .initial) = true := by
    cbv
  have ends : (Except.ok (.object anonymousClass (some [.list [.text ""], .int 0])) :
      Except Interrupt Value) ≠ .error .exhausted := by
    intro exhausted
    cases exhausted
  obtain ⟨passes, shape, value, last, probed, isOpen⟩ :=
    probe_lockstep (.named .any "Ledger") (areStraight_ledger _) ledgerPass_eq ends blind
  exact ⟨(passes .initial .start).1, shape, value, last, probed,
    fun _ _ _ shows => isOpen _ _ _ _ _ _ _ shows rfl⟩

end SchemaProbe

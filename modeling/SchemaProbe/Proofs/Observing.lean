import SchemaProbe.Description
import SchemaProbe.Proofs.ProbingAlike
import SchemaProbe.Proofs.ShownTypes
import SchemaProbe.Proofs.Terminating

namespace SchemaProbe

/-!
# Probing under observation

An observer is let in at every moment of a description: before and after each probe of a
type, however it ends, right after a type is entered into the guard and right before it is
left, and before and after each request that the type makes in both of its passes.  It is
told of the types that have been entered and not left, the innermost first, and may do
anything.  What an observer cannot make a difference to is never there to be seen.

A bound that is used up ends the whole description, so nothing happens after it; under
observation the guard is then put back to what it was.
-/

open Step

namespace Step

/-- Looks before a step and after it, however it ends. -/
def watched (look : Step σ Unit) (step : Step σ α) : Step σ α := do
  look
  let result ← attempt step
  look
  ofExcept result

/-- Puts the guard back where a bound is used up. -/
def restoring (step : Step Store α) : Step Store α :=
  ⟨fun s =>
    match step.run s with
    | (.error .exhausted, reached) => (.error .exhausted, { reached with guard := s.guard })
    | ended => ended⟩

end Step

/-- A surface that is looked at before and after each request. -/
def Surface.watched (look : Step Store Unit) (surface : Surface σ) : Surface σ where
  answer h request := Step.watched (Step.shared look) (surface.answer h request)

/-- What looks on while types are probed, told of the types that have been entered and not
left. -/
abbrev Observer := List Key → Step Store Unit

namespace Observer

/-- The observer that does nothing. -/
def idle : Observer :=
  fun _ => pure ()

/-- The observer that ends a description as soon as it sees one of certain types
entered. -/
def stopping (stops : Key → Bool) : Observer :=
  fun above => if above.any stops then Step.exhausted else pure ()

/-- Enters a type, reads it and leaves it, under observation. -/
def guarded
    (o : Observer)
    (above : List Key)
    (nested : NestedProbe)
    (caps : Capabilities)
    (reader : Reader)
    (path : Path) :
    Step Store (Shape × Value) :=
  let look := o (caps.type.identity :: above)
  Step.restoring do
    Step.changeGuard fun g => g.enter caps.type
    let (shape, value) ←
      Step.watched look
        (probeReadingOn ((recorder nested).watched look) ((keyChecker placeholderOf).watched look)
          caps reader path)
    Step.changeGuard fun g => g.complete caps.type shape value
    pure (shape, value)

/-- The probe of a type below others, under observation. -/
def probe (o : Observer) : Nat → List Key → NestedProbe
  | 0, _ => fun _ _ => Step.exhausted
  | depth + 1, above => fun a path =>
    Step.watched (o above)
      (probeBy (fun caps reader =>
        o.guarded above (nestedProbe (o.probe depth (caps.type.identity :: above))) caps reader
          path) a path)

end Observer

/-- The shape of a type, by a way of probing types with a guard of its own. -/
def describeThrough (probe : NestedProbe) (a : TypeForm) : Step Store Shape := do
  Step.note .probeStarted
  Step.changeGuard fun _ => .empty
  let (shape, _) ← probe a []
  Step.note (.probeEnded shape.kindName)
  pure shape

/-- The description of a type, under observation. -/
def Observer.describeTo (o : Observer) (depth : Nat) (a : TypeForm) : Step Store Shape :=
  describeThrough (o.probe depth []) a

/-- The state in which a description begins to probe. -/
def Store.opening (s : Store) : Store :=
  (s.withEvents (s.events ++ [.probeStarted])).withGuard .empty

/-- Types are described in the same way if they are probed in the same way. -/
theorem describeThrough_tiedAt
    {B : Bond Store Store}
    {first second : NestedProbe}
    {a : TypeForm}
    {s t : Store}
    (notes : B.Notes)
    (probes : TiedAt B (Same anything) (first a []) (second a []) s.opening t.opening) :
    TiedAt B (Same anything) (describeThrough first a) (describeThrough second a) s t := by
  refine .bind_of_run ?_ (run_update _ s) (run_update _ t)
  refine .bind_of_run ?_ (run_update _ _) (run_update _ _)
  exact TiedAt.bind_same probes fun found reached other ties _ =>
    ((note_tied notes _).bind_same fun _ _ => .pure_same trivial) reached other ties

/-! ## Observers that do nothing -/

namespace Step

/-- To look and do nothing is not to look. -/
@[simp]
theorem watched_idle (step : Step σ α) : watched (pure ()) step = step := by
  apply ext_run
  intro s
  have attempted := run_attempt step s
  cases ended : step.run s with
  | mk outcome reached =>
      rw [ended] at attempted
      rcases outcome with (f | _) | a
      · exact (run_bind_of_ok attempted _).trans rfl
      · exact run_bind_of_error attempted _
      · exact (run_bind_of_ok attempted _).trans rfl

/-- What looks and goes no further ends there. -/
theorem run_watched_exhausted (step : Step σ α) (s : σ) :
    (watched exhausted step).run s = (.error .exhausted, s) :=
  rfl

/-- Steps that end alike do so while the first is looked at by what does nothing where
something holds. -/
theorem Alike.watched
    {R : Regime σ}
    {good : α → Prop}
    {look : Step σ Unit}
    {first second : Step σ α}
    (spares : ∀ s, R.holds s → look.run s = (.ok (), s))
    (alike : Alike R good first second) :
    Alike R good (Step.watched look first) second := by
  intro s holds
  have attempted := run_attempt first s
  cases alike s holds with
  | ok firstRun secondRun reachedHolds isGood =>
      rw [firstRun] at attempted
      refine .ok ?_ secondRun reachedHolds isGood
      exact (run_bind_of_ok (spares s holds) _).trans ((run_bind_of_ok attempted _).trans
        (run_bind_of_ok (spares _ reachedHolds) _))
  | @error interrupt reached firstRun secondRun reachedHolds allowed =>
      rw [firstRun] at attempted
      refine .error ?_ secondRun reachedHolds allowed
      refine (run_bind_of_ok (spares s holds) _).trans ?_
      cases interrupt with
      | fault f => exact (run_bind_of_ok attempted _).trans (run_bind_of_ok (spares _ reachedHolds) _)
      | exhausted => exact run_bind_of_error attempted _

section

variable {s reached : Store} {step : Step Store α}

/-- A step that does not use up a bound ends as it does if the guard is not put back. -/
theorem run_restoring_of_ok
    {a : α}
    (ended : step.run s = (.ok a, reached)) :
    (restoring step).run s = (.ok a, reached) := by
  simp only [restoring, ended]

theorem run_restoring_of_fault
    {f : Fault}
    (ended : step.run s = (.error (.fault f), reached)) :
    (restoring step).run s = (.error (.fault f), reached) := by
  simp only [restoring, ended]

/-- A step that uses up a bound ends with the guard that it started with. -/
theorem run_restoring_of_exhausted
    (ended : step.run s = (.error .exhausted, reached)) :
    (restoring step).run s = (.error .exhausted, reached.withGuard s.guard) := by
  simp only [restoring, ended]
  rfl

end

end Step

/-- To look at a surface and do nothing is not to look. -/
@[simp]
theorem Surface.watched_idle (surface : Surface σ) : surface.watched (pure ()) = surface := by
  obtain ⟨answer⟩ := surface
  have shared : (Step.shared (pure ()) : Step (σ × Store) Unit) = pure () := ext_run fun _ => rfl
  simp only [Surface.watched, shared, Step.watched_idle]

namespace Observer

variable {o : Observer} {above : List Key} {nested : NestedProbe} {caps : Capabilities}
  {reader : Reader} {path : Path} {stops : Key → Bool}

/-- A type is probed as ever between entering and leaving it if nothing is done. -/
theorem guarded_of_idle (isIdle : o (caps.type.identity :: above) = pure ()) :
    o.guarded above nested caps reader path =
      Step.restoring (probeGuarded nested caps reader path) := by
  rw [guarded, probeGuarded, isIdle, Step.watched_idle, Surface.watched_idle, Surface.watched_idle,
    ← probeReading_eq_on]

/-- A type is not left if the observer ends the description when it is entered. -/
theorem run_guarded_of_exhausted
    (isExhausted : o (caps.type.identity :: above) = Step.exhausted)
    (nested : NestedProbe)
    (reader : Reader)
    (path : Path)
    (s : Store) :
    ∃ reached, (o.guarded above nested caps reader path).run s = (.error .exhausted, reached) := by
  rw [guarded, isExhausted]
  have entered : (Step.changeGuard fun g => g.enter caps.type).run s =
      (.ok (), s.withGuard (s.guard.enter caps.type)) :=
    rfl
  exact ⟨_, run_restoring_of_exhausted
    ((run_bind_of_ok entered _).trans (run_bind_of_error (run_watched_exhausted _ _) _))⟩

/-- A type is probed as ever if nothing is done. -/
theorem probe_of_idle
    (isIdle : o above = pure ())
    (depth : Nat)
    (a : TypeForm)
    (path : Path) :
    o.probe (depth + 1) above a path =
      probeBy (fun caps reader =>
        o.guarded above (nestedProbe (o.probe depth (caps.type.identity :: above))) caps reader path)
        a path := by
  rw [probe, isIdle]
  exact Step.watched_idle _

/-- An observer that sees none of the types does nothing. -/
theorem stopping_of_none (unseen : above.any stops = false) :
    stopping stops above = pure () := by
  rw [stopping, unseen]
  rfl

/-- An observer that sees one of the types ends the description. -/
theorem stopping_of_any (seen : above.any stops = true) :
    stopping stops above = Step.exhausted := by
  rw [stopping, if_pos seen]

end Observer

/-! ## What is known of the guard -/

/-- What holds of states whose guard is of a sort. -/
def Regime.guarding (guards : CycleGuard → Prop) : Regime Store where
  holds s := guards s.guard
  allows _ := True

namespace Regime

variable {guards : CycleGuard → Prop}

theorem guarding_allowsFaults : (guarding guards).AllowsFaults :=
  fun _ => trivial

/-- Noting something leaves the guard alone. -/
theorem guarding_notes
    (s : Store)
    (events : List Event)
    (holds : (guarding guards).holds s) :
    (guarding guards).holds (s.withEvents events) :=
  holds

/-- What leaves the guard alone ends like itself. -/
theorem guarding_alike
    {step : Step Store α}
    (ignores : step.IgnoresEvents) :
    Alike (guarding guards) anything step step := by
  intro s holds
  refine .of_run ?_ (fun _ _ => trivial) fun _ _ => trivial
  change guards (step.run s).2.guard
  rw [ignores.guard_eq]
  exact holds

/-- Readers rely on what leaves the guard alone. -/
theorem guarding_reads : (guarding guards).Reads (fun _ => True) fun _ => True := by
  intro reader _ need _
  cases need with
  | forms find => exact (guarding_alike (.inWorld find)).mono fun _ _ _ _ => trivial
  | delegate type => exact guarding_alike (sharedReader_ignoresEvents type)
  | endOfSequence => exact trivial

/-- What stands in for a type is found while the guard is left alone. -/
theorem guarding_placeholderOf (a : TypeForm) :
    Alike (guarding guards) anything (placeholderOf a) (placeholderOf a) :=
  placeholderOf_alike guarding_allowsFaults (guarding_alike (lookup_ignoresEvents .current a))

end Regime

/-! ## Observers that see nothing wrong -/

/-- Whether an observer does nothing where something holds of the types that it is told of
and of the guard. -/
def Observer.Spares (o : Observer) (guards : List Key → CycleGuard → Prop) : Prop :=
  ∀ above s, guards above s.guard → (o above).run s = (.ok (), s)

/-- Whether something holds of the guard and the types above it whenever a type that is not
in progress is entered, and again when it is left. -/
structure CycleGuard.Keeps (guards : List Key → CycleGuard → Prop) : Prop where
  enters : ∀ above g a, guards above g → g.entries.lookup a.identity ≠ some .inProgress →
    guards (a.identity :: above) (g.enter a)
  leaves : ∀ above g a shape value, guards (TypeForm.identity a :: above) g →
    guards above (g.complete a shape value)

section

variable {o : Observer} {guards : List Key → CycleGuard → Prop}

/-- Surfaces that answer alike do so while the first is looked at by what does nothing
where something holds. -/
theorem Surface.AnswersAlike.watched
    {R : Regime Store}
    {met : TypeForm → Prop}
    {first second : Surface σ}
    {look : Step Store Unit}
    (answers : first.AnswersAlike R met second)
    (faults : R.AllowsFaults)
    (endless : R.allows .exhausted)
    (spares : ∀ s, R.holds s → look.run s = (.ok (), s)) :
    (first.watched look).AnswersAlike R met second := by
  have shared (s : σ × Store) (holds : (R.beside σ).holds s) :
      (Step.shared look).run s = (.ok (), s) := by
    rw [Step.shared, run_within, spares s.2 holds]
  exact Surface.answersAlike_of_answer faults endless fun h request isMet =>
    (answers.answer h request isMet).watched shared

/-- Nothing that is wrong is seen while a type is probed that is entered into the guard. -/
theorem Observer.Spares.guarded_alikeAt
    {above : List Key}
    {first second : NestedProbe}
    {caps : Capabilities}
    {reader : Reader}
    {path : Path}
    {s : Store}
    (spares : o.Spares guards)
    (keeps : CycleGuard.Keeps guards)
    (nested : NestedAlike (Regime.guarding (guards (caps.type.identity :: above))) (fun _ => True)
      first second)
    (holds : guards above s.guard)
    (isFree : s.guard.entries.lookup caps.type.identity ≠ some .inProgress) :
    AlikeAt (Regime.guarding (guards above)) anything (o.guarded above first caps reader path)
      (Step.restoring (probeGuarded second caps reader path)) s := by
  let inner := Regime.guarding (guards (caps.type.identity :: above))
  have faults : inner.AllowsFaults := Regime.guarding_allowsFaults
  have looks : ∀ t, inner.holds t → (o (caps.type.identity :: above)).run t = (.ok (), t) :=
    spares (caps.type.identity :: above)
  have recording := (recorder_answersAlike faults nested).watched faults trivial looks
  have checking := (keyChecker_answersAlike (R := inner) faults fun a (_ : True) =>
    Regime.guarding_placeholderOf a).watched faults trivial looks
  have reads : Alike inner.faultless anything
      (probeReadingOn ((recorder first).watched (o (caps.type.identity :: above)))
        ((keyChecker placeholderOf).watched (o (caps.type.identity :: above))) caps reader path)
      (probeReading second caps reader path) := by
    rw [probeReading_eq_on]
    exact probeReadingOn_alike Regime.guarding_notes
      (fun t tHolds => Reader.runTo_alike faults recording Regime.guarding_reads delegationDepth
        trivial (Recorder.decoder path) (.start, t) tHolds)
      fun t tHolds => Reader.runTo_alike faults checking Regime.guarding_reads delegationDepth trivial
        (Recorder.decoder []) (.start, t) tHolds
  have entered : inner.faultless.holds (s.withGuard (s.guard.enter caps.type)) :=
    keeps.enters above _ _ holds isFree
  have enters {next : Step Store (Shape × Value)} :
      (Step.changeGuard (fun g => g.enter caps.type) >>= fun _ => next).run s =
        next.run (s.withGuard (s.guard.enter caps.type)) :=
    run_bind_of_ok (run_update _ s) _
  cases Alike.watched (R := inner.faultless) looks reads _ entered with
  | ok firstRun secondRun reachedHolds _ =>
      exact .ok (run_restoring_of_ok (enters.trans (run_bind_of_ok firstRun _)))
        (run_restoring_of_ok (enters.trans (run_bind_of_ok secondRun _)))
        (keeps.leaves above _ _ _ _ reachedHolds) trivial
  | error firstRun secondRun _ allowed =>
      obtain ⟨rfl, -⟩ := allowed
      exact .error (run_restoring_of_exhausted (enters.trans (run_bind_of_error firstRun _)))
        (run_restoring_of_exhausted (enters.trans (run_bind_of_error secondRun _))) holds trivial

/-- An idle observer probes like a type is probed that is not observed, if guards are put
back where a bound is used up. -/
theorem Observer.idle_probe
    (depth : Nat)
    (above : List Key)
    (a : TypeForm)
    (path : Path) :
    Observer.idle.probe (depth + 1) above a path =
      probeBy (fun caps reader =>
        Step.restoring (probeGuarded
          (nestedProbe (Observer.idle.probe depth (caps.type.identity :: above))) caps reader path))
        a path := by
  rw [Observer.probe_of_idle rfl]
  simp only [guarded_of_idle (o := Observer.idle) rfl]

/-- Nothing that is wrong is seen while types are probed. -/
theorem Observer.Spares.probe_alike
    (spares : o.Spares guards)
    (keeps : CycleGuard.Keeps guards)
    (depth : Nat)
    (above : List Key) :
    NestedAlike (Regime.guarding (guards above)) (fun _ => True) (o.probe depth above)
      (Observer.idle.probe depth above) := by
  induction depth generalizing above with
  | zero => exact fun _ _ _ => .exhausted trivial
  | succ depth inductionHypothesis =>
      intro a _ path
      rw [Observer.idle_probe]
      refine Alike.watched (spares above) fun s holds => ?_
      refine probeBy_alikeAt Regime.guarding_notes
        (Regime.guarding_alike (lookup_ignoresEvents .current a) s holds)
        fun caps reader reached events _ reachedHolds isFree => ?_
      exact spares.guarded_alikeAt keeps (fun b isMet path =>
        nestedProbe_alike Regime.guarding_allowsFaults Regime.guarding_notes
          (inductionHypothesis (caps.type.identity :: above) b isMet path)) reachedHolds isFree

end

end SchemaProbe

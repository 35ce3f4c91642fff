import SchemaProbe.Proofs.TiedProbing

namespace SchemaProbe

/-!
# Readings that come to an end

The shape of a type depends on what its reader records and on the containers that it
leaves open, but not on what it ends with.  So readers that end in different ways, one
with a value and the other with a fault, show the same as long as they come to an end
in states that are tied.
-/

namespace Step

section

variable {B : Bond σ τ} {first : Step σ α} {second : Step τ β} {s : σ} {t : τ}

/-- Whether two steps that run side by side come to an end in states that are tied,
whatever they end with, unless they run out of a bound. -/
inductive StopTiedAt
    (B : Bond σ τ)
    (first : Step σ α)
    (second : Step τ β)
    (s : σ)
    (t : τ) :
    Prop
  | stopped {outcome : Except Interrupt α} {other : Except Interrupt β} {reached : σ} {later : τ} :
      first.run s = (outcome, reached) → second.run t = (other, later) → B.ties reached later →
        outcome ≠ .error .exhausted → other ≠ .error .exhausted → StopTiedAt B first second s t
  | exhausted {reached : σ} {later : τ} :
      first.run s = (.error .exhausted, reached) → second.run t = (.error .exhausted, later) →
        B.ties reached later → B.allows .exhausted → StopTiedAt B first second s t
  | lapsed {reached : σ} :
      first.run s = (.error .exhausted, reached) → B.lapses → StopTiedAt B first second s t

/-- Steps that end tied come to an end in states that are tied. -/
theorem TiedAt.stops
    {good : α → β → Prop}
    (tied : TiedAt B good first second s t) :
    StopTiedAt B first second s t := by
  cases tied with
  | ok firstRun secondRun ties _ => exact .stopped firstRun secondRun ties nofun nofun
  | @error interrupt _ _ firstRun secondRun ties allowed =>
      cases interrupt with
      | fault f => exact .stopped firstRun secondRun ties nofun nofun
      | exhausted => exact .exhausted firstRun secondRun ties allowed
  | lapsed firstRun lapses => exact .lapsed firstRun lapses

/-- Steps that run as others do from other states come to an end as those do. -/
theorem StopTiedAt.congr
    {like : Step σ α}
    {otherLike : Step τ β}
    {s' : σ}
    {t' : τ}
    (stops : StopTiedAt B first second s t)
    (runs : like.run s' = first.run s)
    (otherRuns : otherLike.run t' = second.run t) :
    StopTiedAt B like otherLike s' t' := by
  cases stops with
  | stopped ran otherRan ties bounded otherBounded =>
      exact .stopped (runs.trans ran) (otherRuns.trans otherRan) ties bounded otherBounded
  | exhausted ran otherRan ties allowed =>
      exact .exhausted (runs.trans ran) (otherRuns.trans otherRan) ties allowed
  | lapsed ran lapses => exact .lapsed (runs.trans ran) lapses

/-- Whether a step leaves the state alone and uses up no bound. -/
def LeavesAlone (step : Step σ α) : Prop :=
  ∀ s, ∃ outcome, step.run s = (outcome, s) ∧ outcome ≠ .error .exhausted

/-- Steps that end tied come to an end in states that are tied when they are followed by
steps that leave the states alone. -/
theorem TiedAt.stops_bind
    {good : α → β → Prop}
    {next : α → Step σ α'}
    {others : β → Step τ β'}
    (tied : TiedAt B good first second s t)
    (ends : ∀ a, (next a).LeavesAlone)
    (othersEnd : ∀ b, (others b).LeavesAlone) :
    StopTiedAt B (first >>= next) (second >>= others) s t := by
  cases tied with
  | @ok a b reached later firstRun secondRun ties _ =>
      obtain ⟨outcome, ran, bounded⟩ := ends a reached
      obtain ⟨other, otherRan, otherBounded⟩ := othersEnd b later
      exact .stopped ((run_bind_of_ok firstRun next).trans ran)
        ((run_bind_of_ok secondRun others).trans otherRan) ties bounded otherBounded
  | @error interrupt _ _ firstRun secondRun ties allowed =>
      cases interrupt with
      | fault f =>
          exact .stopped (run_bind_of_error firstRun next) (run_bind_of_error secondRun others) ties
            nofun nofun
      | exhausted =>
          exact .exhausted (run_bind_of_error firstRun next) (run_bind_of_error secondRun others) ties
            allowed
  | lapsed firstRun lapses => exact .lapsed (run_bind_of_error firstRun next) lapses

end

end Step

open Step

/-- Whether states stay tied whatever is noted in them. -/
def Bond.IgnoresEvents (B : Bond Store Store) : Prop :=
  ∀ s t events others, B.ties s t → B.ties (s.withEvents events) (t.withEvents others)

/-- The shape that a type makes of what was recorded and is open. -/
def Capabilities.concluded
    (caps : Capabilities)
    (recording : Recording)
    (openPaths : List Path) :
    Shape :=
  match caps.cases with
  | some labels => (recording.finish (some caps.type) openPaths).withCases caps.type labels
  | none => recording.finish (some caps.type) openPaths

/-- Whether two shapes are what two types make of the same recording and the same open
paths. -/
def Capabilities.ConcludesAlike
    (caps other : Capabilities)
    (keeps : Recording → Prop)
    (opens : List Path → Prop)
    (a b : Shape × Value) :
    Prop :=
  ∃ recording openPaths, keeps recording ∧ opens openPaths ∧
    a.1 = caps.concluded recording openPaths ∧ b.1 = other.concluded recording openPaths

section

variable {B : Bond Store Store} {first second : NestedProbe} {caps other : Capabilities}
  {reader otherReader : Reader} {path : Path} {s t : Store} {opens : List Path → Prop}

/-- A probe concludes what the first pass recorded, whatever that ended with. -/
theorem probeReading_of_run
    {outcome : Except Interrupt Value}
    {recording : Recording}
    {between : Store}
    (ran : (reader.run (recorder first) (Recorder.decoder path)).run (.start, s) =
      (outcome, recording, between))
    (bounded : outcome ≠ .error .exhausted)
    (caps : Capabilities) :
    ∃ value events, (probeReading first caps reader path).run s =
      (concludeReading caps reader recording value).run (between.withEvents events) := by
  have passed : (Step.beside Recording.start
      (reader.run (recorder first) (Recorder.decoder path))).run s =
        (.ok (outcome, recording), between) := by
    unfold Step.beside
    simp only [ran]
  rw [probeReading_eq, run_bind_of_ok passed]
  cases outcome with
  | ok value => exact ⟨value, between.events, rfl⟩
  | error interrupt =>
      cases interrupt with
      | fault f => exact ⟨caps.placeholder, _, rfl⟩
      | exhausted => exact absurd rfl bounded

/-- A probe whose first pass runs out of a bound does so. -/
theorem probeReading_of_exhausted
    {reached : Recording × Store}
    (ran : (reader.run (recorder first) (Recorder.decoder path)).run (.start, s) =
      (.error .exhausted, reached))
    (caps : Capabilities) :
    (probeReading first caps reader path).run s = (.error .exhausted, reached.2) := by
  have passed : (Step.beside Recording.start
      (reader.run (recorder first) (Recorder.decoder path))).run s =
        (.ok (.error .exhausted, reached.1), reached.2) := by
    unfold Step.beside
    simp only [ran]
  rw [probeReading_eq, run_bind_of_ok passed]
  rfl

/-- A second pass that runs out of a bound finds nothing out. -/
theorem checkKeys_of_exhausted
    {reached : KeyCheck × Store}
    (ran : (reader.run (keyChecker placeholderOf) (Recorder.decoder [])).run (.start, s) =
      (.error .exhausted, reached))
    (name : String) :
    (checkKeys name reader).run s = (.error .exhausted, reached.2) := by
  have passed : (Step.beside KeyCheck.start
      (reader.run (keyChecker placeholderOf) (Recorder.decoder []))).run s =
        (.ok (.error .exhausted, reached.1), reached.2) := by
    unfold Step.beside
    simp only [ran]
  rw [checkKeys, run_bind_of_ok passed]
  rfl

/-- The same keys are found open if the second passes come to an end in states that are
tied. -/
theorem checkKeys_tiedAt
    (ignores : B.IgnoresEvents)
    (name otherName : String)
    (checks : StopTiedAt (B.alongside fun check : KeyCheck => opens check.openPaths)
      (reader.run (keyChecker placeholderOf) (Recorder.decoder []))
      (otherReader.run (keyChecker placeholderOf) (Recorder.decoder [])) (.start, s) (.start, t)) :
    TiedAt B (Same opens) (checkKeys name reader) (checkKeys otherName otherReader) s t := by
  cases checks with
  | stopped ran otherRan ties bounded otherBounded =>
      obtain ⟨events, checked⟩ := checkKeys_of_run name ran bounded
      obtain ⟨others, otherChecked⟩ := checkKeys_of_run otherName otherRan otherBounded
      rw [← ties.1.1] at otherChecked
      exact .ok checked otherChecked (ignores _ _ events others ties.2) ⟨rfl, ties.1.2⟩
  | exhausted ran otherRan ties allowed =>
      exact .error (checkKeys_of_exhausted ran name) (checkKeys_of_exhausted otherRan otherName)
        ties.2 allowed
  | lapsed ran lapses => exact .lapsed (checkKeys_of_exhausted ran name) lapses

/-- A probe concludes with the shape that the type makes of what was recorded. -/
theorem concludeReading_eq
    (caps : Capabilities)
    (reader : Reader)
    (recording : Recording)
    (value : Value) :
    concludeReading caps reader recording value =
      (if recording.sawKeyed then checkKeys caps.name reader else pure [] :
        Step Store (List Path)) >>= fun openPaths =>
          pure (caps.concluded recording openPaths, value) := by
  unfold concludeReading
  refine congrArg _ (funext fun openPaths => ?_)
  unfold Capabilities.concluded
  cases caps.cases <;> rfl

/-- A recording is concluded in the same way if the second passes come to an end in
states that are tied. -/
theorem concludeReading_tiedAt
    {keeps : Recording → Prop}
    {recording : Recording}
    (ignores : B.IgnoresEvents)
    (isKept : keeps recording)
    (unopened : opens [])
    (checks : StopTiedAt (B.alongside fun check : KeyCheck => opens check.openPaths)
      (reader.run (keyChecker placeholderOf) (Recorder.decoder []))
      (otherReader.run (keyChecker placeholderOf) (Recorder.decoder [])) (.start, s) (.start, t))
    (ties : B.ties s t)
    (value otherValue : Value) :
    TiedAt B (caps.ConcludesAlike other keeps opens) (concludeReading caps reader recording value)
      (concludeReading other otherReader recording otherValue) s t := by
  have found : TiedAt B (Same opens)
      (if recording.sawKeyed then checkKeys caps.name reader else pure [] : Step Store (List Path))
      (if recording.sawKeyed then checkKeys other.name otherReader else pure []) s t := by
    split
    · exact checkKeys_tiedAt ignores caps.name other.name checks
    · exact .pure ties ⟨rfl, unopened⟩
  rw [concludeReading_eq, concludeReading_eq]
  exact found.bind_same fun openPaths _ _ reachedTies isOpen =>
    .pure reachedTies ⟨recording, openPaths, isKept, isOpen, rfl, rfl⟩

/-- Types make their shapes of the same recording, if not the same values, when both
passes come to an end in states that are tied. -/
theorem probeReading_tiedAt
    {keeps : Recording → Prop}
    (ignores : B.IgnoresEvents)
    (records : StopTiedAt (B.alongside keeps)
      (reader.run (recorder first) (Recorder.decoder path))
      (otherReader.run (recorder second) (Recorder.decoder path)) (.start, s) (.start, t))
    (unopened : opens [])
    (checks : ∀ reached later, B.ties reached later →
      StopTiedAt (B.alongside fun check : KeyCheck => opens check.openPaths)
        (reader.run (keyChecker placeholderOf) (Recorder.decoder []))
        (otherReader.run (keyChecker placeholderOf) (Recorder.decoder []))
        (.start, reached) (.start, later)) :
    TiedAt B (caps.ConcludesAlike other keeps opens) (probeReading first caps reader path)
      (probeReading second other otherReader path) s t := by
  cases records with
  | @stopped _ _ reached later ran otherRan ties bounded otherBounded =>
      obtain ⟨value, events, probed⟩ := probeReading_of_run ran bounded caps
      obtain ⟨otherValue, others, otherProbed⟩ := probeReading_of_run otherRan otherBounded other
      rw [← ties.1.1] at otherProbed
      have reachedTies := ignores _ _ events others ties.2
      have concludes : TiedAt B (caps.ConcludesAlike other keeps opens)
          (concludeReading caps reader reached.1 value)
          (concludeReading other otherReader reached.1 otherValue)
          (reached.2.withEvents events) (later.2.withEvents others) :=
        concludeReading_tiedAt ignores ties.1.2 unopened (checks _ _ reachedTies) reachedTies value
          otherValue
      cases concludes with
      | ok concluded otherConcluded lastTies isAlike =>
          exact .ok (probed.trans concluded) (otherProbed.trans otherConcluded) lastTies isAlike
      | error concluded otherConcluded lastTies allowed =>
          exact .error (probed.trans concluded) (otherProbed.trans otherConcluded) lastTies allowed
      | lapsed concluded lapses => exact .lapsed (probed.trans concluded) lapses
  | exhausted ran otherRan ties allowed =>
      exact .error (probeReading_of_exhausted ran caps) (probeReading_of_exhausted otherRan other)
        ties.2 allowed
  | lapsed ran lapses => exact .lapsed (probeReading_of_exhausted ran caps) lapses

end

end SchemaProbe

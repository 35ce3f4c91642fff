import SchemaProbe.Proofs.Requesting

namespace SchemaProbe

/-!
# Probing alike

Probes that go down to different depths end alike as long as the probes of
nested types do.  Reading a type raises no fault, because the faults of its
reader are noted and what was recorded before them is kept.
-/

open Step

section

variable {R outer inner : Regime Store} {first second : NestedProbe} {caps : Capabilities}
  {reader : Reader} {path : Path} {a : TypeForm} {s : Store}

/-- Noting something keeps a state tied to itself that it keeps as it has to be. -/
theorem Regime.bond_notes
    (notes : ∀ s events, R.holds s → R.holds (s.withEvents events)) :
    R.bond.Notes := by
  rintro s _ e ⟨rfl, holds⟩
  exact ⟨rfl, notes s _ holds⟩

/-- What stands in for a type is found like itself if the type is looked up like
itself. -/
theorem placeholderOf_alike
    {good : Capabilities → Prop}
    (faults : R.AllowsFaults)
    (looks : Alike R good (lookup .current a) (lookup .current a)) :
    Alike R anything (placeholderOf a) (placeholderOf a) := by
  refine tied_iff_alike.mp (placeholderOf_tied (B := R.bond) faults (tied_iff_alike.mpr looks) ?_ ?_)
  · rintro caps _ ⟨rfl, -⟩
    rfl
  · rintro caps _ s _ ⟨rfl, -⟩ ⟨rfl, -⟩
    rfl

/-- A type is read alike from two surfaces each, and without a fault. -/
theorem probeReadingOn_alike
    {recordingOn otherRecordingOn : Surface Recording}
    {checker otherChecker : Surface KeyCheck}
    (notes : ∀ s events, R.holds s → R.holds (s.withEvents events))
    (recording : ∀ s, R.holds s →
      AlikeAt (R.beside Recording) anything (reader.run recordingOn (Recorder.decoder path))
        (reader.run otherRecordingOn (Recorder.decoder path)) (.start, s))
    (checking : ∀ s, R.holds s →
      AlikeAt (R.beside KeyCheck) anything (reader.run checker (Recorder.decoder []))
        (reader.run otherChecker (Recorder.decoder [])) (.start, s)) :
    Alike R.faultless anything (probeReadingOn recordingOn checker caps reader path)
      (probeReadingOn otherRecordingOn otherChecker caps reader path) := by
  refine tied_iff_alike.mp (probeReadingOn_tied (B := R.bond) caps.finishesFine_anything
    (R.bond_notes notes) ?_ ?_)
  · rintro s _ ⟨rfl, holds⟩
    rw [Recording.isFine_anything]
    have tied := (recording s holds).tied
    rwa [R.bond_beside] at tied
  · rintro s _ ⟨rfl, holds⟩
    rw [← R.bond_beside]
    exact (checking s holds).tied

/-- A type is read alike, and without a fault. -/
theorem probeReading_alike
    (notes : ∀ s events, R.holds s → R.holds (s.withEvents events))
    (recording : ∀ s, R.holds s →
      AlikeAt (R.beside Recording) anything
        (reader.run (recorder first) (Recorder.decoder path))
        (reader.run (recorder second) (Recorder.decoder path)) (.start, s))
    (checking : ∀ s, R.holds s →
      AlikeAt (R.beside KeyCheck) anything
        (reader.run (keyChecker placeholderOf) (Recorder.decoder []))
        (reader.run (keyChecker placeholderOf) (Recorder.decoder [])) (.start, s)) :
    Alike R.faultless anything (probeReading first caps reader path)
      (probeReading second caps reader path) := by
  rw [probeReading_eq_on, probeReading_eq_on]
  exact probeReadingOn_alike notes recording checking

/-- A nested type is probed alike if the type is. -/
theorem nestedProbe_alike
    (faults : R.AllowsFaults)
    (notes : ∀ s events, R.holds s → R.holds (s.withEvents events))
    (probes : Alike R anything (first a path) (second a path)) :
    Alike R anything (nestedProbe first a path) (nestedProbe second a path) := by
  have unknown : anything (Shape.any none) := trivial
  exact tied_iff_alike.mp
    (nestedProbe_tied (B := R.bond) unknown faults (R.bond_notes notes) (tied_iff_alike.mpr probes))

/-- A type is read alike between entering and leaving the guard. -/
theorem probeGuarded_alikeAt
    (enters : inner.holds (s.withGuard (s.guard.enter caps.type)))
    (reads : Alike inner.faultless anything (probeReading first caps reader path)
      (probeReading second caps reader path))
    (leaves : ∀ t shape value, inner.holds t →
      outer.holds (t.withGuard (t.guard.complete caps.type shape value)))
    (breaks : inner.allows .exhausted →
      outer.allows .exhausted ∧ ∀ t, inner.holds t → outer.holds t) :
    AlikeAt outer anything (probeGuarded first caps reader path)
      (probeGuarded second caps reader path) s := by
  have entered : (inner.faultless).holds (s.withGuard (s.guard.enter caps.type)) := enters
  refine TiedAt.alike (probeGuarded_tiedAt (reads _ entered).tied ?_ ?_ id)
  · rintro t _ result _ ⟨rfl, holds⟩ ⟨rfl, -⟩
    exact ⟨rfl, leaves t result.1 result.2 holds⟩
  · rintro _ t _ ⟨rfl, holds⟩ ⟨rfl, endless⟩
    exact ⟨⟨rfl, (breaks endless).2 t holds⟩, (breaks endless).1⟩

/-- A type is probed alike if it is entered alike when it is not in progress. -/
theorem probeBy_alikeAt
    {good : Capabilities → Prop}
    {entering otherEntering : Capabilities → Reader → Step Store (Shape × Value)}
    (notes : ∀ s events, R.holds s → R.holds (s.withEvents events))
    (looks : AlikeAt R good (lookup .current a) (lookup .current a) s)
    (guarded : ∀ caps reader reached events, s.Expands a caps reader reached →
      R.holds reached → reached.guard.entries.lookup caps.type.identity ≠ some .inProgress →
        AlikeAt R anything (entering caps reader) (otherEntering caps reader)
          (reached.withEvents events)) :
    AlikeAt R anything (probeBy entering a path) (probeBy otherEntering a path) s := by
  refine (probeBy_tiedAt (R.bond_notes notes) looks.tied ?_ ?_
    (fun _ _ _ _ _ _ _ _ => ⟨rfl, trivial⟩)
    (.refl R.bond) ?_).alike
  · rintro caps _ ⟨rfl, -⟩
    exact ⟨rfl, .rfl⟩
  · rintro caps _ reached _ ⟨rfl, -⟩ ⟨rfl, -⟩
    rfl
  · intro caps other reader otherReader reached later events others expands otherExpands same ties isFree
    have sameRun := expands.found.symm.trans otherExpands.found
    have sameReader := expands.reads.symm
    cases sameRun
    rw [otherExpands.reads] at sameReader
    cases sameReader
    have holds := looks.holds_run
    rw [expands.found] at holds
    rw [← ties.1]
    exact (guarded caps reader reached events expands holds isFree).tied

/-- A type is probed alike if it is read alike when it is not in progress. -/
theorem probe_alikeAt
    {depth more : Nat}
    {good : Capabilities → Prop}
    (notes : ∀ s events, R.holds s → R.holds (s.withEvents events))
    (looks : AlikeAt R good (lookup .current a) (lookup .current a) s)
    (guarded : ∀ caps reader reached events, s.Expands a caps reader reached →
      R.holds reached → reached.guard.entries.lookup caps.type.identity ≠ some .inProgress →
        AlikeAt R anything (probeGuarded (nestedProbe (probe depth)) caps reader path)
          (probeGuarded (nestedProbe (probe more)) caps reader path)
          (reached.withEvents events)) :
    AlikeAt R anything (probe (depth + 1) a path) (probe (more + 1) a path) s :=
  probeBy_alikeAt notes looks guarded

end

/-! ## What survives probing -/

/-- Whether any interrupt is allowed, and what holds of states survives looking up
types and all else that probing does to states. -/
structure Regime.Persists (R : Regime Store) (start : World) : Prop where
  interrupts : ∀ interrupt, R.allows interrupt
  lookups : ∀ scope a, Alike R anything (lookup scope a) (lookup scope a)
  besides : ∀ s events guard, R.holds s → R.holds (s.beside events guard)
  finds : ∀ find : Step World (List TypeForm), Alike start.reaching anything find find →
    Alike R anything (inWorld find) (inWorld find)

/-- Whether any interrupt is allowed, and what holds of states survives all that probing
does to them. -/
structure Regime.Survives
    (R : Regime Store)
    (start : World)
    (accepts : SchemaHook → Prop) :
    Prop where
  interrupts : ∀ interrupt, R.allows interrupt
  looks : R.Looks accepts
  besides : ∀ s events guard, R.holds s → R.holds (s.beside events guard)
  finds : ∀ find : Step World (List TypeForm), Alike start.reaching anything find find →
    Alike R anything (inWorld find) (inWorld find)

section

variable {R : Regime Store} {start : World} {accepts : SchemaHook → Prop}

/-- What survives looking up and all else that probing does survives what readers rely
on. -/
theorem Regime.Persists.reads (persists : R.Persists start) :
    R.Reads (fun _ => True) fun _ => True := by
  intro reader _ need member
  have found := Reader.needs_alike start.reaching_resolves reader need member
  cases need with
  | forms find => exact (persists.finds find found).mono fun _ _ _ _ => trivial
  | delegate type =>
      have resolves : Alike start.reaching anything (do pure [← type.resolve .strict])
          (do pure [← type.resolve .strict]) :=
        (TypeTerm.resolve_alike start.reaching_resolves .strict type).bind fun _ _ => .pure trivial
      have isMet : (Need.forms (do pure [← type.resolve .strict])).IsMet R anything anything :=
        (persists.finds _ resolves).mono fun _ _ _ _ => trivial
      refine isMet.ofForms.bind fun a _ => ?_
      refine (persists.lookups .shared a).bind fun caps _ => ?_
      split
      · exact .pure trivial
      · exact .fail (persists.interrupts _)
  | endOfSequence => exact persists.interrupts _

/-- What survives looking up and all else that probing does survives the probe of a
type. -/
theorem Regime.Persists.probe
    (persists : R.Persists start)
    (depth : Nat)
    (a : TypeForm)
    (path : Path) :
    Alike R anything (SchemaProbe.probe depth a path) (SchemaProbe.probe depth a path) := by
  have faults : R.AllowsFaults := fun _ => persists.interrupts _
  have notes (s : Store) (events : List Event) (holds : R.holds s) :
      R.holds (s.withEvents events) :=
    persists.besides s events s.guard holds
  have looks (b : TypeForm) := persists.lookups .current b
  induction depth generalizing a path with
  | zero => exact .exhausted (persists.interrupts _)
  | succ depth inductionHypothesis =>
      intro s holds
      refine probe_alikeAt notes (looks a s holds) fun caps reader reached events _ reachedHolds _ => ?_
      have nested : NestedAlike R (fun _ => True) (nestedProbe (SchemaProbe.probe depth))
          (nestedProbe (SchemaProbe.probe depth)) := fun b _ path =>
        nestedProbe_alike faults notes (inductionHypothesis b path)
      have reads : Alike R.faultless anything
          (probeReading (nestedProbe (SchemaProbe.probe depth)) caps reader path)
          (probeReading (nestedProbe (SchemaProbe.probe depth)) caps reader path) :=
        probeReading_alike notes
          (fun t tHolds => Reader.runTo_alike faults (recorder_answersAlike faults nested)
            persists.reads delegationDepth trivial _ (.start, t) tHolds)
          fun t tHolds => Reader.runTo_alike faults
            (keyChecker_answersAlike faults fun b _ => placeholderOf_alike faults (looks b))
            persists.reads delegationDepth trivial _ (.start, t) tHolds
      exact probeGuarded_alikeAt (persists.besides _ _ _ (notes _ events reachedHolds)) reads
        (fun t _ _ tHolds => persists.besides t _ _ tHolds)
        fun _ => ⟨persists.interrupts _, fun _ tHolds => tHolds⟩

/-- What survives probing survives looking up. -/
theorem Regime.Survives.persists (survives : R.Survives start accepts) : R.Persists start where
  interrupts := survives.interrupts
  lookups scope a := (lookup_alike survives.looks scope a).mono fun _ _ => trivial
  besides := survives.besides
  finds := survives.finds

/-- What survives probing survives what readers rely on. -/
theorem Regime.Survives.reads (survives : R.Survives start accepts) :
    R.Reads (fun _ => True) fun _ => True :=
  survives.persists.reads

/-- What survives probing survives the probe of a type. -/
theorem Regime.Survives.probe
    (survives : R.Survives start accepts)
    (depth : Nat)
    (a : TypeForm)
    (path : Path) :
    Alike R anything (SchemaProbe.probe depth a path) (SchemaProbe.probe depth a path) :=
  survives.persists.probe depth a path

end

end SchemaProbe

import SchemaProbe.Proofs.Observing

namespace SchemaProbe

/-!
# Where markers come from

A shape refers back to a type only if that type was being probed when the shape came
about.  An observer that ends a description as soon as it sees one of certain types
entered either ends it, or there is no such type that the shape refers back to, unless it
was being probed all along: probing under observation and probing without end in the same
way, or the observer was the first to end.
-/

open Step

/-! ## Steps of which the first may end before the second -/

/-- The bond of a state with itself in which the first step may run out of a bound. -/
def Bond.lapsing (σ : Type) : Bond σ σ where
  ties s t := s = t
  allows _ := True
  lapses := True

/-- The bond of a state with itself in which the first step may run out of a bound, while
the guard is of a sort. -/
abbrev Bond.lapsingUnder (guards : CycleGuard → Prop) : Bond Store Store :=
  (Bond.lapsing Store).keeping (Regime.guarding guards)

/-- The same step ends tied to itself from the same state. -/
theorem Step.Tied.lapsing (step : Step σ α) : Tied (.lapsing σ) (Same anything) step step :=
  fun s t ties => (Tied.refl step s t ties).weaken
    ⟨fun _ _ same => same, fun _ _ => trivial, fun _ => trivial⟩

namespace Step.TiedAt

variable {B : Bond Store Store} {good : α → β → Prop} {first : Step Store α}
  {second : Step Store β} {s t : Store}

/-- The first step may put back the guard where it uses up a bound. -/
theorem restoring_first
    (lapses : B.lapses)
    (tied : TiedAt B good first second s t) :
    TiedAt B good (restoring first) second s t := by
  cases tied with
  | ok firstRun secondRun ties isGood =>
      exact .ok (run_restoring_of_ok firstRun) secondRun ties isGood
  | @error interrupt _ _ firstRun secondRun ties allowed =>
      cases interrupt with
      | fault f => exact .error (run_restoring_of_fault firstRun) secondRun ties allowed
      | exhausted => exact .lapsed (run_restoring_of_exhausted firstRun) lapses
  | lapsed firstRun _ => exact .lapsed (run_restoring_of_exhausted firstRun) lapses

/-- The second step may put back the guard where it uses up a bound. -/
theorem restoring_second
    (lapses : B.lapses)
    (tied : TiedAt B good first second s t) :
    TiedAt B good first (restoring second) s t := by
  cases tied with
  | ok firstRun secondRun ties isGood =>
      exact .ok firstRun (run_restoring_of_ok secondRun) ties isGood
  | @error interrupt _ _ firstRun secondRun ties allowed =>
      cases interrupt with
      | fault f => exact .error firstRun (run_restoring_of_fault secondRun) ties allowed
      | exhausted => exact .lapsed firstRun lapses
  | lapsed firstRun _ => exact .lapsed firstRun lapses

end Step.TiedAt

/-- Two steps of which either may run out of a bound before the other run out of it
together, and end in the same way if they do not. -/
theorem Bond.lapsing_run
    {R R' : Regime σ}
    {good good' : α → Prop}
    {first second : Step σ α}
    {s : σ}
    (tied : TiedAt ((Bond.lapsing σ).keeping R) (Same good) first second s s)
    (back : TiedAt ((Bond.lapsing σ).keeping R') (Same good') second first s s) :
    (first.run s).1 = (second.run s).1 ∧
      ((second.run s).1 ≠ .error .exhausted → first.run s = second.run s) := by
  cases back with
  | ok secondRun firstRun ties same =>
      obtain ⟨rfl, -⟩ := ties
      obtain ⟨rfl, -⟩ := same
      rw [firstRun, secondRun]
      exact ⟨rfl, fun _ => rfl⟩
  | error secondRun firstRun ties _ =>
      obtain ⟨rfl, -⟩ := ties
      rw [firstRun, secondRun]
      exact ⟨rfl, fun _ => rfl⟩
  | lapsed secondRun _ =>
      have exhausted : (second.run s).1 = .error .exhausted := by rw [secondRun]
      refine ⟨?_, fun ended => absurd exhausted ended⟩
      cases tied with
      | ok _ otherRun _ _ =>
          rw [otherRun] at exhausted
          cases exhausted
      | error firstRun otherRun _ _ =>
          rw [otherRun] at exhausted
          rw [firstRun, otherRun]
      | lapsed firstRun _ => rw [firstRun, exhausted]

/-! ## Probing -/

section

variable {guards : CycleGuard → Prop}

theorem Bond.lapsing_allowsFaults : (Bond.lapsingUnder guards).AllowsFaults :=
  fun _ => ⟨trivial, trivial⟩

theorem Bond.lapsing_notes : (Bond.lapsingUnder guards).Notes := by
  rintro s _ e ⟨rfl, holds⟩
  exact ⟨rfl, holds⟩

theorem Bond.lapsing_makes : (Bond.lapsingUnder guards).Makes := by
  rintro s _ ⟨rfl, -⟩
  exact .refl _

/-- The same is found out in the same state. -/
theorem Bond.lapsing_findsOut : (Bond.lapsing Store).FindsOut :=
  ⟨fun _ => .lapsing _, fun _ => .lapsing _, fun _ => .lapsing _, trivial⟩

/-- What leaves the guard alone ends tied to itself. -/
theorem Bond.lapsing_tied
    {step : Step Store α}
    (ignores : step.IgnoresEvents) :
    Tied (Bond.lapsingUnder guards) (Same anything) step step :=
  (Tied.lapsing step).keeping_same (Regime.guarding_alike ignores)

/-- Readers rely on what leaves the guard alone. -/
theorem Bond.lapsing_isTied
    {s : Store}
    (holds : guards s.guard)
    (reader : Reader) :
    reader.IsTied (Bond.lapsingUnder guards) (fun _ => True) fun _ => True :=
  Reader.isTied_of_needs (R := Regime.guarding guards) Bond.lapsing_findsOut holds reader
    (Regime.guarding_reads reader trivial) fun type _ =>
      Bond.lapsing_tied (sharedReader_ignoresEvents type)

section

variable {first second : NestedProbe} {fine : Shape → Prop} {caps : Capabilities} {reader : Reader}
  {path : Path} {s t : Store}

/-- A type is read in the same way while nested types are probed in the same way. -/
theorem probeReading_lapsing
    (optionals : ∀ shape, fine shape → fine (shape.optional true))
    (finishes : caps.FinishesFine fine)
    (nested : NestedTied (Bond.lapsingUnder guards) (fun _ => True) first second fine) :
    Tied (Bond.lapsingUnder guards).faultless (Same fun result => fine result.1)
      (probeReading first caps reader path) (probeReading second caps reader path) := by
  have placeholders (a : TypeForm) :
      Tied (Bond.lapsingUnder guards) (Same anything) (placeholderOf a) (placeholderOf a) :=
    (Tied.lapsing _).keeping_same (Regime.guarding_placeholderOf a)
  have faults : (Bond.lapsingUnder guards).AllowsFaults := Bond.lapsing_allowsFaults
  refine probeReading_tied_fine finishes Bond.lapsing_notes (fun s t ties => ?_) fun s t ties => ?_
  · exact Reader.runTo_tied Bond.lapsing_makes faults
      (recorder_answersTied_fine faults optionals nested)
      (fun reader _ => Bond.lapsing_isTied ties.2 reader) delegationDepth trivial
      (Recorder.decoder path) (.start, s) (.start, t) ⟨⟨rfl, Recording.isFine_start⟩, ties⟩
  · exact Reader.runTo_tied Bond.lapsing_makes faults
      (keyChecker_answersTied faults fun a (_ : True) => placeholders a)
      (fun reader _ => Bond.lapsing_isTied ties.2 reader) delegationDepth trivial
      (Recorder.decoder []) (.start, s) (.start, t) ⟨⟨rfl, trivial⟩, ties⟩

/-- A type is entered, read and left in the same way while nested types are probed in the
same way. -/
theorem probeGuarded_lapsing
    (optionals : ∀ shape, fine shape → fine (shape.optional true))
    (finishes : caps.FinishesFine fine)
    (nested : NestedTied (Bond.lapsingUnder guards) (fun _ => True) first second fine)
    (enters : ∀ g, guards g → guards (g.enter caps.type))
    (leaves : ∀ g shape value, guards g → guards (g.complete caps.type shape value))
    (ties : (Bond.lapsingUnder guards).ties s t) :
    TiedAt (Bond.lapsingUnder guards) (Same fun result => fine result.1)
      (probeGuarded first caps reader path) (probeGuarded second caps reader path) s t := by
  obtain ⟨rfl, holds⟩ := ties
  have reads : Tied (Bond.lapsingUnder guards).faultless (Same fun result => fine result.1)
      (probeReading first caps reader path) (probeReading second caps reader path) :=
    probeReading_lapsing optionals finishes nested
  refine probeGuarded_tiedAt (reads _ _ ⟨rfl, enters _ holds⟩) ?_ ?_ id
  · rintro reached _ result _ ⟨rfl, reachedHolds⟩ ⟨rfl, -⟩
    exact ⟨rfl, leaves _ _ _ reachedHolds⟩
  · exact fun _ _ _ reachedTies allowed => ⟨reachedTies, allowed.1 ▸ allowed.2⟩

/-- A type is probed in the same way if it is entered in the same way when it is not in
progress, and what is known of it is fine. -/
theorem probeBy_lapsing
    {entering otherEntering : Capabilities → Reader → Step Store (Shape × Value)}
    (isFine : ∀ (caps : Capabilities) g result, guards g → caps.Ends g result → fine result.1)
    (guarded : ∀ caps reader s t, (Bond.lapsingUnder guards).ties s t →
      TiedAt (Bond.lapsingUnder guards) (Same fun result => fine result.1) (entering caps reader)
        (otherEntering caps reader) s t)
    (a : TypeForm)
    (path : Path) :
    Tied (Bond.lapsingUnder guards) (Same fun result => fine result.1) (probeBy entering a path)
      (probeBy otherEntering a path) := by
  intro s t ties
  have looks : TiedAt (Bond.lapsingUnder guards) (Same anything) (lookup .current a)
      (lookup .current a) s t :=
    Bond.lapsing_tied (lookup_ignoresEvents .current a) s t ties
  refine probeBy_tiedAt Bond.lapsing_notes looks ?_ ?_ ?_ (.refl _) ?_
  · rintro caps _ ⟨rfl, -⟩
    exact ⟨rfl, .rfl⟩
  · rintro caps _ reached _ - ⟨rfl, -⟩
    rfl
  · rintro caps _ reached _ result - ⟨rfl, holds⟩ ends
    exact ⟨rfl, isFine caps _ result holds ends⟩
  · intro caps other reader otherReader reached later events others expands otherExpands same both _
    obtain ⟨rfl, -⟩ := ties
    have sameRun := expands.found.symm.trans otherExpands.found
    cases sameRun
    have sameReader := expands.reads.symm.trans otherExpands.reads
    cases sameReader
    exact guarded caps reader _ _ both

end

/-- Probing without an observer ends as it does under one that does nothing, unless it runs
out of a bound. -/
theorem Observer.idle_tied
    (depth : Nat)
    (above : List Key) :
    NestedTied (Bond.lapsingUnder anything) (fun _ => True) (SchemaProbe.probe depth)
      (Observer.idle.probe depth above) := by
  induction depth generalizing above with
  | zero => exact fun _ _ _ s _ _ => .lapsed rfl trivial
  | succ depth inductionHypothesis =>
      intro a _ path
      rw [probe_eq_probeBy, Observer.idle_probe]
      refine probeBy_lapsing (fun _ _ _ _ _ => trivial) (fun caps reader s t ties => ?_) a path
      refine TiedAt.restoring_second trivial ?_
      refine probeGuarded_lapsing (fun _ _ => trivial) caps.finishesFine_anything
        (fun b isMet path => ?_) (fun _ _ => trivial) (fun _ _ _ _ => trivial) ties
      exact nestedProbe_tied trivial Bond.lapsing_allowsFaults Bond.lapsing_notes
        (inductionHypothesis (caps.type.identity :: above) b isMet path)

end

/-! ## Types that are entered -/

/-- A type is in progress if its entry says so. -/
theorem CycleGuard.isInProgress_iff
    {g : CycleGuard}
    {a : TypeForm} :
    g.isInProgress a = true ↔ g.entries.lookup a.identity = some .inProgress := by
  unfold CycleGuard.isInProgress CycleGuard.get?
  cases g.entries.lookup a.identity with
  | none => simp
  | some entry => cases entry <;> simp [GuardEntry.isInProgress]

/-- Whether none of certain types is being probed. -/
def CycleGuard.IsClearOf (stops : Key → Bool) (g : CycleGuard) : Prop :=
  ∀ key, g.entries.lookup key = some .inProgress → stops key = false

section

variable {stops : Key → Bool} {g : CycleGuard} {a : TypeForm}

/-- A guard stays clear of certain types if another one is entered. -/
theorem CycleGuard.IsClearOf.enter
    (clear : g.IsClearOf stops)
    (isOther : stops a.identity = false) :
    (g.enter a).IsClearOf stops := by
  intro key entered
  change (Table.set g.entries a.identity .inProgress).lookup key = some .inProgress at entered
  by_cases same : key = a.identity
  · rw [same, isOther]
  · rw [Table.lookup_set_of_ne _ _ same] at entered
    exact clear key entered

/-- A guard stays clear of certain types if a type is left. -/
theorem CycleGuard.IsClearOf.complete
    (clear : g.IsClearOf stops)
    (shape : Shape)
    (value : Value) :
    (g.complete a shape value).IsClearOf stops := by
  intro key entered
  change (Table.set g.entries a.identity (.completed shape value)).lookup key =
    some .inProgress at entered
  by_cases same : key = a.identity
  · rw [same, Table.lookup_set_self] at entered
    cases entered
  · rw [Table.lookup_set_of_ne _ _ same] at entered
    exact clear key entered

/-- Whether a shape refers back to none of certain types. -/
abbrev Shape.AvoidsMarkers (stops : Key → Bool) : Shape → Prop :=
  Shape.Shows anything fun b => stops b.identity = false

/-- What is known of a type refers back to the types in progress alone. -/
theorem Capabilities.Ends.avoidsMarkers
    {caps : Capabilities}
    {result : Shape × Value}
    (clear : g.IsClearOf stops)
    (ends : caps.Ends g result) :
    result.1.AvoidsMarkers stops := by
  cases ends with
  | scalar kind v => exact .single fun _ _ => trivial
  | unread v => exact .unconstrained fun _ _ => trivial
  | referred v progress => exact .recursive (fun _ _ => trivial) (clear _ progress)
  | done _ without => exact Shape.shows_of_hasRecursive_eq_false _ without

/-- An observer that waits for types that are not being probed ends the description, or the
type is probed as ever and its shape refers back to none of these types. -/
theorem Observer.stopping_tied
    (depth : Nat)
    {above : List Key}
    (unseen : above.any stops = false) :
    NestedTied (Bond.lapsingUnder (CycleGuard.IsClearOf stops)) (fun _ => True)
      ((Observer.stopping stops).probe depth above) (SchemaProbe.probe depth)
      (Shape.AvoidsMarkers stops) := by
  induction depth generalizing above with
  | zero => exact fun _ _ _ s _ _ => .lapsed rfl trivial
  | succ depth inductionHypothesis =>
      intro a _ path
      rw [probe_eq_probeBy, Observer.probe_of_idle (Observer.stopping_of_none unseen)]
      refine probeBy_lapsing (fun _ _ _ clear ends => ends.avoidsMarkers clear)
        (fun caps reader s t ties => ?_) a path
      cases stopped : stops caps.type.identity with
      | true =>
          have seen : (caps.type.identity :: above).any stops = true := by
            rw [List.any_cons, stopped, Bool.true_or]
          obtain ⟨reached, ended⟩ :=
            Observer.run_guarded_of_exhausted (Observer.stopping_of_any seen) _ reader path s
          exact .lapsed ended trivial
      | false =>
          have unseenToo : (caps.type.identity :: above).any stops = false := by
            rw [List.any_cons, stopped, Bool.false_or, unseen]
          rw [Observer.guarded_of_idle (Observer.stopping_of_none unseenToo)]
          refine TiedAt.restoring_first trivial ?_
          refine probeGuarded_lapsing (fun _ shows => shows.optional true)
            (Capabilities.finishesFine_shows trivial) (fun b isMet path => ?_)
            (fun _ clear => clear.enter stopped) (fun _ shape value clear => clear.complete shape value)
            ties
          exact nestedProbe_tied Shape.shows_any Bond.lapsing_allowsFaults Bond.lapsing_notes
            (inductionHypothesis unseenToo b isMet path)

/-- Whether a type is entered while another one is probed: an observer that waits for it
ends the description. -/
def Store.Enters (s : Store) (depth : Nat) (a : TypeForm) (path : Path) (key : Key) : Prop :=
  (((Observer.stopping (· == key)).probe depth [] a path).run s).1 = .error .exhausted

/-- A shape refers back to types that were in progress and to types that were entered. -/
theorem Store.enters_of_mem_markers
    {s : Store}
    {depth : Nat}
    {path : Path}
    {shape : Shape}
    {value : Value}
    {b : TypeForm}
    (probed : ((SchemaProbe.probe depth a path).run s).1 = .ok (shape, value))
    (isMarker : b ∈ shape.markers) :
    s.guard.isInProgress b = true ∨ s.Enters depth a path b.identity := by
  by_cases isInProgress : s.guard.isInProgress b = true
  · exact .inl isInProgress
  rw [CycleGuard.isInProgress_iff] at isInProgress
  have clear : s.guard.IsClearOf (· == b.identity) := fun key entered =>
    beq_eq_false_iff_ne.mpr fun same => isInProgress (same ▸ entered)
  have unseen : ([] : List Key).any (· == b.identity) = false := rfl
  cases Observer.stopping_tied depth unseen a trivial path s s ⟨rfl, clear⟩ with
  | lapsed stopped _ => exact .inr (congrArg Prod.fst stopped)
  | ok _ otherRun _ same =>
      obtain ⟨rfl, avoids⟩ := same
      rw [otherRun] at probed
      cases probed
      exact absurd (avoids.markers b isMarker) (by simp)
  | error _ otherRun _ _ =>
      rw [otherRun] at probed
      cases probed

/-- The links of a chain are entered while it is probed. -/
example : chainStore.Enters 3 (.cls chainClass) [] chainLinks.identity := by
  rw [Store.Enters]
  rfl

/-- A type that is done is entered again, or what is known of it refers back to nothing and
leaves the state as it is. -/
theorem probeBy_of_completed
    {s reached : Store}
    {caps : Capabilities}
    {done : Shape}
    {standIn : Value}
    (found : (lookup .current a).run s = (.ok caps, reached))
    (isDone : reached.guard.get? caps.type = some (.completed done standIn))
    (path : Path) :
    (∃ result : Shape × Value, result.1.markers = [] ∧
        ∀ entering, (probeBy entering a path).run s = (.ok result, reached)) ∨
      ∃ reader between, ∀ entering,
        (probeBy entering a path).run s = (entering caps reader).run between := by
  have looked (entering : Capabilities → Reader → Step Store (Shape × Value)) :
      (probeBy entering a path).run s = _ := run_bind_of_ok found _
  simp only [looked]
  cases isScalar : caps.kind with
  | some kind => exact .inl ⟨_, rfl, fun _ => rfl⟩
  | none =>
      cases isBypassed : caps.bypassesProbe with
      | true => exact .inl ⟨_, rfl, fun _ => rfl⟩
      | false =>
          cases isRead : caps.reader with
          | none => exact .inl ⟨_, rfl, fun _ => rfl⟩
          | some reader =>
              dsimp only
              simp only [run_bind_of_ok (run_current reached), isDone]
              cases refersBack : done.hasRecursive with
              | false =>
                  exact .inl ⟨(done, standIn),
                    (Shape.shows_of_hasRecursive_eq_false done refersBack).markers_eq_nil,
                    fun _ => rfl⟩
              | true =>
                  exact .inr ⟨reader, _, fun _ => run_bind_of_ok (run_update _ reached) _⟩

/-- A shape that is used again refers back to nothing. -/
theorem Store.markers_of_completed
    {s : Store}
    {depth : Nat}
    {path : Path}
    {caps : Capabilities}
    {done shape : Shape}
    {standIn value : Value}
    (found : ((lookup .current a).run s).1 = .ok caps)
    (isDone : s.guard.get? caps.type = some (.completed done standIn))
    (probed : ((SchemaProbe.probe depth a path).run s).1 = .ok (shape, value)) :
    shape.markers = [] ∨ s.Enters depth a path caps.type.identity := by
  cases depth with
  | zero => cases probed
  | succ depth =>
      have isDoneToo : ((lookup .current a).run s).2.guard.get? caps.type =
          some (.completed done standIn) := by
        rw [(lookup_ignoresEvents .current a).guard_eq]
        exact isDone
      rcases probeBy_of_completed (Prod.ext found rfl) isDoneToo path with
        ⟨result, without, known⟩ | ⟨reader, between, enters⟩
      · rw [probe_eq_probeBy, known] at probed
        cases probed
        exact .inl without
      · refine .inr ?_
        have seen : [caps.type.identity].any (· == caps.type.identity) = true := by simp
        obtain ⟨last, ended⟩ :=
          Observer.run_guarded_of_exhausted (Observer.stopping_of_any seen) _ reader path between
        rw [Enters, Observer.probe_of_idle (Observer.stopping_of_none rfl), enters]
        exact congrArg Prod.fst ended

end

end SchemaProbe

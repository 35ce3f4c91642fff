import SchemaProbe.Proofs.KeyLoops
import SchemaProbe.Proofs.Lockstep
import SchemaProbe.Proofs.Stopping
import SchemaProbe.Proofs.Swapping

namespace SchemaProbe

/-!
# What is recorded before a fault

A program that fails at a statement and a program that ends there make the same
requests before, so the same is recorded by both in the first pass, and the same
containers are found open in the second.  Only the values that stand in for the two
types differ, and those matter to nobody but the types around them.  So a class has the
same description with both programs, as long as nothing else that is met while it is
described is read by its program or delegates to it.
-/

open Step

/-! ## Programs that are cut off -/

section

variable {σ : Type} {B : Bond Store Store} {first second : Surface σ}
  {firstDelegate secondDelegate : Delegate σ} {before : Program}

/-- Statements after others run where those ended without a result. -/
theorem Statement.runAll_append
    (surface : Surface σ)
    (delegate : Delegate σ)
    (before rest : List Statement) :
    Statement.runAll surface delegate (before ++ rest) =
      Statement.runAll surface delegate before >>= fun outcome =>
        match outcome with
        | .gave result => pure (.gave result)
        | .went _ => Statement.runAll surface delegate rest := by
  induction before with
  | nil =>
      rw [List.nil_append, Statement.runAll]
      rfl
  | cons statement others inductionHypothesis =>
      rw [List.cons_append, Statement.runAll, Statement.runAll, bind_bind]
      refine congrArg _ (funext fun outcome => ?_)
      cases outcome with
      | gave result => rfl
      | went reply => exact inductionHypothesis

/-- Whether a program begins by failing; what follows is never run. -/
def Program.Fails (cut : Program) : Prop :=
  ∃ kind message location rest, cut = .fail kind message location :: rest

/-- Two programs that go the same way and then end, the second with a fault, come to an end
in states that are tied. -/
theorem Program.stopTiedAt
    {ending cut : Program}
    (tied : Tied (B.framed fun _ : σ => True) (Same anything)
      (Statement.runAll first firstDelegate before) (Statement.runAll second secondDelegate before))
    (final : ending.all Statement.isFinal = true)
    (fails : Program.Fails cut)
    (lapses : B.lapses)
    (maker : Maker)
    (decoder : Handle)
    {part : σ}
    {s t : Store}
    (ties : B.ties s t) :
    StopTiedAt (B.beside σ) (Program.run first firstDelegate maker (before ++ ending) decoder)
      (Program.run second secondDelegate maker (before ++ cut) decoder) (part, s) (part, t) := by
  have stops {outcome other : Except Interrupt Outcome} {reached later : Frame σ × Store}
      (ran : (Statement.runAll first firstDelegate (before ++ ending)).run
        (.start part decoder, s) = (outcome, reached))
      (otherRan : (Statement.runAll second secondDelegate (before ++ cut)).run
        (.start part decoder, t) = (other, later))
      (reachedTies : (B.framed fun _ : σ => True).ties reached later)
      (bounded : outcome ≠ .error .exhausted)
      (otherBounded : other ≠ .error .exhausted) :
      StopTiedAt (B.beside σ) (Program.run first firstDelegate maker (before ++ ending) decoder)
        (Program.run second secondDelegate maker (before ++ cut) decoder) (part, s) (part, t) := by
    obtain ⟨result, programRan, isExhausted⟩ := Program.run_surface maker ran
    obtain ⟨otherResult, otherProgramRan, isOtherExhausted⟩ := Program.run_surface maker otherRan
    exact .stopped programRan otherProgramRan
      ⟨⟨congrArg Frame.surface reachedTies.1.1, trivial⟩, reachedTies.2⟩ (fun same => bounded (isExhausted.mp same))
      fun same => otherBounded (isOtherExhausted.mp same)
  have exhausts {reached : Frame σ × Store}
      (ran : (Statement.runAll first firstDelegate before).run (.start part decoder, s) =
        (.error .exhausted, reached)) :
      StopTiedAt (B.beside σ) (Program.run first firstDelegate maker (before ++ ending) decoder)
        (Program.run second secondDelegate maker (before ++ cut) decoder) (part, s) (part, t) := by
    have whole : (Statement.runAll first firstDelegate (before ++ ending)).run
        (.start part decoder, s) = (.error .exhausted, reached) := by
      rw [Statement.runAll_append]
      exact run_bind_of_error ran _
    obtain ⟨result, programRan, isExhausted⟩ := Program.run_surface maker whole
    rw [isExhausted.mpr rfl] at programRan
    exact .lapsed programRan lapses
  rw [Statement.runAll_append, Statement.runAll_append] at stops
  cases tied (.start part decoder, s) (.start part decoder, t) ⟨⟨rfl, trivial⟩, ties⟩ with
  | @ok outcome _ reached later ran otherRan reachedTies same =>
      obtain ⟨rfl, -⟩ := same
      cases outcome with
      | gave result =>
          exact stops (run_bind_of_ok ran _) (run_bind_of_ok otherRan _) reachedTies nofun nofun
      | went reply =>
          obtain ⟨ended, endedRun⟩ := runAll_final final reached
          obtain ⟨kind, message, location, rest, rfl⟩ := fails
          exact stops ((run_bind_of_ok ran _).trans endedRun) (run_bind_of_ok otherRan _) reachedTies
            (mapError_ne_exhausted ended) nofun
  | @error interrupt _ _ ran otherRan reachedTies _ =>
      cases interrupt with
      | fault f =>
          exact stops (run_bind_of_error ran _) (run_bind_of_error otherRan _) reachedTies nofun nofun
      | exhausted => exact exhausts ran
  | lapsed ran _ => exact exhausts ran

end

/-! ## While a class is described -/

/-- Whether a type is being probed. -/
def CycleGuard.IsProbing (key : Key) (g : CycleGuard) : Prop :=
  g.entries.lookup key = some .inProgress

/-- The bond of a description with a program and another one with a second program in
its place, where the second finds nothing but what it can, and something is known of
its guard. -/
def Store.cutting
    (s : Store)
    (root : TypeForm)
    (p q : Program)
    (guards : CycleGuard → Prop) :
    Bond Store Store :=
  (Store.swapping p q).keeping (s.following root guards)

/-- Whether a program reads nothing but the types with a key among what describing a
type of this key finds, and nothing delegates to it. -/
structure Store.KeepsToItself
    (s : Store)
    (root : TypeForm)
    (q : Program)
    (key : Key) :
    Prop where
  own : ∀ s' caps reader reached, s.Finds root (.state s') →
    s'.Expands root caps reader reached → caps.type.identity = key
  alone : ∀ s' a caps maker reached, s.Finds root (.state s') → s.Finds root (.form a) →
    s'.Expands a caps (.program maker q) reached → caps.type.identity = key
  undelegated : ∀ s' reader type maker reached, s.Finds root (.state s') →
    s.Finds root (.reader reader) → .delegate type ∈ reader.needs →
      (sharedReader type).run s' ≠ (.ok (.program maker q), reached)

section

variable {s : Store} {root : TypeForm} {p q : Program} {key : Key} {guards : CycleGuard → Prop}

theorem Store.cutting_allowsFaults : (s.cutting root p q guards).AllowsFaults :=
  fun _ => ⟨trivial, trivial⟩

/-- What is noted does not matter. -/
theorem Store.cutting_ignoresEvents : (s.cutting root p q guards).IgnoresEvents := by
  rintro t u events others ⟨swaps, holds⟩
  exact ⟨⟨swaps.world, swaps.shared, swaps.own, swaps.guard⟩, finding_notes u others holds⟩

theorem Store.cutting_notes : (s.cutting root p q guards).Notes :=
  fun t u _ ties => cutting_ignoresEvents t u _ _ ties

theorem Store.cutting_makes : (s.cutting root p q guards).Makes :=
  fun _ _ ties => ties.1.world.makesAlike

/-- What is found is looked up in the same way but for a program in the place of
another. -/
theorem Store.cutting_lookup
    {a : TypeForm}
    (found : s.Finds root (.form a)) :
    Tied (s.cutting root p q guards) (Capabilities.Swaps p q) (lookup .current a)
      (lookup .current a) :=
  ((lookup_swaps .current a).keeping
    (finding_lookup following_allowsFaults found)).mono fun _ _ both => both.1

/-- What stands in for a type that is found is the same. -/
theorem Store.cutting_placeholderOf
    {a : TypeForm}
    (found : s.Finds root (.form a)) :
    Tied (s.cutting root p q guards) (Same anything) (placeholderOf a) (placeholderOf a) := by
  refine placeholderOf_tied cutting_allowsFaults (cutting_lookup found) (fun _ _ swaps => swaps.rest)
    fun caps other t u swaps ties => ?_
  rw [ties.1.guard]

/-- Readers that are found delegate to the same. -/
theorem Store.KeepsToItself.delegates
    {reader : Reader}
    (keeps : s.KeepsToItself root q key)
    (isRead : s.Finds root (.reader reader))
    (type : TypeTerm)
    (member : .delegate type ∈ reader.needs) :
    Tied (s.cutting root p q guards) (Same fun r => s.Finds root (.reader r)) (sharedReader type)
      (sharedReader type) := by
  have finds : Alike (s.following root guards)
      (fun r => s.Finds root (.reader r) ∧ ∀ maker, r ≠ .program maker q) (sharedReader type)
      (sharedReader type) := by
    refine finding_alike following_allowsFaults (sharedReader_ignoresEvents type)
      (sharedReader_ends type) (fun _ isFound => .delegation isFound isRead member)
      fun t other reached isFound ran => ⟨.delegate isFound isRead member ran, ?_⟩
    rintro maker rfl
    exact keeps.undelegated t reader type maker reached isFound isRead member ran
  refine ((sharedReader_swaps type).keeping finds).mono fun r other both => ?_
  obtain ⟨swaps, found, isOther⟩ := both
  cases swaps with
  | same => exact ⟨rfl, found⟩
  | swapped maker => exact absurd rfl (isOther maker)

/-- What readers that are found rely on is the same. -/
theorem Store.KeepsToItself.isTied
    {reader : Reader}
    {t : Store}
    (keeps : s.KeepsToItself root q key)
    (holds : (s.following root guards).holds t)
    (isRead : s.Finds root (.reader reader)) :
    reader.IsTied (s.cutting root p q guards) (fun a => s.Finds root (.form a))
      fun r => s.Finds root (.reader r) :=
  Reader.isTied_of_needs (Store.swapping_findsOut p q) holds reader
    (following_reads reader isRead)
    (keeps.delegates isRead)

section

variable {σ : Type} {first second : Surface σ} {t u : Store} {part : σ}

/-- Readers that are found read in the same way on surfaces that answer in the same
way. -/
theorem Store.KeepsToItself.runs
    {reader : Reader}
    (keeps : s.KeepsToItself root q key)
    (answers : Surface.AnswersTied (s.cutting root p q guards) (fun a => s.Finds root (.form a))
      first second)
    (isRead : s.Finds root (.reader reader))
    (depth : Nat)
    (decoder : Handle) :
    Tied ((s.cutting root p q guards).beside σ) (Same anything)
      (Reader.runTo first depth reader decoder) (Reader.runTo second depth reader decoder) := by
  intro t u ties
  exact Reader.runTo_tied cutting_makes cutting_allowsFaults answers
    (fun other otherRead => keeps.isTied ties.2.2 otherRead) depth isRead decoder t u ties

theorem Statement.needsAll_append (before rest : List Statement) :
    Statement.needsAll (before ++ rest) = Statement.needsAll before ++ Statement.needsAll rest := by
  induction before with
  | nil => rfl
  | cons statement others inductionHypothesis =>
      rw [List.cons_append, Statement.needsAll, Statement.needsAll, inductionHypothesis,
        List.append_assoc]

/-- Two programs that go the same way and then end come to an end in states that are
tied, if the second is found. -/
theorem Store.KeepsToItself.stops
    {before ending cut : Program}
    {maker : Maker}
    (keeps : s.KeepsToItself root (before ++ cut) key)
    (final : ending.all Statement.isFinal = true)
    (fails : Program.Fails cut)
    (answers : Surface.AnswersTied (s.cutting root (before ++ ending) (before ++ cut) guards)
      (fun a => s.Finds root (.form a)) first second)
    (isRead : s.Finds root (.reader (.program maker (before ++ cut))))
    (decoder : Handle)
    (ties : (s.cutting root (before ++ ending) (before ++ cut) guards).ties t u) :
    StopTiedAt ((s.cutting root (before ++ ending) (before ++ cut) guards).beside σ)
      ((Reader.program maker (before ++ ending)).run first decoder)
      ((Reader.program maker (before ++ cut)).run second decoder) (part, t) (part, u) := by
  have among {need : Need} (member : need ∈ Statement.needsAll before) :
      need ∈ (Reader.program maker (before ++ cut)).needs := by
    rw [Reader.needs, Statement.needsAll_append]
    exact List.mem_append_left _ member
  have areTied : Statement.AreTied (s.cutting root (before ++ ending) (before ++ cut) guards)
      (fun a => s.Finds root (.form a)) (fun r => s.Finds root (.reader r)) before :=
    Statement.areTied_of_needs (Store.swapping_findsOut _ _) before
      (fun need member => following_reads _ isRead need (among member))
      fun type member => keeps.delegates isRead type (among member)
  have goes := Statement.runAll_tied cutting_allowsFaults answers
    (fun other otherRead h => keeps.runs answers otherRead 255 h) before areTied
  exact Program.stopTiedAt goes final fails trivial maker decoder ties

end

/-- Probes that are done do not change what is being probed. -/
theorem CycleGuard.IsProbing.complete
    {g : CycleGuard}
    {a : TypeForm}
    (probing : g.IsProbing key)
    (differs : a.identity ≠ key)
    (shape : Shape)
    (value : Value) :
    (g.complete a shape value).IsProbing key :=
  (Table.lookup_set_of_ne _ _ (Ne.symm differs)).trans probing

/-- What is entered does not end the probes of other types. -/
theorem CycleGuard.IsProbing.enter
    {g : CycleGuard}
    (probing : g.IsProbing key)
    (a : TypeForm) :
    (g.enter a).IsProbing key := by
  unfold CycleGuard.IsProbing CycleGuard.enter
  by_cases same : key = a.identity
  · rw [same]
    exact Table.lookup_set_self _ _ _
  · exact (Table.lookup_set_of_ne _ _ same).trans probing

/-- Guards change together. -/
theorem Store.cutting_withGuard
    {t u : Store}
    {others : CycleGuard → Prop}
    (ties : (s.cutting root p q guards).ties t u)
    (change : CycleGuard → CycleGuard)
    (holds : others (change u.guard)) :
    (s.cutting root p q others).ties (t.withGuard (change t.guard)) (u.withGuard (change u.guard)) := by
  obtain ⟨swaps, found, -⟩ := ties
  exact ⟨⟨swaps.world, swaps.shared, swaps.own, congrArg change swaps.guard⟩, .beside found, holds⟩

section

variable {first second : NestedProbe} {reader : Reader}

/-- Types that are found are recorded in the same way. -/
theorem Store.KeepsToItself.records
    (keeps : s.KeepsToItself root q key)
    (nested : NestedTied (s.cutting root p q guards) (fun a => s.Finds root (.form a)) first second)
    (isRead : s.Finds root (.reader reader))
    (path : Path) :
    Tied ((s.cutting root p q guards).beside Recording) (Same anything)
      (reader.run (recorder first) (Recorder.decoder path))
      (reader.run (recorder second) (Recorder.decoder path)) :=
  keeps.runs (recorder_answersTied cutting_allowsFaults nested) isRead delegationDepth _

/-- The key-checking surface answers in the same way. -/
theorem Store.cutting_checks :
    (keyChecker placeholderOf).AnswersTied (s.cutting root p q guards)
      (fun a => s.Finds root (.form a)) (keyChecker placeholderOf) :=
  keyChecker_answersTied cutting_allowsFaults fun _ found => cutting_placeholderOf found

/-- Types that are found are read in the same way. -/
theorem Store.KeepsToItself.probesReading
    (keeps : s.KeepsToItself root q key)
    (nested : NestedTied (s.cutting root p q guards) (fun a => s.Finds root (.form a)) first second)
    (isRead : s.Finds root (.reader reader))
    (caps : Capabilities)
    (path : Path) :
    Tied (s.cutting root p q guards) (Same anything) (probeReading first caps reader path)
      (probeReading second caps reader path) := by
  have reads : Tied (s.cutting root p q guards).faultless (Same anything)
      (probeReading first caps reader path) (probeReading second caps reader path) := by
    apply probeReading_tied cutting_notes
    · exact fun t u ties => keeps.records nested isRead path (.start, t) (.start, u) ⟨⟨rfl, trivial⟩, ties⟩
    · exact fun t u ties =>
        keeps.runs cutting_checks isRead delegationDepth _ (.start, t) (.start, u) ⟨⟨rfl, trivial⟩, ties⟩
  exact fun t u ties => (reads t u ties).weaken
    ⟨fun _ _ ties => ties, fun _ _ => ⟨trivial, trivial⟩, fun lapses => lapses⟩

end

/-- Types that are found inside the one that is being probed are probed in the same way,
to a depth and to a greater one. -/
theorem Store.KeepsToItself.probes
    (keeps : s.KeepsToItself root q key)
    (extra depth : Nat) :
    NestedTied (s.cutting root p q (·.IsProbing key)) (fun a => s.Finds root (.form a))
      (probe depth) (probe (depth + extra)) := by
  induction depth with
  | zero => exact fun a _ path t u _ => .lapsed rfl trivial
  | succ depth inductionHypothesis =>
      intro a found path t u ties
      rw [Nat.add_right_comm]
      have nested : NestedTied (s.cutting root p q (·.IsProbing key))
          (fun a => s.Finds root (.form a)) (nestedProbe (probe depth))
          (nestedProbe (probe (depth + extra))) :=
        fun b bFound path => nestedProbe_tied trivial cutting_allowsFaults cutting_notes
          (inductionHypothesis b bFound path)
      refine probe_tiedAt cutting_notes (cutting_lookup found t u ties) (fun _ _ swaps => swaps.sameReader)
        (fun _ _ _ _ _ reachedTies => by rw [reachedTies.1.guard]) (fun _ _ _ _ _ _ _ _ => ⟨rfl, trivial⟩)
        (.refl _) fun caps other reader otherReader reached later events others expands otherExpands
          swaps reachedTies isFree => ?_
      have types : other.type = caps.type := by rw [swaps.rest]
      have differs : caps.type.identity ≠ key := by
        rintro rfl
        have probing : later.guard.IsProbing caps.type.identity := reachedTies.2.2
        have guards : later.guard = reached.guard := reachedTies.1.guard
        rw [guards] at probing
        exact isFree probing
      have isRead : s.Finds root (.reader otherReader) := .reader ties.2.1 found otherExpands
      -- what the cut program reads is in progress, so that both read themselves alike
      have sameReader : reader = otherReader := by
        cases swaps.of_some expands.reads otherExpands.reads with
        | same => rfl
        | swapped maker =>
            have isKey := keeps.alone u a other maker later ties.2.1 found otherExpands
            rw [types] at isKey
            exact absurd isKey differs
      obtain rfl : other = caps := by
        rw [swaps.rest, otherExpands.reads, ← sameReader, ← expands.reads]
      subst sameReader
      have entered := cutting_withGuard reachedTies (·.enter other.type)
        (CycleGuard.IsProbing.enter reachedTies.2.2 other.type)
      refine probeGuarded_tiedAt (keeps.probesReading nested isRead other path _ _ entered) ?_
        (fun _ _ _ lastTies allowed => ⟨lastTies, allowed⟩) id
      rintro last lastOther result _ lastTies ⟨rfl, -⟩
      exact cutting_withGuard lastTies (·.complete other.type result.1 result.2)
        (CycleGuard.IsProbing.complete lastTies.2.2 differs _ _)

/-- Nested types that are found are probed in the same way, to a depth and to a greater
one. -/
theorem Store.KeepsToItself.nestedProbes
    (keeps : s.KeepsToItself root q key)
    (extra depth : Nat) :
    NestedTied (s.cutting root p q (·.IsProbing key)) (fun a => s.Finds root (.form a))
      (nestedProbe (probe depth)) (nestedProbe (probe (depth + extra))) :=
  fun a found path => nestedProbe_tied trivial cutting_allowsFaults cutting_notes
    (keeps.probes extra depth a found path)

end

/-! ## Descriptions -/

/-- The bond that asks for nothing. -/
def Bond.loose (σ τ : Type) : Bond σ τ where
  ties _ _ := True
  allows _ := True
  lapses := True

/-- Every bond asks for more than nothing. -/
theorem Bond.implies_loose (B : Bond σ τ) : B.Implies (.loose σ τ) :=
  ⟨fun _ _ _ => trivial, fun _ _ => trivial, fun _ => trivial⟩

section

variable {s t : Store} {root : TypeForm} {key : Key} {before ending cut : Program}

/-- The type that is described is probed with the same shape by both programs. -/
theorem Store.KeepsToItself.probesRoot
    (keeps : s.KeepsToItself root (before ++ cut) key)
    (final : ending.all Statement.isFinal = true)
    (fails : Program.Fails cut)
    (ties : (s.cutting root (before ++ ending) (before ++ cut) (· = .empty)).ties t u)
    (extra depth : Nat) :
    TiedAt (.loose Store Store) (fun a b => a.1 = b.1) (probe depth root [])
      (probe (depth + extra) root []) t u := by
  cases depth with
  | zero => exact .lapsed rfl trivial
  | succ depth =>
      rw [Nat.add_right_comm]
      refine probe_tiedAt cutting_notes (cutting_lookup .root t u ties)
        (fun _ _ swaps => swaps.sameReader) (fun _ _ _ _ _ reachedTies => by rw [reachedTies.1.guard])
        (fun _ _ _ _ _ _ _ _ => rfl) (Bond.implies_loose _) fun caps other reader otherReader reached later events
          others expands otherExpands swaps reachedTies _ => ?_
      have isKey := keeps.own u other otherReader later ties.2.1 otherExpands
      have types : other.type = caps.type := by rw [swaps.rest]
      have isRead : s.Finds root (.reader otherReader) := .reader ties.2.1 .root otherExpands
      have probing : (later.guard.enter other.type).IsProbing key := by
        rw [← isKey]
        exact Table.lookup_set_self _ _ _
      have entered : (s.cutting root (before ++ ending) (before ++ cut) (·.IsProbing key)).ties
          ((reached.withEvents events).withGuard (reached.guard.enter caps.type))
          ((later.withEvents others).withGuard (later.guard.enter other.type)) := by
        rw [← types]
        exact cutting_withGuard reachedTies (·.enter other.type) probing
      have reads : TiedAt (s.cutting root (before ++ ending) (before ++ cut) (·.IsProbing key))
          (fun a b => a.1 = b.1) (probeReading (nestedProbe (probe depth)) caps reader [])
          (probeReading (nestedProbe (probe (depth + extra))) other otherReader [])
          ((reached.withEvents events).withGuard (reached.guard.enter caps.type))
          ((later.withEvents others).withGuard (later.guard.enter other.type)) := by
        cases swaps.of_some expands.reads otherExpands.reads with
        | same =>
            obtain rfl : other = caps := by rw [swaps.rest, otherExpands.reads, ← expands.reads]
            exact (keeps.probesReading (keeps.nestedProbes extra depth) isRead other [] _ _
              entered).mono fun _ _ same => congrArg Prod.fst same.1
        | swapped maker =>
            have alike : TiedAt (s.cutting root (before ++ ending) (before ++ cut) (·.IsProbing key))
                (caps.ConcludesAlike other (fun _ => True) fun _ => True)
                (probeReading (nestedProbe (probe depth)) caps (.program maker (before ++ ending)) [])
                (probeReading (nestedProbe (probe (depth + extra))) other
                  (.program maker (before ++ cut)) [])
                ((reached.withEvents events).withGuard (reached.guard.enter caps.type))
                ((later.withEvents others).withGuard (later.guard.enter other.type)) :=
              probeReading_tiedAt cutting_ignoresEvents
                (keeps.stops final fails
                  (recorder_answersTied cutting_allowsFaults (keeps.nestedProbes extra depth))
                  isRead _ entered)
                trivial fun last lastOther lastTies =>
                  keeps.stops final fails cutting_checks isRead _ lastTies
            refine alike.mono fun a b concluded => ?_
            obtain ⟨recording, openPaths, -, -, isFirst, isSecond⟩ := concluded
            rw [isFirst, isSecond, swaps.rest]
            rfl
      exact probeGuarded_tiedAt reads (fun _ _ _ _ _ _ => trivial)
        (fun _ _ _ _ _ => ⟨trivial, trivial⟩) fun _ => trivial

/-- A type is described with the same shape by both programs. -/
theorem Store.KeepsToItself.describes
    (keeps : s.KeepsToItself root (before ++ cut) key)
    (final : ending.all Statement.isFinal = true)
    (fails : Program.Fails cut)
    (swaps : t.Swaps (before ++ ending) (before ++ cut) s)
    (extra depth : Nat) :
    TiedAt (.loose Store Store) Eq (describeTo depth root) (describeTo (depth + extra) root) t s := by
  have ties : (s.cutting root (before ++ ending) (before ++ cut) (· = .empty)).ties
      (t.beside (t.events ++ [.probeStarted]) .empty)
      (s.beside (s.events ++ [.probeStarted]) .empty) :=
    ⟨⟨swaps.world, swaps.shared, swaps.own, rfl⟩, .beside .start, rfl⟩
  refine .bind_of_run ?_ (run_update _ t) (run_update _ s)
  refine .bind_of_run ?_ (run_update _ _) (run_update _ _)
  refine (keeps.probesRoot final fails ties extra depth).bind fun a b _ _ _ same => ?_
  exact .ok rfl rfl trivial same

/-- Whether a program ends at once, with what a variable is bound to or with what it
got. -/
inductive Program.IsReturn : Program → Prop
  | plain : IsReturn []
  | variable (name : String) : IsReturn [.give (.variable name)]

/-- Statements that return ask for nothing. -/
theorem Program.IsReturn.final
    (returns : Program.IsReturn ending) :
    ending.all Statement.isFinal = true := by
  cases returns <;> rfl

/-- Returning is no more to run than failing. -/
theorem Program.IsReturn.weight_le
    {kind : FaultKind}
    {message : String}
    {location : Path}
    (returns : Program.IsReturn ending)
    (before rest : Program) :
    Statement.weightAll (before ++ ending) ≤
      Statement.weightAll (before ++ .fail kind message location :: rest) := by
  induction before with
  | nil =>
      cases returns <;> simp [Statement.weightAll, Statement.weight]
  | cons statement others inductionHypothesis =>
      exact Nat.add_le_add_left inductionHypothesis _

/-- The node of a type that recorded nothing. -/
def Capabilities.unread (caps : Capabilities) : Shape :=
  match caps.cases with
  | some cases =>
    .single ⟨some caps.type, false, some cases⟩ ((cases.head?.map labelKind).getD .string)
  | none => .any (some caps.type)

/-- A type that opened no container has a node of which nothing is known but its type
and its cases. -/
theorem describeTo_unread
    {caps : Capabilities}
    {reader : Reader}
    {known between last : Store}
    {depth : Nat}
    {outcome : Except Interrupt Value}
    {recording : Recording}
    {shape : Shape}
    (expands : (s.beside (s.events ++ [.probeStarted]) .empty).Expands root caps reader known)
    (first : (firstPass (nestedProbe (probe depth)) reader []).run (known.entering caps.type) =
      (.ok (outcome, recording), between))
    (unopened : recording.nodes.head? = some (.decoder none))
    (described : (describeTo (depth + 1) root).run s = (.ok shape, last)) :
    shape = caps.unread := by
  obtain ⟨value, after, probed⟩ := describeTo_reads expands described
  have unknown (openPaths : List Path) :
      recording.finish (some caps.type) openPaths = .any (some caps.type) := by
    rw [Recording.finish]
    cases 2 * recording.nodes.length with
    | zero => rfl
    | succ depth => rw [Recording.finishNode, ← List.head?_eq_getElem?, unopened]
  have passed : (reader.run (recorder (nestedProbe (probe depth))) (Recorder.decoder [])).run
      (.start, known.entering caps.type) = (outcome, recording, between) := by
    cases ran : (reader.run (recorder (nestedProbe (probe depth))) (Recorder.decoder [])).run
        (.start, known.entering caps.type) with
    | mk result reached =>
        unfold firstPass Step.beside at first
        simp only [ran] at first
        cases first
        rfl
  have bounded : outcome ≠ .error .exhausted := by
    rintro rfl
    rw [probeReading_of_exhausted passed caps] at probed
    cases probed
  obtain ⟨result, events, concluded⟩ := probeReading_of_run passed bounded caps
  rw [concluded, concludeReading] at probed
  obtain ⟨openPaths, reached, -, made⟩ := run_bind_eq_ok_iff.mp probed
  dsimp only at made
  rw [unknown] at made
  unfold Capabilities.unread
  cases isCases : caps.cases with
  | none =>
      rw [isCases] at made
      cases made
      rfl
  | some cases =>
      rw [isCases] at made
      cases made
      rfl

/-- A failing decode keeps exactly what it recorded: a class has the same description
with a program that fails at a statement and with the program that returns there,
whatever follows and whatever the fault is, as long as no other type that is met while
the class is described is read by its program or delegates to it.  If nothing was
recorded before, the node of the class is unconstrained, or a scalar with its cases. -/
theorem describe_truncated
    {c : ClassRef}
    {rest : Program}
    {kind : FaultKind}
    {message : String}
    {location : Path}
    (swaps : t.Swaps (before ++ ending) (before ++ .fail kind message location :: rest) s)
    (returns : Program.IsReturn ending)
    (keeps : s.KeepsToItself (.cls c) (before ++ .fail kind message location :: rest) key)
    (ends : ((describe (.cls c)).run t).1 ≠ .error .exhausted) :
    ((describe (.cls c)).run s).1 = ((describe (.cls c)).run t).1 ∧
      ∀ depth caps reader known outcome recording between shape,
        s.depthFor (TypeForm.cls c).weight = depth + 1 →
          (s.beside (s.events ++ [.probeStarted]) .empty).Expands (.cls c) caps reader known →
            (firstPass (nestedProbe (probe depth)) reader []).run (known.entering caps.type) =
                (.ok (outcome, recording), between) →
              recording.nodes.head? = some (.decoder none) →
                ((describe (.cls c)).run s).1 = .ok shape → shape = caps.unread := by
  constructor
  · have lighter := swaps.weight_le (returns.weight_le before rest)
    have deep : t.depthFor (TypeForm.cls c).weight ≤ s.depthFor (TypeForm.cls c).weight :=
      Nat.pow_le_pow_left (Nat.add_le_add_right (Nat.add_le_add_left lighter 2) _) 3
    obtain ⟨extra, isDepth⟩ := Nat.exists_eq_add_of_le deep
    have described := keeps.describes returns.final ⟨kind, message, location, rest, rfl⟩ swaps extra
      (t.depthFor (TypeForm.cls c).weight)
    rw [← isDepth] at described
    have run_describe (s : Store) : (describe (.cls c)).run s =
        (describeTo (s.depthFor (TypeForm.cls c).weight) (.cls c)).run s :=
      rfl
    rw [run_describe] at ends ⊢
    rw [run_describe]
    cases described with
    | ok firstRun secondRun _ same => rw [firstRun, secondRun, same]
    | error firstRun secondRun _ _ => rw [firstRun, secondRun]
    | lapsed firstRun _ =>
        rw [firstRun] at ends
        exact absurd rfl ends
  · intro depth caps reader known outcome recording between shape isDepth expands first unopened
      described
    have ran : (describeTo (depth + 1) (.cls c)).run s = (.ok shape, ((describe (.cls c)).run s).2) := by
      rw [← isDepth, ← described]
      rfl
    exact describeTo_unread expands first unopened ran

end

/-! ## A chain that is cut off -/

/-- The state in which the program of chains returns where it failed. -/
def returningChainStore : Store :=
  { chainStore with
    world :=
      { chainStore.world with
        classes :=
          [{ chainRecord with
            hooks := { Hooks.none with program := some (chainProgram.take 3) } }] } }

/-- Chains do not meet their program elsewhere. -/
theorem keepsToItself_chain :
    chainStore.KeepsToItself (.cls chainClass) chainProgram (TypeForm.cls chainClass).identity where
  own s' caps reader reached found expands := by
    have knows : s'.KnowsChains := isOfChains_of_finds found
    obtain ⟨last, ran, _⟩ := knows.lookup (e := (.cls chainClass, chainCapabilities)) List.mem_cons_self
    have same := ran.symm.trans expands.found
    cases same
    rfl
  alone s' a caps maker reached found isForm expands := by
    have knows : s'.KnowsChains := isOfChains_of_finds found
    have isOfChains : (Finding.form a).IsOfChains := isOfChains_of_finds isForm
    obtain ⟨e, member, rfl⟩ := isOfChains.expands knows expands
    simp only [chainKnowledge, List.mem_cons, List.not_mem_nil, or_false] at member
    rcases member with rfl | rfl
    · rfl
    · cases expands.reads
  undelegated s' reader type maker reached _ isRead member := by
    obtain ⟨_, _, absent, _⟩ := Finding.IsOfChains.needs (isOfChains_of_finds isRead) member
    cases absent

/-- Chains are described as if their program returned where it fails. -/
theorem describe_truncated_chain :
    ((describe (.cls chainClass)).run chainStore).1 =
      ((describe (.cls chainClass)).run returningChainStore).1 := by
  have swaps : returningChainStore.Swaps (chainProgram.take 3 ++ [])
      (chainProgram.take 3 ++ [.fail .runtime "broken" []]) chainStore :=
    ⟨⟨.cons ⟨⟨.swapped, rfl⟩, rfl⟩ .nil, rfl, rfl, rfl⟩, .refl _, .none, rfl⟩
  have isOk : ((describe (.cls chainClass)).run returningChainStore).1.isOk = true := by
    decide +kernel
  refine (describe_truncated swaps .plain keepsToItself_chain fun exhausted => ?_).1
  rw [exhausted] at isOk
  cases isOk

/-! ## Types that delegate to a program that fails -/

/-- A class whose objects contain a leaf. -/
def stemClass : UserClass :=
  ⟨1, "Stem", "shapes"⟩

/-- A leaf is decoded as a stem before it decodes itself. -/
def leafProgram : Program :=
  [.delegate "d" (.named "Stem") none, .request "d" .openKeyed (some "own"),
    .request "own" (.decode (.known (.builtin .int)) (some (.literal "size"))) none]

/-- A stem is decoded from its leaf. -/
def stemProgram : Program :=
  [.request "d" .openKeyed (some "own"),
    .request "own" (.decode (.named "Leaf") (some (.literal "leaf"))) none]

/-- The state in which stems are declared with a program. -/
def stemStore (body : Program) : Store :=
  { Store.initial with
    world :=
      { World.empty with
        classes := [programRecord ⟨1, "Leaf", "shapes"⟩ leafProgram, programRecord stemClass body]
        names := [("Leaf", .cls (.user ⟨1, "Leaf", "shapes"⟩)), ("Stem", .cls (.user stemClass))] } }

/-- A type that delegates to the class that is described ends where that fails, and
goes on where it returns, so that the two descriptions differ. -/
theorem describe_truncated_matters :
    ¬ ∀ (s t : Store) (c : UserClass) (before rest : Program) (kind : FaultKind) (message : String)
      (location : Path),
      (t.world.hooks (.user c)).program = some before →
        t.Swaps before (before ++ .fail kind message location :: rest) s →
          ((describe (.cls (.user c))).run t).1 ≠ .error .exhausted →
            ((describe (.cls (.user c))).run s).1 = ((describe (.cls (.user c))).run t).1 := by
  intro claim
  have swaps : (stemStore stemProgram).Swaps stemProgram
      (stemProgram ++ [.fail .refusal "broken" []])
      (stemStore (stemProgram ++ [.fail .refusal "broken" []])) :=
    ⟨⟨.cons ⟨.refl _, rfl⟩ (.cons ⟨⟨.swapped, rfl⟩, rfl⟩ .nil), rfl, rfl, rfl⟩, .refl _, .none, rfl⟩
  have returns : ((describe (.cls (.user stemClass))).run (stemStore stemProgram)).1.toOption.map
      Shape.hasRecursive = some false := by
    decide +kernel
  have fails : ((describe (.cls (.user stemClass))).run
      (stemStore (stemProgram ++ [.fail .refusal "broken" []]))).1.toOption.map
        Shape.hasRecursive = some true := by
    decide +kernel
  have same := claim _ _ stemClass stemProgram [] .refusal "broken" [] rfl swaps fun exhausted => by
    rw [exhausted] at returns
    cases returns
  rw [same, returns] at fails
  cases fails

end SchemaProbe

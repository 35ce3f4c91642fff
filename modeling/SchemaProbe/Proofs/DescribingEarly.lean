import SchemaProbe.Description
import SchemaProbe.Proofs.Answers
import SchemaProbe.Proofs.TiedLookups
import SchemaProbe.Proofs.TiedProbing

namespace SchemaProbe

/-!
# Describing before all is declared

Describing a type while classes are still being declared, however it ends, leaves a state
that is on the way.  When all is declared, types are described in the same way in any two
states that are on the way to the same: so what was described before leaves no trace in
what is described then.
-/

open Step

section

variable {among : TypeForm → Prop} {ofName : String → Option TypeForm} {base other : World}
  {lapses : Prop} {s t : Store}

/-! ## States on the way side by side -/

/-- Whether two worlds hold all that there is in the end, and that is the same. -/
def World.AreComplete
    (among : TypeForm → Prop)
    (ofName : String → Option TypeForm)
    (base other : World) :
    Prop :=
  ∃ last : World, last.IsOnWay among ofName last.declared ∧
    World.IsComplete ofName last base ∧ World.IsComplete ofName last other

/-- It does not matter which of the two worlds is the first. -/
theorem World.AreComplete.symm
    (complete : base.AreComplete among ofName other) :
    other.AreComplete among ofName base := by
  obtain ⟨last, onWay, isBase, isOther⟩ := complete
  exact ⟨last, onWay, isOther, isBase⟩

/-- Whether two states are on the way with the same guard, and are the same unless all is
declared in both of them. -/
structure Store.AreOnWay
    (among : TypeForm → Prop)
    (ofName : String → Option TypeForm)
    (base other : World)
    (s t : Store) :
    Prop where
  first : s.IsOnWay among ofName base
  second : t.IsOnWay among ofName other
  guard : t.guard = s.guard
  alike : s = t ∨ base.AreComplete among ofName other

/-- The bond of two states on the way. -/
def Bond.onWay
    (among : TypeForm → Prop)
    (ofName : String → Option TypeForm)
    (base other : World)
    (lapses : Prop) :
    Bond Store Store where
  ties := Store.AreOnWay among ofName base other
  allows _ := True
  lapses := lapses

/-- What is declared on the way is what was declared. -/
theorem Store.IsOnWay.declares_iff
    (onWay : s.IsOnWay among ofName base)
    (u : UserClass) :
    s.world.Declares (.user u) ↔ base.declared u :=
  onWay.world.onWay.declares u

/-- The same is declared in two states on the way. -/
theorem Store.AreOnWay.declared (areOnWay : s.AreOnWay among ofName base other t) :
    other.declared = base.declared := by
  funext u
  refine propext ?_
  rcases areOnWay.alike with rfl | ⟨last, -, complete, otherComplete⟩
  · rw [← areOnWay.first.declares_iff, areOnWay.second.declares_iff]
  · exact ⟨fun declared => complete.classes u (otherComplete.stage.declares declared),
      fun declared => otherComplete.classes u (complete.stage.declares declared)⟩

/-- Whether a step leaves a state on the way with its guard, and gives what is good. -/
structure Step.StaysOnWay
    (among : TypeForm → Prop)
    (ofName : String → Option TypeForm)
    (base : World)
    (good : α → Prop)
    (step : Step Store α)
    (s : Store) :
    Prop where
  onWay : (step.run s).2.IsOnWay among ofName base
  guard : (step.run s).2.guard = s.guard
  isGood : ∀ a, (step.run s).1 = .ok a → good a

/-- A step that leaves states on the way, and ends in the same way when all is declared,
ends tied to itself. -/
theorem Store.AreOnWay.tiedAt
    {good : α → Prop}
    {step : Step Store α}
    (areOnWay : s.AreOnWay among ofName base other t)
    (stays : step.StaysOnWay among ofName base good s)
    (staysToo : step.StaysOnWay among ofName other good t)
    (agrees : base.AreComplete among ofName other → (step.run t).1 = (step.run s).1) :
    TiedAt (.onWay among ofName base other lapses) (Same good) step step s t := by
  have same : (step.run t).1 = (step.run s).1 := by
    rcases areOnWay.alike with rfl | complete
    · rfl
    · exact agrees complete
  have reached : Store.AreOnWay among ofName base other (step.run s).2 (step.run t).2 := by
    refine ⟨stays.onWay, staysToo.onWay, ?_, ?_⟩
    · rw [stays.guard, staysToo.guard, areOnWay.guard]
    · rcases areOnWay.alike with rfl | complete
      · exact .inl rfl
      · exact .inr complete
  cases ended : (step.run s).1 with
  | ok a =>
      exact .ok (Prod.ext ended rfl) (Prod.ext (same.trans ended) rfl) reached
        ⟨rfl, stays.isGood a ended⟩
  | error interrupt =>
      exact .error (Prod.ext ended rfl) (Prod.ext (same.trans ended) rfl) reached trivial

theorem Bond.onWay_allowsFaults :
    (Bond.onWay among ofName base other lapses).AllowsFaults :=
  fun _ => trivial

/-- What is noted does not matter on the way. -/
theorem Store.IsOnWay.withEvents
    (onWay : s.IsOnWay among ofName base)
    (events : List Event) :
    (s.withEvents events).IsOnWay among ofName base :=
  ⟨onWay.world, onWay.shared, onWay.explicit, onWay.cache⟩

/-- The guard does not matter on the way. -/
theorem Store.IsOnWay.withGuard
    (onWay : s.IsOnWay among ofName base)
    (guard : CycleGuard) :
    (s.withGuard guard).IsOnWay among ofName base :=
  ⟨onWay.world, onWay.shared, onWay.explicit, onWay.cache⟩

/-- Noting the same keeps states on the way. -/
theorem Bond.onWay_notes : (Bond.onWay among ofName base other lapses).Notes := by
  intro s t e areOnWay
  refine ⟨areOnWay.first.withEvents _, areOnWay.second.withEvents _, areOnWay.guard, ?_⟩
  rcases areOnWay.alike with rfl | complete
  · exact .inl rfl
  · exact .inr complete

/-- Guards change together. -/
theorem Store.AreOnWay.withGuard
    (areOnWay : s.AreOnWay among ofName base other t)
    (change : CycleGuard → CycleGuard) :
    Store.AreOnWay among ofName base other (s.withGuard (change s.guard))
      (t.withGuard (change t.guard)) := by
  refine ⟨areOnWay.first.withGuard _, areOnWay.second.withGuard _,
    congrArg change areOnWay.guard, ?_⟩
  rcases areOnWay.alike with rfl | complete
  · exact .inl rfl
  · exact .inr complete

/-- The same is made in two states on the way. -/
theorem Bond.onWay_makes : (Bond.onWay among ofName base other lapses).Makes := by
  intro s t areOnWay
  rcases areOnWay.alike with rfl | ⟨last, -, complete, otherComplete⟩
  · exact .refl _
  · exact (areOnWay.first.world.same.isComplete complete).makesAlike_of
      (areOnWay.second.world.same.isComplete otherComplete)

/-! ## What is found out side by side -/

/-- What is found out in the declared classes leaves a state on the way. -/
theorem Store.IsOnWay.staysOnWay
    {good : α → Prop}
    {step : Step World α}
    (onWay : s.IsOnWay among ofName base)
    (leads : s.world.LeadsTo among ofName base.declared (step.run s.world).2)
    (isGood : ∀ a, (step.run s.world).1 = .ok a → good a) :
    (Step.inWorld step).StaysOnWay among ofName base good s :=
  ⟨⟨onWay.world.trans leads, onWay.shared, onWay.explicit, onWay.cache⟩, rfl, isGood⟩

/-- What is read on the way ends in the same way if it depends on the sense of names
alone. -/
theorem onWay_reads
    {good : α → Prop}
    {step : Step World α}
    (result : Sense → Except Fault α)
    (reads : ∀ w : World, w.IsOnWay among ofName base.declared →
      Step.Reads among w step (result (Naming.strict.sense w)))
    (isGood : ∀ w : World, w.IsOnWay among ofName base.declared →
      ∀ a, result (Naming.strict.sense w) = .ok a → good a) :
    Tied (.onWay among ofName base other lapses) (Same good) (inWorld step) (inWorld step) := by
  intro s t areOnWay
  have onWay := areOnWay.first.world.onWay
  have onWayToo := areOnWay.second.world.onWay
  rw [areOnWay.declared] at onWayToo
  obtain ⟨reached, ran, leads⟩ := onWay.exists_run (reads _ onWay)
  obtain ⟨reachedToo, ranToo, leadsToo⟩ := onWayToo.exists_run (reads _ onWayToo)
  refine areOnWay.tiedAt (areOnWay.first.staysOnWay ?_ ?_) (areOnWay.second.staysOnWay ?_ ?_) ?_
  · rw [ran]
    exact leads
  · rw [ran]
    exact fun a isOk => isGood _ onWay a (eq_ok_of_mapError isOk)
  · rw [ranToo, areOnWay.declared]
    exact leadsToo
  · rw [ranToo]
    exact fun a isOk => isGood _ onWayToo a (eq_ok_of_mapError isOk)
  · rintro ⟨last, -, complete, otherComplete⟩
    have sense := (areOnWay.first.world.same.isComplete complete).sense_strict
    have senseToo := (areOnWay.second.world.same.isComplete otherComplete).sense_strict
    change (step.run t.world).1 = (step.run s.world).1
    rw [ran, ranToo, ← sense, ← senseToo]

section

variable (words : TypeForm.Vocabulary among ofName)

include words

/-- A type that comes up is looked up in the same way. -/
theorem onWay_lookup
    {a : TypeForm}
    (met : a.IsMet among base.declared)
    (scope : Scope) :
    Tied (.onWay among ofName base other lapses)
      (Same fun caps => ∀ reader, caps.reader = some reader →
        reader.IsFamiliar among ofName base.declared)
      (lookup scope a) (lookup scope a) := by
  intro s t areOnWay
  have looks := areOnWay.first.lookup words met scope
  have looksToo := areOnWay.second.lookup words (areOnWay.declared ▸ met) scope
  refine areOnWay.tiedAt ⟨looks.onWay, looks.guard, fun caps isFound => ?_⟩
    ⟨looksToo.onWay, looksToo.guard, fun caps isFound => ?_⟩ ?_
  · exact (looks.teaches caps isFound).familiar
  · rw [← areOnWay.declared]
    exact (looksToo.teaches caps isFound).familiar
  · rintro ⟨last, lastOnWay, complete, otherComplete⟩
    rw [looks.complete last complete lastOnWay, looksToo.complete last otherComplete lastOnWay]

/-- A class that is declared has the same plans. -/
theorem onWay_decodingPlans
    {c : ClassRef}
    (declared : ∀ u, c = .user u → base.declared u) :
    Tied (.onWay among ofName base other lapses)
      (Same fun plans => ∀ p ∈ plans, p.requested.IsMet among base.declared)
      (inWorld (decodingPlans c)) (inWorld (decodingPlans c)) := by
  intro s t areOnWay
  have plans := areOnWay.first.world.onWay.decodingPlans words c
  have plansToo := areOnWay.second.world.onWay.decodingPlans words c
  refine areOnWay.tiedAt (areOnWay.first.staysOnWay plans.1 plans.2)
    (areOnWay.second.staysOnWay plansToo.1 (areOnWay.declared ▸ plansToo.2)) ?_
  rintro ⟨last, -, complete, otherComplete⟩
  have isDeclared : s.world.Declares c ∧ t.world.Declares c := by
    cases c with
    | user u =>
        have isBase := declared u rfl
        exact ⟨(areOnWay.first.declares_iff u).mpr isBase,
          (areOnWay.second.declares_iff u).mpr (areOnWay.declared ▸ isBase)⟩
    | _ => exact ⟨trivial, trivial⟩
  have found := areOnWay.first.world.onWay.decodingPlans_of_complete words
    (areOnWay.first.world.same.isComplete complete) isDeclared.1
  have foundToo := areOnWay.second.world.onWay.decodingPlans_of_complete words
    (areOnWay.second.world.same.isComplete otherComplete) isDeclared.2
  exact foundToo.trans found.symm

/-- What is worded is read in the same way, and comes up. -/
theorem onWay_resolve
    {t : TypeTerm}
    (worded : TypeTerm.AreWorded among ofName t.parts) :
    Tied (.onWay among ofName base other lapses) (Same (TypeForm.IsMet among base.declared))
      (inWorld (t.resolve .strict)) (inWorld (t.resolve .strict)) := by
  refine onWay_reads t.read (fun w onWay => ?_) fun w onWay a isRead => ?_
  · exact TypeTerm.resolve_reads (words.strict w) t (worded.comeUp _ onWay.isStage_strict)
  · exact onWay.isMet_of_read worded isRead

/-- A worded value is read in the same way. -/
theorem onWay_resolveValue
    {v : ValueTerm}
    (worded : TypeTerm.AreWorded among ofName v.parts) :
    Tied (.onWay among ofName base other lapses) (Same anything)
      (inWorld (v.resolve .strict)) (inWorld (v.resolve .strict)) :=
  onWay_reads v.read (fun w onWay =>
    ValueTerm.resolve_reads (words.strict w) v (worded.comeUp _ onWay.isStage_strict))
    fun _ _ _ _ => trivial

/-- The reader of a worded type is found in the same way. -/
theorem onWay_sharedReader
    {t : TypeTerm}
    (worded : TypeTerm.AreWorded among ofName t.parts) :
    Tied (.onWay among ofName base other lapses)
      (Same fun reader => reader.IsFamiliar among ofName base.declared)
      (sharedReader t) (sharedReader t) := by
  refine (onWay_resolve words worded).bind_same fun a met => ?_
  refine (onWay_lookup words met .shared).bind_same fun caps familiar => ?_
  cases isReader : caps.reader with
  | some reader => exact .pure_same (familiar reader isReader)
  | none => exact .fail (Bond.onWay_allowsFaults _)

end

/-! ## Reading side by side -/

mutual

/-- What a worded statement relies on is found out in the same way. -/
theorem Statement.isTied_onWay
    (words : TypeForm.Vocabulary among ofName)
    (statement : Statement)
    (worded : TypeTerm.AreWorded among ofName statement.parts) :
    statement.IsTied (.onWay among ofName base other lapses) (TypeForm.IsMet among base.declared)
      fun reader => reader.IsFamiliar among ofName base.declared := by
  cases statement with
  | request on written name =>
      rw [Statement.parts] at worded
      rw [Statement.IsTied]
      intro t isForm
      rw [isForm] at worded
      exact onWay_resolve words worded
  | delegate on type name =>
      rw [Statement.parts] at worded
      exact onWay_sharedReader words worded
  | forKeys on key body =>
      rw [Statement.parts] at worded
      exact Statement.areTied_onWay words body worded
  | untilEnd on body =>
      rw [Statement.parts] at worded
      exact ⟨trivial, Statement.areTied_onWay words body worded⟩
  | branch on condition agreed otherwise =>
      rw [Statement.parts] at worded
      exact ⟨Statement.areTied_onWay words agreed (worded.mono (List.subset_append_left _ _)),
        Statement.areTied_onWay words otherwise (worded.mono (List.subset_append_right _ _))⟩
  | attempt body handler =>
      rw [Statement.parts] at worded
      exact ⟨Statement.areTied_onWay words body (worded.mono (List.subset_append_left _ _)),
        Statement.areTied_onWay words handler (worded.mono (List.subset_append_right _ _))⟩
  | give result =>
      cases result with
      | value v =>
          rw [Statement.parts] at worded
          exact onWay_resolveValue words worded
      | «variable» name => trivial
  | fail kind message location => trivial
termination_by structural statement

/-- What worded statements rely on is found out in the same way. -/
theorem Statement.areTied_onWay
    (words : TypeForm.Vocabulary among ofName)
    (body : List Statement)
    (worded : TypeTerm.AreWorded among ofName (Statement.partsAll body)) :
    Statement.AreTied (.onWay among ofName base other lapses) (TypeForm.IsMet among base.declared)
      (fun reader => reader.IsFamiliar among ofName base.declared) body := by
  cases body with
  | nil => trivial
  | cons first rest =>
      rw [Statement.partsAll] at worded
      exact ⟨Statement.isTied_onWay words first (worded.mono (List.subset_append_left _ _)),
        Statement.areTied_onWay words rest (worded.mono (List.subset_append_right _ _))⟩
termination_by structural body

end

section

variable (words : TypeForm.Vocabulary among ofName)

include words

/-- A familiar reader relies on what is found out in the same way. -/
theorem Reader.isTied_onWay
    {reader : Reader}
    (familiar : reader.IsFamiliar among ofName base.declared) :
    reader.IsTied (.onWay among ofName base other lapses) (TypeForm.IsMet among base.declared)
      fun reader => reader.IsFamiliar among ofName base.declared := by
  cases reader with
  | fields c => exact onWay_decodingPlans words familiar
  | member c =>
      intro s t _
      have memberless : t.world.memberClass c = .builtin .str := by
        cases c with
        | user u => exact absurd rfl (familiar u)
        | builtin b => cases b <;> rfl
        | sized number home => rfl
      rw [memberless]
      exact ⟨words.text, fun u member => absurd member List.not_mem_nil⟩
  | program maker body => exact Statement.areTied_onWay words body familiar
  | _ => exact familiar

/-- Familiar readers read in the same way on surfaces that answer in the same way. -/
theorem Reader.run_onWay
    {σ : Type}
    {first second : Surface σ}
    {reader : Reader}
    (answers : Surface.AnswersTied (.onWay among ofName base other lapses)
      (TypeForm.IsMet among base.declared) first second)
    (familiar : reader.IsFamiliar among ofName base.declared)
    (decoder : Handle) :
    Tied ((Bond.onWay among ofName base other lapses).beside σ) (Same anything)
      (reader.run first decoder) (reader.run second decoder) :=
  Reader.runTo_tied Bond.onWay_makes Bond.onWay_allowsFaults answers
    (fun _ otherFamiliar => Reader.isTied_onWay words otherFamiliar) delegationDepth familiar decoder

/-! ## Probing side by side -/

/-- What stands in for a type that comes up is the same. -/
theorem onWay_placeholderOf
    {a : TypeForm}
    (met : a.IsMet among base.declared) :
    Tied (.onWay among ofName base other lapses) (Same anything) (placeholderOf a)
      (placeholderOf a) := by
  refine placeholderOf_tied Bond.onWay_allowsFaults (onWay_lookup words met .current) ?_ ?_
  · rintro caps _ ⟨rfl, -⟩
    rfl
  · rintro caps _ s t ⟨rfl, -⟩ areOnWay
    rw [areOnWay.guard]

/-- Types that come up are read in the same way. -/
theorem onWay_probeReading
    {first second : NestedProbe}
    {reader : Reader}
    (nested : NestedTied (.onWay among ofName base other lapses)
      (TypeForm.IsMet among base.declared) first second)
    (familiar : reader.IsFamiliar among ofName base.declared)
    (caps : Capabilities)
    (path : Path) :
    Tied (.onWay among ofName base other lapses) (Same anything)
      (probeReading first caps reader path) (probeReading second caps reader path) := by
  have checks : (keyChecker placeholderOf).AnswersTied (.onWay among ofName base other lapses)
      (TypeForm.IsMet among base.declared) (keyChecker placeholderOf) :=
    keyChecker_answersTied Bond.onWay_allowsFaults fun _ met => onWay_placeholderOf words met
  have reads : Tied (Bond.onWay among ofName base other lapses).faultless (Same anything)
      (probeReading first caps reader path) (probeReading second caps reader path) := by
    apply probeReading_tied Bond.onWay_notes
    · exact fun s t ties => Reader.run_onWay words
        (recorder_answersTied Bond.onWay_allowsFaults nested) familiar _ _ _ ⟨⟨rfl, trivial⟩, ties⟩
    · exact fun s t ties =>
        Reader.run_onWay words checks familiar _ _ _ ⟨⟨rfl, trivial⟩, ties⟩
  exact fun s t ties => (reads s t ties).weaken
    ⟨fun _ _ ties => ties, fun _ _ => trivial, fun lapses => lapses⟩

/-- Types that come up are probed in the same way, to a depth and to a greater one. -/
theorem onWay_probe
    {extra : Nat}
    (lapsing : extra ≠ 0 → lapses)
    (depth : Nat) :
    NestedTied (.onWay among ofName base other lapses) (TypeForm.IsMet among base.declared)
      (probe depth) (probe (depth + extra)) := by
  induction depth with
  | zero =>
      intro a met path s t areOnWay
      rcases Nat.eq_zero_or_pos extra with rfl | deeper
      · exact .error rfl rfl areOnWay trivial
      · exact .lapsed rfl (lapsing (Nat.pos_iff_ne_zero.mp deeper))
  | succ depth inductionHypothesis =>
      intro a met path s t areOnWay
      rw [Nat.add_right_comm]
      have nested : NestedTied (.onWay among ofName base other lapses)
          (TypeForm.IsMet among base.declared) (nestedProbe (probe depth))
          (nestedProbe (probe (depth + extra))) :=
        fun b bMet path => nestedProbe_tied trivial Bond.onWay_allowsFaults Bond.onWay_notes
          (inductionHypothesis b bMet path)
      refine probe_tiedAt Bond.onWay_notes (onWay_lookup words met .current s t areOnWay) ?_ ?_
        (fun _ _ _ _ _ _ _ _ => ⟨rfl, trivial⟩) (.refl _) ?_
      · rintro caps _ ⟨rfl, -⟩
        exact ⟨rfl, Iff.rfl⟩
      · rintro caps _ reached later ⟨rfl, -⟩ reachedTies
        rw [reachedTies.guard]
      · rintro caps _ reader otherReader reached later events others expands otherExpands
          ⟨rfl, familiar⟩ reachedTies -
        obtain rfl : otherReader = reader :=
          Option.some.inj (otherExpands.reads.symm.trans expands.reads)
        have reads := onWay_probeReading words nested (familiar _ expands.reads) caps path _ _
          (reachedTies.withGuard (·.enter caps.type))
        refine probeGuarded_tiedAt reads ?_ (fun _ _ _ ties allowed => ⟨ties, allowed⟩) id
        rintro last lastOther result _ lastTies ⟨rfl, -⟩
        exact lastTies.withGuard (·.complete caps.type result.1 result.2)

/-- A type that comes up is described in the same way, to a depth and to a greater one. -/
theorem onWay_describeTo
    {extra : Nat}
    {a : TypeForm}
    (lapsing : extra ≠ 0 → lapses)
    (depth : Nat)
    (met : a.IsMet among base.declared) :
    Tied (.onWay among ofName base other lapses) (Same anything) (describeTo depth a)
      (describeTo (depth + extra) a) := by
  have resets : Tied (.onWay among ofName base other lapses) (Same anything)
      (changeGuard fun _ => .empty) (changeGuard fun _ => .empty) :=
    .update fun _ _ ties => ties.withGuard fun _ => .empty
  refine (note_tied Bond.onWay_notes _).bind_same fun _ _ => ?_
  refine resets.bind_same fun _ _ => ?_
  refine (onWay_probe words lapsing depth a met []).bind_same fun result _ => ?_
  exact (note_tied Bond.onWay_notes _).bind_same fun _ _ => .pure_same trivial

/-- Describing a type that comes up leaves a state on the way. -/
theorem Store.IsOnWay.describe
    {a : TypeForm}
    (onWay : s.IsOnWay among ofName base)
    (met : a.IsMet among base.declared) :
    ((SchemaProbe.describe a).run s).2.IsOnWay among ofName base := by
  have described : TiedAt (.onWay among ofName base base False) (Same anything)
      (describeTo (s.depthFor a.weight) a) (describeTo (s.depthFor a.weight + 0) a) s s :=
    onWay_describeTo words (absurd rfl) _ met s s ⟨onWay, onWay, rfl, .inl rfl⟩
  have ran : (SchemaProbe.describe a).run s = (describeTo (s.depthFor a.weight) a).run s := rfl
  rw [ran]
  cases described with
  | ok firstRun _ ties _ =>
      rw [firstRun]
      exact ties.first
  | error firstRun _ ties _ =>
      rw [firstRun]
      exact ties.first
  | lapsed _ lapsed => exact lapsed.elim

end

end

end SchemaProbe

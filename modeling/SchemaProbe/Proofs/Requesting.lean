import SchemaProbe.Proofs.TiedProbing

namespace SchemaProbe

/-!
# Reading on surfaces that answer alike

A type reads itself by making requests of a surface and by relying on what can
be found out about types.  On two surfaces that answer alike it ends in the same
way, unless it loops or delegates without end: steps that end alike are steps that
end tied from the same state.
-/

open Step

/-! ## What is relied on -/

/-- Whether what a reader relies on ends like itself, and asks for type forms and
readers of a sort. -/
def Need.IsMet
    (R : Regime Store)
    (met : TypeForm → Prop)
    (reads : Reader → Prop) :
    Need → Prop
  | .forms find => Alike R (fun forms => ∀ a ∈ forms, met a) (inWorld find) (inWorld find)
  | .delegate type => Alike R reads (sharedReader type) (sharedReader type)
  | .endOfSequence => R.allows .exhausted

section

variable {σ α : Type} {R : Regime Store} {met : TypeForm → Prop} {reads : Reader → Prop}

/-- Type forms that are found out by way of something else are found with it. -/
theorem Need.IsMet.ofForms
    {find : Step World α}
    {forms : α → List TypeForm}
    (isMet : (Need.forms (find >>= fun a => pure (forms a))).IsMet R met reads) :
    Alike R (fun a => ∀ b ∈ forms a, met b) (inWorld find) (inWorld find) := by
  intro s holds
  exact (isMet s holds).ofWorld.of_map.inWorld

/-- Type forms that are found out are of the sort that is asked for. -/
theorem Need.IsMet.of_ok
    {find : Step World (List TypeForm)}
    {forms : List TypeForm}
    {s reached : Store}
    (isMet : (Need.forms find).IsMet R met reads)
    (holds : R.holds s)
    (found : (inWorld find).run s = (.ok forms, reached)) :
    ∀ a ∈ forms, met a := by
  cases isMet s holds with
  | ok firstRun _ _ areMet =>
      rw [found] at firstRun
      cases firstRun
      exact areMet
  | error firstRun _ _ _ =>
      rw [found] at firstRun
      cases firstRun

/-- Whether what is written resolves in the same way in states that are tied, classes
have the same plans, and the end of a sequence may be missed. -/
structure Bond.FindsOut (B : Bond Store Store) : Prop where
  types : ∀ t : TypeTerm,
    Tied B (Same anything) (inWorld (t.resolve .strict)) (inWorld (t.resolve .strict))
  values : ∀ v : ValueTerm,
    Tied B (Same anything) (inWorld (v.resolve .strict)) (inWorld (v.resolve .strict))
  plans : ∀ c, Tied B (Same anything) (inWorld (decodingPlans c)) (inWorld (decodingPlans c))
  endless : B.allows .exhausted

section

variable {B : Bond Store Store} {others : Reader → Prop}

mutual

/-- What a statement relies on ends tied where the same is found out. -/
theorem Statement.isTied_of_needs
    (finds : B.FindsOut)
    (statement : Statement)
    (areMet : ∀ need ∈ statement.needs, need.IsMet R met others)
    (delegates : ∀ type, .delegate type ∈ statement.needs →
      Tied (B.keeping R) (Same reads) (sharedReader type) (sharedReader type)) :
    statement.IsTied (B.keeping R) met reads := by
  cases statement with
  | request on written name =>
      rw [Statement.IsTied]
      intro t isForm
      have found : Alike R (fun a => ∀ b ∈ [a], met b) (inWorld (t.resolve .strict))
          (inWorld (t.resolve .strict)) := by
        refine Need.IsMet.ofForms (areMet _ ?_)
        simp [Statement.needs, isForm]
      exact (finds.types t).keeping_same (found.mono fun a areMet => areMet a List.mem_cons_self)
  | delegate on type name =>
      rw [Statement.IsTied]
      exact delegates type List.mem_cons_self
  | forKeys on key body =>
      rw [Statement.IsTied]
      exact Statement.areTied_of_needs finds body areMet delegates
  | untilEnd on body =>
      rw [Statement.IsTied]
      exact ⟨⟨finds.endless, areMet _ List.mem_cons_self⟩,
        Statement.areTied_of_needs finds body
          (fun need member => areMet need (List.mem_cons_of_mem _ member))
          fun type member => delegates type (List.mem_cons_of_mem _ member)⟩
  | branch subject expected agreed otherwise =>
      rw [Statement.IsTied]
      exact ⟨Statement.areTied_of_needs finds agreed
          (fun need member => areMet need (List.mem_append_left _ member))
          fun type member => delegates type (List.mem_append_left _ member),
        Statement.areTied_of_needs finds otherwise
          (fun need member => areMet need (List.mem_append_right _ member))
          fun type member => delegates type (List.mem_append_right _ member)⟩
  | attempt body handler =>
      rw [Statement.IsTied]
      exact ⟨Statement.areTied_of_needs finds body
          (fun need member => areMet need (List.mem_append_left _ member))
          fun type member => delegates type (List.mem_append_left _ member),
        Statement.areTied_of_needs finds handler
          (fun need member => areMet need (List.mem_append_right _ member))
          fun type member => delegates type (List.mem_append_right _ member)⟩
  | give result =>
      cases result with
      | value v =>
          rw [Statement.IsTied]
          exact (finds.values v).keeping_same
            ((Need.IsMet.ofForms (areMet _ List.mem_cons_self)).mono fun _ _ => trivial)
      | «variable» name =>
          rw [Statement.IsTied]
          trivial
  | fail kind message location =>
      rw [Statement.IsTied]
      trivial
termination_by structural statement

/-- What statements rely on ends tied where the same is found out. -/
theorem Statement.areTied_of_needs
    (finds : B.FindsOut)
    (body : List Statement)
    (areMet : ∀ need ∈ Statement.needsAll body, need.IsMet R met others)
    (delegates : ∀ type, .delegate type ∈ Statement.needsAll body →
      Tied (B.keeping R) (Same reads) (sharedReader type) (sharedReader type)) :
    Statement.AreTied (B.keeping R) met reads body := by
  cases body with
  | nil =>
      rw [Statement.AreTied]
      trivial
  | cons statement rest =>
      rw [Statement.AreTied]
      exact ⟨Statement.isTied_of_needs finds statement
          (fun need member => areMet need (List.mem_append_left _ member))
          fun type member => delegates type (List.mem_append_left _ member),
        Statement.areTied_of_needs finds rest
          (fun need member => areMet need (List.mem_append_right _ member))
          fun type member => delegates type (List.mem_append_right _ member)⟩
termination_by structural body

end

/-- What a reader relies on ends tied where the same is found out, if something holds of
a state. -/
theorem Reader.isTied_of_needs
    {s : Store}
    (finds : B.FindsOut)
    (holds : R.holds s)
    (reader : Reader)
    (areMet : ∀ need ∈ reader.needs, need.IsMet R met others)
    (delegates : ∀ type, .delegate type ∈ reader.needs →
      Tied (B.keeping R) (Same reads) (sharedReader type) (sharedReader type)) :
    reader.IsTied (B.keeping R) met reads := by
  cases reader with
  | fields c =>
      have plans := Need.IsMet.ofForms (areMet _ List.mem_cons_self)
      exact (finds.plans c).keeping_same (plans.mono fun plans areMet p isPlan =>
        areMet _ (List.mem_map_of_mem isPlan))
  | sequence item into =>
      exact Need.IsMet.of_ok (areMet _ List.mem_cons_self) holds rfl item List.mem_cons_self
  | positions items => exact Need.IsMet.of_ok (areMet _ List.mem_cons_self) holds rfl
  | mapping value cls =>
      exact Need.IsMet.of_ok (areMet _ List.mem_cons_self) holds rfl value List.mem_cons_self
  | nullable inner =>
      exact Need.IsMet.of_ok (areMet _ List.mem_cons_self) holds rfl inner List.mem_cons_self
  | oneOf values =>
      exact Need.IsMet.of_ok (areMet _ List.mem_cons_self) holds rfl _ List.mem_cons_self
  | member c =>
      rintro _ t ⟨_, tHolds⟩
      exact Need.IsMet.of_ok (areMet _ List.mem_cons_self) tHolds rfl _ List.mem_cons_self
  | program maker body => exact Statement.areTied_of_needs finds body areMet delegates

end

/-- The same is found out in the same state. -/
theorem Bond.findsOut_same : (Bond.same Store).FindsOut :=
  ⟨fun _ => .refl _, fun _ => .refl _, fun _ => .refl _, trivial⟩

/-- What a reader relies on ends tied from the same state, if there is one. -/
theorem Reader.isTied_of_same
    {s : Store}
    (holds : R.holds s)
    (reader : Reader)
    (areMet : ∀ need ∈ reader.needs, need.IsMet R met reads) :
    reader.IsTied R.bond met reads := by
  rw [← Bond.keeping_same]
  refine Reader.isTied_of_needs Bond.findsOut_same holds reader areMet fun type member => ?_
  rw [Bond.keeping_same]
  exact tied_iff_alike.mpr (areMet _ member)

/-! ## Surfaces that answer alike -/

/-- Whether two surfaces answer alike, if they are asked for certain type forms
only, and let the elements of a sequence be read alike. -/
structure Surface.AnswersAlike
    (R : Regime Store)
    (met : TypeForm → Prop)
    (first second : Surface σ) :
    Prop where
  answer : ∀ h request, (∀ a, request.form? = some a → met a) →
    Alike (R.beside σ) anything (first.answer h request) (second.answer h request)
  sequence : ∀ decoder item, met item →
    Alike (R.beside σ) anything (readSequence first decoder item) (readSequence second decoder item)

namespace Surface.AnswersAlike

variable {first second : Surface σ}

/-- Surfaces that answer alike answer in the same way from the same state. -/
theorem tied (answers : AnswersAlike R met first second) : first.AnswersTied R.bond met second where
  answer h request isMet := tied_beside_iff_alike.mpr (answers.answer h request isMet)
  sequence decoder item isMet := tied_beside_iff_alike.mpr (answers.sequence decoder item isMet)

/-- Surfaces that answer in the same way from the same state answer alike. -/
theorem of_tied (answers : first.AnswersTied R.bond met second) : AnswersAlike R met first second where
  answer h request isMet := tied_beside_iff_alike.mp (answers.answer h request isMet)
  sequence decoder item isMet := tied_beside_iff_alike.mp (answers.sequence decoder item isMet)

/-- Surfaces that answer alike give handles alike. -/
theorem openHandle
    (answers : AnswersAlike R met first second)
    (faults : R.AllowsFaults)
    (h : Handle)
    {request : Request TypeForm String}
    (isMet : ∀ a, request.form? = some a → met a) :
    Alike (R.beside σ) anything (first.openHandle h request) (second.openHandle h request) :=
  tied_beside_iff_alike.mp (answers.tied.openHandle faults h isMet)

/-- Surfaces that answer alike count alike. -/
theorem count
    (answers : AnswersAlike R met first second)
    (faults : R.AllowsFaults)
    (h : Handle) :
    Alike (R.beside σ) anything (first.count h) (second.count h) :=
  tied_beside_iff_alike.mp (answers.tied.count faults h)

/-- Surfaces that answer alike are at the end of a sequence alike. -/
theorem isAtEnd
    (answers : AnswersAlike R met first second)
    (faults : R.AllowsFaults)
    (h : Handle) :
    Alike (R.beside σ) anything (first.isAtEnd h) (second.isAtEnd h) :=
  tied_beside_iff_alike.mp (answers.tied.isAtEnd faults h)

end Surface.AnswersAlike

/-- Surfaces that answer alike let sequences be read alike, if bounds may be used up. -/
theorem Surface.answersAlike_of_answer
    {first second : Surface σ}
    (faults : R.AllowsFaults)
    (endless : R.allows .exhausted)
    (answer : ∀ h request, (∀ a, request.form? = some a → met a) →
      Alike (R.beside σ) anything (first.answer h request) (second.answer h request)) :
    first.AnswersAlike R met second := by
  -- requests without type forms are answered alike whatever is asked for
  have formless : first.AnswersAlike R (fun _ => False) second :=
    ⟨fun h request without => answer h request fun a isForm => (without a isForm).elim,
      fun _ _ absent => absent.elim⟩
  refine ⟨answer, fun decoder item isMet => ?_⟩
  have decodes (container : Handle) :
      Alike (R.beside σ) anything (first.value container (.decode item none))
        (second.value container (.decode item none)) := by
    have asked : Alike (R.beside σ) anything (first.ask container (.decode item none))
        (second.ask container (.decode item none)) := by
      unfold Surface.ask
      split
      · exact .fail (faults _)
      · split
        · exact .fail (faults _)
        · exact answer container _ (Request.form?_decode isMet none)
    exact asked.bind fun _ _ => .pure trivial
  have elements (container : Handle) (bound : Nat) :
      Alike (R.beside σ) anything (readElements first container item bound)
        (readElements second container item bound) := by
    induction bound with
    | zero => exact .exhausted endless
    | succ bound inductionHypothesis =>
        refine (formless.isAtEnd faults container).bind fun isAtEnd _ => ?_
        split
        · exact .pure trivial
        · exact (decodes container).bind fun _ _ => inductionHypothesis.bind fun _ _ => .pure trivial
  refine (formless.openHandle faults decoder (by simp [Request.form?])).bind fun container _ => ?_
  exact (formless.count faults container).bind fun count _ => elements container (count + 1)

/-! ## Readers -/

/-- Whether what readers of a sort rely on ends like itself, and asks for type
forms of a sort and readers of the same sort. -/
def Regime.Reads
    (R : Regime Store)
    (met : TypeForm → Prop)
    (reads : Reader → Prop) :
    Prop :=
  ∀ reader, reads reader → ∀ need ∈ reader.needs, need.IsMet R met reads

section Running

variable {first second : Surface σ}

/-- Fields are read alike. -/
theorem readFields_alike
    (faults : R.AllowsFaults)
    (answers : Surface.AnswersAlike R met first second)
    (container : Handle)
    {plans : List FieldPlan}
    (areMet : ∀ p ∈ plans, met p.requested)
    (values : List (String × Value)) :
    Alike (R.beside σ) anything (readFields first container plans values)
      (readFields second container plans values) :=
  tied_beside_iff_alike.mp
    (readFields_tied (B := R.bond) faults answers.tied container areMet values)

/-- Readers that delegate to each other read alike on surfaces that answer
alike. -/
theorem Reader.runTo_alike
    (faults : R.AllowsFaults)
    (answers : Surface.AnswersAlike R met first second)
    (closed : R.Reads met reads)
    (depth : Nat)
    {reader : Reader}
    (isRead : reads reader)
    (decoder : Handle) :
    Alike (R.beside σ) anything (Reader.runTo first depth reader decoder)
      (Reader.runTo second depth reader decoder) := by
  intro s holds
  have tied := Reader.runTo_tied R.bond_makes faults answers.tied
    (fun reader isRead => reader.isTied_of_same holds (closed reader isRead)) depth isRead decoder
  exact tied_beside_iff_alike.mp tied s holds

end Running

/-! ## The surfaces of a probe -/

/-- Whether two probes of nested types end alike, if they are asked for certain
type forms only. -/
def NestedAlike
    (R : Regime Store)
    (met : TypeForm → Prop)
    (first second : NestedProbe) :
    Prop :=
  ∀ a, met a → ∀ path, Alike R anything (first a path) (second a path)

/-- The recording surfaces of probes that end alike answer alike. -/
theorem recorder_answersAlike
    {first second : NestedProbe}
    (faults : R.AllowsFaults)
    (nested : NestedAlike R met first second) :
    (recorder first).AnswersAlike R met (recorder second) :=
  .of_tied (recorder_answersTied faults fun a isMet path => tied_iff_alike.mpr (nested a isMet path))

/-- The surface that checks keys answers like itself if what stands in for types is
found like itself. -/
theorem keyChecker_answersAlike
    {placeholder : Placeholder}
    (faults : R.AllowsFaults)
    (placeholders : ∀ a, met a → Alike R anything (placeholder a) (placeholder a)) :
    (keyChecker placeholder).AnswersAlike R met (keyChecker placeholder) :=
  .of_tied (keyChecker_answersTied faults fun a isMet => tied_iff_alike.mpr (placeholders a isMet))

end

end SchemaProbe

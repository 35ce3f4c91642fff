import SchemaProbe.Proofs.OverClasses
import SchemaProbe.Proofs.UnionMembers

namespace SchemaProbe

/-!
# Names are settled in the end

An annotation that is read before all of its names are declared keeps the others as
names, which are settled later.  However many names were known when it was read, it is
the same type form once all of them are settled, as long as type forms that are the same
type are written alike.
-/

/-! ## Ordinary annotations -/

mutual

/-- Whether a written value names nothing. -/
def ValueTerm.isFixed : ValueTerm → Bool
  | .known _ => true
  | .items _ elements => ValueTerm.allFixed elements
  | .dict entries => ValueTerm.entriesFixed entries
  | _ => false

/-- Whether written values name nothing. -/
def ValueTerm.allFixed : List ValueTerm → Bool
  | [] => true
  | t :: rest => t.isFixed && ValueTerm.allFixed rest

/-- Whether the entries of a written mapping name nothing. -/
def ValueTerm.entriesFixed : List (ValueTerm × ValueTerm) → Bool
  | [] => true
  | (k, t) :: rest => k.isFixed && t.isFixed && ValueTerm.entriesFixed rest

end

mutual

/-- What names nothing is read in the same way in every sense. -/
theorem ValueTerm.read_of_isFixed
    (m other : Sense)
    (t : ValueTerm)
    (fixed : t.isFixed = true) :
    t.read m = t.read other := by
  cases t with
  | known v => rfl
  | items shape elements =>
      rw [ValueTerm.read, ValueTerm.read, ValueTerm.readAll_of_isFixed m other elements fixed]
  | dict entries =>
      rw [ValueTerm.read, ValueTerm.read, ValueTerm.readEntries_of_isFixed m other entries fixed]
  | _ => cases fixed
termination_by structural t

/-- What names nothing is read in the same way in every sense. -/
theorem ValueTerm.readAll_of_isFixed
    (m other : Sense)
    (ts : List ValueTerm)
    (fixed : ValueTerm.allFixed ts = true) :
    ValueTerm.readAll m ts = ValueTerm.readAll other ts := by
  cases ts with
  | nil => rfl
  | cons t rest =>
      obtain ⟨isFixed, restFixed⟩ := Bool.and_eq_true_iff.mp fixed
      rw [ValueTerm.readAll, ValueTerm.readAll, ValueTerm.read_of_isFixed m other t isFixed,
        ValueTerm.readAll_of_isFixed m other rest restFixed]
termination_by structural ts

/-- What names nothing is read in the same way in every sense. -/
theorem ValueTerm.readEntries_of_isFixed
    (m other : Sense)
    (entries : List (ValueTerm × ValueTerm))
    (fixed : ValueTerm.entriesFixed entries = true) :
    ValueTerm.readEntries m entries = ValueTerm.readEntries other entries := by
  cases entries with
  | nil => rfl
  | cons entry rest =>
      obtain ⟨k, t⟩ := entry
      obtain ⟨both, restFixed⟩ := Bool.and_eq_true_iff.mp fixed
      obtain ⟨keyFixed, isFixed⟩ := Bool.and_eq_true_iff.mp both
      rw [ValueTerm.readEntries, ValueTerm.readEntries, ValueTerm.read_of_isFixed m other k keyFixed,
        ValueTerm.read_of_isFixed m other t isFixed,
        ValueTerm.readEntries_of_isFixed m other rest restFixed]
termination_by structural entries

end

/-- Whether what stands outermost in a written type form is ordinary: no class is given
arguments that it does not take by itself, literal values and notes name nothing, and
what is known is flat and no declared class. -/
def TypeTerm.IsOrdinary : TypeTerm → Prop
  | .known a => a.IsFlat ∧ a.userClasses = []
  | .literal values => ValueTerm.allFixed values = true
  | .annotated _ note => note.isFixed = true
  | .generic (.cls (.user _)) _ => False
  | .applied _ _ => False
  | .inPlace value => ∃ v, value = .known v ∧ (TypeForm.ofValue v).IsFlat ∧
    (TypeForm.ofValue v).userClasses = []
  | _ => True

/-- Whether names mean, in a sense, what they stand for in the end or stay names. -/
def Sense.IsStage (ofName : String → Option TypeForm) (m : Sense) : Prop :=
  ∀ name a, m.name name = .ok a → a = .text name ∨ ofName name = some a

/-- Whether written type forms are ordinary, and what they are read as comes up however many
of the names are declared. -/
structure TypeTerm.AreWorded
    (among : TypeForm → Prop)
    (ofName : String → Option TypeForm)
    (parts : List TypeTerm) :
    Prop where
  ordinary : ∀ p ∈ parts, p.IsOrdinary
  comeUp : ∀ m : Sense, m.IsStage ofName → TypeTerm.ComeUp among m parts

/-- What holds of written type forms holds of fewer of them. -/
theorem TypeTerm.AreWorded.mono
    {among : TypeForm → Prop}
    {ofName : String → Option TypeForm}
    {parts fewer : List TypeTerm}
    (worded : AreWorded among ofName parts)
    (subset : fewer ⊆ parts) :
    AreWorded among ofName fewer where
  ordinary p member := worded.ordinary p (subset member)
  comeUp m stage p member := worded.comeUp m stage p (subset member)

section

variable {among : TypeForm → Prop} {ofName : String → Option TypeForm} {m : Sense}

/-- What a worded type form is read as comes up. -/
theorem TypeTerm.AreWorded.comesUp
    {t : TypeTerm}
    {a : TypeForm}
    (worded : AreWorded among ofName t.parts)
    (stage : m.IsStage ofName)
    (read : t.read m = .ok a) :
    among a :=
  (worded.comeUp m stage t t.mem_parts_self).2 a read

/-- What worded type forms are read as comes up. -/
theorem TypeTerm.AreWorded.allComeUp
    {ts : List TypeTerm}
    {as : List TypeForm}
    (worded : AreWorded among ofName (TypeTerm.partsAll ts))
    (stage : m.IsStage ofName)
    (read : TypeTerm.readAll m ts = .ok as) :
    ∀ a ∈ as, among a :=
  TypeTerm.comeUp_of_readAll (worded.comeUp m stage) read

end

/-- Whether two senses are such, and put off the same. -/
structure Sense.StagesAlike
    (ofName : String → Option TypeForm)
    (m other : Sense) :
    Prop where
  stage : m.IsStage ofName
  otherStage : other.IsStage ofName
  sameDeferral : other.isDeferred = m.isDeferred

/-- Whether two type forms are flat and the same when their names are settled. -/
structure TypeForm.SettledSame
    (ofName : String → Option TypeForm)
    (a b : TypeForm) :
    Prop where
  flat : a.IsFlat
  otherFlat : b.IsFlat
  same : a.settled ofName = b.settled ofName

/-- Null names nothing. -/
theorem TypeForm.SettledSame.nullType {ofName : String → Option TypeForm} :
    SettledSame ofName .nullType .nullType :=
  ⟨isFlat_of_isMember rfl, isFlat_of_isMember rfl, rfl⟩

/-- What has a note is flat. -/
theorem TypeForm.isFlat_withNote (a : TypeForm) (note : Value) : (a.withNote note).IsFlat := by
  intro style members isUnion
  unfold withNote at isUnion
  split at isUnion <;> cases isUnion

section

variable {among : TypeForm → Prop} {ofName : String → Option TypeForm}

/-- Type forms that are the same when their names are settled are settled in the same
way. -/
theorem TypeForm.map_settled_congr
    {as bs : List TypeForm}
    (same : List.Forall₂ (SettledSame ofName) as bs) :
    as.map (substitute ofName fun _ => none) = bs.map (substitute ofName fun _ => none) := by
  induction same with
  | nil => rfl
  | cons first _ inductionHypothesis =>
      rw [List.map_cons, List.map_cons, inductionHypothesis]
      exact congrArg (· :: _) first.same

/-- What is applied to arguments that are the same when their names are settled is the same
then. -/
theorem TypeForm.settledSame_generic
    (origin : Origin)
    {as bs : List TypeForm}
    (same : List.Forall₂ (SettledSame ofName) as bs) :
    SettledSame ofName (.generic origin as) (.generic origin bs) := by
  refine ⟨nofun, nofun, ?_⟩
  rw [settled, settled, substitute, substitute, substituteAll_eq_map, substituteAll_eq_map,
    map_settled_congr same]

variable (words : TypeForm.SettlesAlike among ofName)

include words

/-- Type forms that are the same when their names are settled have the same members
then. -/
theorem TypeForm.mem_settled_congr
    {as bs : List TypeForm}
    (same : List.Forall₂ (SettledSame ofName) as bs)
    (join : ∀ a ∈ as, a.Joins among)
    (otherJoin : ∀ b ∈ bs, b.Joins among)
    (m : TypeForm) :
    (∃ a ∈ as, m ∈ unionMembers (a.argument.settled ofName)) ↔
      ∃ b ∈ bs, m ∈ unionMembers (b.argument.settled ofName) := by
  induction same with
  | nil => simp
  | cons first _ inductionHypothesis =>
      obtain ⟨joins, restJoin⟩ := List.forall_mem_cons.mp join
      obtain ⟨otherJoins, otherRestJoin⟩ := List.forall_mem_cons.mp otherJoin
      simp only [List.mem_cons, exists_eq_or_imp]
      rw [settled_argument_congr words joins otherJoins first.same,
        inductionHypothesis restJoin otherRestJoin]

/-- A note is added to what is settled as to what is not. -/
theorem TypeForm.settled_withNote
    {a : TypeForm}
    (joins : a.Joins among)
    (note : Value) :
    (a.withNote note).settled ofName = (a.settled ofName).withNote note := by
  have isArgument := settled_argument words.alike words.classes joins.flat fun m member =>
    words.settles m (joins.members m member)
  by_cases isNoted : ∃ inner notes, a.argument = .annotated inner notes
  · obtain ⟨inner, notes, isAnnotated⟩ := isNoted
    unfold withNote
    rw [← isArgument, isAnnotated]
    simp only [settled, substitute]
    split <;> simp
  · have isPlain : a.withNote note = .annotated a.argument [note] := by
      unfold withNote
      split
      · rename_i inner notes isAnnotated
        exact absurd ⟨inner, notes, isAnnotated⟩ isNoted
      · rfl
    rw [isPlain, withNote, ← isArgument]
    rfl

/-- What comes up with what it is read as in two senses can join unions. -/
theorem TypeForm.joins_of_settledSame
    {as bs : List TypeForm}
    (same : List.Forall₂ (SettledSame ofName) as bs)
    (comeUp : ∀ a ∈ as, among a)
    (otherComeUp : ∀ b ∈ bs, among b) :
    (∀ a ∈ as, a.Joins among) ∧ ∀ b ∈ bs, b.Joins among := by
  induction same with
  | nil => exact ⟨fun _ member => absurd member List.not_mem_nil,
      fun _ member => absurd member List.not_mem_nil⟩
  | cons first _ inductionHypothesis =>
      obtain ⟨isOne, rest⟩ := List.forall_mem_cons.mp comeUp
      obtain ⟨isOther, otherRest⟩ := List.forall_mem_cons.mp otherComeUp
      obtain ⟨join, otherJoin⟩ := inductionHypothesis rest otherRest
      exact ⟨List.forall_mem_cons.mpr ⟨joins_of_among words first.flat isOne, join⟩,
        List.forall_mem_cons.mpr ⟨joins_of_among words first.otherFlat isOther, otherJoin⟩⟩

/-- Arguments of what is the same when names are settled are the same then. -/
theorem TypeForm.settledSame_arguments
    {as bs : List TypeForm}
    (same : List.Forall₂ (SettledSame ofName) as bs)
    (comeUp : ∀ a ∈ as, among a)
    (otherComeUp : ∀ b ∈ bs, among b) :
    List.Forall₂ (SettledSame ofName) (as.map argument) (bs.map argument) := by
  induction same with
  | nil => exact .nil
  | cons first _ inductionHypothesis =>
      obtain ⟨isOne, rest⟩ := List.forall_mem_cons.mp comeUp
      obtain ⟨isOther, otherRest⟩ := List.forall_mem_cons.mp otherComeUp
      refine .cons ⟨first.flat.argument, first.otherFlat.argument, ?_⟩
        (inductionHypothesis rest otherRest)
      exact settled_argument_congr words (joins_of_among words first.flat isOne)
        (joins_of_among words first.otherFlat isOther) first.same

/-- Unions of what is the same when names are settled are the same then. -/
theorem TypeForm.settledSame_unite
    {as bs : List TypeForm}
    {x y : TypeForm}
    (same : List.Forall₂ (SettledSame ofName) as bs)
    (comeUp : ∀ a ∈ as, among a)
    (otherComeUp : ∀ b ∈ bs, among b)
    (ok : unite as = .ok x)
    (otherOk : unite bs = .ok y)
    (comesUp : among x)
    (otherComesUp : among y) :
    SettledSame ofName x y := by
  obtain ⟨join, otherJoin⟩ := joins_of_settledSame words same comeUp otherComeUp
  obtain ⟨nonempty, rfl⟩ := eq_of_unite ok
  obtain ⟨otherNonempty, rfl⟩ := eq_of_unite otherOk
  obtain ⟨joins, isArgument, kept⟩ := joins_unionIn words .named nonempty join nofun
  obtain ⟨otherJoins, otherIsArgument, otherKept⟩ :=
    joins_unionIn words .named otherNonempty otherJoin nofun
  refine ⟨joins.flat, otherJoins.flat,
    joins.settled_congr words otherJoins isArgument otherIsArgument comesUp otherComesUp fun m => ?_⟩
  rw [kept, otherKept, mem_settled_congr words same join otherJoin]

/-- Type forms with bars between them are the same when names are settled if they are the
same without the bars. -/
theorem TypeForm.settledSame_barredAll
    {isDeferred : Bool}
    {first other x y : TypeForm}
    {rest others : List TypeForm}
    (firstSame : SettledSame ofName first other)
    (same : List.Forall₂ (SettledSame ofName) rest others)
    (comeUp : ∀ a ∈ first :: rest, among a)
    (otherComeUp : ∀ b ∈ other :: others, among b)
    (ok : barredAll isDeferred first rest = .ok x)
    (otherOk : barredAll isDeferred other others = .ok y)
    (comesUp : among x)
    (otherComesUp : among y) :
    SettledSame ofName x y := by
  have all := List.Forall₂.cons firstSame same
  obtain ⟨join, otherJoin⟩ := joins_of_settledSame words all comeUp otherComeUp
  obtain ⟨firstJoins, restJoin⟩ := List.forall_mem_cons.mp join
  obtain ⟨otherFirstJoins, otherRestJoin⟩ := List.forall_mem_cons.mp otherJoin
  obtain ⟨joins, isArgument, kept⟩ := joins_barredAll words firstJoins restJoin ok
  obtain ⟨otherJoins, otherIsArgument, otherKept⟩ :=
    joins_barredAll words otherFirstJoins otherRestJoin otherOk
  cases same with
  | nil =>
      cases ok
      cases otherOk
      exact firstSame
  | cons _ _ =>
      have isUnion := isArgument (List.cons_ne_nil _ _)
      have otherIsUnion := otherIsArgument (List.cons_ne_nil _ _)
      rw [isUnion] at kept
      rw [otherIsUnion] at otherKept
      refine ⟨joins.flat, otherJoins.flat,
        joins.settled_congr words otherJoins isUnion otherIsUnion comesUp otherComesUp fun m => ?_⟩
      rw [kept, otherKept, mem_settled_congr words all join otherJoin]

variable {m other : Sense}

/-- A name that is read early and late is the same when it is settled. -/
theorem Sense.StagesAlike.settledSame
    (stages : m.StagesAlike ofName other)
    {name : String}
    {a b : TypeForm}
    (read : m.name name = .ok a)
    (otherRead : other.name name = .ok b) :
    TypeForm.SettledSame ofName a b := by
  have settles {sense : Sense} {a : TypeForm} (stage : sense.IsStage ofName)
      (read : sense.name name = .ok a) :
      a.IsFlat ∧ a.settled ofName = (ofName name).getD (.text name) := by
    rcases stage name a read with rfl | isMeaning
    · exact ⟨nofun, rfl⟩
    · obtain ⟨c, rfl⟩ := words.classes name a isMeaning
      rw [isMeaning]
      exact ⟨nofun, rfl⟩
  exact ⟨(settles stages.stage read).1, (settles stages.otherStage otherRead).1,
    (settles stages.stage read).2.trans (settles stages.otherStage otherRead).2.symm⟩

omit words

mutual

/-- What a written type form is read as early is what it is read as late, when its names are
settled. -/
theorem TypeTerm.read_settledSame
    (words : TypeForm.SettlesAlike among ofName)
    (stages : m.StagesAlike ofName other)
    (t : TypeTerm)
    (worded : TypeTerm.AreWorded among ofName t.parts)
    {a b : TypeForm}
    (read : t.read m = .ok a)
    (otherRead : t.read other = .ok b) :
    TypeForm.SettledSame ofName a b := by
  have isOrdinary := worded.ordinary t t.mem_parts_self
  have comesUp := worded.comesUp stages.stage read
  have otherComesUp := worded.comesUp stages.otherStage otherRead
  cases t with
  | known c =>
      cases read
      cases otherRead
      exact ⟨isOrdinary.1, isOrdinary.1, rfl⟩
  | named name => exact stages.settledSame words read otherRead
  | optional inner =>
      obtain ⟨c, isInner, united⟩ := exists_of_bind_eq_ok read
      obtain ⟨d, isOther, otherUnited⟩ := exists_of_bind_eq_ok otherRead
      have innerWorded : AreWorded among ofName inner.parts :=
        worded.mono (List.subset_cons_self _ _)
      have same := TypeTerm.read_settledSame words stages inner innerWorded isInner isOther
      refine TypeForm.settledSame_unite words (.cons same (.cons .nullType .nil)) ?_ ?_
        united otherUnited comesUp otherComesUp
      · exact List.forall_mem_cons.mpr ⟨innerWorded.comesUp stages.stage isInner,
          List.forall_mem_singleton.mpr words.nulls⟩
      · exact List.forall_mem_cons.mpr ⟨innerWorded.comesUp stages.otherStage isOther,
          List.forall_mem_singleton.mpr words.nulls⟩
  | union members =>
      obtain ⟨as, areRead, united⟩ := exists_of_bind_eq_ok read
      obtain ⟨bs, othersRead, otherUnited⟩ := exists_of_bind_eq_ok otherRead
      have allWorded : AreWorded among ofName (TypeTerm.partsAll members) :=
        worded.mono (List.subset_cons_self _ _)
      have same := TypeTerm.readAll_settledSame words stages members allWorded areRead othersRead
      exact TypeForm.settledSame_unite words same (allWorded.allComeUp stages.stage areRead)
        (allWorded.allComeUp stages.otherStage othersRead) united otherUnited comesUp otherComesUp
  | bar members =>
      obtain ⟨as, areRead, barred⟩ := exists_of_bind_eq_ok read
      obtain ⟨bs, othersRead, otherBarred⟩ := exists_of_bind_eq_ok otherRead
      have allWorded : AreWorded among ofName (TypeTerm.partsAll members) :=
        worded.mono (List.subset_append_right _ _)
      have same := TypeTerm.readAll_settledSame words stages members allWorded areRead othersRead
      rw [stages.sameDeferral] at otherBarred
      cases same with
      | nil => cases barred
      | cons first rest =>
          exact TypeForm.settledSame_barredAll words first rest
            (allWorded.allComeUp stages.stage areRead)
            (allWorded.allComeUp stages.otherStage othersRead) barred otherBarred comesUp
            otherComesUp
  | literal values =>
      rw [TypeTerm.read] at read otherRead
      rw [ValueTerm.readAll_of_isFixed other m values isOrdinary, read] at otherRead
      cases otherRead
      obtain ⟨vs, -, isLiteral⟩ := exists_of_bind_eq_ok read
      cases isLiteral
      exact ⟨nofun, nofun, rfl⟩
  | annotated inner note =>
      obtain ⟨c, isInner, noted⟩ := exists_of_bind_eq_ok read
      obtain ⟨d, isOther, otherNoted⟩ := exists_of_bind_eq_ok otherRead
      rw [ValueTerm.read_of_isFixed other m note isOrdinary] at otherNoted
      obtain ⟨v, isNote, isNoted⟩ := exists_of_bind_eq_ok noted
      obtain ⟨w, isSame, isOtherNoted⟩ := exists_of_bind_eq_ok otherNoted
      cases isNote.symm.trans isSame
      cases isNoted
      cases isOtherNoted
      have innerWorded : AreWorded among ofName inner.parts :=
        worded.mono (List.subset_cons_of_subset _ (List.subset_append_left _ _))
      have same := TypeTerm.read_settledSame words stages inner innerWorded isInner isOther
      have joins := TypeForm.joins_of_among words same.flat
        (innerWorded.comesUp stages.stage isInner)
      have otherJoins := TypeForm.joins_of_among words same.otherFlat
        (innerWorded.comesUp stages.otherStage isOther)
      refine ⟨TypeForm.isFlat_withNote c v, TypeForm.isFlat_withNote d v, ?_⟩
      rw [TypeForm.settled_withNote words joins, TypeForm.settled_withNote words otherJoins,
        same.same]
  | generic origin args =>
      have allWorded : AreWorded among ofName (TypeTerm.partsAll args) :=
        worded.mono (List.subset_cons_self _ _)
      cases origin with
      | cls c =>
          obtain ⟨as, areRead, isGeneric⟩ := exists_of_bind_eq_ok read
          obtain ⟨bs, othersRead, isOther⟩ := exists_of_bind_eq_ok otherRead
          cases isGeneric
          cases isOther
          exact TypeForm.settledSame_generic _
            (TypeTerm.readAll_settledSame words stages args allWorded areRead othersRead)
      | classVar | final =>
          simp only [TypeTerm.read] at read otherRead
          obtain ⟨as, areRead, checks⟩ := exists_of_bind_eq_ok read
          obtain ⟨bs, othersRead, otherChecks⟩ := exists_of_bind_eq_ok otherRead
          obtain ⟨checked, areChecked, isGeneric⟩ := exists_of_bind_eq_ok checks
          obtain ⟨others, othersChecked, isOther⟩ := exists_of_bind_eq_ok otherChecks
          cases isGeneric
          cases isOther
          rw [TypeForm.eq_map_of_checked areChecked, TypeForm.eq_map_of_checked othersChecked]
          have same := TypeTerm.readAll_settledSame words stages args allWorded areRead othersRead
          exact TypeForm.settledSame_generic _ (TypeForm.settledSame_arguments words same
            (allWorded.allComeUp stages.stage areRead)
            (allWorded.allComeUp stages.otherStage othersRead))
  | callable params result =>
      obtain ⟨as, areRead, results⟩ := exists_of_bind_eq_ok read
      obtain ⟨bs, othersRead, otherResults⟩ := exists_of_bind_eq_ok otherRead
      obtain ⟨c, isResult, isCallable⟩ := exists_of_bind_eq_ok results
      obtain ⟨d, isOther, isOtherCallable⟩ := exists_of_bind_eq_ok otherResults
      cases isCallable
      cases isOtherCallable
      have params := TypeTerm.readAll_settledSame words stages params
        (worded.mono (List.subset_cons_of_subset _ (List.subset_append_left _ _)))
        areRead othersRead
      have result := TypeTerm.read_settledSame words stages result
        (worded.mono (List.subset_cons_of_subset _ (List.subset_append_right _ _)))
        isResult isOther
      refine ⟨nofun, nofun, ?_⟩
      simp only [TypeForm.settled, TypeForm.substitute, TypeForm.substituteAll_eq_map]
      rw [TypeForm.map_settled_congr params]
      exact congrArg _ result.same
  | applied generic args => exact isOrdinary.elim
  | inPlace value =>
      obtain ⟨v, rfl, flat, -⟩ := isOrdinary
      cases read
      cases otherRead
      exact ⟨flat, flat, rfl⟩
termination_by structural t

/-- What written type forms are read as early is what they are read as late, when their
names are settled. -/
theorem TypeTerm.readAll_settledSame
    (words : TypeForm.SettlesAlike among ofName)
    (stages : m.StagesAlike ofName other)
    (ts : List TypeTerm)
    (worded : TypeTerm.AreWorded among ofName (TypeTerm.partsAll ts))
    {as bs : List TypeForm}
    (read : TypeTerm.readAll m ts = .ok as)
    (otherRead : TypeTerm.readAll other ts = .ok bs) :
    List.Forall₂ (TypeForm.SettledSame ofName) as bs := by
  cases ts with
  | nil =>
      cases read
      cases otherRead
      exact .nil
  | cons t rest =>
      obtain ⟨a, isFirst, readRest⟩ := exists_of_bind_eq_ok read
      obtain ⟨b, isOther, otherReadRest⟩ := exists_of_bind_eq_ok otherRead
      obtain ⟨others, areRest, isAll⟩ := exists_of_bind_eq_ok readRest
      obtain ⟨otherOthers, otherAreRest, otherIsAll⟩ := exists_of_bind_eq_ok otherReadRest
      cases isAll
      cases otherIsAll
      exact .cons
        (TypeTerm.read_settledSame words stages t (worded.mono (List.subset_append_left _ _))
          isFirst isOther)
        (TypeTerm.readAll_settledSame words stages rest
          (worded.mono (List.subset_append_right _ _)) areRest otherAreRest)
termination_by structural ts

end

end

/-! ## What is read is over declared classes -/

/-- A union is over the classes of its parts. -/
theorem TypeForm.IsOver.unite
    {classes : UserClass → Prop}
    {as : List TypeForm}
    {x : TypeForm}
    (isOver : ∀ a ∈ as, a.IsOver classes)
    (ok : TypeForm.unite as = .ok x) :
    x.IsOver classes := by
  rw [(TypeForm.eq_of_unite ok).2]
  refine .unionIn fun p member => ?_
  obtain ⟨a, isPart, rfl⟩ := List.mem_map.mp member
  exact (isOver a isPart).argument

/-- Type forms with bars between them are over their classes. -/
theorem TypeForm.IsOver.barredAll
    {classes : UserClass → Prop}
    {isDeferred : Bool}
    {first x : TypeForm}
    {rest : List TypeForm}
    (firstOver : first.IsOver classes)
    (restOver : ∀ a ∈ rest, a.IsOver classes)
    (ok : TypeForm.barredAll isDeferred first rest = .ok x) :
    x.IsOver classes := by
  induction rest generalizing first with
  | nil =>
      cases ok
      exact firstOver
  | cons next rest inductionHypothesis =>
      obtain ⟨nextOver, othersOver⟩ := List.forall_mem_cons.mp restOver
      obtain ⟨pair, isPair, okRest⟩ := exists_of_bind_eq_ok ok
      obtain ⟨style, rfl, -⟩ := TypeForm.eq_of_barred isPair
      refine inductionHypothesis (.unionIn fun p member => ?_) othersOver okRest
      obtain ⟨a, isPart, rfl⟩ := List.mem_map.mp member
      exact (List.forall_mem_cons.mpr
        ⟨firstOver, List.forall_mem_singleton.mpr nextOver⟩ a isPart).argument

section

variable {classes : UserClass → Prop} {m : Sense}

mutual

/-- A written type form is read over the classes that names stand for. -/
theorem TypeTerm.read_isOver
    (isOver : ∀ name a, m.name name = .ok a → a.IsOver classes)
    (t : TypeTerm)
    (ordinary : ∀ p ∈ t.parts, p.IsOrdinary)
    {a : TypeForm}
    (read : t.read m = .ok a) :
    a.IsOver classes := by
  have isOrdinary := ordinary t t.mem_parts_self
  cases t with
  | known c =>
      cases read
      exact TypeForm.isOver_of_none isOrdinary.2
  | named name => exact isOver name a read
  | optional inner =>
      rw [TypeTerm.parts] at ordinary
      obtain ⟨c, isInner, united⟩ := exists_of_bind_eq_ok read
      have overInner := TypeTerm.read_isOver isOver inner
        (fun p member => ordinary p (List.mem_cons_of_mem _ member)) isInner
      exact .unite (List.forall_mem_cons.mpr
        ⟨overInner, List.forall_mem_singleton.mpr (TypeForm.isOver_of_none rfl)⟩) united
  | union members =>
      rw [TypeTerm.parts] at ordinary
      obtain ⟨as, areRead, united⟩ := exists_of_bind_eq_ok read
      exact .unite (TypeTerm.readAll_isOver isOver members
        (fun p member => ordinary p (List.mem_cons_of_mem _ member)) areRead) united
  | bar members =>
      rw [TypeTerm.parts] at ordinary
      obtain ⟨as, areRead, barred⟩ := exists_of_bind_eq_ok read
      have overAll := TypeTerm.readAll_isOver isOver members
        (fun p member => ordinary p (List.mem_append_right _ member)) areRead
      cases as with
      | nil => cases barred
      | cons first rest =>
          obtain ⟨firstOver, restOver⟩ := List.forall_mem_cons.mp overAll
          exact firstOver.barredAll restOver barred
  | literal values =>
      obtain ⟨vs, -, isLiteral⟩ := exists_of_bind_eq_ok read
      cases isLiteral
      exact TypeForm.isOver_of_none rfl
  | annotated inner note =>
      rw [TypeTerm.parts] at ordinary
      obtain ⟨c, isInner, noted⟩ := exists_of_bind_eq_ok read
      obtain ⟨v, -, isNoted⟩ := exists_of_bind_eq_ok noted
      cases isNoted
      exact (TypeTerm.read_isOver isOver inner (fun p member => ordinary p
        (List.mem_cons_of_mem _ (List.mem_append_left _ member))) isInner).withNote v
  | generic origin args =>
      rw [TypeTerm.parts] at ordinary
      have overAll {as : List TypeForm} (areRead : TypeTerm.readAll m args = .ok as) :
          ∀ a ∈ as, a.IsOver classes :=
        TypeTerm.readAll_isOver isOver args
          (fun p member => ordinary p (List.mem_cons_of_mem _ member)) areRead
      cases origin with
      | cls c =>
          obtain ⟨as, areRead, isGeneric⟩ := exists_of_bind_eq_ok read
          cases isGeneric
          refine TypeForm.isOver_generic_iff.mpr ⟨?_, overAll areRead⟩
          cases c with
          | user u => exact isOrdinary.elim
          | _ => exact fun u member => absurd member List.not_mem_nil
      | classVar | final =>
          simp only [TypeTerm.read] at read
          obtain ⟨as, areRead, checks⟩ := exists_of_bind_eq_ok read
          obtain ⟨checked, areChecked, isGeneric⟩ := exists_of_bind_eq_ok checks
          cases isGeneric
          rw [TypeForm.eq_map_of_checked areChecked]
          refine TypeForm.isOver_generic_iff.mpr
            ⟨fun u member => absurd member List.not_mem_nil, fun p member => ?_⟩
          obtain ⟨a, isPart, rfl⟩ := List.mem_map.mp member
          exact (overAll areRead a isPart).argument
  | callable params result =>
      rw [TypeTerm.parts] at ordinary
      obtain ⟨as, areRead, results⟩ := exists_of_bind_eq_ok read
      obtain ⟨c, isResult, isCallable⟩ := exists_of_bind_eq_ok results
      cases isCallable
      exact TypeForm.isOver_callable_iff.mpr
        ⟨TypeTerm.readAll_isOver isOver params (fun p member => ordinary p
            (List.mem_cons_of_mem _ (List.mem_append_left _ member))) areRead,
          TypeTerm.read_isOver isOver result (fun p member => ordinary p
            (List.mem_cons_of_mem _ (List.mem_append_right _ member))) isResult⟩
  | applied generic args => exact isOrdinary.elim
  | inPlace value =>
      obtain ⟨v, rfl, -, none⟩ := isOrdinary
      cases read
      exact TypeForm.isOver_of_none none
termination_by structural t

/-- Written type forms are read over the classes that names stand for. -/
theorem TypeTerm.readAll_isOver
    (isOver : ∀ name a, m.name name = .ok a → a.IsOver classes)
    (ts : List TypeTerm)
    (ordinary : ∀ p ∈ TypeTerm.partsAll ts, p.IsOrdinary)
    {as : List TypeForm}
    (read : TypeTerm.readAll m ts = .ok as) :
    ∀ a ∈ as, a.IsOver classes := by
  cases ts with
  | nil =>
      cases read
      exact fun a member => absurd member List.not_mem_nil
  | cons t rest =>
      rw [TypeTerm.partsAll] at ordinary
      obtain ⟨a, isFirst, readRest⟩ := exists_of_bind_eq_ok read
      obtain ⟨others, areRest, isAll⟩ := exists_of_bind_eq_ok readRest
      cases isAll
      exact List.forall_mem_cons.mpr
        ⟨TypeTerm.read_isOver isOver t
            (fun p member => ordinary p (List.mem_append_left _ member)) isFirst,
          TypeTerm.readAll_isOver isOver rest
            (fun p member => ordinary p (List.mem_append_right _ member)) areRest⟩
termination_by structural ts

end

end

end SchemaProbe

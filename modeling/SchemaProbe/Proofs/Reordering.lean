import SchemaProbe.Proofs.FieldOrder
import SchemaProbe.Proofs.Surveying
import SchemaProbe.Proofs.Wrappers

namespace SchemaProbe

/-!
# Fields do not influence each other

Worlds that declare the fields of some classes in another order read every class
alike but for that order, and the same is found out about every type.  So a type has
the same description in both, up to the order of the fields of those classes, where
the description is the plain unfolding: where nothing carries notes, every type is
written in one way and types with cases are of the same kind wherever they are met.
-/

open List

/-! ## Worlds whose classes have their fields in another order -/

/-- Whether two records declare the same class, but for the order of the fields of the
models with some keys. -/
inductive ClassRecord.Reorders (moves : Key → Prop) : ClassRecord → ClassRecord → Prop
  | same (r : ClassRecord) : Reorders moves r r
  | moved {r : ClassRecord} {fields others : List Field} :
      moves (ClassRef.user r.cls).key → r.body = .model fields → others ~ fields →
      Reorders moves r { r with body := .model others }

/-- Whether two worlds declare the same names and classes, but for the order of the
fields of the models with some keys. -/
structure World.Reorders (w other : World) (moves : Key → Prop) : Prop where
  classes : Forall₂ (ClassRecord.Reorders moves) w.classes other.classes
  names : other.names = w.names

/-- Whether two bodies are the same, or those of a model with its fields in another
order. -/
inductive ClassBody.Reorders (isMoved : Prop) : ClassBody → ClassBody → Prop
  | same (body : ClassBody) : Reorders isMoved body body
  | moved {fields others : List Field} :
      isMoved → others ~ fields → Reorders isMoved (.model fields) (.model others)

/-- Whether plans are the same, or those of a class with its fields in another order. -/
inductive PlansReorder (isMoved : Prop) :
    Option (List FieldPlan) → Option (List FieldPlan) → Prop
  | same (plans : Option (List FieldPlan)) : PlansReorder isMoved plans plans
  | moved {plans others : List FieldPlan} :
      isMoved → others ~ plans → PlansReorder isMoved (some plans) (some others)

section

variable {moves : Key → Prop} {w other : World} {r q : ClassRecord}

namespace ClassRecord.Reorders

theorem symm
    (reorders : r.Reorders moves q) :
    q.Reorders moves r := by
  cases reorders with
  | same => exact .same r
  | @moved fields others isMoved isModel reordered =>
      have back : r = { { r with body := .model others } with body := .model fields } := by
        cases r
        cases isModel
        rfl
      rw [back]
      exact .moved isMoved rfl reordered.symm

/-- Nothing but the body is another. -/
theorem withBody (reorders : r.Reorders moves q) : q = { r with body := q.body } := by
  cases reorders <;> rfl

/-- The bodies of the records of a class are the same but for the order of fields. -/
theorem body
    (reorders : r.Reorders moves q) :
    r.body.Reorders (moves (ClassRef.user r.cls).key) q.body := by
  cases reorders with
  | same => exact .same _
  | moved isMoved isModel reordered =>
      rw [isModel]
      exact .moved isMoved reordered

end ClassRecord.Reorders

/-- Fields in another order are settled in that order, or none of them is. -/
theorem mapM_perm
    {f : α → Option β}
    {as moved : List α}
    (isMoved : moved ~ as) :
    (as.mapM f = none ∧ moved.mapM f = none) ∨
      ∃ bs last, as.mapM f = some bs ∧ moved.mapM f = some last ∧ last ~ bs := by
  have follows {as moved : List α} {bs : List β} (isMoved : moved ~ as) (found : as.mapM f = some bs) :
      ∃ last, moved.mapM f = some last ∧ last ~ bs := by
    obtain ⟨last, each, reordered⟩ := perm_comp_forall₂ isMoved (mapM_eq_some_iff.mp found)
    exact ⟨last, mapM_eq_some_iff.mpr each, reordered⟩
  cases found : as.mapM f with
  | some bs =>
      obtain ⟨last, lastFound, reordered⟩ := follows isMoved found
      exact .inr ⟨bs, last, rfl, lastFound, reordered⟩
  | none =>
      cases otherwise : moved.mapM f with
      | none => exact .inl ⟨rfl, rfl⟩
      | some last =>
          obtain ⟨bs, contrary, _⟩ := follows isMoved.symm otherwise
          rw [found] at contrary
          cases contrary

/-- Settled records are the same but for the order of fields. -/
theorem ClassRecord.Reorders.settleAll
    (reorders : r.Reorders moves q)
    (w : World) :
    (w.settleAll r).Reorders moves (w.settleAll q) := by
  cases reorders with
  | same => exact .same _
  | @moved fields others isMoved isModel reordered =>
      unfold World.settleAll
      rw [isModel]
      simp only
      rcases mapM_perm (f := Field.resolve? (w.typeInside? r.cls)) reordered with
        ⟨unsettled, otherUnsettled⟩ | ⟨settled, last, isSettled, isLast, lastReordered⟩
      · rw [unsettled, otherUnsettled]
        exact .moved isMoved isModel reordered
      · rw [isSettled, isLast]
        exact .moved (r := { r with body := .model settled }) isMoved rfl lastReordered

namespace World.Reorders

theorem symm (reorders : w.Reorders other moves) : other.Reorders w moves where
  classes := by
    apply Forall₂.flip
    exact reorders.classes.imp fun _ _ alike => alike.symm
  names := reorders.names.symm

/-- The records of a class are the same but for the order of fields. -/
theorem record?
    (reorders : w.Reorders other moves)
    (c : UserClass) :
    (w.record? c = none ∧ other.record? c = none) ∨
      ∃ r q, w.record? c = some r ∧ other.record? c = some q ∧ r.Reorders moves q ∧
        r.cls = c := by
  unfold World.record?
  have each := reorders.classes
  generalize w.classes = classes, other.classes = others at each ⊢
  induction each with
  | nil => exact .inl ⟨rfl, rfl⟩
  | @cons r q rest more first _ inductionHypothesis =>
      have sameClass : q.cls = r.cls := by rw [first.withBody]
      rw [find?_cons, find?_cons, sameClass]
      cases isClass : r.cls == c with
      | true => exact .inr ⟨r, q, rfl, rfl, first, by simpa using isClass⟩
      | false => exact inductionHypothesis

/-- The worlds differ in bodies alone. -/
theorem sameButBodies (reorders : w.Reorders other moves) : w.SameButBodies other := by
  intro c
  rcases reorders.record? c with ⟨absent, otherAbsent⟩ | ⟨r, q, found, otherFound, alike, _⟩
  · rw [absent, otherAbsent]
  · rw [found, otherFound, alike.withBody]
    rfl

/-- The bodies of a class are the same but for the order of fields. -/
theorem body
    (reorders : w.Reorders other moves)
    (c : ClassRef) :
    (w.body c).Reorders (moves c.key) (other.body c) := by
  cases c with
  | user u =>
      change ClassBody.Reorders _ (((w.record? u).map ClassRecord.body).getD .plain)
        (((other.record? u).map ClassRecord.body).getD .plain)
      rcases reorders.record? u with ⟨absent, otherAbsent⟩ | ⟨r, q, found, otherFound, alike, isClass⟩
      · rw [absent, otherAbsent]
        exact .same _
      · have sameKey : (ClassRef.user r.cls).key = (ClassRef.user u).key := by
          rw [ClassRef.key, ClassRef.key, isClass]
        rw [found, otherFound, ← sameKey]
        exact alike.body
  | builtin b => cases b <;> exact .same _
  | sized number home => exact .same _

/-- The worlds declare the same classes but for the order of fields. -/
theorem declaresAlike (reorders : w.Reorders other moves) : w.DeclaresAlike other where
  hooks := reorders.sameButBodies.hooks
  lineage := reorders.sameButBodies.lineage
  baseArguments := reorders.sameButBodies.baseArguments
  body c := by
    have bodies := reorders.body c
    generalize w.body c = before, other.body c = after at bodies
    cases bodies with
    | same => exact .inl rfl
    | moved _ _ => exact .inr ⟨_, _, rfl, rfl⟩

/-- Settling a class keeps all fields in their orders. -/
theorem settle
    (reorders : w.Reorders other moves)
    (c : ClassRef) :
    (w.settle c).Reorders (other.settle c) moves := by
  cases c with
  | user u =>
      have settles : other.settleAll = w.settleAll := settleAll_congr reorders.names
      rw [World.settle, World.settle]
      rcases reorders.record? u with ⟨absent, otherAbsent⟩ | ⟨r, q, found, otherFound, alike, _⟩
      · rw [absent, otherAbsent]
        exact reorders
      · have settled := alike.settleAll w
        have sameClass : (w.settleAll q).cls = (w.settleAll r).cls := by rw [settled.withBody]
        rw [found, otherFound]
        simp only [settles]
        refine ⟨?_, reorders.names⟩
        rw [World.replace, World.replace, sameClass]
        simp only [forall₂_map_left_iff, forall₂_map_right_iff]
        apply reorders.classes.imp
        intro old new oldAlike
        have sameOld : new.cls = old.cls := by rw [oldAlike.withBody]
        rw [sameOld]
        split
        · exact settled
        · exact oldAlike
  | _ => exact reorders

end World.Reorders

end

/-! ## Plans -/

section

variable {moves : Key → Prop} {w other : World}

/-- The plans of fields in another order. -/
theorem PlansReorder.of_fields
    {isMoved : Prop}
    {fields others : List Field}
    (moved : isMoved)
    (reordered : others ~ fields)
    (plan : Field → FieldPlan) :
    PlansReorder isMoved (some ((fields.filter fun f => !f.isExcluded).map plan))
      (some ((others.filter fun f => !f.isExcluded).map plan)) :=
  .moved moved ((reordered.filter _).map plan)

namespace World.Reorders

theorem modelPlans?
    (reorders : w.Reorders other moves)
    (c : ClassRef) :
    PlansReorder (moves c.key) (w.modelPlans? c).toOption (other.modelPlans? c).toOption := by
  have bodies := reorders.body c
  unfold World.modelPlans?
  cases c with
  | builtin b => exact .same _
  | _ =>
      generalize w.body _ = before, other.body _ = after at bodies ⊢
      cases bodies with
      | same => exact .same _
      | moved isMoved reordered => exact .of_fields isMoved reordered Field.modelPlan

theorem structPlans?
    (reorders : w.Reorders other moves)
    (c : ClassRef) :
    PlansReorder (moves c.key) (w.structPlans? c).toOption (other.structPlans? c).toOption := by
  have bodies := reorders.body c
  unfold World.structPlans?
  rw [reorders.sameButBodies.inherits]
  generalize w.body c = before, other.body c = after at bodies ⊢
  cases bodies with
  | same => exact .same _
  | moved isMoved reordered =>
      simp only
      split
      · exact .of_fields isMoved reordered Field.structPlan
      · exact .same _

/-- The plans of a class are the same but for their order. -/
theorem plansOf?
    (reorders : w.Reorders other moves)
    (c : ClassRef) :
    PlansReorder (moves c.key) (w.plansOf? c) (other.plansOf? c) := by
  have faultless (result : Except Fault (List FieldPlan)) :
      (result.mapError Interrupt.fault).toOption = result.toOption := by
    cases result <;> rfl
  have alike := reorders.declaresAlike
  have sameStruct : other.isStruct c = w.isStruct c := alike.inherits c .struct
  have settled := reorders.settle c
  rw [World.plansOf?, World.plansOf?, run_decodingPlans, run_decodingPlans, sameStruct,
    isDataclass_of_bodies (alike.body c)]
  cases isDataclass : w.isDataclass c with
  | true =>
      rw [dataclassPlans?_of_bodies (alike.body c) reorders.names isDataclass]
      exact .same _
  | false =>
      cases w.isStruct c with
      | true =>
          simp only [Bool.false_eq_true, if_false, if_true, faultless]
          exact settled.structPlans? c
      | false =>
          simp only [Bool.false_eq_true, if_false, faultless]
          exact settled.modelPlans? c

end World.Reorders

end

/-! ## What states know about reordered classes -/

namespace Store

/-- Whether a type is read by the fields of a class with one of some keys. -/
def ReadsFields (s : Store) (moves : Key → Prop) (type : TypeForm) : Prop :=
  ∃ a caps c, s.foresee a = some caps ∧ caps.type = type ∧ caps.reader = some (.fields c) ∧
    moves c.key

section

variable {moves : Key → Prop} {s t : Store} {forms : List TypeForm} {allowed : Allowance}
  {a b root : TypeForm}

/-- A type asks for the same where the fields of some classes stand in another order. -/
theorem Asks.reordered
    (asks : s.Asks a b)
    (reorders : s.world.Reorders t.world moves)
    (registry : t.registry .current = s.registry .current) :
    t.Asks a b := by
  have alike := reorders.declaresAlike
  have plansOf {c : ClassRef} {plans : List FieldPlan} (found : s.world.plansOf? c = some plans) :
      ∃ others, t.world.plansOf? c = some others ∧ others ~ plans := by
    have reordered := reorders.plansOf? c
    rw [found] at reordered
    generalize t.world.plansOf? c = result at reordered
    cases reordered with
    | same => exact ⟨plans, rfl, .refl _⟩
    | moved _ isMoved => exact ⟨_, rfl, isMoved⟩
  cases asks with
  | part asked => exact .part asked
  | argument isArgument =>
      rw [← alike.baseArguments] at isArgument
      exact .argument isArgument
  | member =>
      rw [← alike.memberClass]
      exact .member
  | field found isPlan =>
      obtain ⟨others, otherFound, isMoved⟩ := plansOf found
      exact .field otherFound (isMoved.mem_iff.mpr isPlan)
  | @known _ _ caps reader found reads asked =>
      rw [← registry] at found
      refine .known found reads ?_
      cases reader with
      | fields c =>
          rw [layout] at asked ⊢
          cases plansCase : s.world.plansOf? c with
          | none =>
              rw [plansCase] at asked
              cases asked
          | some plans =>
              obtain ⟨others, otherFound, isMoved⟩ := plansOf plansCase
              rw [plansCase] at asked
              rw [otherFound]
              exact (isMoved.map _).mem_iff.mpr asked
      | member c =>
          rw [layout, alike.memberClass]
          exact asked
      | _ => exact asked

/-- A type leads to the same where the fields of some classes stand in another order. -/
theorem LeadsTo.reordered
    (leads : s.LeadsTo root a)
    (reorders : s.world.Reorders t.world moves)
    (registry : t.registry .current = s.registry .current) :
    t.LeadsTo root a := by
  induction leads with
  | root => exact .root
  | any => exact .any
  | text => exact .text
  | step _ asks inductionHypothesis =>
      exact .step inductionHypothesis (asks.reordered reorders registry)

/-- A conventional type is so where the fields of some classes stand in another
order. -/
theorem Conventional.reordered
    (conventional : s.Conventional allowed root)
    (reorders : s.world.Reorders t.world moves)
    (registry : t.registry .current = s.registry .current) :
    t.Conventional allowed root := by
  have back {a : TypeForm} (leads : t.LeadsTo root a) : s.LeadsTo root a :=
    leads.reordered reorders.symm registry.symm
  have hooks := reorders.sameButBodies.hooks
  constructor
  · exact fun a leads => conventional.plain a (back leads)
  · exact fun a leads => conventional.unapplied a (back leads)
  · intro c leads
    rw [hooks]
    exact conventional.cases c (back leads)
  · intro c leads
    rw [hooks]
    exact conventional.program c (back leads)
  · intro c leads
    rw [hooks]
    exact conventional.schema c (back leads)
  · intro a leads
    rw [registry]
    exact conventional.known a (back leads)

/-- The same is foreseen of a type where the fields of some classes stand in another
order. -/
theorem foresee_reordered
    (reorders : s.world.Reorders t.world moves)
    (registry : t.registry .current = s.registry .current)
    (ready : s.Ready forms allowed)
    (otherReady : t.Ready forms allowed)
    (once : SpelledOnce (· ∈ forms))
    (member : a ∈ forms) :
    t.foresee a = s.foresee a := by
  have plain := ready.covers.plain a member
  have recalls : s.Recalls t (· ∈ forms) :=
    ⟨reorders.declaresAlike, fun b caps found => by rw [registry, found],
      fun b caps found => .inl (by rw [← registry, found])⟩
  cases accepted : a.hasCapabilities with
  | false => rw [ready.foresee_eq_none member accepted, otherReady.foresee_eq_none member accepted]
  | true =>
      cases found : (s.registry .current).find? a with
      | some caps =>
          rw [foresee_of_known plain found, foresee_of_known plain (by rw [registry, found])]
      | none =>
          obtain ⟨caps, reached, last, ran, otherRan, _⟩ :=
            recalls.resolveBare once ready.covers (fun _ isForm => isForm) member accepted
          rw [foresee_of_unknown plain found ran,
            foresee_of_unknown plain (by rw [registry, found]) otherRan]

/-- Surveys of both states know the same types, laid out alike but for the order of
fields. -/
theorem Surveys.sameButOrder
    {last other : Store}
    (surveys : s.Surveys last (· ∈ forms))
    (otherSurveys : t.Surveys other (· ∈ forms))
    (reorders : s.world.Reorders t.world moves)
    (foreseen : t.foresee a = s.foresee a)
    (distinct : ∀ c plans, moves c.key → s.world.plansOf? c = some plans →
      (plans.map (·.key)).Nodup)
    (member : a ∈ forms) :
    Entry.SameButOrder (s.ReadsFields moves) (last.entry a) (other.entry a) := by
  rw [entry, entry, surveys.known a member, otherSurveys.known a member, foreseen]
  cases known : s.foresee a with
  | none => exact .same _
  | some caps =>
      simp only [entryOf]
      split
      · rename_i reader isNone probed reads
        cases reader with
        | fields c =>
            have plans := reorders.plansOf? c
            rw [layout, layout, surveys.world, otherSurveys.world]
            cases plansCase : s.world.plansOf? c with
            | none =>
                rw [plansCase] at plans
                generalize t.world.plansOf? c = result at plans
                cases plans
                exact .same _
            | some found =>
                rw [plansCase] at plans
                generalize t.world.plansOf? c = result at plans
                cases plans with
                | same => exact .same _
                | moved isMoved reordered =>
                    exact .moved ⟨a, caps, c, known, rfl, reads, isMoved⟩
                      (distinct c found isMoved plansCase) reordered
        | member c =>
            rw [layout, layout, surveys.world, otherSurveys.world,
              reorders.declaresAlike.memberClass]
            exact .same _
        | _ => exact .same _
      · exact .same _

end

end Store

/-! ## Descriptions -/

/-- Where nothing carries notes, every type is written in one way and types with cases
are of the same kind wherever they are met, a type that lookup accepts has the same
description whichever order the fields of some classes with distinct keys stand in,
up to the order of the fields of those classes. -/
theorem describe_reordered
    {s : Store}
    {other : World}
    {moves : Key → Prop}
    {a : TypeForm}
    (reorders : s.world.Reorders other moves)
    (distinct : ∀ c plans, moves c.key → s.world.plansOf? c = some plans →
      (plans.map (·.key)).Nodup)
    (conventional : s.Conventional .programFree a)
    (once : SpelledOnce (s.LeadsTo a))
    (agree : ∀ last, s.Surveys last (s.LeadsTo a) → KindsAgree last.entry [] a)
    (accepted : a.hasCapabilities = true) :
    ∃ shape reached reordered last,
      (describe a).run s = (.ok shape, reached) ∧
        (describe a).run (s.inWorld other) = (.ok reordered, last) ∧
        Shape.SameButOrder (s.ReadsFields moves) shape reordered := by
  have otherReorders : s.world.Reorders (s.inWorld other).world moves := reorders
  have registry : (s.inWorld other).registry .current = s.registry .current := rfl
  obtain ⟨forms, ready, universal, _⟩ := conventional.exists_universe (.refl s)
  have otherConventional := conventional.reordered otherReorders registry
  have otherUniversal (b : TypeForm) : b ∈ forms ↔ (s.inWorld other).LeadsTo a b :=
    (universal b).trans ⟨fun leads => leads.reordered otherReorders registry,
      fun leads => leads.reordered otherReorders.symm registry.symm⟩
  have otherReady := otherConventional.ready otherUniversal
  have member : a ∈ forms := (universal a).mpr .root
  have sameForms : s.LeadsTo a = (· ∈ forms) := funext fun b => propext (universal b).symm
  rw [sameForms] at once agree
  obtain ⟨shape, reached, ran, _, _, unfolds⟩ :=
    (ready.follows _).describe ready rfl once conventional (fun b => (universal b).mpr) accepted
  obtain ⟨reordered, otherReached, otherRan, _, _, otherUnfolds⟩ :=
    (otherReady.follows _).describe otherReady rfl once otherConventional
      (fun b => (otherUniversal b).mpr) accepted
  obtain ⟨last, surveys⟩ := ready.exists_surveys once
  obtain ⟨otherLast, otherSurveys⟩ := otherReady.exists_surveys once
  have lawful := (surveys.ready ready fun _ isForm => isForm).lawful
  have otherLawful := (otherSurveys.ready otherReady fun _ isForm => isForm).lawful
  have same (b : TypeForm) (isForm : b ∈ forms) :=
    surveys.sameButOrder otherSurveys otherReorders
      (Store.foresee_reordered otherReorders registry ready otherReady once isForm) distinct isForm
  have agrees := agree last surveys
  have otherAgrees := agrees.sameButOrder same lawful otherLawful member
  obtain ⟨found, foundUnfolds, foundSame⟩ :=
    (unfolds last surveys agrees).sameButOrder same lawful otherLawful member .root
  rw [foundUnfolds.unique (otherUnfolds otherLast otherSurveys otherAgrees)] at foundSame
  exact ⟨shape, reached, reordered, otherReached, ran, otherRan, foundSame⟩

/-- A class without hooks belongs to a universe that contains what it asks for. -/
theorem World.Covers.cons
    {w : World}
    {forms : List TypeForm}
    {allowed : Allowance}
    {c : ClassRef}
    (covers : w.Covers forms allowed)
    (keeps : w.KeepsWithin forms c) :
    w.Covers (.cls c :: forms) allowed := by
  obtain ⟨unhooked, arguments, member, plans⟩ := keeps
  have further {a : TypeForm} (isForm : a ∈ forms) : a ∈ .cls c :: forms := mem_cons_of_mem _ isForm
  have classes {motive : ClassRef → Prop} (first : motive c)
      (rest : ∀ d, .cls d ∈ forms → motive d) (d : ClassRef)
      (isForm : .cls d ∈ .cls c :: forms) : motive d := by
    rcases mem_cons.mp isForm with same | isRest
    · cases same
      exact first
    · exact rest d isRest
  constructor
  · exact further covers.any
  · exact further covers.text
  · exact forall_mem_cons.mpr ⟨rfl, covers.plain⟩
  · refine forall_mem_cons.mpr ⟨fun b asked => (nomatch asked), fun a isForm b asked => ?_⟩
    exact further (covers.asks a isForm b asked)
  · exact forall_mem_cons.mpr ⟨fun d isOrigin => (nomatch isOrigin), covers.unapplied⟩
  · exact classes (by rw [unhooked]; rfl) covers.cases
  · exact classes (fun _ => by rw [unhooked]; rfl) covers.program
  · exact classes (fun hook declares => by rw [unhooked] at declares; cases declares) covers.schema
  · refine classes (fun b a isArgument => ?_) fun d isForm b a isArgument =>
      further (covers.arguments d isForm b a isArgument)
    rw [arguments] at isArgument
    cases isArgument
  · exact classes (further member) fun d isForm => further (covers.member d isForm)
  · exact classes (fun found isFound p isPlan => further (plans found isFound p isPlan))
      fun d isForm found isFound p isPlan => further (covers.plans d isForm found isFound p isPlan)

/-- The class of trees: a node and more nodes beside it. -/
def treeClass : ClassRef :=
  .user ⟨2, "Tree", "shapes"⟩

/-- Trees are structs with some fields. -/
def treeRecord (fields : List Field) : ClassRecord where
  cls := ⟨2, "Tree", "shapes"⟩
  lineage := [treeClass, .builtin .struct]
  base := none
  params := []
  hooks := .none
  body := .model fields

/-- The fields of trees. -/
def treeFields : List Field :=
  [.required "root" (.cls nodeClass),
    .required "rest" (.generic (.cls (.builtin .list)) [.cls nodeClass])]

/-- The type forms that trees lead to. -/
def treeForms : List TypeForm :=
  .cls treeClass :: nodeForms

theorem covers_treeForms :
    (nodeStore [treeRecord treeFields]).world.Covers treeForms .programFree := by
  have covers : (nodeStore [treeRecord treeFields]).world.Covers nodeForms .programFree :=
    covers_nodeForms [treeRecord treeFields] rfl
  refine covers.cons ⟨rfl, fun _ => rfl, covers.text, fun plans found p isPlan => ?_⟩
  cases found
  rcases mem_cons.mp isPlan with rfl | isRest
  · simp [nodeForms, Field.structPlan, Field.required, FieldPlan.of]
  · obtain rfl := mem_singleton.mp isRest
    simp [nodeForms, Field.structPlan, Field.required, FieldPlan.of]

/-- Trees have the same description whichever of their fields comes first, but for the
order of the fields. -/
theorem describe_reordered_tree :
    ∃ shape reached reordered last,
      (describe (.cls treeClass)).run (nodeStore [treeRecord treeFields]) = (.ok shape, reached) ∧
        (describe (.cls treeClass)).run (nodeStore [treeRecord treeFields.reverse]) =
          (.ok reordered, last) ∧
        Shape.SameButOrder ((nodeStore [treeRecord treeFields]).ReadsFields (· = treeClass.key))
          shape reordered := by
  have unknown : ∀ b ∈ treeForms,
      ((nodeStore [treeRecord treeFields]).registry .current).find? b = none :=
    Store.unknown_of_all rfl
  have conventional : (nodeStore [treeRecord treeFields]).Conventional .programFree (.cls treeClass) :=
    .of_unknown covers_treeForms unknown mem_cons_self
  have reorders : (nodeStore [treeRecord treeFields]).world.Reorders
      (nodeStore [treeRecord treeFields.reverse]).world (· = treeClass.key) :=
    ⟨.cons (.same _) (.cons (.moved rfl rfl (reverse_perm _)) .nil), rfl⟩
  have distinct (c : ClassRef) (plans : List FieldPlan) (isTree : c.key = treeClass.key)
      (found : (nodeStore [treeRecord treeFields]).world.plansOf? c = some plans) :
      (plans.map (·.key)).Nodup := by
    cases c with
    | user u =>
        obtain ⟨id, name, home⟩ := u
        have same : name = "Tree" ∧ home = "shapes" ∧ (id : Int) = 2 := by
          simpa [ClassRef.key, UserClass.key, treeClass, Key.labelled, Key.ofInt,
            Number.Ratio.ofInt] using isTree
        obtain ⟨rfl, rfl, isSecond⟩ := same
        obtain rfl : id = 2 := by omega
        cases found
        decide
    | _ => simp [ClassRef.key, treeClass, Key.labelled] at isTree
  have among {b : TypeForm}
      (leads : (nodeStore [treeRecord treeFields]).LeadsTo (.cls treeClass) b) : b ∈ treeForms :=
    leads.mem_of_unknown covers_treeForms unknown mem_cons_self
  have once : SpelledOnce ((nodeStore [treeRecord treeFields]).LeadsTo (.cls treeClass)) := by
    have apart : (treeForms.map TypeForm.identity).Nodup := by decide
    intro a b leads otherLeads
    exact inj_on_of_nodup_map apart (among leads) (among otherLeads)
  have agree (last : Store)
      (surveys : (nodeStore [treeRecord treeFields]).Surveys last
        ((nodeStore [treeRecord treeFields]).LeadsTo (.cls treeClass))) :
      KindsAgree last.entry [] (.cls treeClass) := by
    apply conventional.kindsAgree surveys
    have each : (treeForms.all fun b =>
        (((nodeStore [treeRecord treeFields]).foresee b).bind (·.cases)).isNone) = true := by
      rfl
    intro b leads caps foreseen
    have uncased := List.all_eq_true.mp each b (among leads)
    rw [foreseen] at uncased
    simpa using uncased
  have moved : nodeStore [treeRecord treeFields.reverse] =
      (nodeStore [treeRecord treeFields]).inWorld
        (nodeStore [treeRecord treeFields.reverse]).world :=
    rfl
  have described := describe_reordered reorders distinct conventional once agree rfl
  rwa [← moved] at described

end SchemaProbe

import SchemaProbe.Proofs.Stages
import SchemaProbe.Proofs.Styles

namespace SchemaProbe

/-!
# What is read early

A world on the way reads what is written as it is read in the end, if it can read it at
all.  It has the plans of a class that are had in the end as soon as every name is
declared, and whatever a plan asks for before comes up as well.
-/

open Step

section

variable {among : TypeForm → Prop} {ofName : String → Option TypeForm} {last w : World}
  {classes : UserClass → Prop}

/-! ## Written type forms -/

/-- Other spellings leave no class undeclared. -/
theorem World.IsClosed.respell
    (closed : w.IsClosed)
    (spellings : List (Key × TypeForm)) :
    { w with spellings := spellings }.IsClosed where
  names := closed.names
  records r member :=
    have closes := closed.records r member
    ⟨closes.lineage, closes.members, closes.cases⟩

/-- Spelling type forms that come up leads on the way. -/
theorem World.IsOnWay.leadsTo_of_spells
    {reached : World}
    (onWay : w.IsOnWay among ofName classes)
    (spells : w.Spells among reached) :
    w.LeadsTo among ofName classes reached := by
  obtain ⟨same, spellings⟩ := spells
  rw [same]
  exact ⟨⟨onWay.declares, onWay.closed.respell _, onWay.bodies, onWay.fields, onWay.hooks,
    spellings, onWay.meanings, onWay.own⟩, rfl, fun _ => rfl⟩

/-- What ends well with faults told as interrupts ended well. -/
theorem eq_ok_of_mapError
    {result : Except Fault α}
    {a : α}
    (isOk : result.mapError Interrupt.fault = .ok a) :
    result = .ok a := by
  cases result with
  | ok b =>
      cases isOk
      rfl
  | error f => cases isOk

/-- What is read on the way leads on the way. -/
theorem World.IsOnWay.exists_run
    {step : Step World α}
    {result : Except Fault α}
    (onWay : w.IsOnWay among ofName classes)
    (reads : Step.Reads among w step result) :
    ∃ reached, step.run w = (result.mapError .fault, reached) ∧
      w.LeadsTo among ofName classes reached := by
  obtain ⟨reached, ran, spells⟩ := reads w ⟨rfl, onWay.spellings⟩
  exact ⟨reached, ran, onWay.leadsTo_of_spells spells⟩

/-- A name means by itself what is declared under it. -/
theorem Naming.strict_meaning_eq_ok
    {name : String}
    {a : TypeForm} :
    Naming.strict.meaning w name = .ok a ↔ w.names.lookup name = some a := by
  unfold Naming.strict
  dsimp only
  cases w.names.lookup name with
  | none => simp
  | some b => simp

/-- A name that is declared on the way stands for what it stands for in the end. -/
theorem World.IsOnWay.meaning_strict
    (onWay : w.IsOnWay among ofName classes)
    {name : String}
    {a : TypeForm}
    (found : Naming.strict.meaning w name = .ok a) :
    ofName name = some a ∧ a.IsOver classes := by
  refine onWay.meanings name a ?_
  rw [World.typeOf?, Naming.strict_meaning_eq_ok.mp found]
  rfl

/-- Declared names are on the way to what they stand for in the end. -/
theorem World.IsOnWay.isStage_strict (onWay : w.IsOnWay among ofName classes) :
    (Naming.strict.sense w).IsStage ofName :=
  fun _ _ found => .inr (onWay.meaning_strict found).1

/-- A vocabulary has words for what is written. -/
theorem TypeForm.Vocabulary.strict
    (words : TypeForm.Vocabulary among ofName)
    (w : World) :
    Naming.strict.Words among w :=
  ⟨Naming.isSettledIn_strict, words.alike, words.nulls, words.arguments⟩

/-- What is read on the way comes up and is over the classes that are declared. -/
theorem World.IsOnWay.isMet_of_read
    (onWay : w.IsOnWay among ofName classes)
    {t : TypeTerm}
    (worded : TypeTerm.AreWorded among ofName t.parts)
    {a : TypeForm}
    (read : t.read (Naming.strict.sense w) = .ok a) :
    a.IsMet among classes where
  comesUp := worded.comesUp onWay.isStage_strict read
  isOver := TypeTerm.read_isOver (fun _ _ found => (onWay.meaning_strict found).2) t worded.ordinary
    read

/-- A stage knows no more than what there is in the end. -/
theorem World.IsStage.below_strict
    (stage : World.IsStage ofName last w)
    (closed : w.IsClosed) :
    (Naming.strict.sense w).Below (Naming.strict.sense last) := by
  have declares {name : String} {c : ClassRef}
      (found : (Naming.strict.sense w).name name = .ok (.cls c)) : w.Declares c :=
    closed.names name c (Naming.strict_meaning_eq_ok.mp found)
  constructor
  · intro name a found
    exact Naming.strict_meaning_eq_ok.mpr
      (stage.names name a (Naming.strict_meaning_eq_ok.mp found))
  · rfl
  · intro name c found entry v isMember
    exact ((stage.makesAlikeAt (declares found)).memberNamed? entry).trans isMember
  · intro name c found v isFresh
    exact ((stage.makesAlikeAt (declares found)).freshInstance? none).trans isFresh

/-- When all is declared, names have the sense that they have in the end. -/
theorem World.IsComplete.sense_strict (complete : World.IsComplete ofName last w) :
    Naming.strict.sense last = Naming.strict.sense w := by
  have names : Naming.strict.meaning last = Naming.strict.meaning w := by
    funext name
    unfold Naming.strict
    dsimp only
    rw [complete.names]
  have members : last.memberNamed? = w.memberNamed? := by
    funext c entry
    exact (complete.makesAlike c).memberNamed? entry
  have fresh : (fun c => last.freshInstance? c none) = fun c => w.freshInstance? c none := by
    funext c
    exact (complete.makesAlike c).freshInstance? none
  unfold Naming.sense
  rw [names, members, fresh]

/-! ## Plans -/

/-- A field of a type form that comes up is asked for by what comes up. -/
theorem FieldPlan.isMet_requested
    {form : TypeForm}
    (words : TypeForm.Vocabulary among ofName)
    (met : form.IsMet among classes)
    (name key : String)
    (hasDefault : Bool) :
    (FieldPlan.of name key form hasDefault).requested.IsMet among classes := by
  unfold FieldPlan.requested
  split
  · exact ⟨words.stripNull form met.comesUp, met.isOver.stripNull⟩
  · exact met

/-- The type form of a field of a dataclass is settled when it is read. -/
theorem World.IsOnWay.hint?
    (words : TypeForm.Vocabulary among ofName)
    (onWay : w.IsOnWay among ofName classes)
    {f : Field}
    (isOnWay : f.IsOnWay among ofName classes)
    {a : TypeForm}
    (hint : w.hint? f = .ok a) :
    a.IsMet among classes := by
  unfold World.hint? at hint
  split at hint
  · rename_i settled isSettled
    cases hint
    obtain ⟨rfl, isOver⟩ := TypeForm.eq_of_resolveNames? onWay.meanings isOnWay.isOver isSettled
    exact ⟨words.plain _ isOnWay.later, .plain _ isOver⟩
  · cases hint

/-- The fields of every class are on the way. -/
theorem World.IsOnWay.fieldsOf
    (onWay : w.IsOnWay among ofName classes)
    (c : ClassRef) :
    ∀ f ∈ (w.body c).fields, f.IsOnWay among ofName classes := by
  cases c with
  | user u =>
      cases found : w.record? u with
      | none =>
          rw [World.body, found]
          exact fun _ member => absurd member List.not_mem_nil
      | some r =>
          rw [World.body, found]
          exact onWay.fields u r found
  | builtin b => cases b <;> exact fun _ member => absurd member List.not_mem_nil
  | sized number home => exact fun _ member => absurd member List.not_mem_nil

/-- The plans of a declared class are found on the way, and ask for what comes up. -/
theorem World.IsOnWay.decodingPlans
    (words : TypeForm.Vocabulary among ofName)
    (onWay : w.IsOnWay among ofName classes)
    (c : ClassRef) :
    w.LeadsTo among ofName classes ((decodingPlans c).run w).2 ∧
      ∀ plans, ((decodingPlans c).run w).1 = .ok plans →
        ∀ p ∈ plans, p.requested.IsMet among classes := by
  have leads : w.LeadsTo among ofName classes ((SchemaProbe.decodingPlans c).run w).2 := by
    rw [World.run_decodingPlans]
    split
    · exact onWay.refl
    · split <;> exact onWay.settle words c
  refine ⟨leads, fun plans isOk p member => ?_⟩
  rcases decodingPlans_eq_ok (Prod.ext isOk rfl) with
    ⟨before, refusal, hints, isBody, -, isHints, rfl⟩ | ⟨settled, -, -, isBody, rfl⟩
  · obtain ⟨h, isHint, rfl⟩ := List.mem_map.mp member
    have areOnWay := onWay.fieldsOf c
    rw [isBody] at areOnWay
    obtain ⟨f, isField, isFound⟩ := exists_mem_of_forall₂ (forall₂_of_mapM_eq_ok isHints)
      (List.mem_of_mem_filter isHint)
    obtain ⟨a, hint, same⟩ := exists_of_bind_eq_ok isFound
    cases same
    exact FieldPlan.isMet_requested words (onWay.hint? words (areOnWay f isField) hint) _ _ _
  · have areOnWay := leads.onWay.fieldsOf c
    rw [isBody] at areOnWay
    obtain ⟨f, isField, rfl⟩ := List.mem_map.mp member
    have met := (areOnWay f (List.mem_of_mem_filter isField)).met
    split <;> exact FieldPlan.isMet_requested words met _ _ _

/-- The plans of a class as they are found in the end. -/
def World.finalPlans?
    (ofName : String → Option TypeForm)
    (w : World)
    (c : ClassRef) :
    Except Fault (List FieldPlan) :=
  match (w.body c).mapFields (Field.final ofName) with
  | .dataclass fields _ =>
    .ok ((fields.filter fun f => f.isArgument).map fun f => f.dataclassPlan f.written.plain)
  | .model fields =>
    if w.isStruct c then .ok ((fields.filter fun f => !f.isExcluded).map Field.structPlan)
    else
      match c with
      | .builtin _ => .error .missingOperation
      | _ => .ok ((fields.filter fun f => !f.isExcluded).map Field.modelPlan)
  | _ => .error .missingOperation

/-- When all is declared, the type form of a field of a dataclass is the one that it has in
the end. -/
theorem World.IsOnWay.hint?_of_complete
    (onWay : w.IsOnWay among ofName classes)
    (complete : World.IsComplete ofName last w)
    {f : Field}
    (isOnWay : f.IsOnWay among ofName classes) :
    w.hint? f = .ok (f.written.settled ofName).plain := by
  have known (name : String) (isName : name ∈ f.written.names) :
      (w.typeOf? name).isSome = true :=
    complete.meanings name (isOnWay.names name isName)
  have settled := TypeForm.resolveNames?_of_known known
  rw [World.hint?, settled, (TypeForm.eq_of_resolveNames? onWay.meanings isOnWay.isOver settled).1]

/-- When all is declared, the fields of a model can be settled, and are the same in the
end. -/
theorem World.IsOnWay.exists_settled
    (words : TypeForm.Vocabulary among ofName)
    (onWay : w.IsOnWay among ofName classes)
    (complete : World.IsComplete ofName last w)
    {u : UserClass}
    {fields : List Field}
    (isBody : w.body (.user u) = .model fields) :
    ∃ settled, (w.settle (.user u)).body (.user u) = .model settled ∧
      settled.map (Field.final ofName) = fields.map (Field.final ofName) ∧
        ∀ f ∈ settled, f.IsOnWay among ofName classes ∧ f.isResolved = true := by
  cases found : w.record? u with
  | none =>
      rw [World.body, found] at isBody
      cases isBody
  | some r =>
      rw [World.body, found] at isBody
      change r.body = .model fields at isBody
      have areOnWay := onWay.fields u r found
      rw [isBody, ClassBody.fields] at areOnWay
      have namesOver := onWay.namesInside (onWay.declared_of_record found)
      have known (name : String) (isName : (ofName name).isSome = true) :
          (w.typeInside? u name).isSome = true := by
        unfold World.typeInside?
        split
        · rfl
        · exact complete.meanings name isName
      obtain ⟨settled, isSettled⟩ : ∃ settled, fields.mapM (Field.resolve? (w.typeInside? u)) =
          some settled := by
        clear isBody
        induction fields with
        | nil => exact ⟨[], rfl⟩
        | cons f rest inductionHypothesis =>
            obtain ⟨firstOnWay, restOnWay⟩ := List.forall_mem_cons.mp areOnWay
            obtain ⟨g, isFirst⟩ := firstOnWay.exists_resolve? known
            obtain ⟨others, areRest⟩ := inductionHypothesis restOnWay
            exact ⟨g :: others, by rw [List.mapM_cons, isFirst, areRest]; rfl⟩
      obtain ⟨same, settledOnWay⟩ := Field.forall_isOnWay_of_resolve words areOnWay namesOver
        (mapM_eq_some_iff.mp isSettled)
      refine ⟨settled, ?_, same, settledOnWay⟩
      rw [World.body, World.record?_settle, if_pos rfl, found]
      change (w.settleAll r).body = _
      unfold World.settleAll
      rw [isBody, World.id_of_record? found]
      dsimp only
      rw [isSettled]

/-- Settled fields have the plans that they have in the end. -/
theorem Field.map_plans_final
    {fields : List Field}
    (onWay : ∀ f ∈ fields, f.IsOnWay among ofName classes ∧ f.isResolved = true) :
    ((fields.map (Field.final ofName)).filter fun f => !f.isExcluded).map Field.structPlan =
        (fields.filter fun f => !f.isExcluded).map Field.structPlan ∧
      ((fields.map (Field.final ofName)).filter fun f => !f.isExcluded).map Field.modelPlan =
        (fields.filter fun f => !f.isExcluded).map Field.modelPlan := by
  have plans (f : Field) (isField : f ∈ fields.filter fun f => !f.isExcluded) :
      (f.final ofName).modelPlan = f.modelPlan ∧ (f.final ofName).structPlan = f.structPlan :=
    have ⟨isOnWay, isResolved⟩ := onWay f (List.mem_of_mem_filter isField)
    isOnWay.plan_final isResolved
  rw [List.filter_map, List.map_map, List.map_map]
  exact ⟨List.map_congr_left fun f isField => (plans f isField).2,
    List.map_congr_left fun f isField => (plans f isField).1⟩

/-- A class without fields has no plans. -/
theorem World.decodingPlans_of_plain
    {c : ClassRef}
    (noModel : ∀ fields, w.body c ≠ .model fields)
    (noDataclass : ∀ fields refusal, w.body c ≠ .dataclass fields refusal) :
    ((SchemaProbe.decodingPlans c).run w).1 = .error (.fault .missingOperation) := by
  have noSettled (fields : List Field) : (w.settle c).body c ≠ .model fields := by
    intro isModel
    rcases World.body_settle_cases w c c with same | ⟨before, -, isBody, -⟩
    · exact noModel fields (same ▸ isModel)
    · exact noModel before isBody
  have noPlans : w.isDataclass c = false := by
    unfold World.isDataclass
    split
    · rename_i fields refusal isBody
      exact absurd isBody (noDataclass fields refusal)
    · rfl
  rw [World.run_decodingPlans, noPlans, if_neg Bool.false_ne_true]
  split
  · unfold World.structPlans?
    split
    · rename_i fields isBody
      exact absurd isBody (noSettled fields)
    · rfl
  · unfold World.modelPlans?
    split
    · rfl
    · rename_i fields _ _ isBody
      exact absurd isBody (noSettled fields)
    · rfl

/-- When all is declared, a dataclass has the plans that it has in the end. -/
theorem World.IsOnWay.decodingPlans_of_dataclass
    (onWay : w.IsOnWay among ofName classes)
    (complete : World.IsComplete ofName last w)
    {c : ClassRef}
    {fields : List Field}
    {refusal : Option String}
    (isBody : w.body c = .dataclass fields refusal) :
    ((SchemaProbe.decodingPlans c).run w).1 =
      .ok (((fields.map (Field.final ofName)).filter fun f => f.isArgument).map
        fun f => f.dataclassPlan f.written.plain) := by
  have areOnWay := onWay.fieldsOf c
  rw [isBody, ClassBody.fields] at areOnWay
  have hints : ((fields.map id).mapM fun f => do pure (f, ← w.hint? f)) =
      Except.ok (fields.map fun f => (f, (f.written.settled ofName).plain)) := by
    refine mapM_eq_ok fun f member => ?_
    rw [id, onWay.hint?_of_complete complete (areOnWay f member)]
    rfl
  rw [List.map_id] at hints
  have isDataclass : w.isDataclass c = true := by
    rw [World.isDataclass, isBody]
  rw [World.run_decodingPlans, isDataclass, if_pos rfl, World.dataclassPlans?, isBody]
  dsimp only
  rw [hints]
  change Except.ok (((fields.map fun f => (f, (f.written.settled ofName).plain)).filter
      fun h => h.1.isArgument).map fun h => h.1.dataclassPlan h.2) =
    Except.ok (((fields.map (Field.final ofName)).filter fun f => f.isArgument).map
      fun f => f.dataclassPlan f.written.plain)
  rw [List.filter_map, List.filter_map, List.map_map, List.map_map]
  rfl

/-- When all is declared, a declared struct or model has the plans that it has in the end. -/
theorem World.IsOnWay.decodingPlans_of_model
    (words : TypeForm.Vocabulary among ofName)
    (onWay : w.IsOnWay among ofName classes)
    (complete : World.IsComplete ofName last w)
    {u : UserClass}
    {fields : List Field}
    (isBody : w.body (.user u) = .model fields) :
    ((SchemaProbe.decodingPlans (.user u)).run w).1 =
      .ok (((fields.map (Field.final ofName)).filter fun f => !f.isExcluded).map
        (if w.isStruct (.user u) then Field.structPlan else Field.modelPlan)) := by
  have noPlans : w.isDataclass (.user u) = false := by
    rw [World.isDataclass, isBody]
  obtain ⟨settled, isSettled, same, areOnWay⟩ := onWay.exists_settled words complete isBody
  obtain ⟨structPlans, modelPlans⟩ := Field.map_plans_final areOnWay
  rw [World.run_decodingPlans, noPlans, if_neg Bool.false_ne_true, ← same]
  split
  · rename_i isStruct
    rw [structPlans, World.structPlans?, isSettled]
    dsimp only
    rw [World.inherits_settle]
    rw [World.isStruct] at isStruct
    rw [isStruct]
    rfl
  · rw [modelPlans]
    unfold World.modelPlans?
    rw [isSettled]
    rfl

/-- When all is declared, a declared class has the plans that it has in the end. -/
theorem World.IsOnWay.decodingPlans_of_complete
    (words : TypeForm.Vocabulary among ofName)
    (onWay : w.IsOnWay among ofName classes)
    (complete : World.IsComplete ofName last w)
    {c : ClassRef}
    (declared : w.Declares c) :
    ((SchemaProbe.decodingPlans c).run w).1 =
      (last.finalPlans? ofName c).mapError .fault := by
  have structs : last.isStruct c = w.isStruct c := (complete.makesAlike c).inherits .struct
  rw [World.finalPlans?, complete.stage.body declared, structs]
  cases isBody : w.body c with
  | dataclass fields refusal => exact onWay.decodingPlans_of_dataclass complete isBody
  | model fields =>
      cases c with
      | user u =>
          rw [onWay.decodingPlans_of_model words complete isBody, ClassBody.mapFields]
          dsimp only
          split <;> rfl
      | builtin b =>
          cases b <;> cases isBody
          rfl
      | sized number home => cases isBody
  | _ =>
      rw [World.decodingPlans_of_plain (fun fields isModel => by rw [isModel] at isBody; cases isBody)
        (fun fields refusal isDataclass => by rw [isDataclass] at isBody; cases isBody)]
      rfl

/-! ## Classes -/

/-- The cases of a class as they are read. -/
def World.cases? (w : World) (c : ClassRef) : Except Fault (Option (List Value)) :=
  match (w.hooks c).cases with
  | some (.listed values) => do .ok (some (← ValueTerm.readAll (Naming.strict.sense w) values))
  | some (.refused message) => .error (.raised .refusal message [])
  | none => .ok (w.members? c)

/-- The capabilities of a class as they are read. -/
def World.capabilities? (w : World) (c : ClassRef) : Except Fault Capabilities :=
  let base : Capabilities :=
    { Capabilities.named (.cls c) c.schemaName with description := (w.hooks c).description }
  match w.kind? c with
  | some kind => .ok { base with kind := some kind, placeholder := kind.zero }
  | none =>
    if w.inherits c .date then
      .ok
        { base with
          placeholder := if w.inherits c .datetime then epochMoment else epochDay
          isDate := true }
    else do
      let cases ← w.cases? c
      .ok
        { base with
          reader := w.reader? c
          placeholder := (cases.bind List.head?).getD .null
          cases := cases.map fun values => values.map w.label
          schema := (w.hooks c).schema
          isReferenceable := c.isNominal }

/-- What does not depend on spellings is the same in a world with others. -/
theorem World.Spells.view
    {base : World}
    (spells : base.Spells among w)
    (view : World → α)
    (blind : ∀ spellings, view { base with spellings := spellings } = view base) :
    view w = view base := by
  rw [spells.same]
  exact blind _

/-- The written type forms in the cases of a class are among those in its hooks. -/
theorem Hooks.partsAll_subset
    {hooks : Hooks}
    {values : List ValueTerm}
    (isHook : hooks.cases = some (.listed values)) :
    ValueTerm.partsAll values ⊆ hooks.parts := by
  rw [Hooks.parts, isHook]
  exact List.subset_append_right _ _

/-- The hooks of every class are worded. -/
theorem World.IsOnWay.hooksOf
    (onWay : w.IsOnWay among ofName classes)
    (c : ClassRef) :
    TypeTerm.AreWorded among ofName (w.hooks c).parts := by
  have unhooked {hooks : Hooks} (none : hooks.parts = []) :
      TypeTerm.AreWorded among ofName hooks.parts := by
    rw [none]
    exact ⟨fun _ member => absurd member List.not_mem_nil,
      fun _ _ _ member => absurd member List.not_mem_nil⟩
  cases c with
  | user u =>
      cases found : w.record? u with
      | none =>
          rw [World.hooks, found]
          exact unhooked rfl
      | some r =>
          rw [World.hooks, found]
          exact onWay.hooks u r found
  | _ => exact unhooked rfl

/-- The cases of a class are listed as they are read. -/
theorem World.IsOnWay.classCases_reads
    (words : TypeForm.Vocabulary among ofName)
    (onWay : w.IsOnWay among ofName classes)
    (c : ClassRef) :
    Step.Reads among w (classCases c) (w.cases? c) := by
  unfold classCases
  refine .current_bind fun v spells => ?_
  rw [spells.view (·.hooks c) fun _ => rfl, spells.view (·.members? c) fun _ => rfl, World.cases?]
  have worded := onWay.hooksOf c
  generalize w.hooks c = hooks at worded
  cases isHook : hooks.cases with
  | none => exact .pure _
  | some hook =>
      cases hook with
      | listed values =>
          exact .bind (ValueTerm.resolveAll_reads (words.strict w) values
            ((worded.mono (Hooks.partsAll_subset isHook)).comeUp _ onWay.isStage_strict))
            fun _ _ => .pure _
      | refused message => exact .fail _

/-- What is found out about a class is what is read. -/
theorem World.IsOnWay.classCapabilities_reads
    (words : TypeForm.Vocabulary among ofName)
    (onWay : w.IsOnWay among ofName classes)
    (c : ClassRef) :
    Step.Reads among w (classCapabilities c) (w.capabilities? c) := by
  unfold classCapabilities
  refine .current_bind fun v spells => ?_
  dsimp only
  rw [spells.view (·.hooks c) fun _ => rfl, spells.view (·.kind? c) fun _ => rfl,
    spells.view (·.inherits c) fun _ => rfl, World.capabilities?]
  dsimp only
  cases w.kind? c with
  | some kind => exact .pure _
  | none =>
      dsimp only
      by_cases isDate : w.inherits c .date
      · rw [if_pos isDate, if_pos isDate]
        exact .pure _
      · rw [if_neg isDate, if_neg isDate]
        refine .bind (onWay.classCases_reads words c) fun cases _ => ?_
        refine .current_bind fun reached reaches => ?_
        rw [reaches.view (·.reader? c) fun _ => rfl, reaches.view (·.label) fun _ => rfl]
        exact .pure _

/-- The cases of a class are labelled by declared classes. -/
theorem World.IsOnWay.declares_labelling
    (words : TypeForm.Vocabulary among ofName)
    (onWay : w.IsOnWay among ofName classes)
    {c : ClassRef}
    {values : List Value}
    (listed : w.cases? c = .ok (some values)) :
    ∀ v ∈ values, w.Declares v.labelling := by
  obtain ⟨reached, ran, spells⟩ := onWay.classCases_reads words c w ⟨rfl, onWay.spellings⟩
  rw [listed] at ran
  intro v member
  have declared := declares_labelling_of_classCases onWay.closed ran v member
  rw [spells.view (·.Declares v.labelling) fun _ => rfl] at declared
  exact declared

section

variable {c : ClassRef}

/-- The cases of a class that can be read are those that it has in the end. -/
theorem World.IsStage.cases?_of_ok
    (stage : World.IsStage ofName last w)
    (closed : w.IsClosed)
    (declared : w.Declares c)
    {cases : Option (List Value)}
    (listed : w.cases? c = .ok cases) :
    last.cases? c = .ok cases := by
  rw [← listed, World.cases?, World.cases?, stage.hooks declared,
    (stage.makesAlikeAt declared).members?]
  unfold World.cases? at listed
  split
  · rename_i values isHook
    rw [isHook] at listed
    obtain ⟨read, isRead, -⟩ := exists_of_bind_eq_ok listed
    rw [isRead, ValueTerm.readAll_of_below (stage.below_strict closed) values read isRead]
  · rfl
  · rfl

/-- When all is declared, the cases of a class are read as in the end. -/
theorem World.IsComplete.cases?
    (complete : World.IsComplete ofName last w)
    (declared : w.Declares c) :
    last.cases? c = w.cases? c := by
  rw [World.cases?, World.cases?, complete.stage.hooks declared, complete.sense_strict,
    (complete.makesAlike c).members?]

/-- A class whose cases are read as in the end has the capabilities that it has then. -/
theorem World.IsOnWay.capabilities?_congr
    (words : TypeForm.Vocabulary among ofName)
    (onWay : w.IsOnWay among ofName classes)
    (stage : World.IsStage ofName last w)
    (declared : w.Declares c)
    (cases : last.cases? c = w.cases? c) :
    last.capabilities? c = w.capabilities? c := by
  have labels (listed : Option (List Value)) (isListed : w.cases? c = .ok listed) :
      (listed.map fun values => values.map last.label) =
        listed.map fun values => values.map w.label := by
    cases listed with
    | none => rfl
    | some values =>
        exact congrArg some (List.map_congr_left fun v member =>
          stage.label (onWay.declares_labelling words isListed v member))
  have alike := stage.makesAlikeAt declared
  unfold World.capabilities?
  rw [stage.hooks declared, stage.kind? declared, alike.inherits, alike.inherits, cases,
    stage.reader? onWay.closed declared]
  dsimp only
  split
  · rfl
  · split
    · rfl
    · cases isListed : w.cases? c with
      | error f => rfl
      | ok listed =>
          change Except.ok _ = Except.ok _
          rw [labels listed isListed]

/-- The capabilities of a class that can be read are those that it has in the end. -/
theorem World.IsOnWay.capabilities?_of_ok
    (words : TypeForm.Vocabulary among ofName)
    (onWay : w.IsOnWay among ofName classes)
    (stage : World.IsStage ofName last w)
    (declared : w.Declares c)
    {caps : Capabilities}
    (found : w.capabilities? c = .ok caps) :
    last.capabilities? c = .ok caps := by
  cases listed : w.cases? c with
  | ok cases =>
      rw [onWay.capabilities?_congr words stage declared
        ((stage.cases?_of_ok onWay.closed declared listed).trans listed.symm), found]
  | error f =>
      have alike := stage.makesAlikeAt declared
      rw [← found]
      unfold World.capabilities? at found ⊢
      rw [stage.hooks declared, stage.kind? declared, alike.inherits, alike.inherits]
      rw [listed] at found
      dsimp only at found ⊢
      cases isKind : w.kind? c with
      | some kind => rfl
      | none =>
          rw [isKind] at found
          by_cases isDate : w.inherits c .date
          · dsimp only
            rw [if_pos isDate, if_pos isDate]
          · dsimp only at found
            rw [if_neg isDate] at found
            cases found

end

/-! ## Readers -/

/-- Whether a reader asks for type forms that come up and are over declared classes, and
its program is worded. -/
def Reader.IsFamiliar
    (among : TypeForm → Prop)
    (ofName : String → Option TypeForm)
    (classes : UserClass → Prop) :
    Reader → Prop
  | .fields c => ∀ u, c = .user u → classes u
  | .sequence item _ => item.IsMet among classes
  | .positions items => ∀ item ∈ items, item.IsMet among classes
  | .mapping value _ => value.IsMet among classes
  | .nullable inner => inner.IsMet among classes
  | .oneOf values =>
    (TypeForm.cls ((values.head?.map Value.classOf).getD (.builtin .str))).IsMet among classes
  | .member c => ∀ u, c ≠ .user u
  | .program _ body => TypeTerm.AreWorded among ofName (Statement.partsAll body)

/-- A class without fields of its own gives no arguments to what it extends. -/
theorem World.baseArguments_of_builtin
    {c : ClassRef}
    (builtin : ∀ u, c ≠ .user u)
    (w : World)
    (b : Builtin) :
    w.baseArguments c b = [] := by
  have ancestors : ∀ ancestor ∈ w.lineage c, ∀ u, ancestor ≠ .user u := by
    intro ancestor member u
    cases c with
    | user v => exact absurd rfl (builtin v)
    | builtin b =>
        obtain ⟨_, _, rfl⟩ := List.mem_map.mp member
        exact nofun
    | sized number home =>
        rintro rfl
        rw [World.lineage] at member
        split at member <;> split at member <;> simp at member
  unfold World.baseArguments
  rw [List.filterMap_eq_nil_iff.mpr]
  · rfl
  · intro ancestor member
    cases ancestor with
    | user u => exact absurd rfl (ancestors _ member u)
    | _ => rfl

/-- A declared class is read by a reader that asks for what comes up. -/
theorem World.IsOnWay.isFamiliar
    (words : TypeForm.Vocabulary among ofName)
    (onWay : w.IsOnWay among ofName classes)
    {c : ClassRef}
    (declared : w.Declares c)
    {reader : Reader}
    (reads : w.reader? c = some reader) :
    reader.IsFamiliar among ofName classes := by
  have anything : TypeForm.any.IsMet among classes := ⟨words.any, TypeForm.isOver_of_none rfl⟩
  have isDeclared (u : UserClass) (isUser : c = .user u) : classes u := by
    subst isUser
    exact (onWay.declares u).mp declared
  have hasFields (u : UserClass) (isUser : c = .user u) : (w.body c).HasFields := by
    subst isUser
    obtain ⟨r, found⟩ := Option.isSome_iff_exists.mp declared
    rw [World.body, found]
    exact onWay.bodies u r found
  unfold World.reader? at reads
  split at reads
  · rename_i body isProgram
    cases reads
    refine (onWay.hooksOf c).mono ?_
    rw [Hooks.parts, isProgram]
    exact List.subset_append_left _ _
  · split at reads
    · rename_i isBody
      cases reads
      intro u isUser
      have fields := hasFields u isUser
      rw [isBody] at fields
      exact fields
    · cases reads
      exact isDeclared
    · cases reads
      exact isDeclared
    · rename_i noEnumeration noModel noDataclass
      have builtin (u : UserClass) : c ≠ .user u := by
        intro isUser
        have fields := hasFields u isUser
        cases isBody : w.body c with
        | model before => exact noModel before isBody
        | dataclass before refusal => exact noDataclass before refusal isBody
        | _ =>
            rw [isBody] at fields
            exact fields
      split at reads
      · cases reads
        exact isDeclared
      · simp only [World.baseArguments_of_builtin builtin] at reads
        split at reads
        · cases reads
          exact anything
        · obtain ⟨shape, -, rfl⟩ := Option.map_eq_some_iff.mp reads
          exact anything

end

end SchemaProbe

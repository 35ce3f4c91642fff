import SchemaProbe.Proofs.UnfoldingLaws

namespace SchemaProbe

/-!
# Settling fields

Reading the fields of a model tries once more to look up their names, which
changes the world.  It changes nothing about how classes are read: settling a
class again, or settling another one, gives the same plans.
-/

/-- A field that is written as it is read and has to be given. -/
def Field.required (name : String) (form : TypeForm) : Field where
  name := name
  written := form
  form := form
  isResolved := true
  default := none
  factory := none
  key := none
  aliasName := none
  isExcluded := false
  isArgument := true

/-- A record without its body. -/
def ClassRecord.withoutBody (r : ClassRecord) : ClassRecord :=
  { r with body := .plain }

namespace World

/-- Whether two worlds say the same about how classes are read. -/
structure SameReading (w reached : World) : Prop where
  hooks : ∀ c, reached.hooks c = w.hooks c
  baseArguments : ∀ c b, reached.baseArguments c b = w.baseArguments c b
  memberClass : ∀ c, reached.memberClass c = w.memberClass c
  plansOf? : ∀ c, reached.plansOf? c = w.plansOf? c

theorem SameReading.refl (w : World) : w.SameReading w :=
  ⟨fun _ => rfl, fun _ _ => rfl, fun _ => rfl, fun _ => rfl⟩

theorem SameReading.symm
    {w reached : World}
    (reading : w.SameReading reached) :
    reached.SameReading w :=
  ⟨fun c => (reading.hooks c).symm, fun c b => (reading.baseArguments c b).symm,
    fun c => (reading.memberClass c).symm, fun c => (reading.plansOf? c).symm⟩

theorem SameReading.trans
    {w reached last : World}
    (first : w.SameReading reached)
    (second : reached.SameReading last) :
    w.SameReading last where
  hooks c := (second.hooks c).trans (first.hooks c)
  baseArguments c b := (second.baseArguments c b).trans (first.baseArguments c b)
  memberClass c := (second.memberClass c).trans (first.memberClass c)
  plansOf? c := (second.plansOf? c).trans (first.plansOf? c)

/-! ## The records of settled classes -/

/-- A record that is put in the place of one of its class is found there, and no
other record changes. -/
theorem record?_replace
    (w : World)
    (r : ClassRecord)
    (c : UserClass) :
    (w.replace r).record? c =
      if r.cls = c then (w.record? c).map fun _ => r else w.record? c := by
  unfold record? replace
  induction w.classes with
  | nil => simp
  | cons old rest inductionHypothesis =>
      by_cases isClass : r.cls = c
      · simp only [if_pos isClass] at inductionHypothesis ⊢
        by_cases replaced : old.cls = r.cls
        · have found : old.cls = c := replaced.trans isClass
          simp [replaced, isClass]
        · have notFound : old.cls ≠ c := fun same => replaced (same.trans isClass.symm)
          simpa [replaced, notFound] using inductionHypothesis
      · simp only [if_neg isClass] at inductionHypothesis ⊢
        by_cases replaced : old.cls = r.cls
        · have notFound : old.cls ≠ c := fun same => isClass (replaced.symm.trans same)
          simpa [replaced, isClass, notFound] using inductionHypothesis
        · by_cases found : old.cls = c
          · have kept : ¬ c = r.cls := fun same => isClass same.symm
            simp [found, kept]
          · simpa [replaced, found] using inductionHypothesis

/-- Settling fields changes nothing about a record but its body. -/
theorem settleAll_eq_withBody (w : World) (r : ClassRecord) :
    w.settleAll r = { r with body := (w.settleAll r).body } := by
  unfold settleAll
  split
  · split <;> rfl
  · rfl

/-- Settled fields need no settling. -/
private theorem resolve?_of_resolve?
    {ofName : String → Option TypeForm}
    {f settled : Field}
    (isSettled : f.resolve? ofName = some settled) :
    settled.resolve? ofName = some settled := by
  unfold Field.resolve? at isSettled
  split at isSettled
  · rename_i isResolved
    cases isSettled
    simp [Field.resolve?, isResolved]
  · obtain ⟨a, _, rfl⟩ := Option.map_eq_some_iff.mp isSettled
    simp [Field.resolve?]

theorem settleAll_settleAll (w : World) (r : ClassRecord) :
    w.settleAll (w.settleAll r) = w.settleAll r := by
  cases bodyCase : r.body with
  | model fields =>
      cases collected : fields.mapM (Field.resolve? (w.typeInside? r.cls)) with
      | none =>
          have same : w.settleAll r = r := by simp [settleAll, bodyCase, collected]
          rw [same, same]
      | some settled =>
          have again : settled.mapM (Field.resolve? (w.typeInside? r.cls)) = some settled := by
            have each := mapM_eq_some_iff.mp collected
            rw [mapM_eq_some_iff]
            clear collected bodyCase
            induction each with
            | nil => exact .nil
            | cons first _ rest => exact .cons (resolve?_of_resolve? first) rest
          simp [settleAll, bodyCase, collected, again]
  | _ => simp [settleAll, bodyCase]

/-- What settling makes of a record depends on the names alone. -/
theorem settleAll_congr
    {w other : World}
    (names : w.names = other.names) :
    w.settleAll = other.settleAll := by
  have typeInside : w.typeInside? = other.typeInside? := by
    funext c name
    simp only [typeInside?, typeOf?, names]
  funext r
  simp only [settleAll, typeInside]

theorem names_settle (w : World) (c : ClassRef) : (w.settle c).names = w.names := by
  unfold settle
  split
  · split <;> rfl
  · rfl

/-- Settling a class settles its record. -/
theorem record?_settle
    (w : World)
    (u c : UserClass) :
    (w.settle (.user u)).record? c =
      if u = c then (w.record? c).map w.settleAll else w.record? c := by
  rw [settle]
  by_cases same : u = c
  · have sameRecord : w.record? u = w.record? c := by simp [record?, same]
    rw [if_pos same, sameRecord]
    cases found : w.record? c with
    | none => simpa using found
    | some r =>
        have isClass : r.cls = c := by
          have holds := List.find?_some found
          simpa using holds
        have sameClass : (w.settleAll r).cls = r.cls := by rw [settleAll_eq_withBody]
        simp only
        rw [record?_replace, sameClass, if_pos isClass, found]
        rfl
  · rw [if_neg same]
    cases found : w.record? u with
    | none => rfl
    | some r =>
        have isClass : r.cls = u := by
          have holds := List.find?_some found
          simpa using holds
        have sameClass : (w.settleAll r).cls = r.cls := by rw [settleAll_eq_withBody]
        simp only
        rw [record?_replace, sameClass, isClass, if_neg same]

/-- After settling any class, a record is as it was or settled. -/
theorem record?_settle_cases
    (w : World)
    (d : ClassRef)
    (c : UserClass) :
    (w.settle d).record? c = w.record? c ∨
      (w.settle d).record? c = (w.record? c).map w.settleAll := by
  cases d with
  | user u =>
      rw [record?_settle]
      by_cases same : u = c
      · exact .inr (if_pos same)
      · exact .inl (if_neg same)
  | _ => exact .inl rfl

/-! ## Worlds that differ in bodies alone -/

/-- Whether two worlds have the same records but for their bodies. -/
def SameButBodies (w other : World) : Prop :=
  ∀ c, (other.record? c).map ClassRecord.withoutBody = (w.record? c).map ClassRecord.withoutBody

namespace SameButBodies

variable {w other : World} (same : w.SameButBodies other)

include same

/-- What does not depend on the body of a record is the same. -/
theorem map_record?
    (view : ClassRecord → α)
    (bodyless : ∀ r, view r.withoutBody = view r)
    (c : UserClass) :
    (other.record? c).map view = (w.record? c).map view := by
  have viewed (r : Option ClassRecord) : r.map view = (r.map ClassRecord.withoutBody).map view := by
    rw [Option.map_map]
    exact congrArg (fun f => Option.map f r) (funext fun r => (bodyless r).symm)
  rw [viewed, same, ← viewed]

theorem hooks (c : ClassRef) : other.hooks c = w.hooks c := by
  cases c with
  | user u => exact congrArg (·.getD .none) (same.map_record? (·.hooks) (fun _ => rfl) u)
  | _ => rfl

theorem lineage (c : ClassRef) : other.lineage c = w.lineage c := by
  cases c with
  | user u => exact congrArg (·.getD [.user u]) (same.map_record? (·.lineage) (fun _ => rfl) u)
  | _ => rfl

theorem inherits (c : ClassRef) (b : Builtin) : other.inherits c b = w.inherits c b := by
  rw [World.inherits, World.inherits, same.lineage]

theorem baseArguments (c : ClassRef) (b : Builtin) :
    other.baseArguments c b = w.baseArguments c b := by
  have bases (u : UserClass) : (other.record? u).bind (·.base) = (w.record? u).bind (·.base) := by
    have mapped := same.map_record? (·.base) (fun _ => rfl) u
    have joined := congrArg (Option.bind · id) mapped
    rwa [Option.bind_map, Option.bind_map] at joined
  unfold World.baseArguments
  rw [same.lineage]
  simp only [bases]

end SameButBodies

/-- Settling a class changes bodies alone. -/
theorem sameButBodies_settle (w : World) (d : ClassRef) : w.SameButBodies (w.settle d) := by
  intro c
  rcases record?_settle_cases w d c with same | settled
  · rw [same]
  · rw [settled, Option.map_map]
    refine congrArg (fun f => Option.map f _) (funext fun r => ?_)
    rw [Function.comp_apply, settleAll_eq_withBody]
    rfl

theorem hooks_settle (w : World) (d c : ClassRef) : (w.settle d).hooks c = w.hooks c :=
  (sameButBodies_settle w d).hooks c

theorem lineage_settle (w : World) (d c : ClassRef) : (w.settle d).lineage c = w.lineage c :=
  (sameButBodies_settle w d).lineage c

theorem inherits_settle (w : World) (d c : ClassRef) (b : Builtin) :
    (w.settle d).inherits c b = w.inherits c b :=
  (sameButBodies_settle w d).inherits c b

theorem baseArguments_settle (w : World) (d c : ClassRef) (b : Builtin) :
    (w.settle d).baseArguments c b = w.baseArguments c b :=
  (sameButBodies_settle w d).baseArguments c b

/-! ## The bodies of settled classes -/

/-- After settling any class, the body of a class is as it was, or the names in the
fields of a model were looked up. -/
theorem body_settle_fields (w : World) (d c : ClassRef) :
    (w.settle d).body c = w.body c ∨
      ∃ ofName fields settled, w.body c = .model fields ∧ (w.settle d).body c = .model settled ∧
        fields.Forall₂ (fun f g => f.resolve? ofName = some g) settled := by
  cases c with
  | user u =>
      change (((w.settle d).record? u).map (·.body)).getD .plain =
          ((w.record? u).map (·.body)).getD .plain ∨
        ∃ ofName fields settled, ((w.record? u).map (·.body)).getD .plain = .model fields ∧
          (((w.settle d).record? u).map (·.body)).getD .plain = .model settled ∧
            fields.Forall₂ (fun f g => f.resolve? ofName = some g) settled
      rcases record?_settle_cases w d u with same | settled
      · exact .inl (by rw [same])
      · rw [settled]
        cases w.record? u with
        | none => exact .inl rfl
        | some r =>
            simp only [Option.map_some, Option.getD_some, settleAll]
            split
            · rename_i fields isModel
              split
              · rename_i settled collected
                exact .inr ⟨_, fields, settled, isModel, rfl, mapM_eq_some_iff.mp collected⟩
              · exact .inl rfl
            · exact .inl rfl
  | builtin b => exact .inl (by cases b <;> rfl)
  | sized number home => exact .inl rfl

/-- After settling any class, the body of a class is as it was, or both are those
of models. -/
theorem body_settle_cases (w : World) (d c : ClassRef) :
    (w.settle d).body c = w.body c ∨
      ∃ fields settled, w.body c = .model fields ∧ (w.settle d).body c = .model settled := by
  rcases body_settle_fields w d c with same | ⟨_, fields, settled, before, after, -⟩
  · exact .inl same
  · exact .inr ⟨fields, settled, before, after⟩

theorem members?_settle (w : World) (d c : ClassRef) :
    (w.settle d).members? c = w.members? c := by
  unfold members?
  rcases body_settle_cases w d c with same | ⟨fields, settled, before, after⟩
  · rw [same]
  · rw [before, after]

theorem memberClass_settle (w : World) (d c : ClassRef) :
    (w.settle d).memberClass c = w.memberClass c := by
  rw [memberClass, memberClass, members?_settle]

/-- Settling a class again after any other one gives the same body. -/
theorem body_settle_settle (w : World) (d c : ClassRef) :
    ((w.settle d).settle c).body c = (w.settle c).body c := by
  cases c with
  | user u =>
      have settles : (w.settle d).settleAll = w.settleAll := settleAll_congr (names_settle w d)
      have records : ((w.settle d).settle (.user u)).record? u = (w.settle (.user u)).record? u := by
        rw [record?_settle, record?_settle, if_pos rfl, if_pos rfl, settles]
        rcases record?_settle_cases w d u with same | settled
        · rw [same]
        · rw [settled, Option.map_map]
          refine congrArg (fun f => Option.map f _) (funext fun r => ?_)
          rw [Function.comp_apply, settleAll_settleAll]
      change ((((w.settle d).settle (.user u)).record? u).map (·.body)).getD .plain =
        (((w.settle (.user u)).record? u).map (·.body)).getD .plain
      rw [records]
  | builtin b => cases b <;> rfl
  | sized number home => rfl

/-! ## Plans -/

theorem modelPlans?_congr
    {w other : World}
    {c : ClassRef}
    (body : w.body c = other.body c) :
    w.modelPlans? c = other.modelPlans? c := by
  unfold modelPlans?
  rw [body]

theorem structPlans?_congr
    {w other : World}
    {c : ClassRef}
    (body : w.body c = other.body c)
    (inherits : w.inherits c .struct = other.inherits c .struct) :
    w.structPlans? c = other.structPlans? c := by
  unfold structPlans?
  rw [body, inherits]

theorem dataclassPlans?_congr
    {w other : World}
    {c : ClassRef}
    (body : w.body c = other.body c)
    (names : w.names = other.names) :
    w.dataclassPlans? c = other.dataclassPlans? c := by
  unfold dataclassPlans? hint? typeOf?
  rw [body, names]

/-- Whether a class is a dataclass, whose fields are looked up each time. -/
def isDataclass (w : World) (c : ClassRef) : Bool :=
  match w.body c with
  | .dataclass _ _ => true
  | _ => false

/-- How the plans of a class are found, and the world that finding them
leaves. -/
theorem run_decodingPlans (w : World) (c : ClassRef) :
    (decodingPlans c).run w =
      if w.isDataclass c then ((w.dataclassPlans? c).mapError .fault, w)
      else if w.isStruct c then (((w.settle c).structPlans? c).mapError .fault, w.settle c)
      else (((w.settle c).modelPlans? c).mapError .fault, w.settle c) := by
  have structs : (settledStructPlans c).run w =
      (((w.settle c).structPlans? c).mapError .fault, w.settle c) :=
    Step.run_ofExcept _ _
  have models : (settledModelPlans c).run w =
      (((w.settle c).modelPlans? c).mapError .fault, w.settle c) :=
    Step.run_ofExcept _ _
  rw [decodingPlans, Step.run_bind_of_ok (Step.run_current w)]
  unfold isDataclass
  cases w.body c with
  | dataclass fields refusal => exact Step.run_ofExcept _ _
  | _ => cases w.isStruct c <;> simp [structs, models]

/-- How the plans of a class came about: from the hints of all fields of a dataclass,
or from the settled fields of a model. -/
theorem decodingPlans_eq_ok
    {w reached : World}
    {c : ClassRef}
    {plans : List FieldPlan}
    (ran : (decodingPlans c).run w = (.ok plans, reached)) :
    (∃ fields refusal hints, w.body c = .dataclass fields refusal ∧ reached = w ∧
        (fields.mapM fun f => do pure (f, ← w.hint? f)) = .ok hints ∧
        plans = (hints.filter fun h => h.1.isArgument).map fun h => h.1.dataclassPlan h.2) ∨
      ∃ fields, w.isDataclass c = false ∧ reached = w.settle c ∧ reached.body c = .model fields ∧
        plans = (fields.filter fun f => !f.isExcluded).map fun f =>
          if w.isStruct c then f.structPlan else f.modelPlan := by
  rw [run_decodingPlans] at ran
  split at ran
  · refine .inl ?_
    obtain ⟨isPlans, rfl⟩ := Prod.mk.inj ran
    unfold dataclassPlans? at isPlans
    split at isPlans
    · rename_i fields refusal isBody
      cases hints : fields.mapM fun f => do pure (f, ← w.hint? f) with
      | error f =>
          rw [hints] at isPlans
          cases isPlans
      | ok found =>
          rw [hints] at isPlans
          cases isPlans
          exact ⟨fields, refusal, found, isBody, rfl, hints, rfl⟩
    · cases isPlans
  · rename_i noDataclass
    refine .inr ?_
    split at ran
    · rename_i isStruct
      obtain ⟨isPlans, rfl⟩ := Prod.mk.inj ran
      unfold structPlans? at isPlans
      split at isPlans
      · rename_i fields isBody
        split at isPlans
        · cases isPlans
          refine ⟨fields, Bool.eq_false_iff.mpr noDataclass, rfl, isBody, ?_⟩
          simp [isStruct]
        · cases isPlans
      · cases isPlans
    · rename_i noStruct
      obtain ⟨isPlans, rfl⟩ := Prod.mk.inj ran
      unfold modelPlans? at isPlans
      split at isPlans
      · cases isPlans
      · rename_i fields _ isBody
        cases isPlans
        refine ⟨fields, Bool.eq_false_iff.mpr noDataclass, rfl, isBody, ?_⟩
        simp [noStruct]
      · cases isPlans

section

variable {w other : World} {c : ClassRef}
  (bodies : other.body c = w.body c ∨
    ∃ fields others, w.body c = .model fields ∧ other.body c = .model others)

include bodies

/-- The same classes are dataclasses where models stay models. -/
theorem isDataclass_of_bodies : other.isDataclass c = w.isDataclass c := by
  unfold isDataclass
  rcases bodies with same | ⟨fields, others, before, after⟩
  · rw [same]
  · rw [before, after]

/-- Dataclasses have the same plans where models stay models. -/
theorem dataclassPlans?_of_bodies
    (names : other.names = w.names)
    (isDataclass : w.isDataclass c = true) :
    other.dataclassPlans? c = w.dataclassPlans? c := by
  rcases bodies with same | ⟨fields, others, before, _⟩
  · exact dataclassPlans?_congr same names
  · rw [World.isDataclass, before] at isDataclass
    cases isDataclass

end

theorem plansOf?_settle (w : World) (d c : ClassRef) :
    (w.settle d).plansOf? c = w.plansOf? c := by
  have sameDataclass := isDataclass_of_bodies (body_settle_cases w d c)
  have dataclasses := dataclassPlans?_of_bodies (body_settle_cases w d c) (names_settle w d)
  have sameStruct : (w.settle d).isStruct c = w.isStruct c := inherits_settle w d c .struct
  have inherits : ((w.settle d).settle c).inherits c .struct = (w.settle c).inherits c .struct := by
    rw [inherits_settle, inherits_settle, inherits_settle]
  rw [plansOf?, plansOf?, run_decodingPlans, run_decodingPlans, sameDataclass, sameStruct,
    structPlans?_congr (body_settle_settle w d c) inherits,
    modelPlans?_congr (body_settle_settle w d c)]
  by_cases isDataclass : w.isDataclass c = true
  · rw [if_pos isDataclass, if_pos isDataclass, dataclasses isDataclass]
  · rw [if_neg isDataclass, if_neg isDataclass]
    split <;> rfl

theorem sameReading_settle (w : World) (c : ClassRef) : w.SameReading (w.settle c) where
  hooks := hooks_settle w c
  baseArguments := baseArguments_settle w c
  memberClass := memberClass_settle w c
  plansOf? := plansOf?_settle w c

/-- Classes are read alike where the same classes and names are declared. -/
theorem SameReading.of_classes
    {w reached : World}
    (classes : reached.classes = w.classes)
    (names : reached.names = w.names) :
    w.SameReading reached := by
  have records (u : UserClass) : reached.record? u = w.record? u := by
    rw [record?, record?, classes]
  have hooks (c : ClassRef) : reached.hooks c = w.hooks c := by
    cases c with
    | user u => simp only [World.hooks, records]
    | _ => rfl
  have lineages (c : ClassRef) : reached.lineage c = w.lineage c := by
    cases c with
    | user u => simp only [lineage, records]
    | _ => rfl
  have inherits (c : ClassRef) : reached.inherits c .struct = w.inherits c .struct := by
    rw [World.inherits, World.inherits, lineages]
  have bodies (c : ClassRef) : reached.body c = w.body c := by
    cases c with
    | user u => simp only [body, records]
    | builtin b => cases b <;> rfl
    | sized number home => rfl
  have settled (c : ClassRef) : (reached.settle c).body c = (w.settle c).body c := by
    cases c with
    | user u =>
        have settles : reached.settleAll = w.settleAll := settleAll_congr names
        have found : (reached.settle (.user u)).record? u = (w.settle (.user u)).record? u := by
          rw [record?_settle, record?_settle, if_pos rfl, if_pos rfl, settles, records]
        simp only [body, found]
    | builtin b => cases b <;> exact bodies _
    | sized number home => rfl
  refine ⟨hooks, fun c b => ?_, fun c => ?_, fun c => ?_⟩
  · simp only [World.baseArguments, lineages, records]
  · simp only [World.memberClass, members?, bodies]
  · have sameDataclass : reached.isDataclass c = w.isDataclass c := by
      rw [isDataclass, isDataclass, bodies]
    have sameStruct : reached.isStruct c = w.isStruct c := inherits c
    have settledInherits :
        (reached.settle c).inherits c .struct = (w.settle c).inherits c .struct := by
      rw [inherits_settle, inherits_settle, inherits]
    rw [World.plansOf?, World.plansOf?, run_decodingPlans, run_decodingPlans, sameDataclass, sameStruct,
      structPlans?_congr (settled c) settledInherits, modelPlans?_congr (settled c),
      dataclassPlans?_congr (bodies c) names]
    split
    · rfl
    · split <;> rfl

/-- Whether a world was reached by settling classes. -/
inductive SettlesTo (w : World) : World → Prop
  | refl : SettlesTo w w
  | settle {reached : World} (c : ClassRef) : SettlesTo w reached → SettlesTo w (reached.settle c)

namespace SettlesTo

variable {w reached last : World}

theorem trans
    (first : w.SettlesTo reached)
    (second : reached.SettlesTo last) :
    w.SettlesTo last := by
  induction second with
  | refl => exact first
  | settle c _ inductionHypothesis => exact .settle c inductionHypothesis

/-- Classes are read alike however many are settled. -/
theorem reading (settles : w.SettlesTo reached) : w.SameReading reached := by
  induction settles with
  | refl => exact .refl w
  | @settle reached c _ inductionHypothesis =>
      exact inductionHypothesis.trans (sameReading_settle reached c)

end SettlesTo

/-- Finding the plans of a class settles it at most. -/
theorem settlesTo_decodingPlans (w : World) (c : ClassRef) :
    w.SettlesTo ((decodingPlans c).run w).2 := by
  rw [run_decodingPlans]
  split
  · exact .refl
  · split <;> exact .settle c .refl

/-- Finding the plans of a class gives them, or a fault where there are none. -/
theorem exists_run_decodingPlans (w : World) (c : ClassRef) :
    ∃ reached, w.SettlesTo reached ∧
      ((∃ plans, w.plansOf? c = some plans ∧
          (decodingPlans c).run w = (.ok plans, reached)) ∨
        ∃ f, w.plansOf? c = none ∧ (decodingPlans c).run w = (.error (.fault f), reached)) := by
  have outcome (result : Except Fault (List FieldPlan)) (reached : World)
      (ran : (decodingPlans c).run w = (result.mapError .fault, reached)) :
      (∃ plans, w.plansOf? c = some plans ∧ (decodingPlans c).run w = (.ok plans, reached)) ∨
        ∃ f, w.plansOf? c = none ∧ (decodingPlans c).run w = (.error (.fault f), reached) := by
    rw [plansOf?, ran]
    cases result with
    | ok plans => exact .inl ⟨plans, rfl, rfl⟩
    | error f => exact .inr ⟨f, rfl, rfl⟩
  have ran := run_decodingPlans w c
  split at ran
  · exact ⟨w, .refl, outcome _ _ ran⟩
  · split at ran
    · exact ⟨w.settle c, .settle c .refl, outcome _ _ ran⟩
    · exact ⟨w.settle c, .settle c .refl, outcome _ _ ran⟩

end World

end SchemaProbe

import SchemaProbe.Proofs.Attributes

namespace SchemaProbe

/-!
# Classes with the same fields in different styles

A class with fields can be declared as a struct, as a model or as a dataclass.  Given the
same fields, with the same keys and with type forms that are resolved, it makes the same
requests in every style, whatever is declared beside it and however its fields are
settled.
-/

open Step

/-! ## Fields of any style -/

/-- A field that can be declared in every style, under a key of its own. -/
structure FieldSpec where
  name : String
  key : String
  form : TypeForm
  default : Option Value
  factory : Option Factory

namespace FieldSpec

/-- Whether a field has a key, and a type form without notes in which no name is left to
look up. -/
structure IsPlain (spec : FieldSpec) : Prop where
  key : spec.key ≠ ""
  resolved : ∀ ofName, spec.form.resolveNames? ofName = some spec.form
  bare : spec.form.plain = spec.form

/-- The field of a class: a model has the key as an alias. -/
def field (style : FieldStyle) (spec : FieldSpec) : Field where
  name := spec.name
  written := spec.form
  form := spec.form
  isResolved := style != .dataclass
  default := spec.default
  factory := spec.factory
  key := if style == .model then none else some spec.key
  aliasName := if style == .model then some spec.key else none
  isExcluded := false
  isArgument := true

/-- The plan of the field of a class: a model is given its value under the key. -/
def plan (style : FieldStyle) (spec : FieldSpec) : FieldPlan :=
  .of (if style == .model then spec.key else spec.name) spec.key spec.form
    (spec.field style).hasDefault

end FieldSpec

namespace FieldStyle

/-- What a class of a style with fields consists of. -/
def body (specs : List FieldSpec) : FieldStyle → ClassBody
  | .dataclass => .dataclass (specs.map (·.field .dataclass)) none
  | style => .model (specs.map (·.field style))

/-- The classes that a class of a style extends by itself. -/
def ancestors (style : FieldStyle) : List ClassRef :=
  ((ClassForm.fields style [] none).defaultParent.map World.empty.lineage).getD []

/-- The record of a class of a style that has fields and nothing else. -/
def record
    (style : FieldStyle)
    (c : UserClass)
    (specs : List FieldSpec) :
    ClassRecord where
  cls := c
  lineage := .user c :: style.ancestors
  base := none
  params := []
  hooks := .none
  body := style.body specs

end FieldStyle

/-! ## Classes that are declared once -/

/-- The number of classes of a name and a home. -/
def World.count (w : World) (name home : String) : Nat :=
  (w.classes.filter fun r => r.cls.name == name && r.cls.home == home).length

/-- Whether a record is the only one of its class, and stays so whatever is declared
later. -/
structure World.DeclaresOnce (w : World) (r : ClassRecord) : Prop where
  member : r ∈ w.classes
  alone : ∀ other ∈ w.classes, other.cls = r.cls → other = r
  numbered : r.cls.id ≤ w.count r.cls.name r.cls.home

/-- Whether no field of a record is left to settle. -/
def ClassRecord.IsSettled (r : ClassRecord) : Prop :=
  ∀ w : World, w.settleAll r = r

namespace World.DeclaresOnce

variable {w : World} {r q : ClassRecord}

/-- Where all classes are different, each of them is declared once. -/
theorem of_nodup
    (different : (w.classes.map fun r => r.cls).Nodup)
    (member : r ∈ w.classes)
    (numbered : r.cls.id ≤ w.count r.cls.name r.cls.home) :
    w.DeclaresOnce r :=
  ⟨member, fun _ otherMember same => List.inj_on_of_nodup_map different otherMember member same,
    numbered⟩

/-- The record is found. -/
theorem record? (declares : w.DeclaresOnce r) : w.record? r.cls = some r := by
  cases found : w.record? r.cls with
  | none => exact absurd (beq_self_eq_true _) (List.find?_eq_none.mp found r declares.member)
  | some other =>
      have isClass : (other.cls == r.cls) = true :=
        List.find?_some (p := fun other : ClassRecord => other.cls == r.cls) found
      rw [declares.alone other (List.mem_of_find?_eq_some found) (eq_of_beq isClass)]

/-- Putting another record in the place of its old one leaves the record alone. -/
theorem replace
    (declares : w.DeclaresOnce r)
    (keeps : q.cls = r.cls → q = r) :
    (w.replace q).DeclaresOnce r where
  member := by
    refine List.mem_map.mpr ⟨r, declares.member, ?_⟩
    split
    · rename_i same
      exact keeps (eq_of_beq same).symm
    · rfl
  alone other member isClass := by
    obtain ⟨old, oldMember, rfl⟩ := List.mem_map.mp member
    by_cases same : (old.cls == q.cls) = true
    · rw [if_pos same] at isClass ⊢
      exact keeps isClass
    · rw [if_neg same] at isClass ⊢
      exact declares.alone old oldMember isClass
  numbered := by
    have sameClass (old : ClassRecord) : (if old.cls == q.cls then q else old).cls = old.cls := by
      split
      · rename_i same
        exact (eq_of_beq same).symm
      · rfl
    have sameCount (name home : String) : (w.replace q).count name home = w.count name home := by
      rw [World.count, World.count, World.replace, List.filter_map, List.length_map]
      simp only [Function.comp_def, sameClass]
    rw [sameCount]
    exact declares.numbered

/-- Settling a class leaves a record alone that is settled. -/
theorem settle
    (declares : w.DeclaresOnce r)
    (settled : r.IsSettled)
    (c : ClassRef) :
    (w.settle c).DeclaresOnce r := by
  cases c with
  | user u =>
      rw [World.settle]
      cases found : w.record? u with
      | none => exact declares
      | some old =>
          refine declares.replace fun isClass => ?_
          have sameClass : (w.settleAll old).cls = old.cls := by rw [World.settleAll_eq_withBody]
          rw [declares.alone old (List.mem_of_find?_eq_some found) (sameClass.symm.trans isClass)]
          exact settled w
  | builtin b => exact declares
  | sized number home => exact declares

/-- A class that is new leaves a record alone. -/
theorem add
    (declares : w.DeclaresOnce r)
    {name home : String}
    (fresh : q.cls = w.nextClass name home) :
    (w.add q).DeclaresOnce r where
  member := List.mem_append_left _ declares.member
  alone other member isClass := by
    rcases List.mem_append.mp member with old | new
    · exact declares.alone other old isClass
    · have numbered := declares.numbered
      rw [← isClass, List.mem_singleton.mp new, fresh] at numbered
      exact absurd numbered (Nat.not_succ_le_self _)
  numbered := by
    refine declares.numbered.trans ?_
    rw [World.count, World.count, World.add, List.filter_append, List.length_append]
    exact Nat.le_add_right _ _

/-- Settling the class itself changes nothing. -/
theorem settle_self
    (declares : w.DeclaresOnce r)
    (settled : r.IsSettled) :
    w.settle (.user r.cls) = w := by
  have kept (old : ClassRecord) (member : old ∈ w.classes) :
      (if old.cls == r.cls then r else old) = old := by
    split
    · rename_i same
      exact (declares.alone old member (eq_of_beq same)).symm
    · rfl
  rw [World.settle, declares.record?]
  dsimp only
  rw [settled, World.replace, List.map_congr_left kept, List.map_id']

end World.DeclaresOnce

/-- Finding out about types leaves a class declared once that is settled. -/
theorem World.Reaches.declaresOnce
    {w reached : World}
    {r : ClassRecord}
    (reaches : w.Reaches reached)
    (declares : w.DeclaresOnce r)
    (settled : r.IsSettled) :
    reached.DeclaresOnce r := by
  induction reaches with
  | start => exact declares
  | spell key a _ inductionHypothesis =>
      exact ⟨inductionHypothesis.member, inductionHypothesis.alone, inductionHypothesis.numbered⟩
  | @specialise v u q args fields key _ _ inductionHypothesis =>
      have added := inductionHypothesis.add (q := v.specialisation q args fields) rfl
      exact ⟨added.member, added.alone, added.numbered⟩
  | settle c _ inductionHypothesis => exact inductionHypothesis.settle settled c

/-! ## How the classes are read -/

section

variable {w : World} {style : FieldStyle} {c : UserClass} {specs : List FieldSpec}

/-- Nothing is left to settle in the fields of a class. -/
theorem FieldStyle.isSettled_record
    (style : FieldStyle)
    (c : UserClass)
    (specs : List FieldSpec) :
    (style.record c specs).IsSettled := by
  intro w
  have settled (ofName : String → Option TypeForm) (resolved : style ≠ .dataclass) :
      (specs.map (·.field style)).mapM (Field.resolve? ofName) = some (specs.map (·.field style)) := by
    refine mapM_eq_some_iff.mpr (List.forall₂_same.mpr fun f member => ?_)
    obtain ⟨spec, -, rfl⟩ := List.mem_map.mp member
    exact if_pos (bne_iff_ne.mpr resolved)
  unfold World.settleAll
  cases style with
  | dataclass => rfl
  | struct =>
      dsimp only [FieldStyle.record, FieldStyle.body]
      rw [settled _ nofun]
  | model =>
      dsimp only [FieldStyle.record, FieldStyle.body]
      rw [settled _ nofun]

/-- What is known of a class of any style that has fields and nothing else. -/
def fieldsCapabilities (c : UserClass) : Capabilities :=
  { Capabilities.named (.cls (.user c)) (ClassRef.user c).schemaName with
    reader := some (.fields (.user c))
    isReferenceable := (ClassRef.user c).isNominal }

variable (declares : w.DeclaresOnce (style.record c specs))

include declares

theorem World.DeclaresOnce.body : w.body (.user c) = style.body specs := by
  have found := declares.record?
  change w.record? c = some _ at found
  rw [World.body, found]
  rfl

theorem World.DeclaresOnce.lineage : w.lineage (.user c) = .user c :: style.ancestors := by
  have found := declares.record?
  change w.record? c = some _ at found
  rw [World.lineage, found]
  rfl

theorem World.DeclaresOnce.hooks : w.hooks (.user c) = .none := by
  have found := declares.record?
  change w.record? c = some _ at found
  rw [World.hooks, found]
  rfl

omit declares in
/-- Where each element has a result, the list of them has the list of the results. -/
theorem mapM_eq_ok
    {make : α → β}
    {f : β → Except ε γ}
    {result : α → γ}
    {elements : List α}
    (each : ∀ a ∈ elements, f (make a) = .ok (result a)) :
    (elements.map make).mapM f = .ok (elements.map result) := by
  induction elements with
  | nil => rfl
  | cons a rest inductionHypothesis =>
      obtain ⟨isFirst, areRest⟩ := List.forall_mem_cons.mp each
      rw [List.map_cons, List.mapM_cons, isFirst, inductionHypothesis areRest]
      rfl

/-- A class has the plans of its fields, and finding them changes nothing. -/
theorem World.DeclaresOnce.decodingPlans
    (arePlain : ∀ spec ∈ specs, spec.IsPlain) :
    (SchemaProbe.decodingPlans (.user c)).run w = (.ok (specs.map (·.plan style)), w) := by
  have kept := declares.settle_self (FieldStyle.isSettled_record style c specs)
  change w.settle (.user c) = w at kept
  have isBody := declares.body
  have isKey (spec : FieldSpec) (member : spec ∈ specs) (rest : List (Option String)) :
      firstText (some spec.key :: rest) spec.name = spec.key := by
    simp [firstText, (arePlain spec member).key]
  have planned (make : Field → FieldPlan)
      (isPlan : ∀ spec ∈ specs, make (spec.field style) = spec.plan style) :
      ((specs.map (·.field style)).filter fun f => !f.isExcluded).map make =
        specs.map (·.plan style) := by
    rw [List.filter_eq_self.mpr, List.map_map]
    · exact List.map_congr_left isPlan
    · intro f member
      obtain ⟨spec, -, rfl⟩ := List.mem_map.mp member
      rfl
  rw [World.run_decodingPlans, kept, World.isDataclass, isBody, World.isStruct, World.inherits,
    declares.lineage]
  cases style with
  | dataclass =>
      have hints : ((specs.map (·.field .dataclass)).mapM fun f => do pure (f, ← w.hint? f)) =
          Except.ok (specs.map fun spec => (spec.field .dataclass, spec.form)) := by
        refine mapM_eq_ok fun spec member => ?_
        rw [World.hint?, FieldSpec.field]
        dsimp only
        rw [(arePlain spec member).resolved]
        dsimp only
        rw [(arePlain spec member).bare]
        rfl
      have isPlans : w.dataclassPlans? (.user c) = .ok (specs.map (·.plan .dataclass)) := by
        unfold World.dataclassPlans?
        rw [isBody]
        dsimp only [FieldStyle.body]
        rw [hints]
        change Except.ok ((((specs.map fun spec => (spec.field .dataclass, spec.form)).filter _).map
          _)) = _
        rw [List.filter_eq_self.mpr, List.map_map]
        · rfl
        · intro e member
          obtain ⟨spec, -, rfl⟩ := List.mem_map.mp member
          rfl
      rw [isPlans]
      rfl
  | struct =>
      have isPlans : w.structPlans? (.user c) = .ok (specs.map (·.plan .struct)) := by
        unfold World.structPlans? World.inherits
        rw [isBody, declares.lineage]
        refine congrArg Except.ok (planned Field.structPlan fun spec member => ?_)
        exact congrArg (FieldPlan.of _ · _ _) (isKey spec member _)
      rw [isPlans]
      rfl
  | model =>
      have isPlans : w.modelPlans? (.user c) = .ok (specs.map (·.plan .model)) := by
        unfold World.modelPlans?
        rw [isBody]
        refine congrArg Except.ok (planned Field.modelPlan fun spec member => ?_)
        exact congrArg (fun key => FieldPlan.of key key _ _) (isKey spec member _)
      rw [isPlans]
      rfl

/-- What is found out about a class, which changes nothing. -/
theorem World.DeclaresOnce.classCapabilities :
    (SchemaProbe.classCapabilities (.user c)).run w = (.ok (fieldsCapabilities c), w) := by
  have noScalar : w.kind? (.user c) = none := by
    unfold World.kind?
    rw [declares.hooks]
    rfl
  have noDate : w.inherits (.user c) .date = false := by
    rw [World.inherits, declares.lineage]
    cases style <;> rfl
  have isRead : w.reader? (.user c) = some (.fields (.user c)) := by
    rw [World.reader?, declares.hooks, declares.body]
    cases style <;> rfl
  have memberless : w.members? (.user c) = none := by
    unfold World.members?
    rw [declares.body]
    cases style <;> rfl
  have unlisted : (classCases (.user c)).run w = (.ok none, w) := by
    rw [classCases, run_bind_of_ok (run_current w), declares.hooks, memberless]
    rfl
  rw [SchemaProbe.classCapabilities, run_bind_of_ok (run_current w), noScalar, noDate,
    declares.hooks]
  dsimp only
  rw [if_neg Bool.false_ne_true, run_bind_of_ok unlisted, run_bind_of_ok (run_current w), isRead]
  rfl

end

end SchemaProbe

import SchemaProbe.Proofs.Inlining
import SchemaProbe.Proofs.PlainSchema

namespace SchemaProbe

/-!
# Writing schemas of types

Synthesis looks up the types of a tree and builds a schema from what it finds.  A
node is written in a way that shows its type if the nodes below it are: by its
layer, or by a reference to its name, under which the layer is shared then.
-/

/-- Types may declare schemas without parts alone, and no class is decoded by a
program. -/
def Allowance.declaringPlainly : Allowance :=
  ⟨[], fun hook => ∃ header, hook = .declared (.inline header none none none)⟩

/-! ## Building what is known -/

/-- Whether building a known shape writes a schema that shows a type, and what is
shared shows types before and after. -/
structure KnownShape.Writes
    (plain : PlainSynthesis)
    (among : TypeForm → Prop)
    (record : Option Capabilities)
    (known : KnownShape) :
    Prop where
  schema : ∀ σ : Synthesis, σ.registry.Shows plain among →
    (known.build plain.config σ).1.Shows plain record
  registry : ∀ σ : Synthesis, σ.registry.Shows plain among →
    (known.build plain.config σ).2.registry.Shows plain among
  declares : Schema.ArePlain known.declaredSchemas

section

variable {plain : PlainSynthesis} {among : TypeForm → Prop} {record : Option Capabilities}
  {caps : Capabilities}

/-- The schema of a type with its description shows the type if without it the schema
shows the layer of the type without it. -/
theorem Schema.shows_describe
    {header : SchemaHeader}
    {properties : Option (List (String × Schema))}
    {items additional : Option Schema}
    (sameHeader : header = (plain.undescribed caps).header)
    (propertiesShow : ShowsTable plain properties (plain.undescribed caps).properties)
    (itemsShow : ShowsPart plain items (plain.undescribed caps).items)
    (additionalShows : ShowsPart plain additional (plain.undescribed caps).additional) :
    (caps.describe (.inline header properties items additional)).Shows plain (some caps) := by
  unfold Capabilities.describe
  cases described : caps.description with
  | none =>
      have layer : plain.layer (some caps) = plain.undescribed caps := by
        rw [PlainSynthesis.layer, SchemaLayer.describe, described]
      rw [Shows, layer]
      exact ⟨sameHeader, propertiesShow, itemsShow, additionalShows⟩
  | some text =>
      have layer : plain.layer (some caps) =
          { plain.undescribed caps with
            header := { (plain.undescribed caps).header with description := some text } } := by
        rw [PlainSynthesis.layer, SchemaLayer.describe, described]
      change (Schema.inline { header with description := some text } properties items
        additional).Shows plain (some caps)
      rw [Shows, layer, sameHeader]
      exact ⟨rfl, propertiesShow, itemsShow, additionalShows⟩

/-- A node that is done is written in a way that shows its type, and is shared under
the type's name if at all. -/
theorem Synthesis.finish_shows
    {schema : Schema}
    {σ : Synthesis}
    (isKnown : ∃ a, among a ∧ plain.known.bareRecord (some a) = some caps)
    (shows : (caps.describe schema).Shows plain (some caps))
    (shared : σ.registry.Shows plain among) :
    (σ.finish plain.config (some caps) schema).1.Shows plain (some caps) ∧
      (σ.finish plain.config (some caps) schema).2.registry.Shows plain among := by
  obtain ⟨a, isAmong, found⟩ := isKnown
  unfold finish
  dsimp only
  split
  · unfold SchemaRegistry.register
    split
    · rename_i referenceable
      refine ⟨⟨caps, rfl, rfl⟩, fun e member => ?_⟩
      -- An entry was shared before, or it is the one that is shared now.
      rcases Table.mem_or_eq_of_mem_set member with old | rfl
      · exact shared e old
      · exact ⟨a, caps, isAmong, found, rfl, referenceable, shows⟩
    · exact ⟨shows, shared⟩
  · exact ⟨shows, shared⟩

/-- A node without parts is written in a way that shows its type. -/
theorem KnownShape.Writes.ofHeader
    {header : SchemaHeader}
    (isKnown : ∃ a, among a ∧ plain.known.bareRecord (some a) = some caps)
    (layer : plain.undescribed caps = .plain header) :
    (KnownShape.plain (some caps) header).Writes plain among (some caps) := by
  have shows : (caps.describe (.inline header none none none)).Shows plain (some caps) := by
    refine Schema.shows_describe ?_ ?_ ?_ ?_ <;> rw [layer]
    · rfl
    · rfl
    · rfl
    · rfl
  have finishes (σ : Synthesis) (shared : σ.registry.Shows plain among) :=
    Synthesis.finish_shows isKnown shows shared
  refine ⟨fun σ shared => ?_, fun σ shared => ?_, fun _ absent => by cases absent⟩
  · rw [build]
    exact (finishes σ shared).1
  · rw [build]
    exact (finishes σ shared).2

/-- A node that declares a schema without parts is written in a way that shows its
type. -/
theorem KnownShape.Writes.declared
    {header : SchemaHeader}
    (isKnown : ∃ a, among a ∧ plain.known.bareRecord (some a) = some caps)
    (layer : plain.undescribed caps = .plain header) :
    (KnownShape.declared caps (.inline header none none none)).Writes plain among (some caps) := by
  have written := KnownShape.Writes.ofHeader isKnown layer
  refine ⟨written.schema, written.registry, fun schema member => ?_⟩
  obtain rfl := List.mem_singleton.mp member
  unfold Capabilities.describe
  cases caps.description with
  | none => exact ⟨header, rfl⟩
  | some text => exact ⟨{ header with description := some text }, rfl⟩

/-- A node without a type is written as anything at all. -/
theorem KnownShape.Writes.any :
    (KnownShape.plain none .empty).Writes plain among none :=
  ⟨fun _ _ => ⟨rfl, rfl, rfl, rfl⟩, fun _ shared => shared, fun _ absent => by cases absent⟩

/-- A node that refers back is written as a reference by the name, whatever is known
about the node. -/
theorem KnownShape.Writes.back
    (own : Option Capabilities) :
    (KnownShape.back own caps.name).Writes plain among (some caps) := by
  have finishes (σ : Synthesis) : ∃ description,
      (σ.finish plain.config own (.referenceTo caps.name)) =
        (.reference (sharedHome ++ caps.name) description, σ) := by
    cases own with
    | none => exact ⟨none, rfl⟩
    | some other =>
        have described : other.describe (.referenceTo caps.name) =
            .reference (sharedHome ++ caps.name) other.description := by
          unfold Capabilities.describe Schema.referenceTo
          cases other.description <;> rfl
        refine ⟨other.description, ?_⟩
        unfold Synthesis.finish SchemaRegistry.register
        dsimp only
        rw [described]
        split <;> rfl
  refine ⟨fun σ _ => ?_, fun σ shared => ?_, fun _ absent => by cases absent⟩
  · obtain ⟨description, finished⟩ := finishes (σ.referBack caps.name)
    rw [build, finished]
    exact ⟨caps, rfl, rfl⟩
  · obtain ⟨description, finished⟩ := finishes (σ.referBack caps.name)
    rw [build, finished]
    exact shared

/-- An array is written in a way that shows its type if its element is. -/
theorem KnownShape.Writes.array
    {element : KnownShape}
    {item : Option TypeForm}
    (isKnown : ∃ a, among a ∧ plain.known.bareRecord (some a) = some caps)
    (layer : plain.undescribed caps = ⟨.ofType .array, none, some item, none⟩)
    (writes : element.Writes plain among (plain.known.bareRecord item)) :
    (KnownShape.array (some caps) element).Writes plain among (some caps) := by
  have finishes (σ : Synthesis) (shared : σ.registry.Shows plain among) := by
    have shows : (caps.describe (.array (element.build plain.config σ).1)).Shows plain
        (some caps) := by
      refine Schema.shows_describe ?_ ?_ ?_ ?_ <;> rw [layer]
      · rfl
      · exact ⟨item, rfl, writes.schema σ shared⟩
      · rfl
    exact Synthesis.finish_shows isKnown shows (writes.registry σ shared)
  refine ⟨fun σ shared => ?_, fun σ shared => ?_, writes.declares⟩
  · rw [build]
    exact (finishes σ shared).1
  · rw [build]
    exact (finishes σ shared).2

/-- A dictionary is written in a way that shows its type if its values are. -/
theorem KnownShape.Writes.dictionary
    {values : KnownShape}
    {value : Option TypeForm}
    (isKnown : ∃ a, among a ∧ plain.known.bareRecord (some a) = some caps)
    (layer : plain.undescribed caps = ⟨.ofType .object, none, none, some value⟩)
    (writes : values.Writes plain among (plain.known.bareRecord value)) :
    (KnownShape.dictionary (some caps) values).Writes plain among (some caps) := by
  have finishes (σ : Synthesis) (shared : σ.registry.Shows plain among) := by
    have shows : (caps.describe (.dictionary (values.build plain.config σ).1)).Shows plain
        (some caps) := by
      refine Schema.shows_describe ?_ ?_ ?_ ?_ <;> rw [layer]
      · rfl
      · rfl
      · exact ⟨value, rfl, writes.schema σ shared⟩
    exact Synthesis.finish_shows isKnown shows (writes.registry σ shared)
  refine ⟨fun σ shared => ?_, fun σ shared => ?_, writes.declares⟩
  · rw [build]
    exact (finishes σ shared).1
  · rw [build]
    exact (finishes σ shared).2

/-- Whether building known fields writes schemas that show what plans read. -/
def KnownShape.FieldsWrite
    (plain : PlainSynthesis)
    (among : TypeForm → Prop)
    (fields : List (String × Bool × KnownShape))
    (plans : List (String × FieldPlan)) :
    Prop :=
  fields.Forall₂ (fun field e => field.1 = e.1 ∧ field.2.1 = e.2.isOptional ∧
    field.2.2.Writes plain among (plain.known.bareRecord (some e.2.requested))) plans

/-- Properties of known fields are written in a way that shows what plans read, in
the order of the plans, and those are required that the plans require. -/
theorem KnownShape.FieldsWrite.build
    {fields : List (String × Bool × KnownShape)}
    {plans : List (String × FieldPlan)}
    {properties : List (String × Schema)}
    {forms : List (String × Option TypeForm)}
    {σ : Synthesis}
    (write : FieldsWrite plain among fields plans)
    (required : List String)
    (each : Schema.ShowsEach plain properties forms)
    (shared : σ.registry.Shows plain among) :
    Schema.ShowsEach plain (buildFields plain.config fields properties required σ).1.1
        (plans.foldl (fun properties e =>
          Table.set properties (plain.config.keyEncoder.encode e.1) (some e.2.requested)) forms) ∧
      (buildFields plain.config fields properties required σ).1.2 =
        plans.foldl (fun names e =>
          addRequired names (plain.config.keyEncoder.encode e.1) e.2.isOptional) required ∧
      (buildFields plain.config fields properties required σ).2.registry.Shows plain among := by
  induction write generalizing properties forms required σ with
  | nil => exact ⟨each, rfl, shared⟩
  | @cons field e rest more first _ inductionHypothesis =>
      obtain ⟨name, isOptional, known⟩ := field
      obtain ⟨rfl, rfl, writes⟩ := first
      rw [buildFields]
      refine inductionHypothesis _ (Schema.showsEach_iff.mpr ?_) (writes.registry σ shared)
      let shows (schema : Schema) (form : Option TypeForm) : Prop :=
        schema.Shows plain (plain.known.bareRecord form)
      have alike : properties.Forall₂ (fun e f => e.1 = f.1 ∧ shows e.2 f.2) forms :=
        Schema.showsEach_iff.mp each
      exact Table.forall₂_set alike _ (writes.schema σ shared)

/-- The schemas that types of fields declare have no parts. -/
theorem KnownShape.FieldsWrite.declares
    {fields : List (String × Bool × KnownShape)}
    {plans : List (String × FieldPlan)}
    (write : FieldsWrite plain among fields plans) :
    Schema.ArePlain (declaredSchemasAll fields) := by
  induction write with
  | nil =>
      intro schema absent
      cases absent
  | cons first _ inductionHypothesis =>
      intro schema member
      rcases List.mem_append.mp member with own | further
      · exact first.2.2.declares schema own
      · exact inductionHypothesis schema further

/-- An object is written in a way that shows its type if its fields are. -/
theorem KnownShape.Writes.object
    {fields : List (String × Bool × KnownShape)}
    {plans : List (String × FieldPlan)}
    (isKnown : ∃ a, among a ∧ plain.known.bareRecord (some a) = some caps)
    (layer : plain.undescribed caps = .object plain.config plans)
    (write : FieldsWrite plain among fields plans) :
    (KnownShape.object (some caps) fields).Writes plain among (some caps) := by
  have finishes (σ : Synthesis) (shared : σ.registry.Shows plain among) := by
    obtain ⟨properties, required, keeps⟩ :=
      write.build [] (Schema.showsEach_iff.mpr .nil) shared
    have shows : (caps.describe (.object (buildFields plain.config fields [] [] σ).1.1
        (buildFields plain.config fields [] [] σ).1.2)).Shows plain (some caps) := by
      refine Schema.shows_describe ?_ ?_ ?_ ?_ <;> rw [layer]
      · rw [required]
        rfl
      · exact ⟨_, rfl, properties⟩
      · rfl
      · rfl
    exact Synthesis.finish_shows isKnown shows keeps
  refine ⟨fun σ shared => ?_, fun σ shared => ?_, write.declares⟩
  · rw [KnownShape.build]
    exact (finishes σ shared).1
  · rw [KnownShape.build]
    exact (finishes σ shared).2

end

/-! ## Looking up the types of a tree -/

/-- Whether looking up the types of a tree, if they are known, changes nothing and
finds what is written in a way that shows a type. -/
def Shape.Writes
    (plain : PlainSynthesis)
    (among : TypeForm → Prop)
    (s : Store)
    (record : Option Capabilities)
    (shape : Shape) :
    Prop :=
  shape.IsKnown s → ∃ known, (shape.know plain.config none).run s = (.ok known, s) ∧
    known.Writes plain among record

/-- The nodes right below a known one are known. -/
theorem Shape.IsKnown.part
    {s : Store}
    {shape part : Shape}
    (isKnown : shape.IsKnown s)
    (isPart : part ∈ shape.parts) :
    part.IsKnown s := by
  cases isKnown with
  | node _ _ parts => exact parts part isPart

/-- What a state knows already is what a later one knows. -/
theorem Store.GrowsTo.find?_eq
    {s last : Store}
    {a : TypeForm}
    {caps : Capabilities}
    (grows : s.GrowsTo last)
    (isKnown : ((s.registry .current).find? a).isSome)
    (found : (last.registry .current).find? a = some caps) :
    (s.registry .current).find? a = some caps := by
  obtain ⟨own, ownFound⟩ := Option.isSome_iff_exists.mp isKnown
  rw [grows.found a own ownFound] at found
  rw [ownFound, found]

section

variable {plain : PlainSynthesis} {among : TypeForm → Prop} {s : Store}
  {record : Option Capabilities} {caps : Capabilities} {type : TypeForm} {shape : Shape}

/-- A node of a known type that is no date and declares no schema is looked
into. -/
theorem knowNode_of_inner
    {config : SchemaConfig}
    {structural : Option Capabilities → Step Store KnownShape}
    (found : (s.registry .current).find? type = some caps)
    (notDate : caps.isDate = false)
    (undeclared : caps.schema = none) :
    (knowNode config (some type) structural).run s = (structural (some caps)).run s := by
  have isKnown : ∀ a, some type = some a → ((s.registry .current).find? a).isSome := by
    rintro a ⟨rfl⟩
    rw [found]
    rfl
  have isRecord : s.recordOf (some type) = some caps := found
  rw [knowNode_of_known isKnown, isRecord]
  simp only [notDate, undeclared, Bool.false_eq_true, if_false]

/-- Whether a node may be missing does not matter for what it is written as. -/
theorem Shape.Writes.optional
    (writes : shape.Writes plain among s record)
    (isOptional : Bool) :
    (shape.optional isOptional).Writes plain among s record := by
  intro isKnown
  have back : (shape.optional isOptional).optional shape.isOptional = shape := by
    cases shape <;> rfl
  have alike : (shape.optional isOptional).know plain.config none =
      shape.know plain.config none :=
    Shape.know_of_optional_eq (by cases shape <;> rfl) plain.config none
  have shapeKnown := isKnown.optional shape.isOptional
  rw [back] at shapeKnown
  rw [alike]
  exact writes shapeKnown

/-- A node without a type is written as anything at all. -/
theorem Shape.Writes.any : (Shape.any none).Writes plain among s none :=
  fun _ => ⟨_, rfl, .any⟩

section

variable (found : (s.registry .current).find? type = some caps) (notDate : caps.isDate = false)
  (undeclared : caps.schema = none)

include found notDate undeclared

/-- A node that refers back is written as a reference by its type's name. -/
theorem Shape.Writes.back
    {own : Capabilities}
    (sameName : caps.name = own.name) :
    (Shape.back type).Writes plain among s (some own) := by
  intro _
  refine ⟨.back (some caps) own.name, ?_, .back (some caps)⟩
  change (knowNode plain.config (some type) fun record => do
    let caps ← lookup? type
    pure (.back record ((caps.map (·.name)).getD anyName))).run s = _
  rw [knowNode_of_inner found notDate undeclared, Step.run_bind_of_ok (lookup?_of_known found),
    ← sameName]
  rfl

variable (isReached : ∃ a, among a ∧ plain.known.bareRecord (some a) = some caps)

include isReached

/-- A node about which nothing more is known is written as anything at all. -/
theorem Shape.Writes.unconstrained
    (layer : plain.undescribed caps = .plain .empty) :
    (Shape.any (some type)).Writes plain among s (some caps) := by
  intro _
  refine ⟨.plain (some caps) .empty, ?_, .ofHeader isReached layer⟩
  change (knowNode plain.config (some type) fun record => pure (.plain record .empty)).run s = _
  rw [knowNode_of_inner found notDate undeclared]
  rfl

/-- A scalar with cases is written as an enumeration. -/
theorem Shape.Writes.single
    {cases : List Value}
    {kind : PrimitiveKind}
    (layer : plain.undescribed caps = .plain (Schema.enumeration kind.format.1 cases).header) :
    (Shape.single ⟨some type, false, some cases⟩ kind).Writes plain among s (some caps) := by
  intro _
  refine ⟨.plain (some caps) _, ?_, .ofHeader isReached layer⟩
  change (knowNode plain.config (some type) fun record =>
    pure (.plain record (Schema.enumeration kind.format.1 cases).header)).run s = _
  rw [knowNode_of_inner found notDate undeclared]
  rfl

/-- A sequence is written as an array if its elements are written. -/
theorem Shape.Writes.unkeyed
    {element : Shape}
    {item : Option TypeForm}
    (layer : plain.undescribed caps = ⟨.ofType .array, none, some item, none⟩)
    (writes : element.Writes plain among s (plain.known.bareRecord item)) :
    (Shape.unkeyed (.of (some type)) element).Writes plain among s (some caps) := by
  intro isKnown
  obtain ⟨known, ran, shows⟩ := writes (isKnown.part List.mem_cons_self)
  refine ⟨.array (some caps) known, ?_, .array isReached layer shows⟩
  change (knowNode plain.config (some type) fun record => do
    pure (.array record (← element.know plain.config none))).run s = _
  rw [knowNode_of_inner found notDate undeclared, Step.run_bind_of_ok ran]
  rfl

/-- An open node is written as a dictionary if its values are written. -/
theorem Shape.Writes.keyed
    {name : String}
    {values : Shape}
    {value : Option TypeForm}
    (layer : plain.undescribed caps = ⟨.ofType .object, none, none, some value⟩)
    (writes : values.Writes plain among s (plain.known.bareRecord value)) :
    (Shape.keyed (.of (some type)) false [(name, values)]).Writes plain among s (some caps) := by
  intro isKnown
  obtain ⟨known, ran, shows⟩ := writes (isKnown.part List.mem_cons_self)
  refine ⟨.dictionary (some caps) known, ?_, .dictionary isReached layer shows⟩
  change (knowNode plain.config (some type) fun record => do
    pure (.dictionary record (← values.know plain.config none))).run s = _
  rw [knowNode_of_inner found notDate undeclared, Step.run_bind_of_ok ran]
  rfl

end

/-- A type that is not looked into is written as a date, as it declares, or as the
scalar that it is. -/
theorem Shape.Writes.leaf
    (sameWorld : plain.known.world = s.world)
    (typeFound : (s.registry .current).find? caps.type = some caps)
    (isReached : ∃ a, among a ∧ plain.known.bareRecord (some a) = some caps)
    (plainly : ∀ hook, caps.schema = some hook → Allowance.declaringPlainly.schemas hook)
    (noParts : plain.known.entryOf caps = .leaf caps.leaf) :
    caps.leaf.Writes plain among s (some caps) := by
  intro _
  let header : SchemaHeader := (caps.kind.map fun kind => kind.schema.header).getD .empty
  have looksUp : caps.leaf.know plain.config none =
      knowNode plain.config (some caps.type) fun record => pure (.plain record header) := by
    unfold Capabilities.leaf header
    cases caps.kind <;> rfl
  have typeKnown : ∀ b, some caps.type = some b → ((s.registry .current).find? b).isSome := by
    rintro b ⟨rfl⟩
    rw [typeFound]
    rfl
  have isRecord : s.recordOf (some caps.type) = some caps := typeFound
  rw [looksUp, knowNode_of_known typeKnown, isRecord]
  simp only
  cases isDate : caps.isDate with
  | true =>
      refine ⟨_, rfl, .ofHeader isReached ?_⟩
      rw [PlainSynthesis.undescribed, isDate, if_pos rfl, sameWorld]
  | false =>
      simp only [Bool.false_eq_true, if_false]
      cases declares : caps.schema with
      | some hook =>
          obtain ⟨own, rfl⟩ := plainly hook declares
          refine ⟨_, rfl, .declared isReached ?_⟩
          rw [PlainSynthesis.undescribed, isDate, if_neg Bool.false_ne_true, declares]
          rfl
      | none =>
          refine ⟨_, rfl, .ofHeader isReached ?_⟩
          rw [PlainSynthesis.undescribed, isDate, if_neg Bool.false_ne_true, declares, noParts]

/-- Whether the fields of a node are written in a way that shows what plans read. -/
def Shape.FieldsWrite
    (plain : PlainSynthesis)
    (among : TypeForm → Prop)
    (s : Store)
    (fields : List (String × Shape))
    (plans : List (String × FieldPlan)) :
    Prop :=
  fields.Forall₂ (fun field e => field.1 = e.1 ∧ field.2.isOptional = e.2.isOptional ∧
    field.2.Writes plain among s (plain.known.bareRecord (some e.2.requested))) plans

/-- Looking up the types of fields that are known changes nothing. -/
theorem Shape.FieldsWrite.know
    {fields : List (String × Shape)}
    {plans : List (String × FieldPlan)}
    (write : FieldsWrite plain among s fields plans)
    (isKnown : ∀ part ∈ fields.map Prod.snd, part.IsKnown s) :
    ∃ known, (Shape.knowFields plain.config fields).run s = (.ok known, s) ∧
      KnownShape.FieldsWrite plain among known plans := by
  induction write with
  | nil => exact ⟨[], rfl, .nil⟩
  | @cons field e rest more first _ inductionHypothesis =>
      obtain ⟨name, shape⟩ := field
      obtain ⟨sameName, sameOptional, writes⟩ := first
      obtain ⟨known, ran, shows⟩ := writes (isKnown shape List.mem_cons_self)
      obtain ⟨others, othersRan, othersShow⟩ :=
        inductionHypothesis fun part isPart => isKnown part (List.mem_cons_of_mem _ isPart)
      refine ⟨(name, shape.isOptional, known) :: others, ?_,
        .cons ⟨sameName, sameOptional, shows⟩ othersShow⟩
      rw [Shape.knowFields, Step.run_bind_of_ok ran, Step.run_bind_of_ok othersRan]
      rfl

/-- The fields of a record are written in a way that shows its plans if what each
plan reads is. -/
theorem Shape.FieldsWrite.ofPlans
    {plans : List FieldPlan}
    {shapes : List Shape}
    (each : plans.Forall₂ (fun p shape =>
      shape.Writes plain among s (plain.known.bareRecord (some p.requested))) shapes) :
    FieldsWrite plain among s
      ((plans.zip shapes).foldl
        (fun fields e => Table.set fields e.1.key (e.2.optional e.1.isOptional)) [])
      (FieldPlan.byKey plans) := by
  have further (fields : List (String × Shape)) (table : List (String × FieldPlan))
      (write : FieldsWrite plain among s fields table) :
      FieldsWrite plain among s
        ((plans.zip shapes).foldl
          (fun fields e => Table.set fields e.1.key (e.2.optional e.1.isOptional)) fields)
        (plans.foldl (fun fields p => Table.set fields p.key p) table) := by
    induction each generalizing fields table with
    | nil => exact write
    | @cons p shape rest more first _ inductionHypothesis =>
        let writes (shape : Shape) (p : FieldPlan) : Prop :=
          shape.isOptional = p.isOptional ∧
            shape.Writes plain among s (plain.known.bareRecord (some p.requested))
        have alike : fields.Forall₂ (fun e f => e.1 = f.1 ∧ writes e.2 f.2) table := write
        exact inductionHypothesis _ _ (Table.forall₂_set alike p.key
          ⟨Shape.isOptional_optional shape p.isOptional, first.optional p.isOptional⟩)
  exact further [] [] .nil

/-- A node of a record is written as an object if its fields are written. -/
theorem Shape.Writes.fixed
    {fields : List (String × Shape)}
    {plans : List (String × FieldPlan)}
    (found : (s.registry .current).find? type = some caps)
    (notDate : caps.isDate = false)
    (undeclared : caps.schema = none)
    (isReached : ∃ a, among a ∧ plain.known.bareRecord (some a) = some caps)
    (layer : plain.undescribed caps = .object plain.config plans)
    (write : FieldsWrite plain among s fields plans) :
    (Shape.keyed (.of (some type)) true fields).Writes plain among s (some caps) := by
  intro isKnown
  obtain ⟨known, ran, shows⟩ := write.know fun part isPart => isKnown.part isPart
  refine ⟨.object (some caps) known, ?_, .object isReached layer shows⟩
  change (knowNode plain.config (some type) fun record => do
    pure (.object record (← Shape.knowFields plain.config fields))).run s = _
  rw [knowNode_of_inner found notDate undeclared, Step.run_bind_of_ok ran]
  rfl

end

end SchemaProbe

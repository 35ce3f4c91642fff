import SchemaProbe.Proofs.Inlining

namespace SchemaProbe

/-!
# How fields become properties

The name of a field is encoded, and several fields may get one encoded name.  The
last of them says what the property looks like, the first of them where it stands,
and any of them can make it required.  Which schemas are shared, under which names
and in which order does not depend on how names are encoded: encoders that tell the
fields of every node apart give schemas that differ in the encoded names alone.
-/

/-! ## The fields of one object -/

/-- A field of an object, with the schema that was written for it. -/
structure WrittenField where
  name : String
  isOptional : Bool
  schema : Schema

namespace WrittenField

/-- The fields of a node with the schemas that were written for them. -/
def ofFields (fields : List (String × Shape)) (schemas : List Schema) : List WrittenField :=
  List.zipWith (fun field schema => ⟨field.1, field.2.isOptional, schema⟩) fields schemas

end WrittenField

/-- A node that is known to have fields was looked into. -/
theorem knowNode_object
    {config : SchemaConfig}
    {type : Option TypeForm}
    {structural : Option Capabilities → Step Store KnownShape}
    {known : KnownShape}
    {record : Option Capabilities}
    {fields : List (String × Bool × KnownShape)}
    {s found : Store}
    (knows : (knowNode config type structural).run s = (.ok known, found))
    (member : .object record fields ∈ known.nodes) :
    ∃ record between, (structural record).run between = (.ok known, found) := by
  rcases knowNode_returned knows with ⟨record, header, rfl⟩ | ⟨record, schema, rfl⟩ | inside
  · cases List.mem_singleton.mp member
  · cases List.mem_singleton.mp member
  · exact inside

mutual

/-- A node that is known to have fields is a node with fixed fields, which were looked
up. -/
theorem Shape.fields_of_know
    {config : SchemaConfig}
    {given : Option TypeForm}
    {known : KnownShape}
    {record : Option Capabilities}
    {parts : List (String × Bool × KnownShape)}
    {s found : Store}
    (shape : Shape)
    (knows : (shape.know config given).run s = (.ok known, found))
    (member : .object record parts ∈ known.nodes) :
    ∃ h fields start reached, .keyed h true fields ∈ shape :: shape.nodesBelow ∧
      (Shape.knowFields config fields).run start = (.ok parts, reached) := by
  cases shape with
  | single h kind =>
      rw [Shape.know] at knows
      obtain ⟨own, between, inside⟩ := knowNode_object knows member
      cases inside
      cases List.mem_singleton.mp member
  | keyed h isFixed fields =>
      cases isFixed with
      | true =>
          rw [Shape.know] at knows
          obtain ⟨own, between, inside⟩ := knowNode_object knows member
          obtain ⟨all, last, fieldsKnown, result⟩ := Step.run_bind_eq_ok_iff.mp inside
          cases result
          rcases List.mem_append.mp member with isBelow | isOwn
          · obtain ⟨header, names, start, reached, isNode, ran⟩ :=
              Shape.fields_of_knowFields fields fieldsKnown isBelow
            exact ⟨header, names, start, reached, List.mem_cons_of_mem _ isNode, ran⟩
          · cases List.mem_singleton.mp isOwn
            exact ⟨h, fields, between, _, List.mem_cons_self, fieldsKnown⟩
      | false =>
          cases fields with
          | nil =>
              rw [Shape.know] at knows
              obtain ⟨own, between, inside⟩ := knowNode_object knows member
              cases inside
              rcases List.mem_append.mp member with isBelow | isOwn
              · cases List.mem_singleton.mp isBelow
              · cases List.mem_singleton.mp isOwn
          | cons field rest =>
              obtain ⟨name, first⟩ := field
              rw [Shape.know] at knows
              obtain ⟨own, between, inside⟩ := knowNode_object knows member
              obtain ⟨values, last, firstKnown, result⟩ := Step.run_bind_eq_ok_iff.mp inside
              cases result
              rcases List.mem_append.mp member with isBelow | isOwn
              · obtain ⟨header, names, start, reached, isNode, ran⟩ :=
                  Shape.fields_of_know first firstKnown isBelow
                refine ⟨header, names, start, reached, List.mem_cons_of_mem _ ?_, ran⟩
                exact List.mem_append_left _ isNode
              · cases List.mem_singleton.mp isOwn
  | unkeyed h element =>
      rw [Shape.know] at knows
      obtain ⟨own, between, inside⟩ := knowNode_object knows member
      obtain ⟨items, last, elementKnown, result⟩ := Step.run_bind_eq_ok_iff.mp inside
      cases result
      rcases List.mem_append.mp member with isBelow | isOwn
      · obtain ⟨header, names, start, reached, isNode, ran⟩ :=
          Shape.fields_of_know element elementKnown isBelow
        exact ⟨header, names, start, reached, List.mem_cons_of_mem _ isNode, ran⟩
      · cases List.mem_singleton.mp isOwn
  | recursive h marker =>
      rw [Shape.know] at knows
      obtain ⟨own, between, inside⟩ := knowNode_object knows member
      obtain ⟨caps, last, -, result⟩ := Step.run_bind_eq_ok_iff.mp inside
      cases result
      cases List.mem_singleton.mp member
  | unconstrained h =>
      rw [Shape.know] at knows
      obtain ⟨own, between, inside⟩ := knowNode_object knows member
      cases inside
      cases List.mem_singleton.mp member
termination_by structural shape

/-- A node of fields that is known to have fields is a node with fixed fields, which
were looked up. -/
theorem Shape.fields_of_knowFields
    {config : SchemaConfig}
    {known : List (String × Bool × KnownShape)}
    {record : Option Capabilities}
    {parts : List (String × Bool × KnownShape)}
    {s found : Store}
    (fields : List (String × Shape))
    (knows : (Shape.knowFields config fields).run s = (.ok known, found))
    (member : .object record parts ∈ KnownShape.nodesAll known) :
    ∃ h names start reached, .keyed h true names ∈ Shape.nodesBelowAll fields ∧
      (Shape.knowFields config names).run start = (.ok parts, reached) := by
  cases fields with
  | nil =>
      cases knows
      cases member
  | cons field rest =>
      obtain ⟨name, shape⟩ := field
      rw [Shape.knowFields] at knows
      obtain ⟨first, between, firstKnown, continued⟩ := Step.run_bind_eq_ok_iff.mp knows
      obtain ⟨others, last, othersKnown, result⟩ := Step.run_bind_eq_ok_iff.mp continued
      cases result
      rcases List.mem_append.mp member with isFirst | isOther
      · obtain ⟨h, names, start, reached, isNode, ran⟩ :=
          Shape.fields_of_know shape firstKnown isFirst
        exact ⟨h, names, start, reached, List.mem_append_left _ isNode, ran⟩
      · obtain ⟨h, names, start, reached, isNode, ran⟩ :=
          Shape.fields_of_knowFields rest othersKnown isOther
        exact ⟨h, names, start, reached, List.mem_append_right _ isNode, ran⟩
termination_by structural fields

end

/-- Every object in a schema has good properties and required names.  What a type
declared for itself is left out. -/
inductive Schema.ObjectsAre
    (good : List (String × Schema) → Option (List String) → Prop)
    (declared : List Schema) :
    Schema → Prop
  | declared {schema : Schema} : schema ∈ declared → ObjectsAre good declared schema
  | reference (target : String) (description : Option String) :
      ObjectsAre good declared (.reference target description)
  | inline {header : SchemaHeader} {properties : Option (List (String × Schema))}
      {items additional : Option Schema} :
      (∀ table, properties = some table → good table header.required) →
      (∀ table, properties = some table → ∀ e ∈ table, ObjectsAre good declared e.2) →
      (∀ schema, items = some schema → ObjectsAre good declared schema) →
      (∀ schema, additional = some schema → ObjectsAre good declared schema) →
      ObjectsAre good declared (.inline header properties items additional)

/-- When a node is done, its schema is written where it stands, or it is shared and
referred to. -/
theorem Synthesis.finish_cases
    (config : SchemaConfig)
    (record : Option Capabilities)
    (schema : Schema)
    (σ : Synthesis) :
    σ.finish config record schema = (describeBy record schema, σ) ∨
      ∃ name origin, σ.finish config record schema =
        (.referenceTo name,
          { σ with registry :=
              ⟨Table.set σ.registry.schemas name (describeBy record schema),
                Table.set σ.registry.origins name origin⟩ }) := by
  cases record with
  | none => exact .inl rfl
  | some caps =>
      unfold finish
      dsimp only
      split
      · unfold SchemaRegistry.register
        split
        · exact .inr ⟨caps.name, some caps.type, rfl⟩
        · exact .inl rfl
      · exact .inl rfl

/-- What building writes if every object in it is to be good: a good schema, and
nothing but good schemas beside those that were shared before. -/
structure KnownShape.WritesObject
    (good : List (String × Schema) → Option (List String) → Prop)
    (declared : List Schema)
    (σ : Synthesis)
    (result : Schema × Synthesis) :
    Prop where
  schema : result.1.ObjectsAre good declared
  entries : ∀ e ∈ result.2.registry.schemas,
    e ∈ σ.registry.schemas ∨ e.2.ObjectsAre good declared

namespace KnownShape

section Objects

variable {good : List (String × Schema) → Option (List String) → Prop}
variable {declared : List Schema}

/-- A node whose schema is good writes good schemas when it is done. -/
theorem WritesObject.finish
    {config : SchemaConfig}
    {record : Option Capabilities}
    {schema : Schema}
    {σ reached : Synthesis}
    (described : (describeBy record schema).ObjectsAre good declared)
    (entries : ∀ e ∈ reached.registry.schemas,
      e ∈ σ.registry.schemas ∨ e.2.ObjectsAre good declared) :
    WritesObject good declared σ (reached.finish config record schema) := by
  rcases reached.finish_cases config record schema with isWritten | ⟨name, origin, isShared⟩
  · rw [isWritten]
    exact ⟨described, entries⟩
  · rw [isShared]
    refine ⟨.reference _ none, fun e member => ?_⟩
    rcases Table.mem_or_eq_of_mem_set member with old | rfl
    · exact entries e old
    · exact .inr described

/-- A node without properties whose parts are good writes good schemas when it is
done. -/
theorem WritesObject.ofParts
    {config : SchemaConfig}
    {record : Option Capabilities}
    {header : SchemaHeader}
    {items additional : Option Schema}
    {σ reached : Synthesis}
    (itemsAre : ∀ schema, items = some schema → schema.ObjectsAre good declared)
    (additionalAre : ∀ schema, additional = some schema → schema.ObjectsAre good declared)
    (entries : ∀ e ∈ reached.registry.schemas,
      e ∈ σ.registry.schemas ∨ e.2.ObjectsAre good declared) :
    WritesObject good declared σ
      (reached.finish config record (.inline header none items additional)) := by
  obtain ⟨change, inlineIs, -⟩ := describeBy_eq record
  refine .finish ?_ entries
  rw [inlineIs]
  exact .inline (by simp) (by simp) itemsAre additionalAre

/-- Whether the objects of the nodes with fields are good, whatever was shared before
they are built. -/
def ObjectNodesAre
    (good : List (String × Schema) → Option (List String) → Prop)
    (config : SchemaConfig)
    (nodes : List KnownShape) :
    Prop :=
  ∀ record fields, .object record fields ∈ nodes → ∀ σ,
    let parts := (buildFields config fields [] [] σ).1
    good parts.1 (if parts.2.isEmpty then none else some parts.2)

mutual

/-- If the objects of the nodes with fields are good, so is every object that building
writes. -/
theorem build_writes
    (config : SchemaConfig)
    (known : KnownShape)
    (σ : Synthesis)
    (nodesAre : ObjectNodesAre good config known.nodes)
    (declares : known.declaredSchemas ⊆ declared) :
    WritesObject good declared σ (known.build config σ) := by
  cases known with
  | plain record header =>
      rw [build]
      exact .ofParts (fun _ absent => nomatch absent) (fun _ absent => nomatch absent)
        fun _ old => .inl old
  | declared record schema =>
      rw [build]
      exact .finish (.declared (declares (List.mem_singleton_self _))) fun _ old => .inl old
  | back record name =>
      rw [build]
      obtain ⟨change, -, referenceIs⟩ := describeBy_eq record
      refine .finish ?_ fun _ old => .inl old
      rw [Schema.referenceTo, referenceIs]
      exact .reference _ _
  | object record fields =>
      rw [build]
      obtain ⟨properties, entries⟩ :=
        buildFields_writes config fields [] [] σ
          (fun inner parts member => nodesAre inner parts (List.mem_append_left _ member)) declares
          fun _ absent => nomatch absent
      obtain ⟨change, inlineIs, -⟩ := describeBy_eq record
      refine .finish ?_ entries
      rw [Schema.object, inlineIs]
      refine .inline ?_ ?_ (fun _ absent => nomatch absent) fun _ absent => nomatch absent
      · rintro _ ⟨⟩
        exact nodesAre record fields (List.mem_append_right _ (List.mem_singleton_self _)) σ
      · rintro _ ⟨⟩
        exact properties
  | dictionary record values =>
      rw [build]
      obtain ⟨schema, entries⟩ :=
        build_writes config values σ
          (fun inner parts member => nodesAre inner parts (List.mem_append_left _ member)) declares
      refine .ofParts (fun _ absent => nomatch absent) ?_ entries
      rintro _ ⟨⟩
      exact schema
  | array record element =>
      rw [build]
      obtain ⟨schema, entries⟩ :=
        build_writes config element σ
          (fun inner parts member => nodesAre inner parts (List.mem_append_left _ member)) declares
      refine .ofParts ?_ (fun _ absent => nomatch absent) entries
      rintro _ ⟨⟩
      exact schema
termination_by structural known

/-- If the objects of the nodes with fields are good, so is every object that building
fields writes. -/
theorem buildFields_writes
    (config : SchemaConfig)
    (fields : List (String × Bool × KnownShape))
    (properties : List (String × Schema))
    (required : List String)
    (σ : Synthesis)
    (nodesAre : ObjectNodesAre good config (nodesAll fields))
    (declares : declaredSchemasAll fields ⊆ declared)
    (before : ∀ e ∈ properties, e.2.ObjectsAre good declared) :
    (∀ e ∈ (buildFields config fields properties required σ).1.1, e.2.ObjectsAre good declared) ∧
      ∀ e ∈ (buildFields config fields properties required σ).2.registry.schemas,
        e ∈ σ.registry.schemas ∨ e.2.ObjectsAre good declared := by
  cases fields with
  | nil => exact ⟨before, fun _ old => .inl old⟩
  | cons field rest =>
      obtain ⟨name, isOptional, known⟩ := field
      obtain ⟨schema, entries⟩ :=
        build_writes config known σ
          (fun inner parts member => nodesAre inner parts (List.mem_append_left _ member))
          fun _ member => declares (List.mem_append_left _ member)
      rw [buildFields]
      obtain ⟨reachedProperties, reachedEntries⟩ :=
        buildFields_writes config rest
          (Table.set properties (config.keyEncoder.encode name) (known.build config σ).1)
          (addRequired required (config.keyEncoder.encode name) isOptional)
          (known.build config σ).2
          (fun inner parts member => nodesAre inner parts (List.mem_append_right _ member))
          (fun _ member => declares (List.mem_append_right _ member)) fun e member => by
            rcases Table.mem_or_eq_of_mem_set member with old | rfl
            · exact before e old
            · exact schema
      exact ⟨reachedProperties, fun e member => (reachedEntries e member).elim (entries e) .inr⟩
termination_by structural fields

end

end Objects

end KnownShape

/-- Whether an encoder tells some names apart. -/
def KeyEncoder.TellsApart (encoder : KeyEncoder) (names : List String) : Prop :=
  ∀ a ∈ names, ∀ b ∈ names, encoder.encode a = encoder.encode b → a = b

instance (encoder : KeyEncoder) (names : List String) : Decidable (encoder.TellsApart names) :=
  inferInstanceAs (Decidable (∀ a ∈ names, ∀ b ∈ names, encoder.encode a = encoder.encode b → a = b))

/-- Whether two schemas are equal but for how the fields of objects are named.  What a
type declared for itself is the same in both. -/
inductive Schema.Renames
    (first second : String → String)
    (declared : List Schema) :
    Schema → Schema → Prop
  | declared {schema : Schema} :
      schema ∈ declared → Renames first second declared schema schema
  | reference (target : String) (description : Option String) :
      Renames first second declared (.reference target description)
        (.reference target description)
  | plain (header : SchemaHeader) :
      Renames first second declared (.inline header none none none)
        (.inline header none none none)
  | array {header : SchemaHeader} {element other : Schema} :
      Renames first second declared element other →
      Renames first second declared (.inline header none (some element) none)
        (.inline header none (some other) none)
  | dictionary {header : SchemaHeader} {values others : Schema} :
      Renames first second declared values others →
      Renames first second declared (.inline header none none (some values))
        (.inline header none none (some others))
  | object {header : SchemaHeader} {names : Option (List String)}
      {fields : List (String × Schema × Schema)} :
      (fields.map Prod.fst).Nodup →
      (∀ f ∈ fields, Renames first second declared f.2.1 f.2.2) →
      Renames first second declared
        (.inline { header with required := names.map (List.map first) }
          (some (fields.map fun f => (first f.1, f.2.1))) none none)
        (.inline { header with required := names.map (List.map second) }
          (some (fields.map fun f => (second f.1, f.2.2))) none none)

/-- Setting a key of a table changes the table with other names for the keys at the
other name of the key, if all these names are told apart. -/
theorem Table.set_map
    {encode : String → String}
    {fields : List (String × α)}
    {name : String}
    (view : α → β)
    (a : α)
    (apart : ∀ f ∈ fields, encode f.1 = encode name → f.1 = name) :
    Table.set (fields.map fun f => (encode f.1, view f.2)) (encode name) (view a) =
      (Table.set fields name a).map fun f => (encode f.1, view f.2) := by
  have same (f : String × α) (member : f ∈ fields) :
      (encode f.1 == encode name) = (f.1 == name) := by
    rw [Bool.eq_iff_iff, beq_iff_eq, beq_iff_eq]
    exact ⟨apart f member, congrArg encode⟩
  have known : ((fields.map fun f => (encode f.1, view f.2)).any fun e => e.1 == encode name) =
      fields.any fun f => f.1 == name := by
    rw [Bool.eq_iff_iff, List.any_map, List.any_eq_true, List.any_eq_true]
    refine exists_congr fun f => and_congr_right fun member => ?_
    rw [Function.comp_apply, same f member]
  unfold Table.set
  rw [known]
  split
  · rw [List.map_map, List.map_map]
    refine List.map_congr_left fun f member => ?_
    simp only [Function.comp_apply, same f member]
    split <;> rfl
  · rw [List.map_append, List.map_singleton]

/-- One more required name has its other name in the list of other names, if all these
names are told apart. -/
theorem addRequired_map
    {encode : String → String}
    {names : List String}
    {name : String}
    (isOptional : Bool)
    (apart : ∀ other ∈ names, encode other = encode name → other = name) :
    addRequired (names.map encode) (encode name) isOptional =
      (addRequired names name isOptional).map encode := by
  have known : (names.map encode).contains (encode name) = names.contains name := by
    rw [Bool.eq_iff_iff, List.contains_iff_mem, List.contains_iff_mem, List.mem_map]
    constructor
    · rintro ⟨other, member, same⟩
      exact apart other member same ▸ member
    · exact fun member => ⟨name, member, rfl⟩
  unfold addRequired
  rw [known]
  split
  · rfl
  · rw [List.map_append, List.map_singleton]

/-- The configuration with another encoder. -/
def SchemaConfig.naming (config : SchemaConfig) (encoder : KeyEncoder) : SchemaConfig :=
  { config with keyEncoder := encoder }

/-- Whether two shared schemas are equal but for how fields are named, or one schema that
was kept from before. -/
def Schema.RenamesOrKept
    (first second : String → String)
    (declared kept : List Schema)
    (schema other : Schema) :
    Prop :=
  schema.Renames first second declared other ∨ schema = other ∧ schema ∈ kept

/-- Whether two registries share the same names, in the same order and for the same
types, and their schemas are equal but for how the fields of objects are named.
What was kept from before is the same in both. -/
structure SchemaRegistry.Renames
    (first second : String → String)
    (declared kept : List Schema)
    (r other : SchemaRegistry) :
    Prop where
  schemas : r.schemas.Forall₂
    (fun e f => e.1 = f.1 ∧ e.2.RenamesOrKept first second declared kept f.2) other.schemas
  origins : r.origins = other.origins

/-- Whether two states of synthesis are equal but for how the fields of objects are
named. -/
structure Synthesis.Renames
    (first second : String → String)
    (declared kept : List Schema)
    (σ other : Synthesis) :
    Prop where
  registry : σ.registry.Renames first second declared kept other.registry
  recursiveNames : σ.recursiveNames = other.recursiveNames

section Renames

variable {first second : String → String}
variable {declared kept : List Schema}

/-- A schema with other names can be shared if the schema can. -/
theorem Schema.Renames.isReferenceable
    {schema other : Schema}
    (renames : schema.Renames first second declared other) :
    schema.isReferenceable = other.isReferenceable := by
  cases renames <;> rfl

/-- Nodes are done alike if their schemas are equal but for how fields are named. -/
theorem Synthesis.Renames.finish
    {record : Option Capabilities}
    {schema otherSchema : Schema}
    {σ other : Synthesis}
    (renames : σ.Renames first second declared kept other)
    (config : SchemaConfig)
    (encoder : KeyEncoder)
    (described :
      (describeBy record schema).Renames first second declared (describeBy record otherSchema)) :
    let ended := σ.finish config record schema
    let otherEnded := other.finish (config.naming encoder) record otherSchema
    ended.1.Renames first second declared otherEnded.1 ∧
      ended.2.Renames first second declared kept otherEnded.2 := by
  cases record with
  | none => exact ⟨described, renames⟩
  | some caps =>
      have sameNames := renames.recursiveNames
      have sameReferenceable := described.isReferenceable
      change (caps.describe schema).isReferenceable = (caps.describe otherSchema).isReferenceable
        at sameReferenceable
      unfold Synthesis.finish SchemaConfig.naming SchemaRegistry.register
      dsimp only
      rw [← sameNames, ← sameReferenceable]
      split
      · split
        · refine ⟨.reference _ none, ⟨?_, ?_⟩, rfl⟩
          · exact Table.forall₂_set renames.registry.schemas caps.name (.inl described)
          · change Table.set _ _ _ = Table.set _ _ _
            rw [renames.registry.origins]
        · exact ⟨described, renames.registry, rfl⟩
      · exact ⟨described, renames⟩

namespace KnownShape

/-- Whether some fields, each with two schemas, and some required names have told
names, and the schemas are equal but for how fields are named. -/
structure FieldsRename
    (first second : String → String)
    (declared : List Schema)
    (names : List String)
    (fields : List (String × Schema × Schema))
    (required : List String) :
    Prop where
  unique : (fields.map Prod.fst).Nodup
  told : ∀ f ∈ fields, f.1 ∈ names
  demanded : ∀ name ∈ required, name ∈ names
  renames : ∀ f ∈ fields, f.2.1.Renames first second declared f.2.2

/-- No fields and no required names have told names. -/
theorem FieldsRename.nil (names : List String) :
    FieldsRename first second declared names [] [] :=
  ⟨List.nodup_nil, (fun _ absent => nomatch absent), (fun _ absent => nomatch absent),
    fun _ absent => nomatch absent⟩

/-- One more field with a told name may be set, and required. -/
theorem FieldsRename.set
    {names required : List String}
    {fields : List (String × Schema × Schema)}
    {name : String}
    {schema other : Schema}
    (fieldsRename : FieldsRename first second declared names fields required)
    (told : name ∈ names)
    (isOptional : Bool)
    (renames : schema.Renames first second declared other) :
    FieldsRename first second declared names (Table.set fields name (schema, other))
      (addRequired required name isOptional) := by
  refine ⟨Table.nodup_keys_set fieldsRename.unique _ _, fun f member => ?_,
    fun demanded member => ?_, fun f member => ?_⟩
  · rcases Table.mem_or_eq_of_mem_set member with old | rfl
    · exact fieldsRename.told f old
    · exact told
  · unfold addRequired at member
    split at member
    · exact fieldsRename.demanded demanded member
    · rcases List.mem_append.mp member with old | isNew
      · exact fieldsRename.demanded demanded old
      · rw [List.mem_singleton.mp isNew]
        exact told
  · rcases Table.mem_or_eq_of_mem_set member with old | rfl
    · exact fieldsRename.renames f old
    · exact renames

/-- Setting a field sets its property, and its name among the required ones, if the names
are told apart. -/
theorem FieldsRename.set_eq
    {names required : List String}
    {fields : List (String × Schema × Schema)}
    {name : String}
    {encoder : KeyEncoder}
    (fieldsRename : FieldsRename first second declared names fields required)
    (tells : encoder.TellsApart names)
    (told : name ∈ names)
    (isOptional : Bool)
    (view : Schema × Schema → Schema)
    (schemas : Schema × Schema) :
    Table.set (fields.map fun f => (encoder.encode f.1, view f.2)) (encoder.encode name)
          (view schemas) =
        (Table.set fields name schemas).map (fun f => (encoder.encode f.1, view f.2)) ∧
      addRequired (required.map encoder.encode) (encoder.encode name) isOptional =
        (addRequired required name isOptional).map encoder.encode :=
  ⟨Table.set_map view schemas fun f member same =>
      tells f.1 (fieldsRename.told f member) name told same,
    addRequired_map isOptional fun demanded member same =>
      tells demanded (fieldsRename.demanded demanded member) name told same⟩

/-- Objects of such fields are equal but for how the fields are named. -/
theorem FieldsRename.object
    {names required : List String}
    {fields : List (String × Schema × Schema)}
    (fieldsRename : FieldsRename first second declared names fields required)
    (record : Option Capabilities) :
    (describeBy record
      (.object (fields.map fun f => (first f.1, f.2.1)) (required.map first))).Renames first second
        declared
        (describeBy record
          (.object (fields.map fun f => (second f.1, f.2.2)) (required.map second))) := by
  obtain ⟨change, inlineIs, -⟩ := describeBy_eq record
  have written (encode : String → String) :
      (if (required.map encode).isEmpty then none else some (required.map encode)) =
        (if required.isEmpty then none else some required).map (List.map encode) := by
    cases required <;> rfl
  unfold Schema.object
  rw [inlineIs, inlineIs, written first, written second]
  exact @Schema.Renames.object first second declared
    { SchemaHeader.ofType .object with description := change none } _ fields fieldsRename.unique
    fieldsRename.renames

/-- Whether two encoders tell the fields of some nodes apart. -/
def NodesApart (encoder other : KeyEncoder) (nodes : List KnownShape) : Prop :=
  ∀ record fields, .object record fields ∈ nodes →
    encoder.TellsApart (fields.map Prod.fst) ∧ other.TellsApart (fields.map Prod.fst)

mutual

/-- With encoders that tell the fields of all nodes apart, building gives schemas that
are equal but for how fields are named. -/
theorem build_renames
    (config : SchemaConfig)
    (encoder : KeyEncoder)
    (known : KnownShape)
    {σ other : Synthesis}
    (apart : NodesApart config.keyEncoder encoder known.nodes)
    (declares : known.declaredSchemas ⊆ declared)
    (renames : σ.Renames config.keyEncoder.encode encoder.encode declared kept other) :
    let built := known.build config σ
    let otherBuilt := known.build (config.naming encoder) other
    built.1.Renames config.keyEncoder.encode encoder.encode declared otherBuilt.1 ∧
      built.2.Renames config.keyEncoder.encode encoder.encode declared kept otherBuilt.2 := by
  cases known with
  | plain record header =>
      rw [build, build]
      obtain ⟨change, inlineIs, -⟩ := describeBy_eq record
      refine renames.finish config encoder ?_
      rw [inlineIs]
      exact .plain _
  | declared record schema =>
      rw [build, build]
      exact renames.finish config encoder (.declared (declares (List.mem_singleton_self _)))
  | back record name =>
      rw [build, build]
      obtain ⟨change, -, referenceIs⟩ := describeBy_eq record
      have referred : (σ.referBack name).Renames config.keyEncoder.encode encoder.encode declared
          kept (other.referBack name) :=
        ⟨renames.registry, congrArg (· ++ [name]) renames.recursiveNames⟩
      refine referred.finish config encoder ?_
      rw [Schema.referenceTo, referenceIs]
      exact .reference _ _
  | object record fields =>
      rw [build, build]
      obtain ⟨tells, otherTells⟩ :=
        apart record fields (List.mem_append_right _ (List.mem_singleton_self _))
      obtain ⟨later, demanded, fieldsRename, isBuilt, isOther, laterRenames⟩ :=
        buildFields_renames config encoder fields
          (fun inner parts member => apart inner parts (List.mem_append_left _ member)) declares
          tells otherTells (fun _ member => member) (.nil _) renames
      change (buildFields config fields [] [] σ).1 = _ at isBuilt
      change (buildFields (config.naming encoder) fields [] [] other).1 = _ at isOther
      refine laterRenames.finish config encoder ?_
      rw [isBuilt, isOther]
      exact fieldsRename.object record
  | dictionary record values =>
      rw [build, build]
      obtain ⟨schemas, states⟩ :=
        build_renames config encoder values
          (fun inner parts member => apart inner parts (List.mem_append_left _ member)) declares
          renames
      obtain ⟨change, inlineIs, -⟩ := describeBy_eq record
      refine states.finish config encoder ?_
      rw [Schema.dictionary, Schema.dictionary, inlineIs, inlineIs]
      exact .dictionary schemas
  | array record element =>
      rw [build, build]
      obtain ⟨schemas, states⟩ :=
        build_renames config encoder element
          (fun inner parts member => apart inner parts (List.mem_append_left _ member)) declares
          renames
      obtain ⟨change, inlineIs, -⟩ := describeBy_eq record
      refine states.finish config encoder ?_
      rw [Schema.array, Schema.array, inlineIs, inlineIs]
      exact .array schemas
termination_by structural known

/-- With encoders that tell the fields of all nodes apart, building fields gives
properties that are equal but for how fields are named. -/
theorem buildFields_renames
    (config : SchemaConfig)
    (encoder : KeyEncoder)
    (fields : List (String × Bool × KnownShape))
    {names : List String}
    {σ other : Synthesis}
    (apart : NodesApart config.keyEncoder encoder (nodesAll fields))
    (declares : declaredSchemasAll fields ⊆ declared)
    (tells : config.keyEncoder.TellsApart names)
    (otherTells : encoder.TellsApart names)
    (told : ∀ name ∈ fields.map Prod.fst, name ∈ names)
    {before : List (String × Schema × Schema)}
    {required : List String}
    (fieldsRename :
      FieldsRename config.keyEncoder.encode encoder.encode declared names before required)
    (renames : σ.Renames config.keyEncoder.encode encoder.encode declared kept other) :
    let encode := config.keyEncoder.encode
    let built := buildFields config fields (before.map fun f => (encode f.1, f.2.1))
      (required.map encode) σ
    let otherBuilt := buildFields (config.naming encoder) fields
      (before.map fun f => (encoder.encode f.1, f.2.2)) (required.map encoder.encode) other
    ∃ later demanded, FieldsRename encode encoder.encode declared names later demanded ∧
      built.1 = (later.map fun f => (encode f.1, f.2.1), demanded.map encode) ∧
      otherBuilt.1 =
        (later.map fun f => (encoder.encode f.1, f.2.2), demanded.map encoder.encode) ∧
      built.2.Renames encode encoder.encode declared kept otherBuilt.2 := by
  cases fields with
  | nil => exact ⟨before, required, fieldsRename, rfl, rfl, renames⟩
  | cons field rest =>
      obtain ⟨name, isOptional, known⟩ := field
      have isTold : name ∈ names := told name List.mem_cons_self
      obtain ⟨schemas, states⟩ :=
        build_renames config encoder known
          (fun inner parts member => apart inner parts (List.mem_append_left _ member))
          (fun _ member => declares (List.mem_append_left _ member)) renames
      have next :=
        buildFields_renames config encoder rest
          (fun inner parts member => apart inner parts (List.mem_append_right _ member))
          (fun _ member => declares (List.mem_append_right _ member)) tells otherTells
          (fun other member => told other (List.mem_cons_of_mem _ member))
          (fieldsRename.set isTold isOptional schemas) states
      obtain ⟨sets, requires⟩ :=
        fieldsRename.set_eq tells isTold isOptional (·.1)
          ((known.build config σ).1, (known.build (config.naming encoder) other).1)
      obtain ⟨otherSets, otherRequires⟩ :=
        fieldsRename.set_eq otherTells isTold isOptional (·.2)
          ((known.build config σ).1, (known.build (config.naming encoder) other).1)
      dsimp only at next
      rw [← sets, ← requires, ← otherSets, ← otherRequires] at next
      simp only [buildFields]
      exact next
termination_by structural fields

end

end KnownShape

end Renames

/-- With small letters two of three fields get one name: the first of them says where
the property stands, the second one what it looks like, and it is required because the
first one is. -/
example :
    ((synthesize (SchemaConfig.default.naming .lowerCase)
        (.keyed (.of none) true
          [("Size", .single (.of none) .int), ("weight", .single (.of none) .double),
            ("size", .single ⟨none, true, none⟩ .string)])
        none).run (.empty, .initial)).1 =
      .ok (.object [("size", PrimitiveKind.string.schema), ("weight", PrimitiveKind.double.schema)]
        ["size", "weight"]) := by
  rfl

end SchemaProbe

import SchemaProbe.Proofs.KnownShape
import SchemaProbe.Description

namespace SchemaProbe

/-!
# References find what they refer to

A node that refers back to a type writes a reference before anything is shared
under the type's name; the schema is shared when the node of that name further
up is done.  On the way every reference leads to a name that is shared already
or to a pending one: a name that was referred back to and belongs to a node
that is not done.  No name is pending at the end.
-/

/-- Every reference in a schema leads to one of some names, where `follow` gives the
name that a target stands for.  What a type declared for itself is left out. -/
inductive Schema.Resolves
    (follow : String → String)
    (declared : List Schema)
    (names : List String) :
    Schema → Prop
  | declared {schema : Schema} :
      schema ∈ declared → Resolves follow declared names schema
  | reference {target : String} {description : Option String} :
      follow target ∈ names → Resolves follow declared names (.reference target description)
  | inline {header : SchemaHeader} {properties : Option (List (String × Schema))}
      {items additional : Option Schema} :
      (∀ table, properties = some table → ∀ e ∈ table, Resolves follow declared names e.2) →
      (∀ schema, items = some schema → Resolves follow declared names schema) →
      (∀ schema, additional = some schema → Resolves follow declared names schema) →
      Resolves follow declared names (.inline header properties items additional)

/-- Every reference in a shared schema leads to one of some names. -/
def SchemaRegistry.ResolvesIn
    (follow : String → String)
    (declared : List Schema)
    (names : List String)
    (r : SchemaRegistry) :
    Prop :=
  ∀ e ∈ r.schemas, e.2.Resolves follow declared names

/-- Every reference in a shared schema leads to a shared schema. -/
def SchemaRegistry.Resolves
    (follow : String → String)
    (declared : List Schema)
    (r : SchemaRegistry) :
    Prop :=
  r.ResolvesIn follow declared r.names

namespace KnownShape

mutual

/-- Every node that refers back to a name lies below a node with capabilities
of that name. -/
def MarkersBound (above : List String) : KnownShape → Prop
  | .plain _ _ => True
  | .declared _ _ => True
  | .back _ name => name ∈ above
  | .object record fields => MarkersBoundAll ((record.map (·.name)).toList ++ above) fields
  | .dictionary record values => values.MarkersBound ((record.map (·.name)).toList ++ above)
  | .array record element => element.MarkersBound ((record.map (·.name)).toList ++ above)

/-- Every node of the fields that refers back to a name lies below a node with
capabilities of that name. -/
def MarkersBoundAll (above : List String) : List (String × Bool × KnownShape) → Prop
  | [] => True
  | (_, _, known) :: rest => known.MarkersBound above ∧ MarkersBoundAll above rest

end

mutual

/-- The capabilities of the nodes. -/
def records : KnownShape → List Capabilities
  | .plain record _ => record.toList
  | .declared record _ => [record]
  | .back record _ => record.toList
  | .object record fields => record.toList ++ recordsAll fields
  | .dictionary record values => record.toList ++ values.records
  | .array record element => record.toList ++ element.records

/-- The capabilities of the nodes of fields. -/
def recordsAll : List (String × Bool × KnownShape) → List Capabilities
  | [] => []
  | (_, _, known) :: rest => known.records ++ recordsAll rest

end

mutual

/-- The schemas that types of the shape declare for themselves, each with the
type's description. -/
def declaredSchemas : KnownShape → List Schema
  | .plain _ _ => []
  | .declared record schema => [record.describe schema]
  | .back _ _ => []
  | .object _ fields => declaredSchemasAll fields
  | .dictionary _ values => values.declaredSchemas
  | .array _ element => element.declaredSchemas

/-- The schemas that types of the fields declare for themselves. -/
def declaredSchemasAll : List (String × Bool × KnownShape) → List Schema
  | [] => []
  | (_, _, known) :: rest => known.declaredSchemas ++ declaredSchemasAll rest

end

mutual

/-- The names that nodes refer back to. -/
def markers : KnownShape → List String
  | .plain _ _ => []
  | .declared _ _ => []
  | .back _ name => [name]
  | .object _ fields => markersAll fields
  | .dictionary _ values => values.markers
  | .array _ element => element.markers

/-- The names that nodes of fields refer back to. -/
def markersAll : List (String × Bool × KnownShape) → List String
  | [] => []
  | (_, _, known) :: rest => known.markers ++ markersAll rest

end

end KnownShape

/-! ## Names -/

/-- The last segment of a reference by a name without slashes is the name. -/
theorem lastSegment_sharedHome
    {name : String}
    (noSlash : '/' ∉ name.toList) :
    lastSegment (sharedHome ++ name) = name := by
  have home : sharedHome.toList.reverse = '/' :: "#/components/schemas".toList.reverse := by
    decide
  have whole :
      (sharedHome ++ name).toList.reverse.takeWhile (· != '/') = name.toList.reverse := by
    rw [String.toList_append, List.reverse_append, home]
    have kept : ∀ c ∈ name.toList.reverse, (c != '/') = true := by
      intro c member
      have other : c ≠ '/' := by
        rintro rfl
        exact noSlash (List.mem_reverse.mp member)
      simpa using other
    rw [List.takeWhile_append_of_pos kept]
    simp
  unfold lastSegment
  rw [whole, List.reverse_reverse, String.ofList_toList]

/-- What stands behind the place of shared schemas in a target. -/
def sharedName (target : String) : String :=
  String.ofList (target.toList.drop sharedHome.toList.length)

/-- A reference by any name has the name behind the place of shared schemas. -/
theorem sharedName_sharedHome (name : String) : sharedName (sharedHome ++ name) = name := by
  rw [sharedName, String.toList_append, List.drop_left, String.ofList_toList]

namespace Schema.Resolves

/-- A schema whose references lead to some names leads to more names as
well. -/
theorem mono
    {follow : String → String}
    {declared more : List Schema}
    {names others : List String}
    {schema : Schema}
    (resolves : schema.Resolves follow declared names)
    (declaredMore : declared ⊆ more)
    (namesMore : names ⊆ others) :
    schema.Resolves follow more others := by
  induction resolves with
  | declared member => exact .declared (declaredMore member)
  | reference member => exact .reference (namesMore member)
  | inline _ _ _ propertiesIh itemsIh additionalIh =>
      exact .inline propertiesIh itemsIh additionalIh

/-- A schema without parts has no reference. -/
theorem plain
    (follow : String → String)
    (declared : List Schema)
    (names : List String)
    (header : SchemaHeader) :
    (Schema.inline header none none none).Resolves follow declared names :=
  .inline (fun _ absent => nomatch absent) (fun _ absent => nomatch absent)
    fun _ absent => nomatch absent

/-- A reference by a name that can be followed leads to that name. -/
theorem referenceTo
    {follow : String → String}
    {declared : List Schema}
    {names : List String}
    {name : String}
    (followed : follow (sharedHome ++ name) = name)
    (member : name ∈ names) :
    (Schema.referenceTo name).Resolves follow declared names := by
  refine .reference ?_
  rw [followed]
  exact member

end Schema.Resolves

/-! ## Pending names -/

namespace Synthesis

/-- The names that are shared, or will be when the nodes above are done. -/
def promised (above : List String) (σ : Synthesis) : List String :=
  σ.registry.names ++ above.filter σ.recursiveNames.contains

/-- Whether nothing got lost between two states of synthesis. -/
structure GrowsTo (σ later : Synthesis) : Prop where
  names : σ.registry.names ⊆ later.registry.names
  recursiveNames : σ.recursiveNames ⊆ later.recursiveNames

namespace GrowsTo

/-- Nothing gets lost where nothing happens. -/
theorem refl (σ : Synthesis) : σ.GrowsTo σ :=
  ⟨fun _ member => member, fun _ member => member⟩

/-- Nothing gets lost in two steps if nothing does in each. -/
theorem trans
    {σ later last : Synthesis}
    (first : σ.GrowsTo later)
    (second : later.GrowsTo last) :
    σ.GrowsTo last :=
  ⟨fun _ member => second.names (first.names member),
    fun _ member => second.recursiveNames (first.recursiveNames member)⟩

/-- What was promised stays promised. -/
theorem promised
    {σ later : Synthesis}
    (grows : σ.GrowsTo later)
    (above : List String) :
    σ.promised above ⊆ later.promised above := by
  intro name member
  rcases List.mem_append.mp member with shared | pending
  · exact List.mem_append_left _ (grows.names shared)
  · obtain ⟨isAbove, isRecursive⟩ := List.mem_filter.mp pending
    refine List.mem_append_right _ (List.mem_filter.mpr ⟨isAbove, ?_⟩)
    exact List.contains_iff_mem.mpr
      (grows.recursiveNames (List.contains_iff_mem.mp isRecursive))

end GrowsTo

/-- Without nodes above, the promised names are the shared ones. -/
theorem promised_nil (σ : Synthesis) : σ.promised [] = σ.registry.names := by
  simp [promised]

/-- Whether every reference in what is shared leads to a promised name. -/
def Resolves
    (follow : String → String)
    (declared : List Schema)
    (above : List String)
    (σ : Synthesis) :
    Prop :=
  σ.registry.ResolvesIn follow declared (σ.promised above)

end Synthesis

namespace SchemaRegistry

/-- Registering a schema forgets no name. -/
theorem names_subset_register
    (r : SchemaRegistry)
    (name : String)
    (schema : Schema)
    (origin : Option TypeForm) :
    r.names ⊆ (r.register name schema origin).1.names := by
  intro other member
  unfold register
  split
  · exact Table.mem_keys_set_iff.mpr (.inr member)
  · exact member

/-- What can be shared is found under its name. -/
theorem name_mem_register
    (r : SchemaRegistry)
    (name : String)
    {schema : Schema}
    (origin : Option TypeForm)
    (referenceable : schema.isReferenceable = true) :
    name ∈ (r.register name schema origin).1.names := by
  unfold register
  rw [if_pos referenceable]
  exact Table.mem_keys_set_iff.mpr (.inl rfl)

/-- Registering a schema whose references lead to some names keeps that so. -/
theorem ResolvesIn.register
    {follow : String → String}
    {declared : List Schema}
    {names : List String}
    {r : SchemaRegistry}
    {schema : Schema}
    (resolves : r.ResolvesIn follow declared names)
    (schemaResolves : schema.Resolves follow declared names)
    (name : String)
    (origin : Option TypeForm) :
    (r.register name schema origin).1.ResolvesIn follow declared names := by
  unfold SchemaRegistry.register
  split
  · intro e member
    rcases Table.mem_or_eq_of_mem_set member with old | rfl
    · exact resolves e old
    · exact schemaResolves
  · exact resolves

/-- What registering gives back leads to the registered name, or is the schema
itself. -/
theorem register_resolves
    {follow : String → String}
    {declared : List Schema}
    {names : List String}
    {r : SchemaRegistry}
    {name : String}
    {schema : Schema}
    {origin : Option TypeForm}
    (schemaResolves : schema.Resolves follow declared names)
    (followed : follow (sharedHome ++ name) = name)
    (named : schema.isReferenceable = true → name ∈ names) :
    (r.register name schema origin).2.Resolves follow declared names := by
  unfold SchemaRegistry.register
  split
  · rename_i referenceable
    exact .referenceTo followed (named referenceable)
  · exact schemaResolves

end SchemaRegistry

/-- A description does not change whether a schema can be shared. -/
theorem Capabilities.isReferenceable_describe (caps : Capabilities) (schema : Schema) :
    (caps.describe schema).isReferenceable = schema.isReferenceable := by
  unfold Capabilities.describe
  split
  · cases schema <;> rfl
  · rfl

/-- Whether the references directly in a schema, and in its parts, lead to one
of some names. -/
def Schema.PartsResolve
    (follow : String → String)
    (declared : List Schema)
    (names : List String) :
    Schema → Prop
  | .reference target _ => follow target ∈ names
  | .inline _ properties items additional =>
    (∀ table, properties = some table → ∀ e ∈ table, e.2.Resolves follow declared names) ∧
      (∀ schema, items = some schema → schema.Resolves follow declared names) ∧
      ∀ schema, additional = some schema → schema.Resolves follow declared names

/-- A description does not change where references lead. -/
theorem Schema.PartsResolve.describe
    {follow : String → String}
    {declared : List Schema}
    {names : List String}
    {schema : Schema}
    (parts : schema.PartsResolve follow declared names)
    (caps : Capabilities) :
    (caps.describe schema).Resolves follow declared names := by
  unfold Capabilities.describe
  cases schema with
  | reference target description =>
      split <;> exact .reference parts
  | inline header properties items additional =>
      obtain ⟨propertiesResolve, itemsResolve, additionalResolve⟩ := parts
      split <;> exact .inline propertiesResolve itemsResolve additionalResolve

/-- The schema of a node with the description of its type, if it has one. -/
def describeBy (record : Option Capabilities) (schema : Schema) : Schema :=
  match record with
  | some caps => caps.describe schema
  | none => schema

/-- A node's schema leads where its parts lead. -/
theorem Schema.PartsResolve.describeBy
    {follow : String → String}
    {declared : List Schema}
    {names : List String}
    {schema : Schema}
    (parts : schema.PartsResolve follow declared names)
    (record : Option Capabilities) :
    (SchemaProbe.describeBy record schema).Resolves follow declared names := by
  cases record with
  | some caps => exact parts.describe caps
  | none =>
      cases schema with
      | reference target description => exact .reference parts
      | inline header properties items additional => exact .inline parts.1 parts.2.1 parts.2.2

namespace Synthesis

/-- More nodes above promise no less. -/
theorem promised_subset_append (above more : List String) (σ : Synthesis) :
    σ.promised above ⊆ σ.promised (more ++ above) := by
  intro name member
  rcases List.mem_append.mp member with shared | pending
  · exact List.mem_append_left _ shared
  · obtain ⟨isAbove, isRecursive⟩ := List.mem_filter.mp pending
    exact List.mem_append_right _
      (List.mem_filter.mpr ⟨List.mem_append_right _ isAbove, isRecursive⟩)

/-- Nothing gets lost when a node is done. -/
theorem growsTo_finish
    (config : SchemaConfig)
    (record : Option Capabilities)
    (schema : Schema)
    (σ : Synthesis) :
    σ.GrowsTo (σ.finish config record schema).2 := by
  unfold finish
  split
  · exact .refl σ
  · split
    · exact ⟨σ.registry.names_subset_register _ _ _, fun _ member => member⟩
    · exact .refl σ

/-- When a node is done whose schema can be shared, its own name is pending no
more: if something referred back to it, it is shared. -/
theorem promised_subset_finish
    (config : SchemaConfig)
    (record : Option Capabilities)
    {schema : Schema}
    (above : List String)
    (σ : Synthesis)
    (referenceable : schema.isReferenceable = true) :
    σ.promised ((record.map (·.name)).toList ++ above) ⊆
      (σ.finish config record schema).2.promised above := by
  intro name member
  have grows := (growsTo_finish config record schema σ).promised above
  rcases List.mem_append.mp member with shared | pending
  · exact grows (List.mem_append_left _ shared)
  obtain ⟨isAbove, isRecursive⟩ := List.mem_filter.mp pending
  rcases List.mem_append.mp isAbove with isOwn | isFurther
  · cases record with
    | none => simp at isOwn
    | some caps =>
        have named : name = caps.name := by simpa using isOwn
        subst named
        refine List.mem_append_left _ ?_
        simp only [finish, isRecursive, Bool.true_or, if_true]
        refine σ.registry.name_mem_register caps.name (some caps.type) ?_
        rw [caps.isReferenceable_describe, referenceable]
  · exact grows (List.mem_append_right _ (List.mem_filter.mpr ⟨isFurther, isRecursive⟩))

/-- Where references lead when a node is done: what was promised before it has
to be kept. -/
theorem finish_resolves
    {config : SchemaConfig}
    {record : Option Capabilities}
    {schema : Schema}
    {follow : String → String}
    {declared : List Schema}
    {before above : List String}
    {σ : Synthesis}
    (described : (describeBy record schema).Resolves follow declared before)
    (entries : σ.registry.ResolvesIn follow declared before)
    (kept : before ⊆ (σ.finish config record schema).2.promised above)
    (followed : ∀ caps ∈ record.toList, follow (sharedHome ++ caps.name) = caps.name) :
    (σ.finish config record schema).1.Resolves follow declared
        ((σ.finish config record schema).2.promised above) ∧
      (σ.finish config record schema).2.Resolves follow declared above := by
  have entriesKept :
      σ.registry.ResolvesIn follow declared ((σ.finish config record schema).2.promised above) :=
    fun e member => (entries e member).mono (fun _ member => member) kept
  have describedKept := described.mono (fun _ member => member) kept
  cases record with
  | none => exact ⟨describedKept, entriesKept⟩
  | some caps =>
      unfold finish at describedKept entriesKept ⊢
      dsimp only at describedKept entriesKept ⊢
      split at describedKept
      · rename_i isShared
        rw [if_pos isShared] at entriesKept ⊢
        refine ⟨?_, entriesKept.register describedKept caps.name (some caps.type)⟩
        refine SchemaRegistry.register_resolves describedKept (followed caps (by simp)) ?_
        intro referenceable
        exact List.mem_append_left _
          (σ.registry.name_mem_register caps.name (some caps.type) referenceable)
      · rename_i notShared
        rw [if_neg notShared] at entriesKept ⊢
        exact ⟨describedKept, entriesKept⟩

end Synthesis

namespace KnownShape

/-- What building a shape below some nodes guarantees: nothing shared before
gets lost, every reference leads to a promised name, and so does every node
that refers back. -/
structure Settles
    (follow : String → String)
    (declared : List Schema)
    (above markers : List String)
    (σ : Synthesis)
    (result : Schema × Synthesis) :
    Prop where
  grows : σ.GrowsTo result.2
  schema : result.1.Resolves follow declared (result.2.promised above)
  entries : result.2.Resolves follow declared above
  marked : markers ⊆ result.2.promised above

/-- A node without nodes below it settles when it is done. -/
theorem Settles.ofLeaf
    {config : SchemaConfig}
    {record : Option Capabilities}
    {schema : Schema}
    {follow : String → String}
    {declared : List Schema}
    {above markers : List String}
    {σ start : Synthesis}
    (grows : start.GrowsTo σ)
    (described : (describeBy record schema).Resolves follow declared (σ.promised above))
    (entries : σ.Resolves follow declared above)
    (marked : markers ⊆ σ.promised above)
    (followed : ∀ caps ∈ record.toList, follow (sharedHome ++ caps.name) = caps.name) :
    Settles follow declared above markers start (σ.finish config record schema) := by
  have growsFinish := Synthesis.growsTo_finish config record schema σ
  have kept := growsFinish.promised above
  obtain ⟨schemaResolves, entriesResolve⟩ :=
    Synthesis.finish_resolves described entries kept followed
  exact ⟨grows.trans growsFinish, schemaResolves, entriesResolve,
    fun name member => kept (marked member)⟩

/-- A node with nodes below it settles when it is done: its schema can be
shared, so that what is pending under its name is not pending any more. -/
theorem Settles.ofNode
    {config : SchemaConfig}
    {record : Option Capabilities}
    {schema : Schema}
    {follow : String → String}
    {declared : List Schema}
    {above markers : List String}
    {σ start : Synthesis}
    (grows : start.GrowsTo σ)
    (parts : schema.PartsResolve follow declared
      (σ.promised ((record.map (·.name)).toList ++ above)))
    (referenceable : schema.isReferenceable = true)
    (entries : σ.Resolves follow declared ((record.map (·.name)).toList ++ above))
    (marked : markers ⊆ σ.promised ((record.map (·.name)).toList ++ above))
    (followed : ∀ caps ∈ record.toList, follow (sharedHome ++ caps.name) = caps.name) :
    Settles follow declared above markers start (σ.finish config record schema) := by
  have kept := Synthesis.promised_subset_finish config record above σ referenceable
  obtain ⟨schemaResolves, entriesResolve⟩ :=
    Synthesis.finish_resolves (parts.describeBy record) entries kept followed
  exact ⟨grows.trans (Synthesis.growsTo_finish config record schema σ), schemaResolves,
    entriesResolve, fun name member => kept (marked member)⟩

/-- What building fields below some nodes guarantees. -/
structure SettlesAll
    (follow : String → String)
    (declared : List Schema)
    (above markers : List String)
    (σ : Synthesis)
    (result : (List (String × Schema) × List String) × Synthesis) :
    Prop where
  grows : σ.GrowsTo result.2
  properties : ∀ e ∈ result.1.1, e.2.Resolves follow declared (result.2.promised above)
  entries : result.2.Resolves follow declared above
  marked : markers ⊆ result.2.promised above

/-- Names of capabilities that can be followed join those of nodes above. -/
theorem followed_append
    {follow : String → String}
    {record : Option Capabilities}
    {above : List String}
    (ownNames : ∀ caps ∈ record.toList, follow (sharedHome ++ caps.name) = caps.name)
    (aboveNames : ∀ name ∈ above, follow (sharedHome ++ name) = name) :
    ∀ name ∈ (record.map (·.name)).toList ++ above, follow (sharedHome ++ name) = name := by
  intro name member
  rcases List.mem_append.mp member with isOwn | isAbove
  · cases record with
    | none => simp at isOwn
    | some caps =>
        have named : name = caps.name := by simpa using isOwn
        subst named
        exact ownNames caps (by simp)
  · exact aboveNames name isAbove

mutual

/-- Building a shape whose markers are bound settles it. -/
theorem build_settles
    (config : SchemaConfig)
    (known : KnownShape)
    (above : List String)
    (σ : Synthesis)
    {follow : String → String}
    {declared : List Schema}
    (bound : known.MarkersBound above)
    (recordNames : ∀ caps ∈ known.records, follow (sharedHome ++ caps.name) = caps.name)
    (aboveNames : ∀ name ∈ above, follow (sharedHome ++ name) = name)
    (declares : known.declaredSchemas ⊆ declared)
    (entries : σ.Resolves follow declared above) :
    Settles follow declared above known.markers σ (known.build config σ) := by
  cases known with
  | plain record header =>
      rw [build, markers]
      have parts :
          (Schema.inline header none none none).PartsResolve follow declared (σ.promised above) :=
        ⟨(fun _ absent => nomatch absent), (fun _ absent => nomatch absent),
          (fun _ absent => nomatch absent)⟩
      exact .ofLeaf (.refl σ) (parts.describeBy record) entries (List.nil_subset _)
        (by simpa [records] using recordNames)
  | declared record schema =>
      rw [build, markers]
      have described : (describeBy (some record) schema).Resolves follow declared (σ.promised above) :=
        .declared (declares (by simp [declaredSchemas, describeBy]))
      exact .ofLeaf (.refl σ) described entries (List.nil_subset _)
        (by simpa [records] using recordNames)
  | back record name =>
      rw [build, markers]
      have isAbove : name ∈ above := bound
      have grows : σ.GrowsTo (σ.referBack name) :=
        ⟨fun _ member => member, fun _ member => List.mem_append_left _ member⟩
      have isPromised : name ∈ (σ.referBack name).promised above := by
        refine List.mem_append_right _ (List.mem_filter.mpr ⟨isAbove, ?_⟩)
        exact List.contains_iff_mem.mpr (List.mem_append_right _ (by simp))
      have parts :
          (Schema.referenceTo name).PartsResolve follow declared
            ((σ.referBack name).promised above) := by
        change follow (sharedHome ++ name) ∈ _
        rw [aboveNames name isAbove]
        exact isPromised
      have entriesLater : (σ.referBack name).Resolves follow declared above := fun e member =>
        (entries e member).mono (fun _ member => member) (grows.promised above)
      exact .ofLeaf grows (parts.describeBy record) entriesLater
        (by simpa using isPromised) (by simpa [records] using recordNames)
  | object record fields =>
      rw [build, markers]
      have ownNames : ∀ caps ∈ record.toList, follow (sharedHome ++ caps.name) = caps.name :=
        fun caps member => recordNames caps (List.mem_append_left _ member)
      have below :=
        buildFields_settles config fields [] [] ((record.map (·.name)).toList ++ above) σ bound
          (fun caps member => recordNames caps (List.mem_append_right _ member))
          (followed_append ownNames aboveNames) declares
          (fun e member => (entries e member).mono (fun _ member => member)
            (σ.promised_subset_append above _))
          (fun _ absent => nomatch absent)
      refine .ofNode below.grows ⟨?_, (fun _ absent => nomatch absent),
        (fun _ absent => nomatch absent)⟩ rfl below.entries below.marked ownNames
      rintro table ⟨rfl⟩
      exact below.properties
  | dictionary record values =>
      rw [build, markers]
      have ownNames : ∀ caps ∈ record.toList, follow (sharedHome ++ caps.name) = caps.name :=
        fun caps member => recordNames caps (List.mem_append_left _ member)
      have below :=
        build_settles config values ((record.map (·.name)).toList ++ above) σ bound
          (fun caps member => recordNames caps (List.mem_append_right _ member))
          (followed_append ownNames aboveNames) declares
          (fun e member => (entries e member).mono (fun _ member => member)
            (σ.promised_subset_append above _))
      refine .ofNode below.grows ⟨(fun _ absent => nomatch absent),
        (fun _ absent => nomatch absent), ?_⟩ rfl below.entries below.marked ownNames
      rintro schema ⟨rfl⟩
      exact below.schema
  | array record element =>
      rw [build, markers]
      have ownNames : ∀ caps ∈ record.toList, follow (sharedHome ++ caps.name) = caps.name :=
        fun caps member => recordNames caps (List.mem_append_left _ member)
      have below :=
        build_settles config element ((record.map (·.name)).toList ++ above) σ bound
          (fun caps member => recordNames caps (List.mem_append_right _ member))
          (followed_append ownNames aboveNames) declares
          (fun e member => (entries e member).mono (fun _ member => member)
            (σ.promised_subset_append above _))
      refine .ofNode below.grows ⟨(fun _ absent => nomatch absent), ?_,
        (fun _ absent => nomatch absent)⟩ rfl below.entries below.marked ownNames
      rintro schema ⟨rfl⟩
      exact below.schema
termination_by structural known

/-- Building fields whose markers are bound settles them. -/
theorem buildFields_settles
    (config : SchemaConfig)
    (fields : List (String × Bool × KnownShape))
    (properties : List (String × Schema))
    (required above : List String)
    (σ : Synthesis)
    {follow : String → String}
    {declared : List Schema}
    (bound : MarkersBoundAll above fields)
    (recordNames : ∀ caps ∈ recordsAll fields, follow (sharedHome ++ caps.name) = caps.name)
    (aboveNames : ∀ name ∈ above, follow (sharedHome ++ name) = name)
    (declares : declaredSchemasAll fields ⊆ declared)
    (entries : σ.Resolves follow declared above)
    (resolved : ∀ e ∈ properties, e.2.Resolves follow declared (σ.promised above)) :
    SettlesAll follow declared above (markersAll fields) σ
      (buildFields config fields properties required σ) := by
  cases fields with
  | nil => exact ⟨.refl σ, resolved, entries, List.nil_subset _⟩
  | cons field rest =>
      obtain ⟨name, isOptional, known⟩ := field
      rw [buildFields, markersAll]
      obtain ⟨knownBound, restBound⟩ := bound
      have first :=
        build_settles config known above σ knownBound
          (fun caps member => recordNames caps (List.mem_append_left _ member)) aboveNames
          (fun schema member => declares (List.mem_append_left _ member)) entries
      have growsPromised := first.grows.promised above
      have others :=
        buildFields_settles config rest
          (Table.set properties (config.keyEncoder.encode name) (known.build config σ).1)
          (addRequired required (config.keyEncoder.encode name) isOptional) above
          (known.build config σ).2 restBound (fun caps member => recordNames caps (List.mem_append_right _ member))
          aboveNames (fun schema member => declares (List.mem_append_right _ member))
          first.entries (by
            intro e member
            rcases Table.mem_or_eq_of_mem_set member with old | rfl
            · exact (resolved e old).mono (fun _ member => member) growsPromised
            · exact first.schema)
      refine ⟨first.grows.trans others.grows, others.properties, others.entries, ?_⟩
      intro marker member
      rcases List.mem_append.mp member with isFirst | isLater
      · exact others.grows.promised above (first.marked isFirst)
      · exact others.marked isLater
termination_by structural fields

end

/-- Building a shape all of whose markers are bound leaves no reference that leads
nowhere. -/
theorem build_resolves
    {follow : String → String}
    {declared : List Schema}
    {known : KnownShape}
    {registry : SchemaRegistry}
    (config : SchemaConfig)
    (bound : known.MarkersBound [])
    (recordNames : ∀ caps ∈ known.records, follow (sharedHome ++ caps.name) = caps.name)
    (declares : known.declaredSchemas ⊆ declared)
    (resolves : registry.Resolves follow declared) :
    (known.build config ⟨registry, []⟩).1.Resolves follow declared
        (known.build config ⟨registry, []⟩).2.registry.names ∧
      (known.build config ⟨registry, []⟩).2.registry.Resolves follow declared ∧
      known.markers ⊆ (known.build config ⟨registry, []⟩).2.registry.names := by
  have settled :=
    known.build_settles config [] ⟨registry, []⟩ bound recordNames
      (fun _ absent => nomatch absent) declares
      (by rw [Synthesis.Resolves, Synthesis.promised_nil]; exact resolves)
  have entries := settled.entries
  have schemaResolves := settled.schema
  have marked := settled.marked
  rw [Synthesis.Resolves, Synthesis.promised_nil] at entries
  rw [Synthesis.promised_nil] at schemaResolves marked
  exact ⟨schemaResolves, entries, marked⟩

end KnownShape

/-! ## The whole synthesis -/

/-- Synthesis runs on a shape after its start is noted, with nothing referred
back to yet. -/
theorem synthesize_run
    (config : SchemaConfig)
    (shape : Shape)
    (given : Option TypeForm)
    (registry : SchemaRegistry)
    (s : Store) :
    (synthesize config shape given).run (registry, s) =
      let ended := (shape.synthesize config given).run
        (⟨registry, []⟩, s.withEvents (s.events ++ [.synthesisStarted]))
      (ended.1, ended.2.1.registry, ended.2.2) :=
  rfl

/-- Synthesis that returns has looked up every visited type, and what it returns
and shares is built from what it found. -/
theorem synthesize_returned
    {config : SchemaConfig}
    {shape : Shape}
    {given : Option TypeForm}
    {registry reached : SchemaRegistry}
    {s last : Store}
    {schema : Schema}
    (returned : (synthesize config shape given).run (registry, s) = (.ok schema, reached, last)) :
    ∃ known found, (shape.know config given).run s = (.ok known, found) ∧
      (known.build config ⟨registry, []⟩).1 = schema ∧
      (known.build config ⟨registry, []⟩).2.registry = reached := by
  have builtFrom :=
    shape.synthesize_builtFrom config given ⟨registry, []⟩ s (s.events ++ [.synthesisStarted])
  cases found : (shape.know config given).run s with
  | mk outcome final =>
      rw [found] at builtFrom
      cases outcome with
      | ok known =>
          obtain ⟨later, ended⟩ := builtFrom
          rw [synthesize_run, ended] at returned
          simp only [Prod.mk.injEq, Except.ok.injEq] at returned
          exact ⟨known, final, rfl, returned.1, returned.2.1⟩
      | error interrupt =>
          obtain ⟨left, later, ended⟩ := builtFrom
          rw [synthesize_run, ended] at returned
          simp at returned

/-- Synthesis that returns leaves no reference that leads nowhere, if every
node that refers back to a type lies below a node of that type's name. -/
theorem synthesize_resolves
    {config : SchemaConfig}
    {shape : Shape}
    {given : Option TypeForm}
    {registry reached : SchemaRegistry}
    {s last : Store}
    {schema : Schema}
    (returned : (synthesize config shape given).run (registry, s) = (.ok schema, reached, last)) :
    ∃ known found, (shape.know config given).run s = (.ok known, found) ∧
      ∀ declared, known.MarkersBound [] →
        (∀ caps ∈ known.records, '/' ∉ caps.name.toList) →
        known.declaredSchemas ⊆ declared →
        registry.Resolves lastSegment declared →
        schema.Resolves lastSegment declared reached.names ∧
          reached.Resolves lastSegment declared ∧ known.markers ⊆ reached.names := by
  obtain ⟨known, found, knownRun, rfl, rfl⟩ := synthesize_returned returned
  refine ⟨known, found, knownRun, fun declared bound recordNames declares resolves => ?_⟩
  exact KnownShape.build_resolves config bound
    (fun caps member => lastSegment_sharedHome (recordNames caps member)) declares resolves

/-- A class of nodes that have children of their own class. -/
def nodeClass : ClassRef :=
  .user ⟨1, "Node", "shapes"⟩

/-- The shape of a node: its children are nodes again. -/
def nodeShape : Shape :=
  .keyed (.of (some (.cls nodeClass))) true
    [("children",
      .unkeyed (.of (some (.generic (.cls (.builtin .list)) [.cls nodeClass])))
        (.recursive (.of (some (.cls nodeClass))) (.cls nodeClass)))]

/-- The schema of a node is shared, and the items of its children refer to it. -/
theorem synthesize_resolves_node :
    ∃ schema reached last,
      (synthesize .default nodeShape none).run (.empty, .initial) = (.ok schema, reached, last) ∧
        reached.names = ["Node"] ∧ schema.Resolves lastSegment [] reached.names ∧
        reached.Resolves lastSegment [] := by
  refine ⟨_, _, _, rfl, rfl, ?_⟩
  obtain ⟨known, found, knownRun, resolves⟩ :=
    synthesize_resolves
      (rfl : (synthesize .default nodeShape none).run (.empty, .initial) = (.ok _, _, _))
  cases knownRun
  have settled :=
    resolves [] ⟨List.mem_of_elem_eq_true rfl, trivial⟩
      (fun caps member => by
        have plainNames := List.all_eq_true.mp
          (rfl : ((KnownShape.records _).all fun caps => !caps.name.toList.contains '/') = true)
          caps member
        simpa using plainNames)
      (fun _ member => member) (fun _ member => nomatch member)
  exact ⟨settled.1, settled.2.1⟩

end SchemaProbe

import Mathlib.Data.Option.Basic
import SchemaProbe.Proofs.Overwriting
import SchemaProbe.Proofs.Markers

namespace SchemaProbe

/-!
# Sharing loses nothing

With extraction, synthesis writes a reference where it would otherwise write the
schema itself.  Where no node refers back, what is written for a node depends on
what is known about the node alone.  If moreover nodes of one name are known
alike, the registry holds under each name what every node of that name would
have been replaced by, and following all references gives back the schema that is
synthesised without extraction.
-/

/-! ## Following references -/

namespace SchemaRegistry

/-- A schema with every reference replaced by what is shared under its name, to a
depth.  Nothing comes out if the depth is not enough or a name is not shared. -/
def inlineTo (r : SchemaRegistry) : Nat → Schema → Option Schema
  | 0, _ => none
  | depth + 1, .reference target _ =>
    (r.get? (lastSegment target)).bind (r.inlineTo depth)
  | depth + 1, .inline header properties items additional => do
    let table ← properties.mapM fun entries =>
      entries.mapM fun e => (r.inlineTo depth e.2).map fun schema => (e.1, schema)
    let element ← items.mapM (r.inlineTo depth)
    let rest ← additional.mapM (r.inlineTo depth)
    pure (.inline header table element rest)

/-- Whether replacing every reference in a schema, again and again, ends with a
result. -/
def Inlines (r : SchemaRegistry) (schema result : Schema) : Prop :=
  ∃ bound, ∀ depth, bound ≤ depth → r.inlineTo depth schema = some result

namespace Inlines

variable {r : SchemaRegistry}

/-- A reference becomes what its name is shared for becomes. -/
theorem reference
    {target : String}
    {description : Option String}
    {entry result : Schema}
    (found : r.get? (lastSegment target) = some entry)
    (inlines : r.Inlines entry result) :
    r.Inlines (.reference target description) result := by
  obtain ⟨bound, ends⟩ := inlines
  refine ⟨bound + 1, fun depth enough => ?_⟩
  obtain ⟨below, rfl⟩ := Nat.exists_eq_add_of_le' (Nat.le_of_add_left_le enough)
  rw [inlineTo, found]
  exact ends below (Nat.le_of_add_le_add_right enough)

/-- An optional part becomes what the part becomes. -/
theorem part
    {part result : Option Schema}
    (inlines : Option.Rel r.Inlines part result) :
    ∃ bound, ∀ depth, bound ≤ depth → part.mapM (r.inlineTo depth) = some result := by
  cases inlines with
  | none => exact ⟨0, fun _ _ => rfl⟩
  | some partInlines =>
      obtain ⟨bound, ends⟩ := partInlines
      refine ⟨bound, fun depth enough => ?_⟩
      rw [Option.mapM_some, ends depth enough]
      rfl

/-- Entries become what their schemas become, under the same keys. -/
theorem entries
    {table result : List (String × Schema)}
    (inlines : table.Forall₂ (fun e f => e.1 = f.1 ∧ r.Inlines e.2 f.2) result) :
    ∃ bound, ∀ depth, bound ≤ depth →
      (table.mapM fun e => (r.inlineTo depth e.2).map fun schema => (e.1, schema)) =
        some result := by
  induction inlines with
  | nil => exact ⟨0, fun _ _ => rfl⟩
  | cons firstInlines _ inductionHypothesis =>
      obtain ⟨sameKey, firstBound, firstEnds⟩ := firstInlines
      obtain ⟨restBound, restEnds⟩ := inductionHypothesis
      refine ⟨max firstBound restBound, fun depth enough => ?_⟩
      have first := firstEnds depth (Nat.max_le.mp enough).1
      have rest := restEnds depth (Nat.max_le.mp enough).2
      rw [List.mapM_cons, first, rest, sameKey]
      rfl

/-- A schema that is no reference becomes what its parts become. -/
theorem inline
    {properties table : Option (List (String × Schema))}
    {items element additional rest : Option Schema}
    (header : SchemaHeader)
    (propertiesInline :
      Option.Rel (List.Forall₂ fun e f => e.1 = f.1 ∧ r.Inlines e.2 f.2) properties table)
    (itemsInline : Option.Rel r.Inlines items element)
    (additionalInline : Option.Rel r.Inlines additional rest) :
    r.Inlines (.inline header properties items additional) (.inline header table element rest) := by
  obtain ⟨tableBound, tableEnds⟩ :
      ∃ bound, ∀ depth, bound ≤ depth →
        (properties.mapM fun entries =>
          entries.mapM fun e => (r.inlineTo depth e.2).map fun schema => (e.1, schema)) =
          some table := by
    cases propertiesInline with
    | none => exact ⟨0, fun _ _ => rfl⟩
    | some entriesInline =>
        obtain ⟨bound, ends⟩ := entries entriesInline
        refine ⟨bound, fun depth enough => ?_⟩
        rw [Option.mapM_some, ends depth enough]
        rfl
  obtain ⟨elementBound, elementEnds⟩ := part itemsInline
  obtain ⟨restBound, restEnds⟩ := part additionalInline
  refine ⟨max tableBound (max elementBound restBound) + 1, fun depth enough => ?_⟩
  obtain ⟨below, rfl⟩ := Nat.exists_eq_add_of_le' (Nat.le_of_add_left_le enough)
  obtain ⟨forTable, forOthers⟩ := Nat.max_le.mp (Nat.le_of_add_le_add_right enough)
  obtain ⟨forElement, forRest⟩ := Nat.max_le.mp forOthers
  have tableIs := tableEnds below forTable
  have elementIs := elementEnds below forElement
  have restIs := restEnds below forRest
  rw [inlineTo, tableIs, elementIs, restIs]
  rfl

end Inlines

end SchemaRegistry

/-- Whether a schema holds no reference: none may lead to any name. -/
def Schema.IsSelfContained (schema : Schema) : Prop :=
  schema.Resolves lastSegment [] []

/-- A schema without references stays as it is. -/
theorem Schema.IsSelfContained.inlines
    {schema : Schema}
    (selfContained : schema.IsSelfContained)
    (r : SchemaRegistry) :
    r.Inlines schema schema := by
  unfold IsSelfContained at selfContained
  induction selfContained with
  | declared absent => cases absent
  | reference absent => cases absent
  | @inline header properties items additional _ _ _ propertiesIh itemsIh additionalIh =>
      refine .inline header ?_ ?_ ?_
      · cases properties with
        | none => exact .none
        | some table =>
            refine .some (List.forall₂_same.mpr fun e member => ?_)
            exact ⟨rfl, propertiesIh table rfl e member⟩
      · cases items with
        | none => exact .none
        | some element => exact .some (itemsIh element rfl)
      · cases additional with
        | none => exact .none
        | some rest => exact .some (additionalIh rest rfl)

/-! ## What is written for a node -/

namespace KnownShape

/-- What is known about the type of a node. -/
def record : KnownShape → Option Capabilities
  | .plain record _ => record
  | .declared record _ => some record
  | .back record _ => record
  | .object record _ => record
  | .dictionary record _ => record
  | .array record _ => record

mutual

/-- The nodes of a known shape, each behind those below it. -/
def nodes : KnownShape → List KnownShape
  | .object record fields => nodesAll fields ++ [.object record fields]
  | .dictionary record values => values.nodes ++ [.dictionary record values]
  | .array record element => element.nodes ++ [.array record element]
  | known => [known]

/-- The nodes of known fields. -/
def nodesAll : List (String × Bool × KnownShape) → List KnownShape
  | [] => []
  | (_, _, known) :: rest => known.nodes ++ nodesAll rest

end

/-- A known shape is one of its nodes. -/
theorem mem_nodes_self (known : KnownShape) : known ∈ known.nodes := by
  cases known <;> simp [nodes]

/-- What is known about the type of a node is among the records of its shape. -/
theorem record_mem
    (known : KnownShape)
    {caps : Capabilities}
    (member : caps ∈ known.record.toList) :
    caps ∈ known.records := by
  cases known with
  | plain record header => exact member
  | declared record schema => exact member
  | back record name => exact member
  | object record fields => exact List.mem_append_left _ member
  | dictionary record values => exact List.mem_append_left _ member
  | array record element => exact List.mem_append_left _ member

/-- Whether any two nodes with capabilities of one name are equal but for being
optional.  What is known of a node says of each node below it whether that one
may be missing, and says nothing of this about the node itself; nodes of a tree
that are equal but for being optional are looked up alike, by
`Shape.know_of_optional_eq`. -/
def IsCoherent (known : KnownShape) : Prop :=
  ∀ node ∈ known.nodes, ∀ other ∈ known.nodes, ∀ caps ∈ node.record, ∀ others ∈ other.record,
    caps.name = others.name → node = other

end KnownShape

/-- What is written for a node in the schema above it: a reference if the node is
shared, and otherwise its schema. -/
def SchemaConfig.share
    (config : SchemaConfig)
    (record : Option Capabilities)
    (schema : Schema) :
    Schema :=
  match record with
  | some caps =>
    if config.extractsReferences && caps.isReferenceable && schema.isReferenceable then
      .referenceTo caps.name
    else schema
  | none => schema

namespace KnownShape

mutual

/-- The schema of a node itself, with references to the shared ones among the
nodes below it. -/
def ownSchema (config : SchemaConfig) : KnownShape → Schema
  | .plain record header => describeBy record (.inline header none none none)
  | .declared record schema => record.describe schema
  | .back record name => describeBy record (.referenceTo name)
  | .object record fields =>
    let parts := ownFields config fields [] []
    describeBy record (.object parts.1 parts.2)
  | .dictionary record values =>
    describeBy record (.dictionary (config.share values.record (values.ownSchema config)))
  | .array record element =>
    describeBy record (.array (config.share element.record (element.ownSchema config)))

/-- The properties of known fields, with references to the shared ones among
them, and the names that are required. -/
def ownFields
    (config : SchemaConfig) :
    List (String × Bool × KnownShape) → List (String × Schema) → List String →
      List (String × Schema) × List String
  | [], properties, required => (properties, required)
  | (name, isOptional, known) :: rest, properties, required =>
    let key := config.keyEncoder.encode name
    ownFields config rest
      (Table.set properties key (config.share known.record (known.ownSchema config)))
      (addRequired required key isOptional)

end

/-- Whether a node is shared under a name. -/
structure IsSharedAs (config : SchemaConfig) (node : KnownShape) (name : String) : Prop where
  extracts : config.extractsReferences = true
  named : ∃ caps, node.record = some caps ∧ caps.name = name ∧ caps.isReferenceable = true
  referenceable : (node.ownSchema config).isReferenceable = true

/-- What some nodes add to what is shared: each shared node's name, and under each
name the schema of a node that is shared under it. -/
structure Publishes
    (config : SchemaConfig)
    (nodes : List KnownShape)
    (σ later : Synthesis) :
    Prop where
  grows : σ.registry.names ⊆ later.registry.names
  entries : ∀ e ∈ later.registry.schemas, e ∈ σ.registry.schemas ∨
    ∃ node ∈ nodes, node.IsSharedAs config e.1 ∧ e.2 = node.ownSchema config
  shared : ∀ node ∈ nodes, ∀ name, node.IsSharedAs config name → name ∈ later.registry.names
  nothingBack : later.recursiveNames = []

namespace Publishes
/-- Nothing is added without nodes. -/
theorem refl
    {config : SchemaConfig}
    {σ : Synthesis}
    (nothingBack : σ.recursiveNames = []) :
    Publishes config [] σ σ :=
  ⟨fun _ member => member, fun _ member => .inl member, (fun _ absent => nomatch absent),
    nothingBack⟩

/-- Nodes one after the other add what each of them adds. -/
theorem append
    {config : SchemaConfig}
    {nodes others : List KnownShape}
    {σ between later : Synthesis}
    (first : Publishes config nodes σ between)
    (second : Publishes config others between later) :
    Publishes config (nodes ++ others) σ later := by
  refine ⟨fun _ member => second.grows (first.grows member), fun e member => ?_,
    fun node member name isShared => ?_, second.nothingBack⟩
  · rcases second.entries e member with old | ⟨node, isNode, isShared⟩
    · rcases first.entries e old with older | ⟨node, isNode, isShared⟩
      · exact .inl older
      · exact .inr ⟨node, List.mem_append_left _ isNode, isShared⟩
    · exact .inr ⟨node, List.mem_append_right _ isNode, isShared⟩
  · rcases List.mem_append.mp member with isFirst | isSecond
    · exact second.grows (first.shared node isFirst name isShared)
    · exact second.shared node isSecond name isShared

/-- Where nothing refers back, a node that is done adds itself, and what is
written for it is its own schema or a reference to it. -/
theorem finish
    (config : SchemaConfig)
    (node : KnownShape)
    {schema : Schema}
    {σ : Synthesis}
    (nothingBack : σ.recursiveNames = [])
    (isOwn : node.ownSchema config = describeBy node.record schema) :
    (σ.finish config node.record schema).1 = config.share node.record (node.ownSchema config) ∧
      Publishes config [node] σ (σ.finish config node.record schema).2 := by
  cases recordIs : node.record with
  | none =>
      rw [recordIs] at isOwn
      refine ⟨isOwn.symm, fun _ member => member, fun _ member => .inl member,
        fun other member name isShared => ?_, nothingBack⟩
      obtain rfl := List.mem_singleton.mp member
      obtain ⟨caps, isCaps, -⟩ := isShared.named
      rw [recordIs] at isCaps
      cases isCaps
  | some caps =>
      rw [recordIs] at isOwn
      change node.ownSchema config = caps.describe schema at isOwn
      unfold Synthesis.finish SchemaConfig.share
      simp only [nothingBack, List.contains_nil, Bool.false_or, isOwn, Bool.and_eq_true]
      by_cases canShare : config.extractsReferences = true ∧ caps.isReferenceable = true
      · rw [if_pos canShare]
        unfold SchemaRegistry.register
        by_cases referenceable : (caps.describe schema).isReferenceable = true
        · rw [if_pos referenceable, if_pos ⟨canShare, referenceable⟩]
          have isShared : node.IsSharedAs config caps.name :=
            ⟨canShare.1, ⟨caps, recordIs, rfl, canShare.2⟩, by rw [isOwn]; exact referenceable⟩
          refine ⟨rfl, fun name member => Table.mem_keys_set_iff.mpr (.inr member),
            fun e member => ?_, fun other member name otherShared => ?_, rfl⟩
          · rcases Table.mem_or_eq_of_mem_set member with old | rfl
            · exact .inl old
            · exact .inr ⟨node, List.mem_singleton_self node, isShared, isOwn.symm⟩
          · obtain rfl := List.mem_singleton.mp member
            obtain ⟨others, isOthers, rfl, -⟩ := otherShared.named
            rw [recordIs] at isOthers
            cases isOthers
            exact Table.mem_keys_set_iff.mpr (.inl rfl)
        · rw [if_neg referenceable, if_neg fun both => referenceable both.2]
          refine ⟨rfl, fun _ member => member, fun _ member => .inl member,
            fun other member name isShared => ?_, rfl⟩
          obtain rfl := List.mem_singleton.mp member
          exact absurd (isOwn ▸ isShared.referenceable) referenceable
      · rw [if_neg canShare, if_neg fun both => canShare both.1]
        refine ⟨rfl, fun _ member => member, fun _ member => .inl member,
          fun other member name isShared => ?_, nothingBack⟩
        obtain rfl := List.mem_singleton.mp member
        obtain ⟨others, isOthers, -, isReferenceable⟩ := isShared.named
        rw [recordIs] at isOthers
        cases isOthers
        exact absurd ⟨isShared.extracts, isReferenceable⟩ canShare

end Publishes

mutual

/-- Where no node refers back, building writes for a shape what it writes for it
by itself, and shares each node by itself. -/
theorem build_publishes
    (config : SchemaConfig)
    (known : KnownShape)
    (σ : Synthesis)
    (noMarkers : known.markers = [])
    (nothingBack : σ.recursiveNames = []) :
    (known.build config σ).1 = config.share known.record (known.ownSchema config) ∧
      Publishes config known.nodes σ (known.build config σ).2 := by
  cases known with
  | plain record header =>
      rw [build]
      exact Publishes.finish config (.plain record header) nothingBack (by rw [ownSchema]; rfl)
  | declared record schema =>
      rw [build]
      exact Publishes.finish config (.declared record schema) nothingBack (by rw [ownSchema]; rfl)
  | back record name => simp [markers] at noMarkers
  | object record fields =>
      rw [markers] at noMarkers
      obtain ⟨sameParts, below⟩ := buildFields_publishes config fields [] [] σ noMarkers nothingBack
      rw [build, nodes]
      cases built : buildFields config fields [] [] σ with
      | mk result reached =>
          rw [built] at sameParts below
          subst sameParts
          obtain ⟨sameSchema, own⟩ :=
            Publishes.finish config (.object record fields) below.nothingBack (by rw [ownSchema]; rfl)
          exact ⟨sameSchema, below.append own⟩
  | dictionary record values =>
      rw [markers] at noMarkers
      obtain ⟨sameValues, below⟩ := build_publishes config values σ noMarkers nothingBack
      rw [build, nodes]
      cases built : build config values σ with
      | mk result reached =>
          rw [built] at sameValues below
          subst sameValues
          obtain ⟨sameSchema, own⟩ :=
            Publishes.finish config (.dictionary record values) below.nothingBack
              (by rw [ownSchema]; rfl)
          exact ⟨sameSchema, below.append own⟩
  | array record element =>
      rw [markers] at noMarkers
      obtain ⟨sameElement, below⟩ := build_publishes config element σ noMarkers nothingBack
      rw [build, nodes]
      cases built : build config element σ with
      | mk result reached =>
          rw [built] at sameElement below
          subst sameElement
          obtain ⟨sameSchema, own⟩ :=
            Publishes.finish config (.array record element) below.nothingBack (by rw [ownSchema]; rfl)
          exact ⟨sameSchema, below.append own⟩
termination_by structural known

/-- Where no node refers back, building fields writes for each what it writes for
it by itself, and shares each node by itself. -/
theorem buildFields_publishes
    (config : SchemaConfig)
    (fields : List (String × Bool × KnownShape))
    (properties : List (String × Schema))
    (required : List String)
    (σ : Synthesis)
    (noMarkers : markersAll fields = [])
    (nothingBack : σ.recursiveNames = []) :
    (buildFields config fields properties required σ).1 =
        ownFields config fields properties required ∧
      Publishes config (nodesAll fields) σ (buildFields config fields properties required σ).2 := by
  cases fields with
  | nil => exact ⟨rfl, .refl nothingBack⟩
  | cons field rest =>
      obtain ⟨name, isOptional, known⟩ := field
      rw [markersAll, List.append_eq_nil_iff] at noMarkers
      obtain ⟨sameFirst, first⟩ := build_publishes config known σ noMarkers.1 nothingBack
      rw [buildFields, ownFields, nodesAll]
      cases built : build config known σ with
      | mk schema reached =>
          rw [built] at sameFirst first
          subst sameFirst
          obtain ⟨sameRest, others⟩ :=
            buildFields_publishes config rest
              (Table.set properties (config.keyEncoder.encode name)
                (config.share known.record (known.ownSchema config)))
              (addRequired required (config.keyEncoder.encode name) isOptional)
              reached noMarkers.2 first.nothingBack
          exact ⟨sameRest, first.append others⟩
termination_by structural fields

end

/-- A description is added to the header of a schema, or to a reference, whatever the
other parts are. -/
theorem describeBy_eq (record : Option Capabilities) :
    ∃ change : Option String → Option String,
      (∀ header properties items additional,
        describeBy record (.inline header properties items additional) =
          .inline { header with description := change header.description } properties items
            additional) ∧
      ∀ target description,
        describeBy record (.reference target description) =
          .reference target (change description) := by
  cases record with
  | none => exact ⟨id, fun _ _ _ _ => rfl, fun _ _ => rfl⟩
  | some caps =>
      cases description : caps.description with
      | none =>
          refine ⟨id, fun _ _ _ _ => ?_, fun _ _ => ?_⟩ <;>
            simp only [describeBy, Capabilities.describe, description, id_eq]
      | some text =>
          refine ⟨fun _ => some text, fun _ _ _ _ => ?_, fun _ _ => ?_⟩ <;>
            simp only [describeBy, Capabilities.describe, description, Schema.withDescription]

/-- A description is added to the header of a schema, whatever its parts are. -/
theorem describeBy_inline (record : Option Capabilities) (header : SchemaHeader) :
    ∃ described, ∀ properties items additional,
      describeBy record (.inline header properties items additional) =
        .inline described properties items additional := by
  obtain ⟨change, inlineIs, -⟩ := describeBy_eq record
  exact ⟨_, inlineIs header⟩

section Following

variable {r : SchemaRegistry} {config plain : SchemaConfig}

/-- What is written for a node becomes what the node's own schema becomes, if that
is what is shared under its name. -/
theorem share_inlines
    {node : KnownShape}
    {result : Schema}
    (holds : ∀ name, node.IsSharedAs config name → r.get? name = some (node.ownSchema config))
    (followed : ∀ caps ∈ node.record.toList, '/' ∉ caps.name.toList)
    (inlines : r.Inlines (node.ownSchema config) result) :
    r.Inlines (config.share node.record (node.ownSchema config)) result := by
  unfold SchemaConfig.share
  cases recordIs : node.record with
  | none => exact inlines
  | some caps =>
      dsimp only
      split
      · rename_i isShared
        rw [Bool.and_eq_true, Bool.and_eq_true] at isShared
        obtain ⟨⟨extracts, isReferenceable⟩, referenceable⟩ := isShared
        have noSlash := followed caps (by rw [recordIs]; exact List.mem_singleton_self caps)
        have entry := holds caps.name ⟨extracts, ⟨caps, recordIs, rfl, isReferenceable⟩, referenceable⟩
        refine .reference ?_ inlines
        rw [lastSegment_sharedHome noSlash]
        exact entry
      · exact inlines

/-- Without extraction a node's own schema is written for it. -/
theorem share_of_not_extracts
    (noExtraction : plain.extractsReferences = false)
    (record : Option Capabilities)
    (schema : Schema) :
    plain.share record schema = schema := by
  unfold SchemaConfig.share
  rw [noExtraction]
  cases record <;> rfl

mutual

/-- If under the name of each shared node its own schema is shared, following the
references in a node's own schema gives its schema without extraction. -/
theorem ownSchema_inlines
    (sameKeys : config.keyEncoder = plain.keyEncoder)
    (noExtraction : plain.extractsReferences = false)
    (known : KnownShape)
    (noMarkers : known.markers = [])
    (followed : ∀ caps ∈ known.records, '/' ∉ caps.name.toList)
    (selfContained : ∀ schema ∈ known.declaredSchemas, schema.IsSelfContained)
    (holds : ∀ node ∈ known.nodes, ∀ name, node.IsSharedAs config name →
      r.get? name = some (node.ownSchema config)) :
    r.Inlines (known.ownSchema config) (known.ownSchema plain) := by
  cases known with
  | plain record header =>
      rw [ownSchema, ownSchema]
      obtain ⟨described, isDescribed⟩ := describeBy_inline record header
      rw [isDescribed]
      exact .inline described .none .none .none
  | declared record schema =>
      rw [ownSchema, ownSchema]
      exact (selfContained _ (by simp [declaredSchemas])).inlines r
  | back record name => simp [markers] at noMarkers
  | object record fields =>
      rw [ownSchema, ownSchema]
      obtain ⟨sameRequired, propertiesInline⟩ :=
        ownFields_inlines sameKeys noExtraction fields [] [] [] noMarkers
          (fun caps member => followed caps (List.mem_append_right _ member)) selfContained
          (fun node member => holds node (List.mem_append_left _ member)) .nil
      unfold Schema.object
      rw [sameRequired]
      obtain ⟨described, isDescribed⟩ := describeBy_inline record _
      rw [isDescribed, isDescribed]
      exact .inline described (.some propertiesInline) .none .none
  | dictionary record values =>
      rw [ownSchema, ownSchema, share_of_not_extracts noExtraction]
      have inlines :=
        ownSchema_inlines sameKeys noExtraction values noMarkers
          (fun caps member => followed caps (List.mem_append_right _ member)) selfContained
          (fun node member => holds node (List.mem_append_left _ member))
      have valuesInline :=
        share_inlines (holds values (List.mem_append_left _ values.mem_nodes_self))
          (fun caps member => followed caps (List.mem_append_right _ (values.record_mem member)))
          inlines
      unfold Schema.dictionary
      obtain ⟨described, isDescribed⟩ := describeBy_inline record _
      rw [isDescribed, isDescribed]
      exact .inline described .none .none (.some valuesInline)
  | array record element =>
      rw [ownSchema, ownSchema, share_of_not_extracts noExtraction]
      have inlines :=
        ownSchema_inlines sameKeys noExtraction element noMarkers
          (fun caps member => followed caps (List.mem_append_right _ member)) selfContained
          (fun node member => holds node (List.mem_append_left _ member))
      have elementInlines :=
        share_inlines (holds element (List.mem_append_left _ element.mem_nodes_self))
          (fun caps member => followed caps (List.mem_append_right _ (element.record_mem member)))
          inlines
      unfold Schema.array
      obtain ⟨described, isDescribed⟩ := describeBy_inline record _
      rw [isDescribed, isDescribed]
      exact .inline described .none (.some elementInlines) .none
termination_by structural known

/-- If under the name of each shared node its own schema is shared, following the
references in the properties of fields gives their properties without
extraction; the same properties are required. -/
theorem ownFields_inlines
    (sameKeys : config.keyEncoder = plain.keyEncoder)
    (noExtraction : plain.extractsReferences = false)
    (fields : List (String × Bool × KnownShape))
    (properties table : List (String × Schema))
    (required : List String)
    (noMarkers : markersAll fields = [])
    (followed : ∀ caps ∈ recordsAll fields, '/' ∉ caps.name.toList)
    (selfContained : ∀ schema ∈ declaredSchemasAll fields, schema.IsSelfContained)
    (holds : ∀ node ∈ nodesAll fields, ∀ name, node.IsSharedAs config name →
      r.get? name = some (node.ownSchema config))
    (inlines : properties.Forall₂ (fun e f => e.1 = f.1 ∧ r.Inlines e.2 f.2) table) :
    (ownFields config fields properties required).2 = (ownFields plain fields table required).2 ∧
      (ownFields config fields properties required).1.Forall₂
        (fun e f => e.1 = f.1 ∧ r.Inlines e.2 f.2) (ownFields plain fields table required).1 := by
  cases fields with
  | nil => exact ⟨rfl, inlines⟩
  | cons field rest =>
      obtain ⟨name, isOptional, known⟩ := field
      rw [markersAll, List.append_eq_nil_iff] at noMarkers
      have first :=
        ownSchema_inlines sameKeys noExtraction known noMarkers.1
          (fun caps member => followed caps (List.mem_append_left _ member))
          (fun schema member => selfContained schema (List.mem_append_left _ member))
          (fun node member => holds node (List.mem_append_left _ member))
      have firstInlines :=
        share_inlines (holds known (List.mem_append_left _ known.mem_nodes_self))
          (fun caps member => followed caps (List.mem_append_left _ (known.record_mem member))) first
      rw [ownFields, ownFields, share_of_not_extracts noExtraction, sameKeys]
      exact ownFields_inlines sameKeys noExtraction rest _ _ _ noMarkers.2
        (fun caps member => followed caps (List.mem_append_right _ member))
        (fun schema member => selfContained schema (List.mem_append_right _ member))
        (fun node member => holds node (List.mem_append_right _ member))
        (Table.forall₂_set inlines _ firstInlines)
termination_by structural fields

end

end Following

end KnownShape

/-! ## Both ways of synthesis -/

/-- A node that is looked up is a date, or it has the schema that its type declares,
or it is looked into. -/
theorem knowNode_returned
    {config : SchemaConfig}
    {type : Option TypeForm}
    {structural : Option Capabilities → Step Store KnownShape}
    {known : KnownShape}
    {s found : Store}
    (knows : (knowNode config type structural).run s = (.ok known, found)) :
    (∃ record header, known = .plain record header) ∨
      (∃ record schema, known = .declared record schema) ∨
      ∃ record between, (structural record).run between = (.ok known, found) := by
  obtain ⟨record, between, -, continued⟩ := Step.run_bind_eq_ok_iff.mp knows
  cases record with
  | none => exact .inr (.inr ⟨none, between, continued⟩)
  | some caps =>
      dsimp only at continued
      split at continued
      · cases continued
        exact .inl ⟨some caps, _, rfl⟩
      · split at continued
        · obtain ⟨schema, last, -, result⟩ := Step.run_bind_eq_ok_iff.mp continued
          cases result
          exact .inr (.inl ⟨caps, schema, rfl⟩)
        · exact .inr (.inr ⟨some caps, between, continued⟩)

/-- A node that is looked up is a leaf by its type, or it is looked into. -/
theorem knowNode_eq_ok
    {config : SchemaConfig}
    {type : Option TypeForm}
    {structural : Option Capabilities → Step Store KnownShape}
    {known : KnownShape}
    {s found : Store}
    (knows : (knowNode config type structural).run s = (.ok known, found)) :
    known.markers = [] ∨ ∃ record between, (structural record).run between = (.ok known, found) := by
  rcases knowNode_returned knows with ⟨record, header, rfl⟩ | ⟨record, schema, rfl⟩ | inside
  · exact .inl rfl
  · exact .inl rfl
  · exact .inr inside

mutual

/-- Where no node of a tree refers back, none is known to. -/
theorem Shape.markers_of_know
    {config : SchemaConfig}
    {given : Option TypeForm}
    (shape : Shape)
    {known : KnownShape}
    {s found : Store}
    (knows : (shape.know config given).run s = (.ok known, found))
    (acyclic : shape.hasRecursive = false) :
    known.markers = [] := by
  cases shape with
  | single h kind =>
      rw [Shape.know] at knows
      rcases knowNode_eq_ok knows with leaf | ⟨record, between, inside⟩
      · exact leaf
      · cases inside
        rfl
  | keyed h isFixed fields =>
      rw [Shape.hasRecursive] at acyclic
      cases isFixed with
      | true =>
          rw [Shape.know] at knows
          rcases knowNode_eq_ok knows with leaf | ⟨record, between, inside⟩
          · exact leaf
          · obtain ⟨parts, last, partsKnown, result⟩ := Step.run_bind_eq_ok_iff.mp inside
            cases result
            exact Shape.markersAll_of_knowFields fields partsKnown acyclic
      | false =>
          cases fields with
          | nil =>
              rw [Shape.know] at knows
              rcases knowNode_eq_ok knows with leaf | ⟨record, between, inside⟩
              · exact leaf
              · cases inside
                rfl
          | cons field rest =>
              obtain ⟨name, first⟩ := field
              rw [Shape.anyRecursive, Bool.or_eq_false_iff] at acyclic
              rw [Shape.know] at knows
              rcases knowNode_eq_ok knows with leaf | ⟨record, between, inside⟩
              · exact leaf
              · obtain ⟨part, last, partKnown, result⟩ := Step.run_bind_eq_ok_iff.mp inside
                cases result
                change part.markers = []
                exact Shape.markers_of_know first partKnown acyclic.1
  | unkeyed h element =>
      rw [Shape.hasRecursive] at acyclic
      rw [Shape.know] at knows
      rcases knowNode_eq_ok knows with leaf | ⟨record, between, inside⟩
      · exact leaf
      · obtain ⟨part, last, partKnown, result⟩ := Step.run_bind_eq_ok_iff.mp inside
        cases result
        change part.markers = []
        exact Shape.markers_of_know element partKnown acyclic
  | recursive h marker => simp [Shape.hasRecursive] at acyclic
  | unconstrained h =>
      rw [Shape.know] at knows
      rcases knowNode_eq_ok knows with leaf | ⟨record, between, inside⟩
      · exact leaf
      · cases inside
        rfl
termination_by structural shape

/-- Where no node of fields refers back, none is known to. -/
theorem Shape.markersAll_of_knowFields
    {config : SchemaConfig}
    (fields : List (String × Shape))
    {known : List (String × Bool × KnownShape)}
    {s found : Store}
    (knows : (Shape.knowFields config fields).run s = (.ok known, found))
    (acyclic : Shape.anyRecursive fields = false) :
    KnownShape.markersAll known = [] := by
  cases fields with
  | nil =>
      cases knows
      rfl
  | cons field rest =>
      obtain ⟨name, shape⟩ := field
      rw [Shape.anyRecursive, Bool.or_eq_false_iff] at acyclic
      rw [Shape.knowFields] at knows
      obtain ⟨first, between, firstKnown, continued⟩ := Step.run_bind_eq_ok_iff.mp knows
      obtain ⟨others, last, othersKnown, result⟩ := Step.run_bind_eq_ok_iff.mp continued
      cases result
      rw [KnownShape.markersAll, Shape.markers_of_know shape firstKnown acyclic.1,
        Shape.markersAll_of_knowFields rest othersKnown acyclic.2]
      rfl
termination_by structural fields

end

/-- Looking up the type of a node depends on the configuration by the format of
dates alone. -/
theorem knowNode_congr
    {config other : SchemaConfig}
    {structural others : Option Capabilities → Step Store KnownShape}
    (sameDates : config.dateFormat = other.dateFormat)
    (type : Option TypeForm)
    (sameParts : ∀ record, structural record = others record) :
    knowNode config type structural = knowNode other type others := by
  have sameSchemas : config.dateSchema = other.dateSchema := by
    funext w type
    unfold SchemaConfig.dateSchema
    rw [sameDates]
  obtain rfl := funext sameParts
  unfold knowNode
  rw [sameSchemas]

mutual

/-- Looking up the types of a shape depends on the configuration by the format of
dates alone. -/
theorem Shape.know_congr
    {config other : SchemaConfig}
    (sameDates : config.dateFormat = other.dateFormat)
    (given : Option TypeForm)
    (shape : Shape) :
    shape.know config given = shape.know other given := by
  cases shape with
  | single h kind =>
      rw [Shape.know, Shape.know]
      exact knowNode_congr sameDates _ fun _ => rfl
  | keyed h isFixed fields =>
      cases isFixed with
      | true =>
          rw [Shape.know, Shape.know, Shape.knowFields_congr sameDates fields]
          exact knowNode_congr sameDates _ fun _ => rfl
      | false =>
          cases fields with
          | nil =>
              rw [Shape.know, Shape.know]
              exact knowNode_congr sameDates _ fun _ => rfl
          | cons field rest =>
              obtain ⟨name, first⟩ := field
              rw [Shape.know, Shape.know, Shape.know_congr sameDates none first]
              exact knowNode_congr sameDates _ fun _ => rfl
  | unkeyed h element =>
      rw [Shape.know, Shape.know, Shape.know_congr sameDates none element]
      exact knowNode_congr sameDates _ fun _ => rfl
  | recursive h marker =>
      rw [Shape.know, Shape.know]
      exact knowNode_congr sameDates _ fun _ => rfl
  | unconstrained h =>
      rw [Shape.know, Shape.know]
      exact knowNode_congr sameDates _ fun _ => rfl
termination_by structural shape

/-- Looking up the types of fields depends on the configuration by the format of
dates alone. -/
theorem Shape.knowFields_congr
    {config other : SchemaConfig}
    (sameDates : config.dateFormat = other.dateFormat)
    (fields : List (String × Shape)) :
    Shape.knowFields config fields = Shape.knowFields other fields := by
  cases fields with
  | nil => rfl
  | cons field rest =>
      obtain ⟨name, shape⟩ := field
      rw [Shape.knowFields, Shape.knowFields, Shape.know_congr sameDates none shape,
        Shape.knowFields_congr sameDates rest]
termination_by structural fields

end

/-- Nodes that are equal but for being optional are looked up alike. -/
theorem Shape.know_of_optional_eq
    {shape other : Shape}
    (equal : shape.optional true = other.optional true)
    (config : SchemaConfig)
    (given : Option TypeForm) :
    shape.know config given = other.know config given := by
  have unread (s : Shape) : (s.optional true).know config given = s.know config given := by
    cases s with
    | keyed h isFixed fields =>
        cases isFixed with
        | true => rfl
        | false =>
            cases fields with
            | nil => rfl
            | cons field rest => rfl
    | _ => rfl
  rw [← unread shape, equal, unread other]

/-! ## Trees whose types are known

Where the types of a tree are known, looking it up changes nothing, and what is
known of each visited node is what it is looked up as by itself.  Nodes that are
equal but for being optional are then known alike.
-/

/-- What a tree is known as depends on a given type as on its own one. -/
theorem Shape.know_given
    (config : SchemaConfig)
    (given : Option TypeForm)
    (shape : Shape) :
    shape.know config (shape.type.or given) = shape.know config given := by
  have same (h : ShapeHeader) : h.type.or (h.type.or given) = h.type.or given := by
    cases h.type <;> rfl
  cases shape with
  | keyed h isFixed fields =>
      cases isFixed with
      | true => exact congrArg (fun type => knowNode config type _) (same h)
      | false =>
          cases fields with
          | nil => exact congrArg (fun type => knowNode config type _) (same h)
          | cons field rest => exact congrArg (fun type => knowNode config type _) (same h)
  | _ => exact congrArg (fun type => knowNode config type _) (same _)

namespace Shape

mutual

/-- The nodes below a node. -/
def nodesBelow : Shape → List Shape
  | .keyed _ _ fields => nodesBelowAll fields
  | .unkeyed _ element => element :: element.nodesBelow
  | _ => []

/-- The nodes of fields. -/
def nodesBelowAll : List (String × Shape) → List Shape
  | [] => []
  | (_, s) :: rest => s :: s.nodesBelow ++ nodesBelowAll rest

end

/-- A node with the type that it stands for. -/
def withType (node : Shape) : Option TypeForm × Shape :=
  (node.type, node)

/-- The nodes of a tree with their types, where the whole may be given one. -/
def nodes (given : Option TypeForm) (shape : Shape) : List (Option TypeForm × Shape) :=
  (shape.type.or given, shape) :: shape.nodesBelow.map withType

/-- Whether any two nodes with capabilities of one name are equal but for being
optional. -/
def IsCoherent (s : Store) (given : Option TypeForm) (shape : Shape) : Prop :=
  ∀ p ∈ shape.nodes given, ∀ q ∈ shape.nodes given, ∀ caps ∈ s.recordOf p.1,
    ∀ others ∈ s.recordOf q.1, caps.name = others.name → p.2.optional true = q.2.optional true

theorem nodes_none (shape : Shape) :
    shape.nodes none = (shape :: shape.nodesBelow).map withType := by
  rw [nodes, Option.or_none]
  rfl

/-- Nodes with capabilities that are equal but for being optional have one type. -/
theorem type_eq_of_optional_eq
    {s : Store}
    {given : Option TypeForm}
    {shape : Shape}
    {p q : Option TypeForm × Shape}
    {caps others : Capabilities}
    (isNode : p ∈ shape.nodes given)
    (isOther : q ∈ shape.nodes given)
    (isRecord : s.recordOf p.1 = some caps)
    (otherRecord : s.recordOf q.1 = some others)
    (equal : p.2.optional true = q.2.optional true) :
    p.1 = q.1 := by
  have typed {r : Option TypeForm × Shape} {found : Capabilities}
      (member : r ∈ shape.nodes given) (hasRecord : s.recordOf r.1 = some found) :
      r.1 = r.2.type.or given := by
    rcases List.mem_cons.mp member with rfl | isBelow
    · rfl
    · obtain ⟨node, -, rfl⟩ := List.mem_map.mp isBelow
      change node.type = node.type.or given
      cases isType : node.type with
      | none =>
          rw [withType, isType] at hasRecord
          cases hasRecord
      | some type => rfl
  have sameType : p.2.type = q.2.type := by
    have stays (node : Shape) : (node.optional true).type = node.type := by
      cases node <;> rfl
    rw [← stays p.2, equal, stays q.2]
  rw [typed isNode isRecord, typed isOther otherRecord, sameType]

end Shape

/-- Whether a known node comes from one of some nodes of a tree, or nothing is known
about its type. -/
def KnownShape.ComesFrom
    (config : SchemaConfig)
    (s : Store)
    (nodes : List (Option TypeForm × Shape))
    (node : KnownShape) :
    Prop :=
  node.record = none ∨ ∃ p ∈ nodes, node.record = s.recordOf p.1 ∧
    (p.2.know config p.1).run s = (.ok node, s)

theorem KnownShape.ComesFrom.mono
    {config : SchemaConfig}
    {s : Store}
    {nodes more : List (Option TypeForm × Shape)}
    {node : KnownShape}
    (comesFrom : node.ComesFrom config s nodes)
    (subset : nodes ⊆ more) :
    node.ComesFrom config s more :=
  comesFrom.imp_right fun ⟨p, member, isRecord, ran⟩ => ⟨p, subset member, isRecord, ran⟩

/-- A known node comes from the node that was looked up. -/
theorem KnownShape.ComesFrom.own
    {config : SchemaConfig}
    {s : Store}
    {shape : Shape}
    {given : Option TypeForm}
    {known : KnownShape}
    (isRecord : known.record = s.recordOf (shape.type.or given))
    (ran : (shape.know config given).run s = (.ok known, s)) :
    known.ComesFrom config s (shape.nodes given) :=
  .inr ⟨(shape.type.or given, shape), List.mem_cons_self, isRecord,
    (congrArg (·.run s) (shape.know_given config given)).trans ran⟩

/-- A date and a node that declares its own schema come from the node that was looked
up. -/
theorem KnownShape.ComesFrom.leaf
    {config : SchemaConfig}
    {s found : Store}
    {shape : Shape}
    {given : Option TypeForm}
    {known : KnownShape}
    (isLeaf : found = s ∧ ∃ caps, s.recordOf (shape.type.or given) = some caps ∧
      ((∃ header, known = .plain (some caps) header) ∨
        ∃ own, caps.schema = some (.declared own) ∧ known = .declared caps own))
    (ran : (shape.know config given).run s = (.ok known, found)) :
    found = s ∧ ∀ node ∈ known.nodes, node.ComesFrom config s (shape.nodes given) := by
  obtain ⟨rfl, caps, record, isPlain | isDeclared⟩ := isLeaf
  · obtain ⟨header, rfl⟩ := isPlain
    refine ⟨rfl, fun node member => ?_⟩
    obtain rfl := List.mem_singleton.mp member
    exact .own record.symm ran
  · obtain ⟨own, -, rfl⟩ := isDeclared
    refine ⟨rfl, fun node member => ?_⟩
    obtain rfl := List.mem_singleton.mp member
    exact .own record.symm ran

mutual

/-- Where all types are known, looking up a tree changes nothing, and known nodes come
from its nodes. -/
theorem Shape.comesFrom_of_know
    {s found : Store}
    {known : KnownShape}
    (config : SchemaConfig)
    (given : Option TypeForm)
    (shape : Shape)
    (isKnown : shape.IsKnown s)
    (givenKnown : ∀ a, given = some a → ((s.registry .current).find? a).isSome)
    (acyclic : shape.hasRecursive = false)
    (ran : (shape.know config given).run s = (.ok known, found)) :
    found = s ∧ ∀ node ∈ known.nodes, node.ComesFrom config s (shape.nodes given) := by
  have typeKnown := isKnown.type_known givenKnown
  have partsKnown : ∀ part ∈ shape.parts, part.IsKnown s := by
    cases isKnown with
    | node _ _ parts => exact parts
  have whole := ran
  cases shape with
  | single h kind =>
      rw [Shape.know] at ran
      rcases knowNode_cases typeKnown ran with isLeaf | ended
      · exact KnownShape.ComesFrom.leaf isLeaf whole
      · cases ended
        refine ⟨rfl, fun node member => ?_⟩
        obtain rfl := List.mem_singleton.mp member
        exact .own rfl whole
  | keyed h isFixed fields =>
      rw [Shape.hasRecursive] at acyclic
      cases isFixed with
      | true =>
          rw [Shape.know] at ran
          rcases knowNode_cases typeKnown ran with isLeaf | ended
          · exact KnownShape.ComesFrom.leaf isLeaf whole
          · obtain ⟨knownFields, between, fieldsRan, result⟩ := Step.run_bind_eq_ok_iff.mp ended
            cases result
            obtain ⟨rfl, below⟩ :=
              Shape.comesFrom_of_knowFields config fields partsKnown acyclic fieldsRan
            refine ⟨rfl, fun node member => ?_⟩
            rcases List.mem_append.mp member with isBelow | isOwn
            · exact (below node isBelow).mono (List.subset_cons_self ..)
            · obtain rfl := List.mem_singleton.mp isOwn
              exact .own rfl whole
      | false =>
          cases fields with
          | nil =>
              rw [Shape.know] at ran
              rcases knowNode_cases typeKnown ran with isLeaf | ended
              · exact KnownShape.ComesFrom.leaf isLeaf whole
              · cases ended
                refine ⟨rfl, fun node member => ?_⟩
                rcases List.mem_append.mp member with isBelow | isOwn
                · obtain rfl := List.mem_singleton.mp isBelow
                  exact .inl rfl
                · obtain rfl := List.mem_singleton.mp isOwn
                  exact .own rfl whole
          | cons field rest =>
              obtain ⟨name, first⟩ := field
              rw [Shape.anyRecursive, Bool.or_eq_false_iff] at acyclic
              rw [Shape.know] at ran
              rcases knowNode_cases typeKnown ran with isLeaf | ended
              · exact KnownShape.ComesFrom.leaf isLeaf whole
              · obtain ⟨values, between, valuesRan, result⟩ := Step.run_bind_eq_ok_iff.mp ended
                cases result
                obtain ⟨rfl, below⟩ :=
                  Shape.comesFrom_of_know config none first
                    (partsKnown first List.mem_cons_self) (fun _ isGiven => nomatch isGiven)
                    acyclic.1 valuesRan
                refine ⟨rfl, fun node member => ?_⟩
                rcases List.mem_append.mp member with isBelow | isOwn
                · rw [Shape.nodes_none] at below
                  refine (below node isBelow).mono fun _ isNode => List.mem_cons_of_mem _ ?_
                  rw [Shape.nodesBelow, Shape.nodesBelowAll, List.map_append]
                  exact List.mem_append_left _ isNode
                · obtain rfl := List.mem_singleton.mp isOwn
                  exact .own rfl whole
  | unkeyed h element =>
      rw [Shape.hasRecursive] at acyclic
      rw [Shape.know] at ran
      rcases knowNode_cases typeKnown ran with isLeaf | ended
      · exact KnownShape.ComesFrom.leaf isLeaf whole
      · obtain ⟨items, between, itemsRan, result⟩ := Step.run_bind_eq_ok_iff.mp ended
        cases result
        obtain ⟨rfl, below⟩ :=
          Shape.comesFrom_of_know config none element
            (partsKnown element List.mem_cons_self) (fun _ isGiven => nomatch isGiven) acyclic
            itemsRan
        refine ⟨rfl, fun node member => ?_⟩
        rcases List.mem_append.mp member with isBelow | isOwn
        · rw [Shape.nodes_none] at below
          exact (below node isBelow).mono (List.subset_cons_self ..)
        · obtain rfl := List.mem_singleton.mp isOwn
          exact .own rfl whole
  | recursive h marker => simp [Shape.hasRecursive] at acyclic
  | unconstrained h =>
      rw [Shape.know] at ran
      rcases knowNode_cases typeKnown ran with isLeaf | ended
      · exact KnownShape.ComesFrom.leaf isLeaf whole
      · cases ended
        refine ⟨rfl, fun node member => ?_⟩
        obtain rfl := List.mem_singleton.mp member
        exact .own rfl whole
termination_by structural shape

/-- Where all types are known, looking up fields changes nothing, and known nodes come
from the nodes of the fields. -/
theorem Shape.comesFrom_of_knowFields
    {s found : Store}
    {known : List (String × Bool × KnownShape)}
    (config : SchemaConfig)
    (fields : List (String × Shape))
    (isKnown : ∀ part ∈ fields.map Prod.snd, part.IsKnown s)
    (acyclic : Shape.anyRecursive fields = false)
    (ran : (Shape.knowFields config fields).run s = (.ok known, found)) :
    found = s ∧
      ∀ node ∈ KnownShape.nodesAll known, node.ComesFrom config s ((Shape.nodesBelowAll fields).map Shape.withType) := by
  cases fields with
  | nil =>
      cases ran
      exact ⟨rfl, fun _ absent => nomatch absent⟩
  | cons field rest =>
      obtain ⟨name, shape⟩ := field
      rw [Shape.anyRecursive, Bool.or_eq_false_iff] at acyclic
      rw [Shape.knowFields] at ran
      obtain ⟨first, between, firstRan, later⟩ := Step.run_bind_eq_ok_iff.mp ran
      obtain ⟨others, last, othersRan, result⟩ := Step.run_bind_eq_ok_iff.mp later
      cases result
      obtain ⟨rfl, firstNodes⟩ :=
        Shape.comesFrom_of_know config none shape (isKnown shape List.mem_cons_self)
          (fun _ isGiven => nomatch isGiven) acyclic.1 firstRan
      obtain ⟨rfl, othersNodes⟩ :=
        Shape.comesFrom_of_knowFields config rest
          (fun part isPart => isKnown part (List.mem_cons_of_mem _ isPart)) acyclic.2 othersRan
      refine ⟨rfl, fun node member => ?_⟩
      rw [Shape.nodes_none] at firstNodes
      rw [Shape.nodesBelowAll, List.map_append]
      rcases List.mem_append.mp member with isFirst | isOther
      · exact (firstNodes node isFirst).mono (List.subset_append_left ..)
      · exact (othersNodes node isOther).mono (List.subset_append_right ..)
termination_by structural fields

end

/-- Where all types are known and any two nodes with capabilities of one name are
equal but for being optional, they are known alike. -/
theorem Shape.IsCoherent.known
    {config : SchemaConfig}
    {s found : Store}
    {shape : Shape}
    {given : Option TypeForm}
    {known : KnownShape}
    (coherent : shape.IsCoherent s given)
    (isKnown : shape.IsKnown s)
    (givenKnown : ∀ a, given = some a → ((s.registry .current).find? a).isSome)
    (acyclic : shape.hasRecursive = false)
    (ran : (shape.know config given).run s = (.ok known, found)) :
    known.IsCoherent := by
  obtain ⟨-, comesFrom⟩ := shape.comesFrom_of_know config given isKnown givenKnown acyclic ran
  intro node member other otherMember caps isCaps others isOthers named
  rcases comesFrom node member with none | ⟨p, isNode, isRecord, nodeRan⟩
  · rw [none] at isCaps
    cases isCaps
  rcases comesFrom other otherMember with none | ⟨q, isOther, otherRecord, otherRan⟩
  · rw [none] at isOthers
    cases isOthers
  have equal := coherent p isNode q isOther caps (isRecord ▸ isCaps) others
    (otherRecord ▸ isOthers) named
  have sameType := Shape.type_eq_of_optional_eq isNode isOther (isRecord.symm.trans isCaps)
    (otherRecord.symm.trans isOthers) equal
  rw [Shape.know_of_optional_eq equal, sameType, otherRan] at nodeRan
  cases nodeRan
  rfl

/-! ## With extraction and without -/

/-- A configuration with or without extraction. -/
def SchemaConfig.extracting (config : SchemaConfig) (extracts : Bool) : SchemaConfig :=
  { config with extractsReferences := extracts }

/-- Without extraction nothing is shared where no node refers back. -/
theorem KnownShape.shares_of_not_extracts
    {config : SchemaConfig}
    {known : KnownShape}
    (noExtraction : config.extractsReferences = false)
    (noMarkers : known.markers = []) :
    known.shares config = .empty := by
  obtain ⟨-, publishes⟩ := known.build_publishes config ⟨.empty, []⟩ noMarkers rfl
  have noSchemas : (known.shares config).schemas = [] := by
    rw [List.eq_nil_iff_forall_not_mem]
    intro e member
    rcases publishes.entries e member with absent | ⟨node, -, isShared, -⟩
    · cases absent
    · exact Bool.false_ne_true (noExtraction.symm.trans isShared.extracts)
  have noOrigins : (known.shares config).origins = [] := by
    have sameKeys := (known.shares_isTidy config).origins
    rw [SchemaRegistry.names, noSchemas] at sameKeys
    exact List.map_eq_nil_iff.mp sameKeys
  exact congrArg₂ SchemaRegistry.mk noSchemas noOrigins

end SchemaProbe

import SchemaProbe.Proofs.Inlining
import SchemaProbe.Proofs.Alike

namespace SchemaProbe

/-!
# Which names are shared

A node is shared when it is done, because it may be or because something below it
referred back to its name.  So at every moment each shared name was referred back
to, or is that of a finished node that offers itself.  The other way round, what
offers itself is shared under extraction at once, and what is referred back to is
shared by the node above that is of its name.
-/

open Step

namespace KnownShape

/-- Whether the schema of a node is an object or an array, so that it can be
shared.  A date, a scalar, an enumeration and a reference cannot. -/
def isStructure : KnownShape → Bool
  | .plain _ _ | .back _ _ => false
  | .declared _ schema => schema.isReferenceable
  | .object _ _ | .dictionary _ _ | .array _ _ => true

/-- Whether a node offers itself to be shared under a name: its type may be shared
and is of that name, and its schema can be shared. -/
structure Offers (node : KnownShape) (name : String) : Prop where
  structured : node.isStructure = true
  named : ∃ caps, node.record = some caps ∧ caps.name = name ∧ caps.isReferenceable = true

/-- Whether a node without parts has a schema that cannot be shared. -/
def IsScalarLeaf : KnownShape → Prop
  | .plain _ header => (Schema.inline header none none none).isReferenceable = false
  | _ => True

end KnownShape

/-- The names after registering a schema are those before it, and the registered one
if the schema can be shared. -/
theorem SchemaRegistry.mem_names_register
    {r : SchemaRegistry}
    {name other : String}
    {schema : Schema}
    {origin : Option TypeForm} :
    other ∈ (r.register name schema origin).1.names ↔
      other ∈ r.names ∨ (schema.isReferenceable = true ∧ other = name) := by
  unfold register
  split
  · rename_i referenceable
    rw [referenceable, eq_self_iff_true, true_and]
    exact Table.mem_keys_set_iff.trans or_comm
  · rename_i inline
    simp [inline]

/-! ## Building shares what is offered or referred back to -/

namespace KnownShape

/-- What some nodes and some references back add to what is shared. -/
structure Shares
    (config : SchemaConfig)
    (nodes : List KnownShape)
    (markers : List String)
    (σ later : Synthesis) :
    Prop where
  grows : σ.registry.names ⊆ later.registry.names
  back : later.recursiveNames = σ.recursiveNames ++ markers
  offered : config.extractsReferences = true →
    ∀ node ∈ nodes, ∀ name, node.Offers name → name ∈ later.registry.names
  explained : ∀ name ∈ later.registry.names, name ∈ σ.registry.names ∨
    name ∈ later.recursiveNames ∨
    (config.extractsReferences = true ∧ ∃ node ∈ nodes, node.Offers name)

namespace Shares

variable {config : SchemaConfig} {σ between later : Synthesis}

/-- Nothing is added without nodes. -/
theorem refl (config : SchemaConfig) (σ : Synthesis) : Shares config [] [] σ σ where
  grows := fun _ member => member
  back := (List.append_nil _).symm
  offered := fun _ _ absent => nomatch absent
  explained := fun _ member => .inl member

/-- Referring back to a name adds it to the names that were referred back to. -/
theorem referBack (config : SchemaConfig) (σ : Synthesis) (name : String) :
    Shares config [] [name] σ (σ.referBack name) where
  grows := fun _ member => member
  back := rfl
  offered := fun _ _ absent => nomatch absent
  explained := fun _ member => .inl member

/-- Nodes one after the other add what each of them adds. -/
theorem append
    {nodes others : List KnownShape}
    {markers more : List String}
    (first : Shares config nodes markers σ between)
    (second : Shares config others more between later) :
    Shares config (nodes ++ others) (markers ++ more) σ later where
  grows := fun _ member => second.grows (first.grows member)
  back := by rw [second.back, first.back, List.append_assoc]
  offered := by
    intro extracts node member name offers
    rcases List.mem_append.mp member with isFirst | isSecond
    · apply second.grows
      exact first.offered extracts node isFirst name offers
    · exact second.offered extracts node isSecond name offers
  explained := by
    intro name member
    rcases second.explained name member with old | back | ⟨extracts, node, isNode, offers⟩
    · rcases first.explained name old with older | back | ⟨extracts, node, isNode, offers⟩
      · exact .inl older
      · apply Or.inr
        apply Or.inl
        rw [second.back]
        exact List.mem_append_left _ back
      · exact .inr (.inr ⟨extracts, node, List.mem_append_left _ isNode, offers⟩)
    · exact .inr (.inl back)
    · exact .inr (.inr ⟨extracts, node, List.mem_append_right _ isNode, offers⟩)

/-- A node that is done adds its own name if it offers itself or was referred back
to, and nothing else. -/
theorem finish
    (config : SchemaConfig)
    (node : KnownShape)
    {schema : Schema}
    (σ : Synthesis)
    (kind : schema.isReferenceable = node.isStructure) :
    Shares config [node] [] σ (σ.finish config node.record schema).2 := by
  cases isRecord : node.record with
  | none =>
      refine ⟨fun _ member => member, (List.append_nil _).symm, ?_, fun _ member => .inl member⟩
      intro _ other isNode name offers
      obtain ⟨caps, isCaps, -⟩ := offers.named
      rw [List.mem_singleton.mp isNode, isRecord] at isCaps
      cases isCaps
  | some caps =>
      have described : (caps.describe schema).isReferenceable = node.isStructure :=
        (caps.isReferenceable_describe schema).trans kind
      have grows := σ.growsTo_finish config (some caps) schema
      have sameNames : (σ.finish config (some caps) schema).2.recursiveNames = σ.recursiveNames := by
        unfold Synthesis.finish
        dsimp only
        split <;> rfl
      refine ⟨grows.names, by rw [sameNames, List.append_nil], ?_, ?_⟩
      · intro extracts other isNode name offers
        rw [List.mem_singleton.mp isNode] at offers
        obtain ⟨own, isOwn, rfl, shareable⟩ := offers.named
        rw [isRecord] at isOwn
        cases isOwn
        unfold Synthesis.finish
        simp only [extracts, shareable, Bool.and_self, Bool.or_true, if_true]
        apply SchemaRegistry.mem_names_register.mpr
        exact .inr ⟨described.trans offers.structured, rfl⟩
      · intro name member
        rw [sameNames]
        unfold Synthesis.finish at member
        dsimp only at member
        split at member
        · rename_i isShared
          rcases SchemaRegistry.mem_names_register.mp member with old | ⟨referenceable, rfl⟩
          · exact .inl old
          · rw [Bool.or_eq_true, Bool.and_eq_true] at isShared
            rcases isShared with back | ⟨extracts, shareable⟩
            · exact .inr (.inl (List.contains_iff_mem.mp back))
            · have offers : node.Offers caps.name :=
                ⟨described.symm.trans referenceable, caps, isRecord, rfl, shareable⟩
              exact .inr (.inr ⟨extracts, node, List.mem_singleton_self node, offers⟩)
        · exact .inl member

/-- A node is added after those below it. -/
theorem around
    (node : KnownShape)
    {below : List KnownShape}
    {markers : List String}
    {schema : Schema}
    (inner : Shares config below markers σ between)
    (kind : schema.isReferenceable = node.isStructure) :
    Shares config (below ++ [node]) markers σ (between.finish config node.record schema).2 := by
  have both := inner.append (finish config node between kind)
  rw [List.append_nil] at both
  exact both

end Shares

mutual

/-- Building a shape shares what its nodes offer or refer back to. -/
theorem build_shares
    (config : SchemaConfig)
    (known : KnownShape)
    (σ : Synthesis)
    (leaves : ∀ node ∈ known.nodes, node.IsScalarLeaf) :
    Shares config known.nodes known.markers σ (known.build config σ).2 := by
  cases known with
  | plain record header =>
      rw [build, nodes, markers]
      have scalar : (Schema.inline header none none none).isReferenceable = false :=
        leaves (.plain record header) (List.mem_singleton_self _)
      exact .finish config (.plain record header) σ scalar
      all_goals simp
  | declared record schema =>
      rw [build, nodes, markers]
      exact .finish config (.declared record schema) σ rfl
      all_goals simp
  | back record name =>
      rw [build, nodes, markers]
      exact (Shares.referBack config σ name).around (.back record name) rfl
      all_goals simp
  | object record fields =>
      rw [nodes] at leaves
      rw [build, nodes, markers]
      have below := buildFields_shares config fields [] [] σ fun node member =>
        leaves node (List.mem_append_left _ member)
      exact below.around (.object record fields) rfl
  | dictionary record values =>
      rw [nodes] at leaves
      rw [build, nodes, markers]
      have below := build_shares config values σ fun node member =>
        leaves node (List.mem_append_left _ member)
      exact below.around (.dictionary record values) rfl
  | array record element =>
      rw [nodes] at leaves
      rw [build, nodes, markers]
      have below := build_shares config element σ fun node member =>
        leaves node (List.mem_append_left _ member)
      exact below.around (.array record element) rfl
termination_by structural known

/-- Building fields shares what their nodes offer or refer back to. -/
theorem buildFields_shares
    (config : SchemaConfig)
    (fields : List (String × Bool × KnownShape))
    (properties : List (String × Schema))
    (required : List String)
    (σ : Synthesis)
    (leaves : ∀ node ∈ nodesAll fields, node.IsScalarLeaf) :
    Shares config (nodesAll fields) (markersAll fields) σ
      (buildFields config fields properties required σ).2 := by
  cases fields with
  | nil => exact .refl config σ
  | cons field rest =>
      obtain ⟨name, isOptional, known⟩ := field
      rw [nodesAll] at leaves
      rw [buildFields, nodesAll, markersAll]
      have first := build_shares config known σ fun node member =>
        leaves node (List.mem_append_left _ member)
      exact first.append (buildFields_shares config rest _ _ _ fun node member =>
        leaves node (List.mem_append_right _ member))
termination_by structural fields

end

/-- In a shape all of whose markers are bound, every reference leads to a shared name,
and the names that nodes refer back to are shared. -/
theorem resolves_shares
    {known : KnownShape}
    (config : SchemaConfig)
    (bound : known.MarkersBound []) :
    (known.schema config).Resolves sharedName known.declaredSchemas (known.shares config).names ∧
      known.markers ⊆ (known.shares config).names := by
  have nothing : SchemaRegistry.empty.Resolves sharedName known.declaredSchemas :=
    fun _ absent => nomatch absent
  obtain ⟨schemaResolves, -, marked⟩ := build_resolves config bound
    (fun caps _ => sharedName_sharedHome caps.name) (List.Subset.refl known.declaredSchemas) nothing
  exact ⟨schemaResolves, marked⟩

/-- In a shape all of whose markers are bound, the shared names are those that a node
refers back to and, with extraction, those that a node offers. -/
theorem mem_names_shares
    {known : KnownShape}
    (config : SchemaConfig)
    (bound : known.MarkersBound [])
    (leaves : ∀ node ∈ known.nodes, node.IsScalarLeaf)
    (name : String) :
    name ∈ (known.shares config).names ↔ name ∈ known.markers ∨
      (config.extractsReferences = true ∧ ∃ node ∈ known.nodes, node.Offers name) := by
  have shares := known.build_shares config ⟨.empty, []⟩ leaves
  constructor
  · intro member
    rcases shares.explained name member with absent | back | offered
    · cases absent
    · rw [shares.back] at back
      exact .inl back
    · exact .inr offered
  · rintro (isMarker | ⟨extracts, node, isNode, offers⟩)
    · exact (resolves_shares config bound).2 isMarker
    · exact shares.offered extracts node isNode name offers

end KnownShape

/-! ## What looking up says of each visited node -/

/-- Whether a node that refers back does so by the name of a type about which something
good is known, or of which nothing is known. -/
def KnownShape.RefersBackTo (good : Capabilities → Prop) : KnownShape → Prop
  | .back _ name => name = anyName ∨ ∃ caps, good caps ∧ caps.name = name
  | _ => True

/-- Whether what is known about the type of a node, and about the one that it refers back
to, is good, and the node has a schema that cannot be shared if it has no parts. -/
structure KnownShape.Sees (good : Capabilities → Prop) (node : KnownShape) : Prop where
  back : node.RefersBackTo good
  scalar : node.IsScalarLeaf
  good : ∀ caps, node.record = some caps → good caps

/-- Whether a schema can be shared depends on its header alone. -/
theorem Schema.isReferenceable_header (schema : Schema) :
    (Schema.inline schema.header none none none).isReferenceable = schema.isReferenceable := by
  cases schema <;> rfl

/-- The schema of a scalar cannot be shared, whether it lists its cases or not. -/
theorem PrimitiveKind.isReferenceable_schema (kind : PrimitiveKind) (cases : Option (List Value)) :
    (match cases with
      | some cases => Schema.enumeration kind.format.1 cases
      | none => kind.schema).isReferenceable = false := by
  cases cases with
  | some cases => rfl
  | none => cases kind <;> rfl

section Knowing

variable {R : Regime Store} {good : Capabilities → Prop}

/-- The schema of a date cannot be shared. -/
theorem SchemaConfig.isReferenceable_dateSchema
    (config : SchemaConfig)
    (w : World)
    (type : Option TypeForm) :
    (config.dateSchema w type).isReferenceable = false := by
  unfold dateSchema
  split <;> rfl

/-- Whether what is found out about a type is good, and nothing else matters to what
holds of states. -/
structure Regime.Looking (R : Regime Store) (good : Capabilities → Prop) : Prop where
  look : ∀ a, Alike R (fun found => ∀ caps, found = some caps → good caps) (lookup? a) (lookup? a)
  evaluate : ∀ name hook,
    Alike R anything (inWorld (SchemaHook.evaluate name hook))
      (inWorld (SchemaHook.evaluate name hook))

/-- Looking up the type of a node sees it if looking up its parts does. -/
theorem knowNode_alike
    {structural : Option Capabilities → Step Store KnownShape}
    (looking : R.Looking good)
    (config : SchemaConfig)
    (type : Option TypeForm)
    (inside : ∀ record, (∀ caps, record = some caps → good caps) →
      Alike R (fun known => ∀ node ∈ known.nodes, node.Sees good) (structural record)
        (structural record)) :
    Alike R (fun known => ∀ node ∈ known.nodes, node.Sees good)
      (knowNode config type structural) (knowNode config type structural) := by
  have found :
      Alike R (fun record => ∀ caps, record = some caps → good caps) (lookupOptional type)
        (lookupOptional type) := by
    cases type with
    | none => exact .pure (fun _ absent => nomatch absent)
    | some a => exact looking.look a
  unfold knowNode
  apply found.bind
  intro record isGood
  cases record with
  | none => exact inside none isGood
  | some caps =>
      dsimp only
      split
      · apply Alike.current_bind
        intro s holds
        apply AlikeAt.pure holds
        intro node member
        rw [KnownShape.nodes, List.mem_singleton] at member
        · subst member
          refine ⟨trivial, ?_, isGood⟩
          apply (Schema.isReferenceable_header _).trans
          exact config.isReferenceable_dateSchema s.world (some caps.type)
        all_goals simp
      · split
        · apply (looking.evaluate caps.name _).bind
          intro schema _
          apply Alike.pure
          intro node member
          rw [KnownShape.nodes, List.mem_singleton] at member
          · subst member
            exact ⟨trivial, trivial, isGood⟩
          all_goals simp
        · exact inside (some caps) isGood

/-- A node without nodes below it is seen if it is looked up well. -/
theorem KnownShape.Sees.leaf
    {node : KnownShape}
    (isLeaf : node.nodes = [node])
    (sees : node.Sees good) :
    ∀ other ∈ node.nodes, other.Sees good := by
  intro other member
  rw [isLeaf, List.mem_singleton] at member
  exact member ▸ sees

/-- A node is seen with those below it. -/
theorem KnownShape.Sees.around
    {node : KnownShape}
    {below : List KnownShape}
    (sees : node.Sees good)
    (isAround : node.nodes = below ++ [node])
    (inner : ∀ other ∈ below, other.Sees good) :
    ∀ other ∈ node.nodes, other.Sees good := by
  intro other member
  rw [isAround, List.mem_append, List.mem_singleton] at member
  rcases member with isBelow | rfl
  · exact inner other isBelow
  · exact sees

mutual

/-- Looking up the types of a shape sees each visited node. -/
theorem Shape.know_alike
    (looking : R.Looking good)
    (config : SchemaConfig)
    (given : Option TypeForm)
    (shape : Shape) :
    Alike R (fun known => ∀ node ∈ known.nodes, node.Sees good) (shape.know config given)
      (shape.know config given) := by
  cases shape with
  | single h kind =>
      rw [Shape.know]
      apply knowNode_alike looking
      intro record isGood
      apply Alike.pure
      apply KnownShape.Sees.leaf (by rw [KnownShape.nodes] <;> simp)
      refine ⟨trivial, ?_, isGood⟩
      exact (Schema.isReferenceable_header _).trans (kind.isReferenceable_schema h.cases)
  | keyed h isFixed fields =>
      cases isFixed with
      | true =>
          rw [Shape.know]
          apply knowNode_alike looking
          intro record isGood
          apply (Shape.knowFields_alike looking config fields).bind
          intro known seen
          apply Alike.pure
          exact KnownShape.Sees.around ⟨trivial, trivial, isGood⟩ (by rw [KnownShape.nodes]) seen
      | false =>
          cases fields with
          | nil =>
              rw [Shape.know]
              apply knowNode_alike looking
              intro record isGood
              apply Alike.pure
              have values : ∀ node ∈ (KnownShape.plain none .empty).nodes, node.Sees good := by
                apply KnownShape.Sees.leaf (by rw [KnownShape.nodes] <;> simp)
                exact ⟨trivial, rfl, (fun _ absent => nomatch absent)⟩
              exact KnownShape.Sees.around ⟨trivial, trivial, isGood⟩ (by rw [KnownShape.nodes]) values
          | cons field rest =>
              obtain ⟨name, first⟩ := field
              rw [Shape.know]
              apply knowNode_alike looking
              intro record isGood
              apply (Shape.know_alike looking config none first).bind
              intro known seen
              apply Alike.pure
              exact KnownShape.Sees.around ⟨trivial, trivial, isGood⟩ (by rw [KnownShape.nodes]) seen
  | unkeyed h element =>
      rw [Shape.know]
      apply knowNode_alike looking
      intro record isGood
      apply (Shape.know_alike looking config none element).bind
      intro known seen
      apply Alike.pure
      exact KnownShape.Sees.around ⟨trivial, trivial, isGood⟩ (by rw [KnownShape.nodes]) seen
  | recursive h marker =>
      rw [Shape.know]
      apply knowNode_alike looking
      intro record isGood
      apply (looking.look marker).bind
      intro caps found
      apply Alike.pure
      apply KnownShape.Sees.leaf (by rw [KnownShape.nodes] <;> simp)
      refine ⟨?_, trivial, isGood⟩
      cases caps with
      | none => exact .inl rfl
      | some known => exact .inr ⟨known, found known rfl, rfl⟩
  | unconstrained h =>
      rw [Shape.know]
      apply knowNode_alike looking
      intro record isGood
      apply Alike.pure
      exact KnownShape.Sees.leaf (by rw [KnownShape.nodes] <;> simp) ⟨trivial, rfl, isGood⟩
termination_by structural shape

/-- Looking up the types of fields sees each visited node. -/
theorem Shape.knowFields_alike
    (looking : R.Looking good)
    (config : SchemaConfig)
    (fields : List (String × Shape)) :
    Alike R (fun known => ∀ node ∈ KnownShape.nodesAll known, node.Sees good)
      (Shape.knowFields config fields) (Shape.knowFields config fields) := by
  cases fields with
  | nil => exact .pure (fun _ absent => nomatch absent)
  | cons field rest =>
      obtain ⟨name, shape⟩ := field
      rw [Shape.knowFields]
      apply (Shape.know_alike looking config none shape).bind
      intro known seen
      apply (Shape.knowFields_alike looking config rest).bind
      intro others othersSeen
      apply Alike.pure
      intro node member
      rw [KnownShape.nodesAll, List.mem_append] at member
      rcases member with isFirst | isOther
      · exact seen node isFirst
      · exact othersSeen node isOther
termination_by structural fields

end

end Knowing

/-- Nothing matters where nothing has to hold. -/
theorem Regime.looking_anything :
    Regime.Looking ⟨fun _ => True, fun _ => True⟩ (fun _ => True) where
  look _ _ _ := .of_run trivial (fun _ _ => trivial) (fun _ _ _ _ => trivial)
  evaluate _ _ _ _ := .of_run trivial (fun _ _ => trivial) (fun _ _ => trivial)

/-! ## Aliases of containers -/

/-- Whether a built-in class is read as a sequence, a tuple or a mapping when it is
applied to arguments. -/
def Builtin.isContainer (b : Builtin) : Bool :=
  b.sequenceShape?.isSome || b == .tuple || b.isMappingOrigin

/-- Whether a type form is a built-in container, with arguments or without. -/
def TypeForm.isContainerAlias (a : TypeForm) : Bool :=
  match a.aliasOrigin? with
  | some (.cls (.builtin b)) => b.isContainer
  | _ => false

/-- Whether a type, if it is an alias of a container, may not be shared. -/
def Capabilities.IsUnsharedAlias (caps : Capabilities) : Prop :=
  caps.type.isContainerAlias = true → caps.isReferenceable = false

/-- Whether no alias of a container was registered as a type to be shared: none that
is known may be. -/
def Store.AliasesUnshared (s : Store) : Prop :=
  ∀ e ∈ (s.registry .current).explicit ++ (s.registry .current).cache, e.2.IsUnsharedAlias

/-- The regime in which no alias of a container may be shared. -/
def Regime.unsharing : Regime Store :=
  ⟨Store.AliasesUnshared, fun _ => True⟩

/-- The types that are registered from the start are no aliases. -/
theorem Store.aliasesUnshared_initial : Store.initial.AliasesUnshared := by
  unfold Store.AliasesUnshared Capabilities.IsUnsharedAlias
  decide

section Aliases

/-- What may not be shared is no alias that may. -/
theorem Capabilities.isUnsharedAlias_of_unshared
    {caps : Capabilities}
    (unshared : caps.isReferenceable = false) :
    caps.IsUnsharedAlias :=
  fun _ => unshared

/-- Finding something out in the declared classes alone shares no alias. -/
theorem inWorld_unsharing
    {α : Type}
    {good : α → Prop}
    {step : Step World α}
    (isGood : ∀ w a reached, step.run w = (.ok a, reached) → good a) :
    Alike .unsharing good (inWorld step) (inWorld step) := by
  intro s holds
  apply AlikeAt.of_run
  · exact holds
  · intro _ _
    trivial
  · intro a ended
    exact isGood s.world a _ (Prod.ext ended rfl)

/-- What is known about a class is about the class. -/
theorem classCapabilities_type
    {c : ClassRef}
    {caps : Capabilities}
    {w reached : World}
    (ran : (classCapabilities c).run w = (.ok caps, reached)) :
    caps.type = .cls c := by
  unfold classCapabilities at ran
  rw [Step.run_bind_of_ok (Step.run_current w)] at ran
  dsimp only at ran
  split at ran
  · cases ran
    rfl
  · split at ran
    · cases ran
      rfl
    · obtain ⟨cases, between, -, continued⟩ := Step.run_bind_eq_ok_iff.mp ran
      cases continued
      rfl

/-- Looking up and remembering shares no alias if finding out does not. -/
theorem remembered_unsharing
    {resolve : Step Store Capabilities}
    (a : TypeForm)
    (resolves : Alike .unsharing Capabilities.IsUnsharedAlias resolve resolve) :
    Alike .unsharing Capabilities.IsUnsharedAlias (remembered .current a resolve)
      (remembered .current a resolve) := by
  unfold remembered
  apply Alike.current_bind
  intro s holds
  split
  · rename_i known found
    apply AlikeAt.pure holds
    rcases Option.or_eq_some_iff.mp found with cached | ⟨-, registered⟩
    · exact holds _ (List.mem_append_right _ (Table.mem_of_lookup cached))
    · exact holds _ (List.mem_append_left _ (Table.mem_of_lookup registered))
  · apply (resolves s holds).bind
    intro found reached reachedHolds isUnshared
    refine .ok rfl rfl ?_ isUnshared
    intro e member
    rw [Store.registry_changeRegistry] at member
    rcases List.mem_append.mp member with registered | cached
    · exact reachedHolds e (List.mem_append_left _ registered)
    · rcases Table.mem_or_eq_of_mem_set cached with old | rfl
      · exact reachedHolds e (List.mem_append_right _ old)
      · exact isUnshared

/-- Looking up a class shares no alias: a class is none. -/
theorem lookupClass_unsharing (c : ClassRef) :
    Alike .unsharing Capabilities.IsUnsharedAlias (lookupClass .current c)
      (lookupClass .current c) := by
  unfold lookupClass
  apply remembered_unsharing
  split
  · exact .pure (Capabilities.isUnsharedAlias_of_unshared rfl)
  · unfold resolveClass
    have found :
        Alike .unsharing Capabilities.IsUnsharedAlias (inWorld (classCapabilities c))
          (inWorld (classCapabilities c)) := by
      apply inWorld_unsharing
      intro w caps reached ran isAlias
      rw [classCapabilities_type ran] at isAlias
      cases isAlias
    apply found.bind
    intro caps isUnshared
    split
    · have noted : Alike .unsharing anything (note (.withoutReader caps.name))
          (note (.withoutReader caps.name)) :=
        .update fun _ holds => holds
      exact noted.bind fun _ _ => .pure isUnshared
    · exact .pure isUnshared

/-- Finding out about something applied to arguments shares no alias: containers are
read as such, and what goes by its class is no container. -/
theorem resolveApplied_unsharing
    {a : TypeForm}
    {origin : Origin}
    (applies : a.aliasOrigin? = some origin)
    (args : List TypeForm) :
    Alike .unsharing Capabilities.IsUnsharedAlias (resolveApplied .current a origin args)
      (resolveApplied .current a origin args) := by
  have read (reader : Reader) (placeholder : Value) :
      Alike .unsharing Capabilities.IsUnsharedAlias
        (pure (.readBy a reader placeholder) : Step Store Capabilities)
        (pure (.readBy a reader placeholder)) :=
    .pure (Capabilities.isUnsharedAlias_of_unshared rfl)
  have asOrigin (c : ClassRef) (noContainer : a.isContainerAlias = false) :
      Alike .unsharing Capabilities.IsUnsharedAlias (resolveApplied.asOrigin .current a c)
        (resolveApplied.asOrigin .current a c) := by
    apply (lookupClass_unsharing c).bind
    intro found _
    apply Alike.pure
    intro isAlias
    exact absurd isAlias (Bool.eq_false_iff.mp noContainer)
  unfold resolveApplied
  split
  · rename_i b
    split
    · exact read _ _
    · rename_i noSequence
      split
      · exact read _ _
      · rename_i noTuple
        split
        · exact read _ _
        · rename_i noMapping
          apply asOrigin
          unfold TypeForm.isContainerAlias
          rw [applies]
          simp [Builtin.isContainer, noSequence, noTuple, noMapping]
  · rename_i c noBuiltin
    apply asOrigin
    unfold TypeForm.isContainerAlias
    rw [applies]
    cases c with
    | builtin b => exact absurd rfl (noBuiltin b)
    | user _ | sized _ _ => rfl
  · exact .fail trivial

/-- Finding out about a type form without notes shares no alias. -/
theorem resolveBare_unsharing (a : TypeForm) :
    Alike .unsharing Capabilities.IsUnsharedAlias (resolveBare .current a)
      (resolveBare .current a) := by
  unfold resolveBare
  split
  · exact .pure (Capabilities.isUnsharedAlias_of_unshared rfl)
  · exact .pure (Capabilities.isUnsharedAlias_of_unshared rfl)
  · exact lookupClass_unsharing _
  · exact .fail trivial
  · exact .fail trivial
  · apply Alike.pure
    apply Capabilities.isUnsharedAlias_of_unshared
    unfold unionCapabilities
    split <;> rfl
  · exact .current_bind fun s holds =>
      .pure holds (Capabilities.isUnsharedAlias_of_unshared rfl)
  · exact resolveApplied_unsharing rfl _
  · exact resolveApplied_unsharing rfl _
  · exact resolveApplied_unsharing rfl _
  · exact .fail trivial

/-- Looking up a type shares no alias. -/
theorem lookup_unsharing (a : TypeForm) :
    Alike .unsharing Capabilities.IsUnsharedAlias (lookup .current a) (lookup .current a) := by
  induction a using lookup.induct with
  | case1 inner notes inductionHypothesis =>
      rw [lookup]
      exact remembered_unsharing _ inductionHypothesis
  | case2 a notAnnotated =>
      rw [lookup]
      · exact remembered_unsharing _ (resolveBare_unsharing a)
      · exact notAnnotated

/-- The types of visited nodes are looked up so that no alias may be shared. -/
theorem Regime.looking_unsharing : Regime.unsharing.Looking Capabilities.IsUnsharedAlias where
  look a := by
    unfold lookup?
    apply (lookup_unsharing a).attempt.bind
    intro outcome isUnshared
    cases outcome with
    | ok caps => exact .pure fun _ same => by cases same; exact isUnshared caps rfl
    | error f =>
        dsimp only
        split
        · exact .pure fun _ absent => nomatch absent
        · exact .fail trivial
  evaluate name hook := inWorld_unsharing fun _ _ _ _ => trivial

end Aliases

/-! ## The shared names -/

/-- Synthesis ends well exactly where looking up the visited types does.  If every
visited node that refers back to a type lies below a node of that type's name that
is looked into, synthesis into the empty registry shares each name once, and shares
precisely these names: those that visited nodes refer back to and, with extraction,
those of the visited nodes whose type may be shared and whose schema is an object or
an array without cases.  So without extraction and without such nodes nothing is
shared, and the schema has no references but those that types declare.  A shared
name that no node refers back to is that of a visited node whose type is known, and
is no alias of a container unless such an alias was registered to be shared. -/
theorem synthesize_names
    (config : SchemaConfig)
    (shape : Shape)
    (given : Option TypeForm)
    (s : Store) :
    (∀ schema reached last,
      (synthesize config shape given).run (.empty, s) = (.ok schema, reached, last) →
      ∃ known found, (shape.know config given).run s = (.ok known, found)) ∧
    ∀ known found, (shape.know config given).run s = (.ok known, found) →
      known.MarkersBound [] →
      ∃ schema reached last,
        (synthesize config shape given).run (.empty, s) = (.ok schema, reached, last) ∧
          reached.names.Nodup ∧
          (∀ name, name ∈ reached.names ↔ name ∈ known.markers ∨
            (config.extractsReferences = true ∧ ∃ node ∈ known.nodes, node.Offers name)) ∧
          (config.extractsReferences = false → known.markers = [] →
            reached = .empty ∧ schema.Resolves sharedName known.declaredSchemas []) ∧
          ∀ name ∈ reached.names, name ∉ known.markers →
            ∃ node ∈ known.nodes, ∃ caps, node.record = some caps ∧ caps.name = name ∧
              (s.AliasesUnshared → caps.type.isContainerAlias = false) := by
  constructor
  · intro schema reached last returned
    obtain ⟨known, found, knows, -, -⟩ := synthesize_returned returned
    exact ⟨known, found, knows⟩
  · intro known found knows bound
    have leaves : ∀ node ∈ known.nodes, node.IsScalarLeaf := by
      have seen := Shape.know_alike Regime.looking_anything config given shape s trivial
      exact fun node member => (seen.good_of_ok knows node member).scalar
    have names := KnownShape.mem_names_shares config bound leaves
    have tidy := known.shares_isTidy config
    obtain ⟨later, ended⟩ := synthesize_of_know knows .empty s.events
    have fromEmpty : SchemaRegistry.empty.overwrittenBy (known.shares config) =
        known.shares config :=
      (known.build_into config .empty).2.symm
    rw [Store.withEvents_self, fromEmpty] at ended
    refine ⟨_, _, _, ended, tidy.unique, names, ?_, ?_⟩
    · intro noExtraction noMarkers
      have nothing := KnownShape.shares_of_not_extracts noExtraction noMarkers
      refine ⟨nothing, ?_⟩
      have resolves := (KnownShape.resolves_shares config bound).1
      rw [nothing] at resolves
      exact resolves
    · intro name member noMarker
      rcases (names name).mp member with isMarker | ⟨-, node, isNode, offers⟩
      · exact absurd isMarker noMarker
      · obtain ⟨caps, isRecord, named, shareable⟩ := offers.named
        refine ⟨node, isNode, caps, isRecord, named, fun unshared => ?_⟩
        have seen := Shape.know_alike Regime.looking_unsharing config given shape s unshared
        have isUnshared := (seen.good_of_ok knows node isNode).good caps isRecord
        cases isAlias : caps.type.isContainerAlias with
        | false => rfl
        | true =>
            rw [isUnshared isAlias] at shareable
            cases shareable

/-- Of a node, of its list of children and of the children themselves, which are nodes
again, the node alone is shared, with extraction and without. -/
theorem synthesize_names_node :
    ∀ extracts, ∃ known found schema reached last,
      (nodeShape.know .default none).run .initial = (.ok known, found) ∧
        known.nodes.length = 3 ∧
        (synthesize (SchemaConfig.default.extracting extracts) nodeShape none).run
          (.empty, .initial) = (.ok schema, reached, last) ∧
        ∀ name, name ∈ reached.names ↔ name = "Node" := by
  intro extracts
  obtain ⟨known, found, knows⟩ :
      ∃ known found, (nodeShape.know .default none).run .initial = (.ok known, found) :=
    ⟨_, _, rfl⟩
  have sameKnown :
      (nodeShape.know (SchemaConfig.default.extracting extracts) none).run .initial =
        (.ok known, found) := by
    rw [← knows]
    exact congrArg (fun step => step.run .initial) (Shape.know_congr rfl none nodeShape)
  obtain ⟨-, ends⟩ :=
    synthesize_names (SchemaConfig.default.extracting extracts) nodeShape none .initial
  have bound : known.MarkersBound [] := by
    cases knows
    exact ⟨List.mem_of_elem_eq_true rfl, trivial⟩
  obtain ⟨schema, reached, last, ran, -, names, -, named⟩ := ends known found sameKnown bound
  have isMarker : known.markers = ["Node"] := by
    cases knows
    rfl
  refine ⟨known, found, schema, reached, last, knows, ?_, ran, fun name => ?_⟩
  · cases knows
    rfl
  · constructor
    · intro member
      by_contra other
      have noMarker : name ∉ known.markers := by
        rw [isMarker, List.mem_singleton]
        exact other
      obtain ⟨node, isNode, caps, isRecord, rfl, noAlias⟩ := named name member noMarker
      have others_aliased :
          (known.nodes.all fun node => node.record.all fun caps =>
            caps.type.isContainerAlias || caps.name == "Node") = true := by
        cases knows
        rfl
      have checked := List.all_eq_true.mp others_aliased node isNode
      rw [isRecord, Option.all_some, noAlias Store.aliasesUnshared_initial, Bool.false_or] at checked
      exact other (eq_of_beq checked)
    · rintro rfl
      exact (names "Node").mpr (.inl (isMarker ▸ List.mem_singleton_self _))

end SchemaProbe

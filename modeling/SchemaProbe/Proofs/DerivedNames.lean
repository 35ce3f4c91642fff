import Mathlib.Data.Fintype.EquivFin
import SchemaProbe.Proofs.CacheCoherence
import SchemaProbe.Proofs.ComponentNames
import SchemaProbe.Proofs.Containing

namespace SchemaProbe

/-!
# Following references by derived names

Every name under which something is known about a type was given to it explicitly or
is derived from a type form, and stays so whatever a session does: what is looked up
is named by its form, and what is registered is named by its form unless it is given a
name.  Synthesis refers to nothing but the names that it finds known.  So a reference
by a name that was derived, which has no slash, is followed by its last segment to the
very name under which the schema is shared.
-/

open Step

/-! ## What a schema refers to -/

/-- Whether every reference in a schema is one by some names.  What a type declared for
itself is left out. -/
def Schema.RefersBy (declared : List Schema) (names : List String) (schema : Schema) : Prop :=
  schema.Resolves id declared (names.map (sharedHome ++ ·))

/-- A schema whose references lead to some names, however they are followed as long as
those by known names lead there, refers by those names that are known. -/
theorem Schema.RefersBy.of_resolves
    {declared : List Schema}
    {known names : List String}
    {schema : Schema}
    (resolves : ∀ follow : String → String,
      (∀ name ∈ known, follow (sharedHome ++ name) = name) →
        schema.Resolves follow declared names) :
    schema.RefersBy declared (known.filter names.contains) := by
  classical
  -- a reference by any other name is followed to one that leads nowhere
  obtain ⟨nowhere, isNowhere⟩ :=
    Infinite.exists_notMem_finset (names.map String.toList).toFinset
  have notNamed : String.ofList nowhere ∉ names := by
    intro member
    apply isNowhere
    rw [List.mem_toFinset]
    exact List.mem_map.mpr ⟨_, member, String.toList_ofList⟩
  let follow (target : String) : String :=
    if target ∈ known.map (sharedHome ++ ·) then sharedName target else String.ofList nowhere
  have followed : ∀ name ∈ known, follow (sharedHome ++ name) = name := by
    intro name member
    have isKnown : sharedHome ++ name ∈ known.map (sharedHome ++ ·) := List.mem_map_of_mem member
    exact (if_pos isKnown).trans (sharedName_sharedHome name)
  have whole := resolves follow followed
  clear resolves
  unfold RefersBy
  induction whole with
  | declared member => exact .declared member
  | @reference target description member =>
      apply Resolves.reference
      by_cases isKnown : target ∈ known.map (sharedHome ++ ·)
      · obtain ⟨name, known, rfl⟩ := List.mem_map.mp isKnown
        rw [followed name known] at member
        apply List.mem_map_of_mem
        exact List.mem_filter.mpr ⟨known, List.contains_iff_mem.mpr member⟩
      · have leads : follow target = String.ofList nowhere := if_neg isKnown
        rw [leads] at member
        exact absurd member notNamed
  | inline _ _ _ propertiesIh itemsIh additionalIh =>
      exact .inline propertiesIh itemsIh additionalIh

namespace KnownShape

/-- The names that are found in a shape: those of the types of its nodes, and those that
nodes refer back to. -/
def names (known : KnownShape) : List String :=
  known.records.map (·.name) ++ known.markers

/-- Whether some capabilities are known at nodes, and some names are referred back to by
nodes. -/
structure HoldsAt
    (nodes : List KnownShape)
    (records : List Capabilities)
    (markers : List String) :
    Prop where
  records : ∀ caps ∈ records, ∃ node ∈ nodes, node.record = some caps
  markers : ∀ name ∈ markers, ∃ node ∈ nodes, ∃ record, node = .back record name

namespace HoldsAt

variable {nodes others : List KnownShape} {records moreRecords : List Capabilities}
  {markers moreMarkers : List String}

/-- What is known about the type of a shape is known at its root. -/
theorem own (known : KnownShape) : HoldsAt known.nodes known.record.toList [] where
  records _ member := ⟨known, mem_nodes_self known, Option.mem_toList.mp member⟩
  markers _ absent := nomatch absent

/-- What holds at nodes holds at more of them. -/
theorem mono
    (holds : HoldsAt nodes records markers)
    (among : nodes ⊆ others) :
    HoldsAt others records markers where
  records caps member := by
    obtain ⟨node, isNode, isRecord⟩ := holds.records caps member
    exact ⟨node, among isNode, isRecord⟩
  markers name member := by
    obtain ⟨node, isNode, isBack⟩ := holds.markers name member
    exact ⟨node, among isNode, isBack⟩

/-- What holds at nodes holds at them together. -/
theorem append
    (first : HoldsAt nodes records markers)
    (second : HoldsAt nodes moreRecords moreMarkers) :
    HoldsAt nodes (records ++ moreRecords) (markers ++ moreMarkers) where
  records caps member := by
    rcases List.mem_append.mp member with isFirst | isSecond
    · exact first.records caps isFirst
    · exact second.records caps isSecond
  markers name member := by
    rcases List.mem_append.mp member with isFirst | isSecond
    · exact first.markers name isFirst
    · exact second.markers name isSecond

end HoldsAt

mutual

/-- What is known about types in a shape is known at its nodes, and what is referred back
to in it is referred back to by them. -/
theorem holdsAt_nodes (known : KnownShape) :
    HoldsAt known.nodes known.records known.markers := by
  have own := HoldsAt.own known
  cases known with
  | plain record header => exact own
  | declared record schema => exact own
  | back record marker =>
      refine ⟨own.records, fun name member => ?_⟩
      obtain rfl := List.mem_singleton.mp member
      exact ⟨_, mem_nodes_self _, record, rfl⟩
  | object record fields =>
      rw [nodes] at own ⊢
      rw [records, markers]
      exact own.append ((holdsAt_nodesAll fields).mono (List.subset_append_left _ _))
  | dictionary record values =>
      rw [nodes] at own ⊢
      rw [records, markers]
      exact own.append ((holdsAt_nodes values).mono (List.subset_append_left _ _))
  | array record element =>
      rw [nodes] at own ⊢
      rw [records, markers]
      exact own.append ((holdsAt_nodes element).mono (List.subset_append_left _ _))
termination_by structural known

/-- What is known about types in fields is known at their nodes, and what is referred
back to in them is referred back to by those. -/
theorem holdsAt_nodesAll (fields : List (String × Bool × KnownShape)) :
    HoldsAt (nodesAll fields) (recordsAll fields) (markersAll fields) := by
  cases fields with
  | nil => exact ⟨(fun _ absent => nomatch absent), (fun _ absent => nomatch absent)⟩
  | cons field rest =>
      obtain ⟨key, isOptional, known⟩ := field
      rw [nodesAll, recordsAll, markersAll]
      exact ((holdsAt_nodes known).mono (List.subset_append_left _ _)).append
        ((holdsAt_nodesAll rest).mono (List.subset_append_right _ _))
termination_by structural fields

end

mutual

/-- The nodes of a shape refer back to no other names than they do. -/
theorem markersBound_of_subset
    {above : List String}
    (known : KnownShape)
    (areAbove : known.markers ⊆ above) :
    known.MarkersBound above := by
  cases known with
  | plain record header => trivial
  | declared record schema => trivial
  | back record name => exact areAbove (List.mem_singleton_self name)
  | object record fields =>
      exact markersBoundAll_of_subset fields
        (List.Subset.trans areAbove (List.subset_append_right _ _))
  | dictionary record values =>
      exact markersBound_of_subset values
        (List.Subset.trans areAbove (List.subset_append_right _ _))
  | array record element =>
      exact markersBound_of_subset element
        (List.Subset.trans areAbove (List.subset_append_right _ _))
termination_by structural known

/-- The nodes of fields refer back to no other names than they do. -/
theorem markersBoundAll_of_subset
    {above : List String}
    (fields : List (String × Bool × KnownShape))
    (areAbove : markersAll fields ⊆ above) :
    MarkersBoundAll above fields := by
  cases fields with
  | nil => trivial
  | cons field rest =>
      obtain ⟨key, isOptional, known⟩ := field
      obtain ⟨firstAbove, laterAbove⟩ := List.append_subset.mp areAbove
      exact ⟨markersBound_of_subset known firstAbove, markersBoundAll_of_subset rest laterAbove⟩
termination_by structural fields

end

/-- What building a shape gives and shares refers by names that are found in the shape,
and that are shared or pending: referred back to by a node that does not lie below a
node of that name. -/
theorem build_refersBy
    {known : KnownShape}
    {pending : List String}
    (config : SchemaConfig)
    (arePending : pending ⊆ known.markers)
    (bound : known.MarkersBound pending) :
    let names := known.names.filter ((known.shares config).names ++ pending).contains
    (known.schema config).RefersBy known.declaredSchemas names ∧
      ∀ e ∈ (known.shares config).schemas, e.2.RefersBy known.declaredSchemas names := by
  have settles (follow : String → String)
      (followed : ∀ name ∈ known.names, follow (sharedHome ++ name) = name) :=
    known.build_settles config pending ⟨.empty, []⟩ bound
      (fun caps member => followed caps.name
        (List.mem_append_left _ (List.mem_map_of_mem member)))
      (fun name member => followed name (List.mem_append_right _ (arePending member)))
      (List.Subset.refl known.declaredSchemas) (fun _ absent => nomatch absent)
  have promised :
      (known.build config ⟨.empty, []⟩).2.promised pending ⊆
        (known.shares config).names ++ pending := by
    apply List.append_subset.mpr
    refine ⟨List.subset_append_left _ _, fun name member => ?_⟩
    exact List.mem_append_right _ (List.mem_of_mem_filter member)
  constructor
  · apply Schema.RefersBy.of_resolves
    intro follow followed
    exact (settles follow followed).schema.mono (List.Subset.refl _) promised
  · intro e member
    apply Schema.RefersBy.of_resolves
    intro follow followed
    exact ((settles follow followed).entries e member).mono (List.Subset.refl _) promised

end KnownShape

/-! ## Names of what is known -/

/-- Whether a name is derived from a type form. -/
def IsDerivedName (name : String) : Prop :=
  ∃ a : TypeForm, a.schemaName = name

/-- A reference by a derived name is followed to that name. -/
theorem IsDerivedName.followed
    {name : String}
    (derived : IsDerivedName name) :
    (Schema.referenceTo name).referenceName? = some name := by
  obtain ⟨a, rfl⟩ := derived
  exact congrArg some (lastSegment_sharedHome a.isComponentName_schemaName.noSlash)

/-- Whether all that is known about types is good, in the registry of a session and in the
shared one. -/
def Store.AllKnown (good : Capabilities → Prop) (s : Store) : Prop :=
  ∀ scope, ∀ e ∈ (s.registry scope).explicit ++ (s.registry scope).cache, good e.2

/-- The regime in which all that is known about types is good. -/
def Regime.knowing (good : Capabilities → Prop) : Regime Store :=
  ⟨Store.AllKnown good, fun _ => True⟩

namespace Store.AllKnown

variable {good : Capabilities → Prop} {s : Store} {caps : Capabilities}

/-- What is found without finding anything out is good. -/
theorem find?
    {scope : Scope}
    {a : TypeForm}
    (areGood : s.AllKnown good)
    (found : (s.registry scope).find? a = some caps) :
    good caps := by
  rcases Option.or_eq_some_iff.mp found with cached | ⟨-, registered⟩
  · exact areGood scope _ (List.mem_append_right _ (Table.mem_of_lookup cached))
  · exact areGood scope _ (List.mem_append_left _ (Table.mem_of_lookup registered))

/-- A change to a registry that keeps what it knows good keeps all that is known good. -/
theorem changeRegistry
    {change : CapabilityRegistry → CapabilityRegistry}
    (areGood : s.AllKnown good)
    (scope : Scope)
    (keeps : ∀ r : CapabilityRegistry, (∀ e ∈ r.explicit ++ r.cache, good e.2) →
      ∀ e ∈ (change r).explicit ++ (change r).cache, good e.2) :
    (s.changeRegistry scope change).AllKnown good := by
  have shared := areGood .shared
  have current := areGood .current
  obtain ⟨w, base, own, guard, events⟩ := s
  cases scope with
  | shared =>
      rintro (_ | _)
      · exact keeps _ shared
      · cases own with
        | none => exact keeps _ shared
        | some own => exact current
  | current =>
      cases own with
      | none =>
          rintro (_ | _)
          · exact keeps _ shared
          · exact keeps _ shared
      | some own =>
          rintro (_ | _)
          · exact shared
          · exact keeps _ current

/-- Remembering something good keeps all that is known good. -/
theorem remember
    (areGood : s.AllKnown good)
    (scope : Scope)
    (a : TypeForm)
    (isGood : good caps) :
    (s.changeRegistry scope fun r => r.remember a caps).AllKnown good := by
  apply areGood.changeRegistry
  intro r known e member
  rcases List.mem_append.mp member with registered | cached
  · exact known e (List.mem_append_left _ registered)
  · rcases Table.mem_or_eq_of_mem_set cached with old | rfl
    · exact known e (List.mem_append_right _ old)
    · exact isGood

/-- Registering something good keeps all that is known good. -/
theorem register
    (areGood : s.AllKnown good)
    (scope : Scope)
    (isGood : good caps) :
    (s.changeRegistry scope (·.register caps)).AllKnown good := by
  apply areGood.changeRegistry
  intro r known e member
  rcases List.mem_append.mp member with registered | cached
  · rcases Table.mem_or_eq_of_mem_set registered with old | rfl
    · exact known e (List.mem_append_left _ old)
    · exact isGood
  · exact known e (List.mem_append_right _ (List.mem_of_mem_filter cached))

/-- What is good is good enough for less. -/
theorem mono
    {enough : Capabilities → Prop}
    (areGood : s.AllKnown good)
    (isEnough : ∀ caps, good caps → enough caps) :
    s.AllKnown enough :=
  fun scope e member => isEnough _ (areGood scope e member)

end Store.AllKnown

/-- Whether a type is known under a name that is derived from a type form. -/
def Capabilities.IsDerived (caps : Capabilities) : Prop :=
  IsDerivedName caps.name

/-- The types that are registered from the start go by their own names. -/
theorem Store.allKnown_initial : Store.initial.AllKnown Capabilities.IsDerived := by
  have derived (b : Builtin) (schema : Schema) (placeholder : Value) :
      (CapabilityRegistry.selfDescribing b schema placeholder).IsDerived :=
    ⟨.builtin b, rfl⟩
  have defaults : ∀ e ∈ CapabilityRegistry.defaults.explicit ++ CapabilityRegistry.defaults.cache,
      e.2.IsDerived := by
    rintro e (_ | ⟨_, _ | ⟨_, _ | ⟨_, _ | ⟨_, absent⟩⟩⟩⟩)
    · exact derived _ _ _
    · exact derived _ _ _
    · exact derived _ _ _
    · exact derived _ _ _
    · cases absent
  rintro (_ | _)
  · exact defaults
  · exact defaults

/-! ## Looking up derives names -/

section Naming

variable {good : Capabilities → Prop}

/-- What is known about a class goes by the name of the class. -/
theorem classCapabilities_name
    {c : ClassRef}
    {caps : Capabilities}
    {w reached : World}
    (ran : (classCapabilities c).run w = (.ok caps, reached)) :
    caps.name = c.schemaName := by
  unfold classCapabilities at ran
  rw [Step.run_bind_of_ok (Step.run_current w)] at ran
  dsimp only at ran
  split at ran
  · cases ran
    rfl
  · split at ran
    · cases ran
      rfl
    · obtain ⟨cases, between, -, continued⟩ := Step.run_bind_eq_ok_iff.mp ran
      cases continued
      rfl

/-- Finding something out in the declared classes changes nothing that is known about
types. -/
theorem inWorld_knowing
    {α : Type}
    {isGood : α → Prop}
    {step : Step World α}
    (returns : ∀ w a reached, step.run w = (.ok a, reached) → isGood a) :
    Alike (.knowing good) isGood (inWorld step) (inWorld step) := by
  intro s holds
  apply AlikeAt.of_run
  · exact holds
  · intro _ _
    trivial
  · intro a ended
    exact returns s.world a _ (Prod.ext ended rfl)

/-- Looking up and remembering keeps what is known good if finding out does. -/
theorem remembered_knowing
    {resolve : Step Store Capabilities}
    (scope : Scope)
    (a : TypeForm)
    (resolves : Alike (.knowing good) good resolve resolve) :
    Alike (.knowing good) good (remembered scope a resolve) (remembered scope a resolve) := by
  unfold remembered
  apply Alike.current_bind
  intro s holds
  split
  · rename_i known found
    exact .pure holds (Store.AllKnown.find? holds found)
  · apply (resolves s holds).bind
    intro found reached reachedHolds isGood
    exact .ok rfl rfl (Store.AllKnown.remember reachedHolds scope a isGood) isGood

variable (derived : ∀ caps : Capabilities, caps.IsDerived → good caps)

include derived

/-- A class is looked up under its name. -/
theorem lookupClass_knowing (scope : Scope) (c : ClassRef) :
    Alike (.knowing good) good (lookupClass scope c) (lookupClass scope c) := by
  unfold lookupClass
  apply remembered_knowing
  split
  · exact .pure (derived _ ⟨.any, rfl⟩)
  · have found :
        Alike (.knowing good) good (inWorld (classCapabilities c))
          (inWorld (classCapabilities c)) := by
      apply inWorld_knowing
      intro w caps reached ran
      exact derived caps ⟨.cls c, (classCapabilities_name ran).symm⟩
    unfold resolveClass
    apply found.bind
    intro caps isGood
    split
    · have noted : Alike (.knowing good) anything (note (.withoutReader caps.name))
          (note (.withoutReader caps.name)) :=
        .update fun _ holds => holds
      exact noted.bind fun _ _ => .pure isGood
    · exact .pure isGood

/-- What is applied to arguments is found out about under its own name. -/
theorem resolveApplied_knowing
    (scope : Scope)
    (a : TypeForm)
    (origin : Origin)
    (args : List TypeForm) :
    Alike (.knowing good) good (resolveApplied scope a origin args)
      (resolveApplied scope a origin args) := by
  have asOrigin (c : ClassRef) :
      Alike (.knowing good) good (resolveApplied.asOrigin scope a c)
        (resolveApplied.asOrigin scope a c) := by
    apply (lookupClass_knowing derived scope c).bind
    intro found _
    exact .pure (derived _ ⟨a, rfl⟩)
  unfold resolveApplied
  split
  · split
    · exact .pure (derived _ ⟨a, rfl⟩)
    · split
      · exact .pure (derived _ ⟨a, rfl⟩)
      · split
        · exact .pure (derived _ ⟨a, rfl⟩)
        · exact asOrigin _
  · exact asOrigin _
  · exact .fail trivial

/-- A type form without notes is found out about under its own name, that of what it is
read as if it may be null, or the name for a type about which nothing can be said. -/
theorem resolveBare_knowing (scope : Scope) (a : TypeForm) :
    Alike (.knowing good) good (resolveBare scope a) (resolveBare scope a) := by
  unfold resolveBare
  split
  · exact .pure (derived _ ⟨.any, rfl⟩)
  · exact .pure (derived _ ⟨.any, rfl⟩)
  · exact lookupClass_knowing derived scope _
  · exact .fail trivial
  · exact .fail trivial
  · apply Alike.pure
    unfold unionCapabilities
    split
    · exact derived _ ⟨_, rfl⟩
    · exact derived _ ⟨_, rfl⟩
  · exact .current_bind fun s holds => .pure holds (derived _ ⟨_, rfl⟩)
  · exact resolveApplied_knowing derived scope _ _ _
  · exact resolveApplied_knowing derived scope _ _ _
  · exact resolveApplied_knowing derived scope _ _ _
  · exact .fail trivial

/-- What is looked up is good if all that was known and all that goes by a derived name
is. -/
theorem lookup_knowing (scope : Scope) (a : TypeForm) :
    Alike (.knowing good) good (lookup scope a) (lookup scope a) := by
  induction a using lookup.induct with
  | case1 inner notes inductionHypothesis =>
      rw [lookup]
      exact remembered_knowing scope _ inductionHypothesis
  | case2 a notAnnotated =>
      rw [lookup]
      · exact remembered_knowing scope _ (resolveBare_knowing derived scope a)
      · exact notAnnotated

/-! ## What a session keeps -/

/-- What is known about types stays good while types are probed. -/
theorem Regime.knowing_persists : (Regime.knowing good).Persists .empty where
  interrupts _ := trivial
  lookups scope a := (lookup_knowing derived scope a).mono fun _ _ => trivial
  besides _ _ _ holds := holds
  finds _ _ := inWorld_knowing fun _ _ _ _ => trivial

/-- What is known about types stays good while a type is described. -/
theorem describe_knowing (a : TypeForm) :
    Alike (.knowing good) anything (describe a) (describe a) := by
  unfold describe
  apply Alike.current_bind
  intro s holds
  exact (Regime.knowing_persists derived).describeTo _ a s holds

/-- What is known about the types of visited nodes is good. -/
theorem Regime.looking_knowing : (Regime.knowing good).Looking good where
  look a := by
    unfold lookup?
    apply (lookup_knowing derived .current a).attempt.bind
    intro outcome isGood
    cases outcome with
    | ok caps => exact .pure fun _ same => by cases same; exact isGood caps rfl
    | error f =>
        dsimp only
        split
        · exact .pure fun _ absent => nomatch absent
        · exact .fail trivial
  evaluate name hook := inWorld_knowing fun _ _ _ _ => trivial

/-- What is known in a shape is good, and what is referred back to in it is a name of
something good. -/
theorem Shape.know_knowing
    {config : SchemaConfig}
    {given : Option TypeForm}
    {shape : Shape}
    {known : KnownShape}
    {s found : Store}
    (areGood : s.AllKnown good)
    (knows : (shape.know config given).run s = (.ok known, found)) :
    (∀ caps ∈ known.records, good caps) ∧
      ∀ name ∈ known.markers, ∃ caps, good caps ∧ caps.name = name := by
  have seen := Shape.know_alike (Regime.looking_knowing derived) config given shape s areGood
  have sees := seen.good_of_ok knows
  constructor
  · intro caps member
    obtain ⟨node, isNode, isRecord⟩ := known.holdsAt_nodes.records caps member
    exact (sees node isNode).good caps isRecord
  · intro name member
    obtain ⟨node, isNode, record, rfl⟩ := known.holdsAt_nodes.markers name member
    rcases (sees _ isNode).back with rfl | referredTo
    · exact ⟨.named .any anyName, derived _ ⟨.any, rfl⟩, rfl⟩
    · exact referredTo

/-- What is known about types stays good while a schema is synthesised. -/
theorem synthesize_knowing
    (config : SchemaConfig)
    (shape : Shape)
    (given : Option TypeForm) :
    Alike ((Regime.knowing good).beside SchemaRegistry) anything (synthesize config shape given)
      (synthesize config shape given) := by
  rintro ⟨registry, s⟩ holds
  have knows :=
    (Shape.know_alike (Regime.looking_knowing derived) config given shape s holds).holds_run
  apply AlikeAt.of_run
  · rw [synthesize_run]
    have builtFrom :=
      shape.synthesize_builtFrom config given ⟨registry, []⟩ s (s.events ++ [.synthesisStarted])
    cases found : (shape.know config given).run s with
    | mk outcome reached =>
        rw [found] at builtFrom knows
        cases outcome with
        | ok known =>
            obtain ⟨later, ended⟩ := builtFrom
            rw [ended]
            exact knows
        | error interrupt =>
            obtain ⟨left, later, ended⟩ := builtFrom
            rw [ended]
            exact knows
  · intro _ _
    trivial
  · intro _ _
    trivial

end Naming

/-- What is done in a session before a schema is asked for: classes are declared in any
way, registries are called, types are described and schemas are synthesised. -/
inductive SessionCall
  | declare (change : World → World)
  | ask (scope : Scope) (call : RegistryCall)
  | describe (a : TypeForm)
  | synthesize (config : SchemaConfig) (shape : Shape) (given : Option TypeForm)

/-- Does what a session does; its faults are the caller's. -/
def SessionCall.make : SessionCall → Step (SchemaRegistry × Store) Unit
  | .declare change => Step.shared (Step.inWorld (Step.update change))
  | .ask scope call => Step.shared (call.make scope)
  | .describe a => do
    let _ ← Step.attempt (Step.shared (SchemaProbe.describe a))
  | .synthesize config shape given => do
    let _ ← Step.attempt (SchemaProbe.synthesize config shape given)

/-- Whether what is known about a type is what a session registered it as under an
explicit name. -/
def Capabilities.IsNamedIn (calls : List SessionCall) (caps : Capabilities) : Prop :=
  ∃ scope r, .ask scope (.register r) ∈ calls ∧ r.type = caps.type ∧ r.name = some caps.name

section Sessions

variable {good : Capabilities → Prop}

/-- A registration under no name goes by the name of the type. -/
theorem Registration.isDerived_or_named (r : Registration) (w : World) :
    (r.capabilities w).IsDerived ∨ r.name = some (r.capabilities w).name := by
  change IsDerivedName (firstText [r.name] r.type.schemaName) ∨
    r.name = some (firstText [r.name] r.type.schemaName)
  cases r.name with
  | none => exact .inl ⟨r.type, rfl⟩
  | some name =>
      by_cases isEmpty : name.isEmpty = true
      · exact .inl ⟨r.type, by simp [firstText, isEmpty]⟩
      · exact .inr (by simp [firstText, isEmpty])

variable (derived : ∀ caps : Capabilities, caps.IsDerived → good caps)

include derived

/-- What a session does keeps what is known about types good if explicit names are. -/
theorem SessionCall.make_knowing
    (call : SessionCall)
    (named : ∀ caps : Capabilities, caps.IsNamedIn [call] → good caps) :
    Alike ((Regime.knowing good).beside SchemaRegistry) anything call.make call.make := by
  cases call with
  | declare change =>
      have declares : Alike (.knowing good) anything (inWorld (update change))
          (inWorld (update change)) :=
        inWorld_knowing fun _ _ _ _ => trivial
      exact declares.shared
  | ask scope call =>
      cases call with
      | register r =>
          apply Alike.shared
          apply Alike.update
          intro s holds
          apply Store.AllKnown.register holds
          rcases r.isDerived_or_named s.world with isDerived | isNamed
          · exact derived _ isDerived
          · exact named _ ⟨scope, r, List.mem_singleton_self _, rfl, isNamed⟩
      | lookup a =>
          apply Alike.shared
          exact (lookup_knowing derived scope a).attempt.bind fun _ _ => .pure trivial
  | describe a =>
      exact (describe_knowing derived a).shared.attempt.bind fun _ _ => .pure trivial
  | synthesize config shape given =>
      exact (synthesize_knowing derived config shape given).attempt.bind fun _ _ => .pure trivial

/-- A session keeps what is known about types good if its explicit names are. -/
theorem visit_knowing
    (calls : List SessionCall)
    (named : ∀ caps : Capabilities, caps.IsNamedIn calls → good caps) :
    Alike ((Regime.knowing good).beside SchemaRegistry) anything
      (Step.visit SessionCall.make calls) (Step.visit SessionCall.make calls) := by
  induction calls with
  | nil => exact .pure trivial
  | cons call rest inductionHypothesis =>
      have first := call.make_knowing derived fun caps ⟨scope, r, member, isNamed⟩ =>
        named caps ⟨scope, r, List.mem_singleton.mp member ▸ List.mem_cons_self, isNamed⟩
      apply first.bind
      intro _ _
      apply inductionHypothesis
      rintro caps ⟨scope, r, member, isNamed⟩
      exact named caps ⟨scope, r, List.mem_cons_of_mem _ member, isNamed⟩

end Sessions

/-! ## References by derived names -/

/-- Every type form, whatever its classes are called and whatever values it holds, has a
name that is safe in references, so that a reference by such a name is followed by its
last segment to the name.  When a schema is synthesised in a session, each type that the
session did not give a name is known under a name derived so.  All references that
synthesis writes, in the schema that it gives back and in those that it shares, are by
names of types in the shape, and lead to a shared schema of that name, unless the name is
pending: a node refers back to it that does not lie below a node of that name. -/
theorem synthesize_refersByDerived
    {calls : List SessionCall}
    {start s last : Store}
    {registry between reached : SchemaRegistry}
    {ended : Except Interrupt Unit}
    {config : SchemaConfig}
    {shape : Shape}
    {given : Option TypeForm}
    {schema : Schema}
    (begins : start.AllKnown Capabilities.IsDerived)
    (session : (Step.visit SessionCall.make calls).run (registry, start) = (ended, between, s))
    (returned : (synthesize config shape given).run (between, s) = (.ok schema, reached, last)) :
    (∀ a : TypeForm, IsComponentName a.schemaName) ∧
      (∀ name, IsDerivedName name → (Schema.referenceTo name).referenceName? = some name) ∧
      ∃ known found, (shape.know config given).run s = (.ok known, found) ∧
        (∀ caps ∈ known.records, caps.IsNamedIn calls ∨ caps.IsDerived) ∧
        (∀ name ∈ known.markers,
          ∃ caps : Capabilities, (caps.IsNamedIn calls ∨ caps.IsDerived) ∧ caps.name = name) ∧
        known.MarkersBound known.markers ∧
        ∀ pending ⊆ known.markers, known.MarkersBound pending →
          let names := known.names.filter (reached.names ++ pending).contains
          schema.RefersBy known.declaredSchemas names ∧
            ∀ e ∈ reached.schemas,
              e ∈ between.schemas ∨ e.2.RefersBy known.declaredSchemas names := by
  refine ⟨TypeForm.isComponentName_schemaName, fun name derived => derived.followed, ?_⟩
  obtain ⟨known, found, knows, rfl, rfl⟩ := synthesize_returned returned
  have begun : start.AllKnown fun caps => caps.IsNamedIn calls ∨ caps.IsDerived :=
    begins.mono fun _ isDerived => .inr isDerived
  have good : s.AllKnown fun caps => caps.IsNamedIn calls ∨ caps.IsDerived := by
    have kept :
        Alike ((Regime.knowing fun caps => caps.IsNamedIn calls ∨ caps.IsDerived).beside
          SchemaRegistry) anything (Step.visit SessionCall.make calls)
          (Step.visit SessionCall.make calls) :=
      visit_knowing (fun _ => .inr) calls (fun _ => .inl)
    have holds := (kept (registry, start) begun).holds_run
    rwa [session] at holds
  obtain ⟨recordsGood, markersGood⟩ := Shape.know_knowing (fun _ => .inr) good knows
  refine ⟨known, found, knows, recordsGood, markersGood,
    known.markersBound_of_subset (List.Subset.refl _), fun pending arePending bound => ?_⟩
  obtain ⟨sameSchema, overwritten⟩ := known.build_into config between
  rw [sameSchema, overwritten]
  obtain ⟨schemaRefers, entriesRefer⟩ := known.build_refersBy config arePending bound
  -- a name that is shared by this synthesis is shared at its end
  have more : known.names.filter ((known.shares config).names ++ pending).contains ⊆
      known.names.filter ((between.overwrittenBy (known.shares config)).names ++ pending).contains := by
    intro name member
    obtain ⟨isFound, isShared⟩ := List.mem_filter.mp member
    refine List.mem_filter.mpr ⟨isFound, List.contains_iff_mem.mpr ?_⟩
    rcases List.mem_append.mp (List.contains_iff_mem.mp isShared) with shared | isPending
    · apply List.mem_append_left
      exact ((known.shares_isTidy config).mem_names_overwrittenBy between).mpr (.inr shared)
    · exact List.mem_append_right _ isPending
  have moreTargets := List.map_subset (sharedHome ++ ·) more
  refine ⟨schemaRefers.mono (List.Subset.refl _) moreTargets, fun e member => ?_⟩
  rcases Table.mem_or_mem_of_mem_overwrite member with old | new
  · exact .inl old
  · exact .inr ((entriesRefer e new).mono (List.Subset.refl _) moreTargets)

/-- The registration of orders under a name with a slash. -/
def orderRegistration : Registration where
  type := .cls (.user ⟨1, "Order", "shop"⟩)
  reader := none
  kind := none
  placeholder := .null
  cases := none
  schema := none
  description := none
  isDate := false
  name := some "shop/Order"
  isReferenceable := true

/-- The shape of a node with children and an order. -/
def orderShape : Shape :=
  .keyed (.of (some (.cls nodeClass))) true
    [("children",
      .unkeyed (.of (some (.generic (.cls (.builtin .list)) [.cls nodeClass])))
        (.recursive (.of (some (.cls nodeClass))) (.cls nodeClass))),
      ("order", .keyed (.of (some orderRegistration.type)) true [])]

/-- The state of a session in which orders were registered. -/
def orderStore : Store :=
  Store.initial.changeRegistry .current (·.register (orderRegistration.capabilities .empty))

/-- Where orders are registered under a name of their own, the schema of a node with an
order refers by the name of its class, which is followed to that name, and by the name
of orders, which is not. -/
theorem synthesize_refersByDerived_order :
    (Step.visit SessionCall.make [.ask .current (.register orderRegistration)]).run
        (.empty, .initial) = (.ok (), .empty, orderStore) ∧
      ∃ schema reached last,
        (synthesize .default orderShape none).run (.empty, orderStore) =
          (.ok schema, reached, last) ∧
        reached.names = ["shop/Order", "Node"] ∧
        (∀ e ∈ reached.schemas, e.2.RefersBy [] reached.names) ∧
        (Schema.referenceTo "Node").referenceName? = some "Node" ∧
        (Schema.referenceTo "shop/Order").referenceName? = some "Order" := by
  have session :
      (Step.visit SessionCall.make [.ask .current (.register orderRegistration)]).run
        (.empty, .initial) = (.ok (), .empty, orderStore) :=
    rfl
  obtain ⟨schema, reached, last, returned, names⟩ :
      ∃ schema reached last,
        (synthesize .default orderShape none).run (.empty, orderStore) =
          (.ok schema, reached, last) ∧ reached.names = ["shop/Order", "Node"] :=
    ⟨_, _, _, rfl, rfl⟩
  obtain ⟨-, followed, known, found, knows, -, -, -, refers⟩ :=
    synthesize_refersByDerived Store.allKnown_initial session returned
  have undeclared : known.declaredSchemas = [] := by
    cases knows
    rfl
  have bound : known.MarkersBound [] := by
    cases knows
    exact ⟨List.mem_of_elem_eq_true rfl, trivial, trivial⟩
  obtain ⟨-, entriesRefer⟩ := refers [] (List.nil_subset _) bound
  refine ⟨session, schema, reached, last, returned, names, fun e member => ?_,
    followed "Node" ⟨.cls nodeClass, rfl⟩, by decide⟩
  rcases entriesRefer e member with old | new
  · cases old
  · rw [undeclared] at new
    apply new.mono (List.Subset.refl _)
    apply List.map_subset
    intro name isNamed
    have isShared := List.contains_iff_mem.mp (List.mem_filter.mp isNamed).2
    rwa [List.append_nil] at isShared

end SchemaProbe

import SchemaProbe.Proofs.Tables
import SchemaProbe.Proofs.References

namespace SchemaProbe

/-!
# Synthesis does not read what it shares

Synthesis only ever sets names in the registry that it is given, so all that the
registry held before can be added afterwards.  What is left is the registry
that the same synthesis makes of an empty one, written over the given registry.
Writing one table over another is associative, and a table written over itself
is the same table: a second run therefore changes nothing.
-/

namespace SchemaRegistry

/-- A registry with everything that a later one shares written over it. -/
def overwrittenBy (r later : SchemaRegistry) : SchemaRegistry :=
  ⟨Table.overwrite r.schemas later.schemas, Table.overwrite r.origins later.origins⟩

/-- Whether every name is shared once and has its origin. -/
structure IsTidy (r : SchemaRegistry) : Prop where
  unique : r.names.Nodup
  origins : r.origins.map Prod.fst = r.names

/-- Nothing is shared in the empty registry, so nothing is shared twice. -/
theorem isTidy_empty : empty.IsTidy :=
  ⟨List.nodup_nil, rfl⟩

/-- Registering a schema keeps a registry tidy. -/
theorem IsTidy.register
    {r : SchemaRegistry}
    (tidy : r.IsTidy)
    (name : String)
    (schema : Schema)
    (origin : Option TypeForm) :
    (r.register name schema origin).1.IsTidy := by
  unfold SchemaRegistry.register
  split
  · have sameKnown :
        (r.origins.any fun e => e.1 == name) = r.schemas.any fun e => e.1 == name := by
      rw [Bool.eq_iff_iff, Table.any_key_iff, Table.any_key_iff, tidy.origins]
      rfl
    refine ⟨Table.nodup_keys_set tidy.unique name schema, ?_⟩
    cases known : r.schemas.any fun e => e.1 == name with
    | true =>
        exact (Table.keys_set_of_known origin (sameKnown.trans known)).trans
          (tidy.origins.trans (Table.keys_set_of_known schema known).symm)
    | false =>
        refine (Table.keys_set_of_unknown origin (sameKnown.trans known)).trans ?_
        rw [tidy.origins]
        exact (Table.keys_set_of_unknown schema known).symm
  · exact tidy

/-- Whether every shared schema can be shared. -/
def IsShareable (r : SchemaRegistry) : Prop :=
  ∀ e ∈ r.schemas, e.2.isReferenceable = true

/-- Registering a schema shares what can be shared and nothing else. -/
theorem IsShareable.register
    {r : SchemaRegistry}
    (shareable : r.IsShareable)
    (name : String)
    (schema : Schema)
    (origin : Option TypeForm) :
    (r.register name schema origin).1.IsShareable := by
  unfold SchemaRegistry.register
  split
  · rename_i referenceable
    intro e member
    rcases Table.mem_or_eq_of_mem_set member with old | rfl
    · exact shareable e old
    · exact referenceable
  · exact shareable

/-- Registering a schema writes over a registry what it registers in another
one. -/
theorem register_overwrittenBy
    (r later : SchemaRegistry)
    (name : String)
    (schema : Schema)
    (origin : Option TypeForm) :
    (r.overwrittenBy later).register name schema origin =
      (r.overwrittenBy (later.register name schema origin).1,
        (later.register name schema origin).2) := by
  unfold register
  split
  · unfold overwrittenBy
    rw [Table.overwrite_set, Table.overwrite_set]
  · rfl

/-- A registry over which something tidy was written twice is the one over which
it was written once. -/
theorem IsTidy.overwrittenBy_overwrittenBy
    {later : SchemaRegistry}
    (tidy : later.IsTidy)
    (r : SchemaRegistry) :
    (r.overwrittenBy later).overwrittenBy later = r.overwrittenBy later := by
  have uniqueOrigins : (later.origins.map Prod.fst).Nodup := by
    rw [tidy.origins]
    exact tidy.unique
  unfold overwrittenBy
  rw [Table.overwrite_overwrite, Table.overwrite_overwrite, Table.overwrite_self tidy.unique,
    Table.overwrite_self uniqueOrigins]

/-- What becomes of a registry when a later one is written over it: other names
keep their schema, origin and place, the names of the later one get its schema
and origin, and new names follow in its order. -/
structure Overwrites (r later result : SchemaRegistry) : Prop where
  names : result.names = r.names ++ later.names.filter fun name => !r.names.contains name
  kept : ∀ name ∉ later.names,
    result.get? name = r.get? name ∧ result.origin? name = r.origin? name
  replaced : ∀ name ∈ later.names,
    result.get? name = later.get? name ∧ result.origin? name = later.origin? name

/-- Writing a tidy registry over another one does what `Overwrites` says. -/
theorem IsTidy.overwrites
    {later : SchemaRegistry}
    (tidy : later.IsTidy)
    (r : SchemaRegistry) :
    r.Overwrites later (r.overwrittenBy later) := by
  have uniqueOrigins : (later.origins.map Prod.fst).Nodup := by
    rw [tidy.origins]
    exact tidy.unique
  constructor
  · exact Table.keys_overwrite r.schemas tidy.unique
  · intro name unknown
    have noOrigin : name ∉ later.origins.map Prod.fst := by
      rw [tidy.origins]
      exact unknown
    unfold get? origin? overwrittenBy
    rw [Table.lookup_overwrite _ _ tidy.unique, Table.lookup_overwrite _ _ uniqueOrigins,
      Table.lookup_eq_none_iff_not_mem.mpr unknown, Table.lookup_eq_none_iff_not_mem.mpr noOrigin]
    exact ⟨rfl, rfl⟩
  · intro name known
    have hasOrigin : name ∈ later.origins.map Prod.fst := by
      rw [tidy.origins]
      exact known
    have schemaFound := mt Table.lookup_eq_none_iff_not_mem.mp (not_not_intro known)
    have originFound := mt Table.lookup_eq_none_iff_not_mem.mp (not_not_intro hasOrigin)
    obtain ⟨schema, schemaIs⟩ := Option.ne_none_iff_exists'.mp schemaFound
    obtain ⟨origin, originIs⟩ := Option.ne_none_iff_exists'.mp originFound
    unfold get? origin? overwrittenBy
    rw [Table.lookup_overwrite _ _ tidy.unique, Table.lookup_overwrite _ _ uniqueOrigins,
      schemaIs, originIs]
    exact ⟨rfl, rfl⟩

/-- The names after writing a tidy registry over another one are those of both. -/
theorem IsTidy.mem_names_overwrittenBy
    {later : SchemaRegistry}
    {name : String}
    (tidy : later.IsTidy)
    (r : SchemaRegistry) :
    name ∈ (r.overwrittenBy later).names ↔ name ∈ r.names ∨ name ∈ later.names := by
  rw [(tidy.overwrites r).names]
  by_cases isOld : name ∈ r.names <;> simp [isOld]

end SchemaRegistry

/-! ## Building over a registry -/

/-- The state of synthesis with a registry underneath. -/
def Synthesis.above (r : SchemaRegistry) (σ : Synthesis) : Synthesis :=
  { σ with registry := r.overwrittenBy σ.registry }

/-- What is done with a node at its end does not depend on what lies
underneath. -/
theorem Synthesis.finish_above
    (config : SchemaConfig)
    (r : SchemaRegistry)
    (record : Option Capabilities)
    (schema : Schema)
    (σ : Synthesis) :
    (σ.above r).finish config record schema =
      ((σ.finish config record schema).1, (σ.finish config record schema).2.above r) := by
  cases record with
  | none => rfl
  | some caps =>
      have sameNames : (σ.above r).recursiveNames = σ.recursiveNames := rfl
      have registered := r.register_overwrittenBy σ.registry caps.name (caps.describe schema)
        (some caps.type)
      unfold finish
      simp only [sameNames]
      split
      · change (((r.overwrittenBy σ.registry).register _ _ _).2, _) = _
        simp only [above, registered]
      · rfl

namespace KnownShape

mutual

/-- Building does not depend on what lies underneath. -/
theorem build_above
    (config : SchemaConfig)
    (r : SchemaRegistry)
    (known : KnownShape)
    (σ : Synthesis) :
    known.build config (σ.above r) =
      ((known.build config σ).1, (known.build config σ).2.above r) := by
  cases known with
  | plain record header =>
      rw [build, build]
      exact σ.finish_above config r record _
  | declared record schema =>
      rw [build, build]
      exact σ.finish_above config r (some record) schema
  | back record name =>
      rw [build, build]
      exact (σ.referBack name).finish_above config r record _
  | object record fields =>
      rw [build, build, buildFields_above config r fields [] [] σ]
      exact Synthesis.finish_above config r record _ _
  | dictionary record values =>
      rw [build, build, build_above config r values σ]
      exact Synthesis.finish_above config r record _ _
  | array record element =>
      rw [build, build, build_above config r element σ]
      exact Synthesis.finish_above config r record _ _
termination_by structural known

/-- Building fields does not depend on what lies underneath. -/
theorem buildFields_above
    (config : SchemaConfig)
    (r : SchemaRegistry)
    (fields : List (String × Bool × KnownShape))
    (properties : List (String × Schema))
    (required : List String)
    (σ : Synthesis) :
    buildFields config fields properties required (σ.above r) =
      ((buildFields config fields properties required σ).1,
        (buildFields config fields properties required σ).2.above r) := by
  cases fields with
  | nil => rfl
  | cons field rest =>
      obtain ⟨name, isOptional, known⟩ := field
      rw [buildFields, buildFields, build_above config r known σ]
      exact buildFields_above config r rest _ _ _
termination_by structural fields

end

section Invariants

variable {Holds : SchemaRegistry → Prop}

/-- What registering a schema keeps holds after a node is done. -/
theorem finish_keeps
    (registers : ∀ r name schema origin, Holds r → Holds (r.register name schema origin).1)
    (config : SchemaConfig)
    (record : Option Capabilities)
    (schema : Schema)
    (σ : Synthesis)
    (holds : Holds σ.registry) :
    Holds (σ.finish config record schema).2.registry := by
  unfold Synthesis.finish
  split
  · exact holds
  · split
    · exact registers _ _ _ _ holds
    · exact holds

mutual

/-- What registering a schema keeps, building keeps. -/
theorem build_keeps
    (registers : ∀ r name schema origin, Holds r → Holds (r.register name schema origin).1)
    (config : SchemaConfig)
    (known : KnownShape)
    (σ : Synthesis)
    (holds : Holds σ.registry) :
    Holds (known.build config σ).2.registry := by
  cases known with
  | plain record header =>
      rw [build]
      exact finish_keeps registers config record _ σ holds
  | declared record schema =>
      rw [build]
      exact finish_keeps registers config (some record) schema σ holds
  | back record name =>
      rw [build]
      exact finish_keeps registers config record _ (σ.referBack name) holds
  | object record fields =>
      rw [build]
      exact finish_keeps registers config record _ _
        (buildFields_keeps registers config fields [] [] σ holds)
  | dictionary record values =>
      rw [build]
      exact finish_keeps registers config record _ _ (build_keeps registers config values σ holds)
  | array record element =>
      rw [build]
      exact finish_keeps registers config record _ _ (build_keeps registers config element σ holds)
termination_by structural known

/-- What registering a schema keeps, building fields keeps. -/
theorem buildFields_keeps
    (registers : ∀ r name schema origin, Holds r → Holds (r.register name schema origin).1)
    (config : SchemaConfig)
    (fields : List (String × Bool × KnownShape))
    (properties : List (String × Schema))
    (required : List String)
    (σ : Synthesis)
    (holds : Holds σ.registry) :
    Holds (buildFields config fields properties required σ).2.registry := by
  cases fields with
  | nil => exact holds
  | cons field rest =>
      obtain ⟨name, isOptional, known⟩ := field
      rw [buildFields]
      exact buildFields_keeps registers config rest _ _ _ (build_keeps registers config known σ holds)
termination_by structural fields

end

end Invariants

/-- What building a shape shares, if nothing was shared before. -/
def shares (config : SchemaConfig) (known : KnownShape) : SchemaRegistry :=
  (known.build config ⟨.empty, []⟩).2.registry

/-- The schema of a shape, if nothing was shared before. -/
def schema (config : SchemaConfig) (known : KnownShape) : Schema :=
  (known.build config ⟨.empty, []⟩).1

/-- What building a shape shares is tidy. -/
theorem shares_isTidy (config : SchemaConfig) (known : KnownShape) :
    (known.shares config).IsTidy :=
  build_keeps (fun _ name schema origin tidy => tidy.register name schema origin) config known
    ⟨.empty, []⟩ SchemaRegistry.isTidy_empty

/-- What building a shape shares can be shared. -/
theorem shares_isShareable (config : SchemaConfig) (known : KnownShape) :
    (known.shares config).IsShareable :=
  build_keeps (fun _ name schema origin shareable => shareable.register name schema origin) config
    known ⟨.empty, []⟩ fun _ absent => nomatch absent

/-- Building a shape into a registry gives the schema that it has by itself, and
writes over the registry what it shares by itself. -/
theorem build_into
    (config : SchemaConfig)
    (known : KnownShape)
    (r : SchemaRegistry) :
    (known.build config ⟨r, []⟩).1 = known.schema config ∧
      (known.build config ⟨r, []⟩).2.registry = r.overwrittenBy (known.shares config) := by
  have built := known.build_above config r ⟨.empty, []⟩
  have underneath : Synthesis.above r ⟨.empty, []⟩ = ⟨r, []⟩ := rfl
  rw [underneath] at built
  rw [built]
  exact ⟨rfl, rfl⟩

end KnownShape

/-! ## Synthesis over a registry -/

/-- A schema can be shared if it is an object or an array without a list of
cases. -/
theorem Schema.isReferenceable_iff {schema : Schema} :
    schema.isReferenceable = true ↔
      ∃ header properties items additional,
        schema = .inline header properties items additional ∧ header.choices = none ∧
          (header.type = some .object ∨ header.type = some .array) := by
  cases schema with
  | reference target description => simp [isReferenceable]
  | inline header properties items additional => simp [isReferenceable]

/-- Looking up the type of a node ignores the log if looking up its parts
does. -/
theorem knowNode_ignoresEvents
    {structural : Option Capabilities → Step Store KnownShape}
    (config : SchemaConfig)
    (type : Option TypeForm)
    (ignores : ∀ record, (structural record).IgnoresEvents) :
    (knowNode config type structural).IgnoresEvents := by
  unfold knowNode
  refine .bind (lookupOptional_ignoresEvents type) fun record => ?_
  cases record with
  | none => exact ignores none
  | some caps =>
      dsimp only
      split
      · exact .current_bind (fun _ _ _ => rfl) fun _ => .pure _
      · split
        · exact .bind (.inWorld _) fun _ => .pure _
        · exact ignores (some caps)

mutual

/-- Looking up the types of a shape ignores the log. -/
theorem Shape.know_ignoresEvents
    (config : SchemaConfig)
    (given : Option TypeForm)
    (shape : Shape) :
    (shape.know config given).IgnoresEvents := by
  cases shape with
  | single h kind =>
      rw [Shape.know]
      exact knowNode_ignoresEvents config _ fun _ => .pure _
  | keyed h isFixed fields =>
      cases isFixed with
      | true =>
          rw [Shape.know]
          exact knowNode_ignoresEvents config _ fun _ =>
            .bind (Shape.knowFields_ignoresEvents config fields) fun _ => .pure _
      | false =>
          cases fields with
          | nil =>
              rw [Shape.know]
              exact knowNode_ignoresEvents config _ fun _ => .pure _
          | cons field rest =>
              obtain ⟨name, first⟩ := field
              rw [Shape.know]
              exact knowNode_ignoresEvents config _ fun _ =>
                .bind (Shape.know_ignoresEvents config none first) fun _ => .pure _
  | unkeyed h element =>
      rw [Shape.know]
      exact knowNode_ignoresEvents config _ fun _ =>
        .bind (Shape.know_ignoresEvents config none element) fun _ => .pure _
  | recursive h marker =>
      rw [Shape.know]
      exact knowNode_ignoresEvents config _ fun _ =>
        .bind (lookup?_ignoresEvents marker) fun _ => .pure _
  | unconstrained h =>
      rw [Shape.know]
      exact knowNode_ignoresEvents config _ fun _ => .pure _
termination_by structural shape

/-- Looking up the types of fields ignores the log. -/
theorem Shape.knowFields_ignoresEvents
    (config : SchemaConfig)
    (fields : List (String × Shape)) :
    (Shape.knowFields config fields).IgnoresEvents := by
  cases fields with
  | nil => exact .pure []
  | cons field rest =>
      obtain ⟨name, shape⟩ := field
      rw [Shape.knowFields]
      exact .bind (Shape.know_ignoresEvents config none shape) fun _ =>
        .bind (Shape.knowFields_ignoresEvents config rest) fun _ => .pure _
termination_by structural fields

end

/-- Whether the records of all visited types are there already: looking them up
finds them and learns nothing. -/
def Shape.IsResolved
    (config : SchemaConfig)
    (given : Option TypeForm)
    (shape : Shape)
    (s : Store) :
    Prop :=
  ∃ known, (shape.know config given).run s = (.ok known, s)

/-- Where looking up the visited types ends well, synthesis gives the schema that
the shape has by itself and writes what it shares by itself over the registry. -/
theorem synthesize_of_know
    {config : SchemaConfig}
    {shape : Shape}
    {given : Option TypeForm}
    {known : KnownShape}
    {s found : Store}
    (knows : (shape.know config given).run s = (.ok known, found))
    (registry : SchemaRegistry)
    (events : List Event) :
    ∃ later, (synthesize config shape given).run (registry, s.withEvents events) =
      (.ok (known.schema config), registry.overwrittenBy (known.shares config),
        found.withEvents later) := by
  have builtFrom :=
    shape.synthesize_builtFrom config given ⟨registry, []⟩ s (events ++ [.synthesisStarted])
  rw [knows] at builtFrom
  obtain ⟨later, ended⟩ := builtFrom
  obtain ⟨sameSchema, writes⟩ := known.build_into config registry
  refine ⟨later, ?_⟩
  rw [synthesize_run, Store.withEvents_withEvents, Store.withEvents_events, ended]
  dsimp only
  rw [sameSchema, writes]

/-- Shapes synthesised one after the other into one registry share the names that
they share by themselves, beside those that were shared before. -/
theorem synthesizeEach_names
    {config : SchemaConfig}
    {s : Store}
    {items : List (Shape × Option TypeForm)}
    (resolved : ∀ item ∈ items, item.1.IsResolved config item.2 s)
    (registry : SchemaRegistry)
    (events : List Event) :
    ∃ schemas reached later,
      (Step.each (fun item => synthesize config item.1 item.2) items).run
          (registry, s.withEvents events) =
        (.ok schemas, reached, s.withEvents later) ∧
      ∀ name, name ∈ reached.names ↔ name ∈ registry.names ∨
        ∃ item ∈ items, ∃ known, (item.1.know config item.2).run s = (.ok known, s) ∧
          name ∈ (known.shares config).names := by
  induction items generalizing registry events with
  | nil => exact ⟨[], registry, events, rfl, fun name => by simp⟩
  | cons item rest inductionHypothesis =>
      obtain ⟨known, knows⟩ := resolved item (List.mem_cons_self ..)
      obtain ⟨between, firstRun⟩ := synthesize_of_know knows registry events
      obtain ⟨schemas, reached, later, restRun, restNames⟩ :=
        inductionHypothesis (fun other member => resolved other (List.mem_cons_of_mem _ member))
          (registry.overwrittenBy (known.shares config)) between
      refine ⟨known.schema config :: schemas, reached, later, ?_, fun name => ?_⟩
      · rw [Step.each, Step.run_bind_of_ok firstRun, Step.run_bind_of_ok restRun]
        rfl
      · rw [restNames, (known.shares_isTidy config).mem_names_overwrittenBy registry,
          List.exists_mem_cons_iff, or_assoc]
        have first_iff :
            (∃ other, (item.1.know config item.2).run s = (.ok other, s) ∧
                name ∈ (other.shares config).names) ↔ name ∈ (known.shares config).names := by
          constructor
          · rintro ⟨other, otherKnows, member⟩
            rw [knows] at otherKnows
            cases otherKnows
            exact member
          · exact fun member => ⟨known, knows, member⟩
        rw [first_iff]

/-- Synthesis does not read the registry that it writes.  Its schema is the one
that it gives with an empty registry, and what it leaves is the given registry
with what the empty one would then hold written over it: objects and arrays
without cases.  If the records of the visited types are there already, a second
run changes nothing, and the names that are shared by several runs do not depend
on the order of the runs. -/
theorem synthesize_overwrites (config : SchemaConfig) (s : Store) :
    (∀ shape given registry schema reached last,
      (synthesize config shape given).run (registry, s) = (.ok schema, reached, last) →
      ∃ alone events,
        (synthesize config shape given).run (.empty, s) =
            (.ok schema, alone, last.withEvents events) ∧
          registry.Overwrites alone reached ∧
          (∀ e ∈ alone.schemas, ∃ header properties items additional,
            e.2 = .inline header properties items additional ∧ header.choices = none ∧
              (header.type = some .object ∨ header.type = some .array)) ∧
          (shape.IsResolved config given s →
            ∃ again, (synthesize config shape given).run (reached, last) =
              (.ok schema, reached, again))) ∧
    ∀ (items others : List (Shape × Option TypeForm)) registry,
      items.Perm others →
      (∀ item ∈ items, item.1.IsResolved config item.2 s) →
      ∃ schemas reached last otherSchemas otherReached otherLast,
        (Step.each (fun item => synthesize config item.1 item.2) items).run (registry, s) =
            (.ok schemas, reached, last) ∧
          (Step.each (fun item => synthesize config item.1 item.2) others).run (registry, s) =
            (.ok otherSchemas, otherReached, otherLast) ∧
          ∀ name, name ∈ reached.names ↔ name ∈ otherReached.names := by
  constructor
  · intro shape given registry schema reached last returned
    obtain ⟨known, found, knows, sameSchema, sameRegistry⟩ := synthesize_returned returned
    obtain ⟨isSchema, writes⟩ := known.build_into config registry
    obtain ⟨later, ended⟩ := synthesize_of_know knows registry s.events
    obtain ⟨events, alone⟩ := synthesize_of_know knows .empty s.events
    rw [Store.withEvents_self] at ended alone
    obtain ⟨rfl, rfl, rfl⟩ :
        schema = known.schema config ∧ reached = registry.overwrittenBy (known.shares config) ∧
          last = found.withEvents later := by
      rw [returned] at ended
      simpa using ended
    have tidy := known.shares_isTidy config
    have fromEmpty : SchemaRegistry.empty.overwrittenBy (known.shares config) =
        known.shares config :=
      (known.build_into config .empty).2.symm
    rw [fromEmpty] at alone
    refine ⟨known.shares config, events, alone, tidy.overwrites registry, fun e member => ?_,
      fun resolved => ?_⟩
    · exact Schema.isReferenceable_iff.mp (known.shares_isShareable config e member)
    · obtain ⟨same, knowsSame⟩ := resolved
      rw [knows] at knowsSame
      cases knowsSame
      obtain ⟨again, secondRun⟩ :=
        synthesize_of_know knows (registry.overwrittenBy (known.shares config)) later
      rw [tidy.overwrittenBy_overwrittenBy] at secondRun
      exact ⟨_, secondRun⟩
  · intro items others registry perm resolved
    obtain ⟨schemas, reached, last, itemsRun, names⟩ :=
      synthesizeEach_names resolved registry s.events
    obtain ⟨otherSchemas, otherReached, otherLast, othersRun, otherNames⟩ :=
      synthesizeEach_names (fun item member => resolved item (perm.mem_iff.mpr member)) registry
        s.events
    refine ⟨schemas, reached, _, otherSchemas, otherReached, _, itemsRun, othersRun, fun name => ?_⟩
    rw [names, otherNames]
    simp only [perm.mem_iff]

/-- The state in which the types of the shape of a node are looked up. -/
def nodesLookedUp : Store :=
  ((nodeShape.know .default none).run .initial).2

/-- A registry that holds arrays under the name of nodes and under another
name. -/
def arrayRegistry : SchemaRegistry :=
  ⟨[("Leaf", .array .any), ("Node", .array .any)], [("Leaf", none), ("Node", none)]⟩

/-- The schema of a node takes the place of an array of its name, and a second run
leaves everything as it is. -/
theorem synthesize_overwrites_node :
    ∃ schema reached last again,
      (synthesize .default nodeShape none).run (arrayRegistry, nodesLookedUp) =
          (.ok schema, reached, last) ∧
        reached.names = ["Leaf", "Node"] ∧
        reached.get? "Leaf" = arrayRegistry.get? "Leaf" ∧
        (synthesize .default nodeShape none).run (reached, last) = (.ok schema, reached, again) := by
  obtain ⟨single, -⟩ := synthesize_overwrites .default nodesLookedUp
  obtain ⟨alone, events, aloneRun, overwrites, -, repeats⟩ :=
    single nodeShape none arrayRegistry _ _ _ rfl
  obtain ⟨again, secondRun⟩ := repeats ⟨_, rfl⟩
  cases aloneRun
  exact ⟨_, _, _, again, rfl, rfl, (overwrites.kept "Leaf" (by decide)).1, secondRun⟩

end SchemaProbe

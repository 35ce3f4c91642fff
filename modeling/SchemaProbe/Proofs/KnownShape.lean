import SchemaProbe.Proofs.EventLog

namespace SchemaProbe

/-!
# Shapes whose types are known

Synthesis does two things at once: it looks up the type of every node that it
visits, and it builds a schema from what it finds.  Here the two are taken
apart.  Looking up turns a shape into a known shape, which holds the visited
nodes alone, each with its capabilities.  Building is then a plain function of
the known shape and of the schemas shared so far.
-/

/-- What synthesis sees of a shape.  A plain node has a schema without parts, a
declared node one that its type declares for itself, and a node that refers
back has the name that it refers to. -/
inductive KnownShape
  | plain (record : Option Capabilities) (header : SchemaHeader)
  | declared (record : Capabilities) (schema : Schema)
  | back (record : Option Capabilities) (name : String)
  | object (record : Option Capabilities) (fields : List (String × Bool × KnownShape))
  | dictionary (record : Option Capabilities) (values : KnownShape)
  | array (record : Option Capabilities) (element : KnownShape)

/-- The schema of a type with the type's description. -/
def Capabilities.describe (caps : Capabilities) (schema : Schema) : Schema :=
  match caps.description with
  | some text => schema.withDescription (some text)
  | none => schema

namespace Synthesis

/-- A schema with what is known about its type, and the schemas shared after
that. -/
def finish
    (config : SchemaConfig)
    (record : Option Capabilities)
    (schema : Schema)
    (σ : Synthesis) :
    Schema × Synthesis :=
  match record with
  | none => (schema, σ)
  | some caps =>
    if σ.recursiveNames.contains caps.name
        || (config.extractsReferences && caps.isReferenceable) then
      let (changed, result) :=
        σ.registry.register caps.name (caps.describe schema) (some caps.type)
      (result, { σ with registry := changed })
    else (caps.describe schema, σ)

/-- The state after a node referred back to a name. -/
def referBack (σ : Synthesis) (name : String) : Synthesis :=
  { σ with recursiveNames := σ.recursiveNames ++ [name] }

end Synthesis

/-- The header of a schema; a reference has none. -/
def Schema.header : Schema → SchemaHeader
  | .inline header _ _ _ => header
  | .reference _ _ => .empty

namespace KnownShape

mutual

/-- The schema of a known shape, and the schemas shared after building it. -/
def build
    (config : SchemaConfig) :
    KnownShape → Synthesis → Schema × Synthesis
  | .plain record header, σ => σ.finish config record (.inline header none none none)
  | .declared record schema, σ => σ.finish config (some record) schema
  | .back record name, σ => (σ.referBack name).finish config record (.referenceTo name)
  | .object record fields, σ =>
    let (parts, reached) := buildFields config fields [] [] σ
    reached.finish config record (.object parts.1 parts.2)
  | .dictionary record values, σ =>
    let (schema, reached) := values.build config σ
    reached.finish config record (.dictionary schema)
  | .array record element, σ =>
    let (schema, reached) := element.build config σ
    reached.finish config record (.array schema)

/-- The properties of known fields and the names among them that are required,
and the schemas shared after building them. -/
def buildFields
    (config : SchemaConfig) :
    List (String × Bool × KnownShape) → List (String × Schema) → List String → Synthesis →
      (List (String × Schema) × List String) × Synthesis
  | [], properties, required, σ => ((properties, required), σ)
  | (name, isOptional, known) :: rest, properties, required, σ =>
    let key := config.keyEncoder.encode name
    let (schema, reached) := known.build config σ
    buildFields config rest (Table.set properties key schema)
      (addRequired required key isOptional) reached

end

end KnownShape

/-- Looks up the type of a node.  A date or a type that declares its own schema
is not looked into. -/
def knowNode
    (config : SchemaConfig)
    (type : Option TypeForm)
    (structural : Option Capabilities → Step Store KnownShape) :
    Step Store KnownShape := do
  match ← lookupOptional type with
  | none => structural none
  | some caps =>
    if caps.isDate then
      let schema := config.dateSchema (← Step.current).world (some caps.type)
      pure (.plain (some caps) schema.header)
    else
      match caps.schema with
      | some hook => do pure (.declared caps (← Step.inWorld (hook.evaluate caps.name)))
      | none => structural (some caps)

mutual

/-- Looks up the types of the visited nodes of a shape. -/
def Shape.know
    (config : SchemaConfig)
    (given : Option TypeForm) :
    Shape → Step Store KnownShape
  | .single h kind =>
    knowNode config (h.type.or given) fun record =>
      pure (.plain record (match h.cases with
        | some cases => Schema.enumeration kind.format.1 cases
        | none => kind.schema).header)
  | .keyed h true fields =>
    knowNode config (h.type.or given) fun record => do
      pure (.object record (← Shape.knowFields config fields))
  | .keyed h false [] =>
    knowNode config (h.type.or given) fun record =>
      pure (.dictionary record (.plain none .empty))
  | .keyed h false ((_, first) :: _) =>
    knowNode config (h.type.or given) fun record => do
      pure (.dictionary record (← first.know config none))
  | .unkeyed h element =>
    knowNode config (h.type.or given) fun record => do
      pure (.array record (← element.know config none))
  | .recursive h marker =>
    knowNode config (h.type.or given) fun record => do
      let caps ← lookup? marker
      pure (.back record ((caps.map (·.name)).getD anyName))
  | .unconstrained h =>
    knowNode config (h.type.or given) fun record => pure (.plain record .empty)

/-- Looks up the types of the visited nodes of fields. -/
def Shape.knowFields
    (config : SchemaConfig) :
    List (String × Shape) → Step Store (List (String × Bool × KnownShape))
  | [] => pure []
  | (name, s) :: rest => do
    let known ← s.know config none
    pure ((name, s.isOptional, known) :: (← Shape.knowFields config rest))

end

/-! ## Synthesis is looking up, then building -/

/-- What came out of a step of synthesis is built from what a look-up found.
Where the look-up was interrupted, so was the step.  The logs may differ. -/
def BuiltFrom
    (ended : Except Interrupt α × Synthesis × Store)
    (found : Except Interrupt κ × Store)
    (build : κ → α × Synthesis) :
    Prop :=
  match found with
  | (.ok k, reached) =>
    ∃ later, ended = (.ok (build k).1, (build k).2, reached.withEvents later)
  | (.error interrupt, reached) =>
    ∃ σ later, ended = (.error interrupt, σ, reached.withEvents later)

namespace BuiltFrom

/-- A look-up that finds nothing in the state builds a pure result. -/
theorem pure
    {k : κ}
    {build : κ → α × Synthesis}
    {a : α}
    {reached : Synthesis}
    {s : Store}
    (events : List Event)
    (built : build k = (a, reached)) :
    BuiltFrom ((Pure.pure a : Synthesizing α).run (reached, s.withEvents events))
      ((Pure.pure k : Step Store κ).run s) build :=
  ⟨events, by simp [built]⟩

/-- What is built from a look-up is built from what else is made of it. -/
theorem of_map
    {ended : Except Interrupt α × Synthesis × Store}
    {find : Step Store κ}
    {wrap : κ → ι}
    {build : ι → α × Synthesis}
    {s : Store}
    (builtFrom : BuiltFrom ended (find.run s) fun k => build (wrap k)) :
    BuiltFrom ended ((find >>= fun k => Pure.pure (wrap k)).run s) build := by
  cases found : find.run s with
  | mk outcome reached =>
      rw [found] at builtFrom
      cases outcome with
      | ok k =>
          rw [Step.run_bind_of_ok found]
          exact builtFrom
      | error interrupt =>
          rw [Step.run_bind_of_error found]
          exact builtFrom

/-- Steps of synthesis follow look-ups one after the other. -/
theorem bind
    {first : Synthesizing α}
    {next : α → Synthesizing β}
    {find : Step Store κ}
    {findNext : κ → Step Store ι}
    {build : κ → α × Synthesis}
    {buildNext : ι → β × Synthesis}
    {s s' : Store}
    {σ : Synthesis}
    (firstBuilt : BuiltFrom (first.run (σ, s')) (find.run s) build)
    (nextBuilt : ∀ k reached events,
      BuiltFrom ((next (build k).1).run ((build k).2, reached.withEvents events))
        ((findNext k).run reached) buildNext) :
    BuiltFrom ((first >>= next).run (σ, s')) ((find >>= findNext).run s) buildNext := by
  cases found : find.run s with
  | mk outcome reached =>
      rw [found] at firstBuilt
      cases outcome with
      | ok k =>
          obtain ⟨events, firstRun⟩ := firstBuilt
          rw [Step.run_bind_of_ok firstRun, Step.run_bind_of_ok found]
          exact nextBuilt k reached events
      | error interrupt =>
          obtain ⟨left, events, firstRun⟩ := firstBuilt
          rw [Step.run_bind_of_error firstRun, Step.run_bind_of_error found]
          exact ⟨left, events, rfl⟩

/-- A step of synthesis follows a look-up by making the same look-up. -/
theorem shared_bind
    {find : Step Store κ}
    {next : κ → Synthesizing α}
    {findNext : κ → Step Store ι}
    {build : ι → α × Synthesis}
    {s : Store}
    {σ : Synthesis}
    (events : List Event)
    (ignores : find.IgnoresEvents)
    (nextBuilt : ∀ k reached events,
      BuiltFrom ((next k).run (σ, reached.withEvents events)) ((findNext k).run reached) build) :
    BuiltFrom ((Step.shared find >>= next).run (σ, s.withEvents events))
      ((find >>= findNext).run s) build := by
  obtain ⟨later, findRun⟩ := ignores.withEvents s events
  have sharedBuilt :
      BuiltFrom ((Step.shared find).run (σ, s.withEvents events)) (find.run s)
        fun k => (k, σ) := by
    unfold Step.shared
    rw [Step.run_within, findRun]
    rcases find.run s with ⟨outcome, reached⟩
    cases outcome with
    | ok k => exact ⟨later, rfl⟩
    | error interrupt => exact ⟨σ, later, rfl⟩
  exact sharedBuilt.bind nextBuilt

end BuiltFrom

/-- The last part of a node's synthesis: nothing more is said about a node
without capabilities. -/
def finishNode
    (config : SchemaConfig) :
    Option Capabilities → Schema → Synthesizing Schema
  | none, schema => pure schema
  | some caps, schema => finishSchema config caps schema

/-- Sharing a schema registers it; at most it is noted that another type's
schema is replaced. -/
theorem shareSchema_run
    (name : String)
    (schema : Schema)
    (origin : TypeForm)
    (σ : Synthesis)
    (s : Store) :
    ∃ later, (shareSchema name schema origin).run (σ, s) =
      (.ok (σ.registry.register name schema (some origin)).2,
        { σ with registry := (σ.registry.register name schema (some origin)).1 },
        s.withEvents later) := by
  unfold shareSchema
  rw [Step.run_bind_of_ok (Step.run_current _)]
  dsimp only
  split
  · exact ⟨s.events ++ [.overwritten name], rfl⟩
  · exact ⟨s.events, rfl⟩

/-- The last part of a node's synthesis does what `Synthesis.finish` says. -/
theorem finishNode_run
    (config : SchemaConfig)
    (record : Option Capabilities)
    (schema : Schema)
    (σ : Synthesis)
    (s : Store) :
    ∃ later, (finishNode config record schema).run (σ, s) =
      (.ok (σ.finish config record schema).1, (σ.finish config record schema).2,
        s.withEvents later) := by
  cases record with
  | none => exact ⟨s.events, rfl⟩
  | some caps =>
      obtain ⟨later, shared⟩ :=
        shareSchema_run caps.name (caps.describe schema) caps.type σ s
      by_cases isShared :
          (σ.recursiveNames.contains caps.name
            || (config.extractsReferences && caps.isReferenceable)) = true
      · refine ⟨later, ?_⟩
        have runs :
            (finishNode config (some caps) schema).run (σ, s) =
              (shareSchema caps.name (caps.describe schema) caps.type).run (σ, s) := by
          unfold finishNode finishSchema
          simp only [Step.run_bind, Step.run_current, isShared, if_true]
          rfl
        rw [runs, shared]
        simp only [Synthesis.finish, isShared, if_true]
      · refine ⟨s.events, ?_⟩
        have runs :
            (finishNode config (some caps) schema).run (σ, s) =
              (.ok (caps.describe schema), σ, s) := by
          unfold finishNode finishSchema
          simp only [Step.run_bind, Step.run_current, isShared]
          rfl
        rw [runs]
        simp only [Synthesis.finish, isShared]
        rfl

/-- The last part of a node's synthesis is built from its known shape. -/
theorem finishNode_builtFrom
    {config : SchemaConfig}
    {record : Option Capabilities}
    {schema : Schema}
    {known : KnownShape}
    {σ start : Synthesis}
    {s : Store}
    (events : List Event)
    (built : known.build config start = σ.finish config record schema) :
    BuiltFrom ((finishNode config record schema).run (σ, s.withEvents events))
      ((pure known : Step Store KnownShape).run s) fun k => k.build config start := by
  obtain ⟨later, finishRun⟩ := finishNode_run config record schema σ (s.withEvents events)
  rw [finishRun, ← built]
  exact ⟨later, rfl⟩

/-- A node is synthesised by looking up its type and building the rest. -/
theorem synthesizeKnown_builtFrom
    {config : SchemaConfig}
    {structural : Synthesizing Schema}
    {findStructural : Option Capabilities → Step Store KnownShape}
    (type : Option TypeForm)
    (σ : Synthesis)
    (s : Store)
    (events : List Event)
    (structuralBuilt : ∀ record reached events,
      BuiltFrom ((structural >>= finishNode config record).run (σ, reached.withEvents events))
        ((findStructural record).run reached) fun k => k.build config σ) :
    BuiltFrom ((synthesizeKnown config type structural).run (σ, s.withEvents events))
      ((knowNode config type findStructural).run s) fun k => k.build config σ := by
  unfold synthesizeKnown knowNode
  refine .shared_bind events (lookupOptional_ignoresEvents type) fun record reached events => ?_
  cases record with
  | none =>
      have unfinished : structural >>= finishNode config none = structural :=
        Step.bind_pure_self structural
      simpa only [unfinished] using structuralBuilt none reached events
  | some caps =>
      dsimp only
      split
      · -- a date
        have scalar :
            config.dateSchema reached.world (some caps.type) =
              .inline (config.dateSchema reached.world (some caps.type)).header none none none := by
          unfold SchemaConfig.dateSchema
          split <;> rfl
        have built :
            (KnownShape.plain (some caps)
                (config.dateSchema reached.world (some caps.type)).header).build config σ =
              σ.finish config (some caps) (config.dateSchema reached.world (some caps.type)) := by
          rw [KnownShape.build, ← scalar]
        rw [Step.run_bind_of_ok (Step.run_current _), Step.run_bind_of_ok (Step.run_current _)]
        exact finishNode_builtFrom events built
      · cases hookCase : caps.schema with
        | none => exact structuralBuilt (some caps) reached events
        | some hook =>
            refine .shared_bind events (.inWorld _) fun schema last events => ?_
            have built :
                (KnownShape.declared caps schema).build config σ =
                  σ.finish config (some caps) schema := by
              rw [KnownShape.build]
            exact finishNode_builtFrom events built

mutual

/-- Synthesising a shape is looking up its types and building it. -/
theorem Shape.synthesize_builtFrom
    (config : SchemaConfig)
    (given : Option TypeForm)
    (shape : Shape)
    (σ : Synthesis)
    (s : Store)
    (events : List Event) :
    BuiltFrom ((shape.synthesize config given).run (σ, s.withEvents events))
      ((shape.know config given).run s) fun k => k.build config σ := by
  cases shape with
  | single h kind =>
      rw [Shape.synthesize, Shape.know]
      refine synthesizeKnown_builtFrom _ σ s events fun record reached events => ?_
      refine finishNode_builtFrom events ?_
      rw [KnownShape.build]
      cases h.cases <;> rfl
  | keyed h isFixed fields =>
      cases isFixed with
      | true =>
          rw [Shape.synthesize, Shape.know]
          refine synthesizeKnown_builtFrom _ σ s events fun record reached events => ?_
          rw [Step.bind_bind]
          exact (Shape.synthesizeFields_builtFrom config fields [] [] σ reached events).bind
            fun known last events => finishNode_builtFrom events (by rw [KnownShape.build])
      | false =>
          cases fields with
          | nil =>
              rw [Shape.synthesize, Shape.know]
              exact synthesizeKnown_builtFrom _ σ s events fun record reached events =>
                finishNode_builtFrom events (by rw [KnownShape.build, KnownShape.build]; rfl)
          | cons field rest =>
              obtain ⟨name, first⟩ := field
              rw [Shape.synthesize, Shape.know]
              refine synthesizeKnown_builtFrom _ σ s events fun record reached events => ?_
              rw [Step.bind_bind]
              exact (Shape.synthesize_builtFrom config none first σ reached events).bind
                fun known last events => finishNode_builtFrom events (by rw [KnownShape.build])
  | unkeyed h element =>
      rw [Shape.synthesize, Shape.know]
      refine synthesizeKnown_builtFrom _ σ s events fun record reached events => ?_
      rw [Step.bind_bind]
      exact (Shape.synthesize_builtFrom config none element σ reached events).bind
        fun known last events => finishNode_builtFrom events (by rw [KnownShape.build])
  | recursive h marker =>
      rw [Shape.synthesize, Shape.know]
      refine synthesizeKnown_builtFrom _ σ s events fun record reached events => ?_
      rw [Step.bind_bind]
      refine .shared_bind events (lookup?_ignoresEvents marker) fun caps last events => ?_
      have built :
          (KnownShape.back record ((caps.map (·.name)).getD anyName)).build config σ =
            (σ.referBack ((caps.map (·.name)).getD anyName)).finish config record
              (.referenceTo ((caps.map (·.name)).getD anyName)) := by
        rw [KnownShape.build]
      exact finishNode_builtFrom
        (events ++ [.backReference ((caps.map (·.name)).getD anyName)]) built
  | unconstrained h =>
      rw [Shape.synthesize, Shape.know]
      exact synthesizeKnown_builtFrom _ σ s events fun record reached events =>
        finishNode_builtFrom events (by rw [KnownShape.build]; rfl)
termination_by structural shape

/-- Synthesising fields is looking up their types and building them. -/
theorem Shape.synthesizeFields_builtFrom
    (config : SchemaConfig)
    (fields : List (String × Shape))
    (properties : List (String × Schema))
    (required : List String)
    (σ : Synthesis)
    (s : Store)
    (events : List Event) :
    BuiltFrom ((Shape.synthesizeFields config fields properties required).run
        (σ, s.withEvents events))
      ((Shape.knowFields config fields).run s)
      fun ks => KnownShape.buildFields config ks properties required σ := by
  cases fields with
  | nil => exact .pure events rfl
  | cons field rest =>
      obtain ⟨name, shape⟩ := field
      rw [Shape.synthesizeFields, Shape.knowFields]
      refine (Shape.synthesize_builtFrom config none shape σ s events).bind
        fun known reached events => ?_
      refine .of_map ?_
      simp only [KnownShape.buildFields]
      exact Shape.synthesizeFields_builtFrom config rest _ _ _ reached events
termination_by structural fields

end

end SchemaProbe

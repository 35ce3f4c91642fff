import SchemaProbe.Proofs.Markers
import SchemaProbe.Proofs.Tables

namespace SchemaProbe

/-!
# Plain schemas

The schema of a type can be read off what is known about types: each type has a
layer, and below it stand the schemas of further types.  Reading it that way has
no end where types recur, so it is read to a depth; there is no guard, no memo
and no registry.  A schema whose references are followed is compared with it to
every depth.  Schemas that are written in different ways show the same type if
each part of them does, where a reference shows what is shared under its name.
-/

/-! ## Layers -/

/-- The top of a schema, and what stands right below: a type form, or anything at
all. -/
structure SchemaLayer where
  header : SchemaHeader
  properties : Option (List (String × Option TypeForm))
  items : Option (Option TypeForm)
  additional : Option (Option TypeForm)

/-- The plans by their keys: the last plan of a key counts, at the place of the
first. -/
def FieldPlan.byKey (plans : List FieldPlan) : List (String × FieldPlan) :=
  plans.foldl (fun fields p => Table.set fields p.key p) []

namespace SchemaLayer

/-- A layer with nothing below. -/
def plain (header : SchemaHeader) : SchemaLayer :=
  ⟨header, none, none, none⟩

/-- The layer of an object: the names of its fields are encoded, and those that
may not be missing are required. -/
def object (config : SchemaConfig) (fields : List (String × FieldPlan)) : SchemaLayer :=
  let properties := fields.foldl
    (fun properties e =>
      Table.set properties (config.keyEncoder.encode e.1) (some e.2.requested)) []
  let required := fields.foldl
    (fun names e => addRequired names (config.keyEncoder.encode e.1) e.2.isOptional) []
  ⟨{ SchemaHeader.ofType .object with
      required := if required.isEmpty then none else some required },
    some properties, none, none⟩

/-- A layer with the description of a type, if it has one. -/
def describe (caps : Capabilities) (layer : SchemaLayer) : SchemaLayer :=
  match caps.description with
  | some text => { layer with header := { layer.header with description := some text } }
  | none => layer

/-- The type forms right below a layer. -/
def below (layer : SchemaLayer) : List (Option TypeForm) :=
  (layer.properties.getD []).map Prod.snd ++ layer.items.toList ++ layer.additional.toList

end SchemaLayer

/-- The layer of a type by its layout, where the kind of a type with cases and the
common form of the items of a tuple are given.  A type that may be null has the
layer of what it is read as. -/
def Layout.layer
    (config : SchemaConfig)
    (kind : PrimitiveKind)
    (common : List TypeForm → Option TypeForm) :
    Layout → SchemaLayer
  | .unknown => .plain .empty
  | .record plans => .object config (FieldPlan.byKey plans)
  | .sequence item => ⟨.ofType .array, none, some (some item), none⟩
  | .tuple items => ⟨.ofType .array, none, some (common items), none⟩
  | .mapping value => ⟨.ofType .object, none, none, some (some value)⟩
  | .nullable _ => .plain .empty
  | .scalar _ cases => .plain (Schema.enumeration kind.format.1 cases).header

/-- What plain synthesis goes by: what is known about types, the configuration, and
the kinds of types with cases. -/
structure PlainSynthesis where
  known : Store
  config : SchemaConfig
  kinds : Key → PrimitiveKind

/-- The first of some type forms if all present themselves alike. -/
def Store.commonForm (s : Store) : List TypeForm → Option TypeForm
  | [] => none
  | first :: rest =>
    if rest.all fun a => face s.entry a == face s.entry first then some first else none

/-- What is known about the type that a type form is read as. -/
def Store.bareRecord (s : Store) (a : Option TypeForm) : Option Capabilities :=
  a.bind fun a => (s.registry .current).find? (s.bare a)

namespace PlainSynthesis

/-- The layer of a type without its description.  Dates and types that declare their
own schema are not looked into. -/
def undescribed (plain : PlainSynthesis) (caps : Capabilities) : SchemaLayer :=
  if caps.isDate then
    .plain (plain.config.dateSchema plain.known.world (some caps.type)).header
  else
    match caps.schema with
    | some (.declared own) => .plain own.header
    | some _ => .plain .empty
    | none =>
      match plain.known.entryOf caps with
      | .leaf _ => .plain ((caps.kind.map fun kind => kind.schema.header).getD .empty)
      | .inner type layout =>
        layout.layer plain.config (plain.kinds type.identity) plain.known.commonForm

/-- The layer of a type by what is known about it, if anything is. -/
def layer (plain : PlainSynthesis) : Option Capabilities → SchemaLayer
  | none => .plain .empty
  | some caps => (plain.undescribed caps).describe caps

/-- The schema of a type form, read to a depth below which nothing is said. -/
def schemaTo (plain : PlainSynthesis) : Nat → Option TypeForm → Schema
  | 0, _ => .any
  | depth + 1, a =>
    let layer := plain.layer (plain.known.bareRecord a)
    .inline layer.header
      (layer.properties.map fun table => table.map fun e => (e.1, plain.schemaTo depth e.2))
      (layer.items.map (plain.schemaTo depth))
      (layer.additional.map (plain.schemaTo depth))

end PlainSynthesis

/-! ## Following references to a depth -/

namespace SchemaRegistry

/-- What a reference refers to; any other schema is itself. -/
def follow (r : SchemaRegistry) : Schema → Schema
  | .reference target description =>
    (r.get? (sharedName target)).getD (.reference target description)
  | schema => schema

/-- A schema with every reference replaced by what is shared under its name, down to
a depth below which nothing is said. -/
def cutTo (r : SchemaRegistry) : Nat → Schema → Schema
  | 0, _ => .any
  | depth + 1, schema =>
    match r.follow schema with
    | .reference target description => .reference target description
    | .inline header properties items additional =>
      .inline header
        (properties.map fun table => table.map fun e => (e.1, r.cutTo depth e.2))
        (items.map (r.cutTo depth)) (additional.map (r.cutTo depth))

end SchemaRegistry

/-! ## Schemas that show a type -/

namespace Schema

mutual

/-- Whether a schema is one way to write the schema of a type: a reference by the
type's name, or its layer with schemas below that show what stands there. -/
def Shows (plain : PlainSynthesis) : Schema → Option Capabilities → Prop
  | .reference target _, record => ∃ caps, record = some caps ∧ target = sharedHome ++ caps.name
  | .inline header properties items additional, record =>
    header = (plain.layer record).header ∧
      ShowsTable plain properties (plain.layer record).properties ∧
      ShowsPart plain items (plain.layer record).items ∧
      ShowsPart plain additional (plain.layer record).additional
termination_by structural schema => schema

/-- Whether a part, if there is one, shows what stands in its place. -/
def ShowsPart (plain : PlainSynthesis) : Option Schema → Option (Option TypeForm) → Prop
  | none, a => a = none
  | some schema, a => ∃ form, a = some form ∧ schema.Shows plain (plain.known.bareRecord form)
termination_by structural part => part

/-- Whether a table of properties, if there is one, shows what stands in its
place. -/
def ShowsTable
    (plain : PlainSynthesis) :
    Option (List (String × Schema)) → Option (List (String × Option TypeForm)) → Prop
  | none, forms => forms = none
  | some properties, forms => ∃ table, forms = some table ∧ ShowsEach plain properties table
termination_by structural properties => properties

/-- Whether each property shows what stands under its name, in order. -/
def ShowsEach
    (plain : PlainSynthesis) :
    List (String × Schema) → List (String × Option TypeForm) → Prop
  | [], forms => forms = []
  | (name, schema) :: rest, forms =>
    ∃ form more, forms = (name, form) :: more ∧
      schema.Shows plain (plain.known.bareRecord form) ∧ ShowsEach plain rest more
termination_by structural properties => properties

end

/-- Properties show what stands under their names if each of them does. -/
theorem showsEach_iff
    {plain : PlainSynthesis}
    {properties : List (String × Schema)}
    {forms : List (String × Option TypeForm)} :
    ShowsEach plain properties forms ↔
      properties.Forall₂ (fun e f => e.1 = f.1 ∧ e.2.Shows plain (plain.known.bareRecord f.2))
        forms := by
  induction properties generalizing forms with
  | nil => rw [ShowsEach, List.forall₂_nil_left_iff]
  | cons e rest inductionHypothesis =>
      obtain ⟨name, schema⟩ := e
      rw [ShowsEach, List.forall₂_cons_left_iff]
      constructor
      · rintro ⟨form, more, rfl, shows, others⟩
        exact ⟨(name, form), more, ⟨rfl, shows⟩, inductionHypothesis.mp others, rfl⟩
      · rintro ⟨⟨other, form⟩, more, ⟨rfl, shows⟩, others, rfl⟩
        exact ⟨form, more, rfl, shows, inductionHypothesis.mpr others⟩

end Schema

/-- Whether what is shared under each name shows a type of that name. -/
def SchemaRegistry.Shows
    (plain : PlainSynthesis)
    (among : TypeForm → Prop)
    (r : SchemaRegistry) :
    Prop :=
  ∀ e ∈ r.schemas, ∃ a caps, among a ∧ plain.known.bareRecord (some a) = some caps ∧
    caps.name = e.1 ∧ e.2.isReferenceable = true ∧ e.2.Shows plain (some caps)

/-- Whether different types go by different names.  A type that may be null is read
as another one, which is meant in its place. -/
def Store.NamesApart (s : Store) (among : TypeForm → Prop) : Prop :=
  ∀ a b, among a → among b → ∀ caps others,
    s.bareRecord (some a) = some caps → s.bareRecord (some b) = some others →
    caps.name = others.name → (s.bare a).identity = (s.bare b).identity

/-- Whether whatever a type asks for that is looked into is among some types with it. -/
def Store.IsClosed (s : Store) (among : TypeForm → Prop) : Prop :=
  ∀ a type layout, among a → s.entry a = .inner type layout →
    ∀ request ∈ layout.requests, among request

/-- Whether schemas have no parts. -/
def Schema.ArePlain (schemas : List Schema) : Prop :=
  ∀ schema ∈ schemas, ∃ header, schema = .inline header none none none

/-! ## Showing a type is enough -/

section

variable {plain : PlainSynthesis} {among : TypeForm → Prop} {r : SchemaRegistry}
  {declared : List Schema} {names : List String} {schema : Schema} {a : Option TypeForm}

/-- References lead somewhere directly in a schema and in its parts, if types declare
schemas without parts alone. -/
theorem Schema.Resolves.parts
    {follow : String → String}
    (arePlain : ArePlain declared)
    (resolves : schema.Resolves follow declared names) :
    schema.PartsResolve follow declared names := by
  cases resolves with
  | declared member =>
      obtain ⟨header, rfl⟩ := arePlain schema member
      refine ⟨fun table absent => ?_, fun part absent => ?_, fun part absent => ?_⟩
      · cases absent
      · cases absent
      · cases absent
  | reference member => exact member
  | inline properties items additional => exact ⟨properties, items, additional⟩

/-- What a type leads to is closed under what is asked for. -/
theorem Store.Reaches.isClosed (s : Store) (root : TypeForm) : s.IsClosed (s.Reaches root) :=
  fun _ _ _ reaches isInner _ asked => reaches.request isInner asked

/-- What a type is read as is among types that are closed under what is asked for. -/
theorem Store.IsClosed.bare
    {s : Store}
    {b : TypeForm}
    (closed : s.IsClosed among)
    (isAmong : among b) :
    among (s.bare b) := by
  unfold Store.bare
  split
  · rename_i type x isInner
    exact closed b type _ isAmong isInner x List.mem_cons_self
  · exact isAmong

/-- What stands right below the layer of an object are the type forms that its
fields are read as. -/
theorem SchemaLayer.mem_below_object
    {config : SchemaConfig}
    {plans : List FieldPlan}
    {b : Option TypeForm}
    (isBelow : b ∈ (SchemaLayer.object config (FieldPlan.byKey plans)).below) :
    ∃ request ∈ (Layout.record plans).requests, b = some request := by
  have ofFields (fields : List (String × FieldPlan)) (table : List (String × Option TypeForm))
      (isBelow : b ∈ (fields.foldl
        (fun properties e =>
          Table.set properties (config.keyEncoder.encode e.1) (some e.2.requested)) table).map
            Prod.snd) :
      b ∈ table.map Prod.snd ∨ ∃ e ∈ fields, b = some e.2.requested := by
    induction fields generalizing table with
    | nil => exact .inl isBelow
    | cons e rest inductionHypothesis =>
        rcases inductionHypothesis _ isBelow with earlier | ⟨other, later, rfl⟩
        · obtain ⟨f, member, rfl⟩ := List.mem_map.mp earlier
          rcases Table.mem_or_eq_of_mem_set member with old | rfl
          · exact .inl (List.mem_map_of_mem old)
          · exact .inr ⟨e, List.mem_cons_self, rfl⟩
        · exact .inr ⟨other, List.mem_cons_of_mem _ later, rfl⟩
  have ofPlans (plans : List FieldPlan) (table : List (String × FieldPlan))
      {e : String × FieldPlan}
      (member : e ∈ plans.foldl (fun fields p => Table.set fields p.key p) table) :
      e ∈ table ∨ e.2 ∈ plans := by
    induction plans generalizing table with
    | nil => exact .inl member
    | cons p rest inductionHypothesis =>
        rcases inductionHypothesis _ member with earlier | later
        · rcases Table.mem_or_eq_of_mem_set earlier with old | rfl
          · exact .inl old
          · exact .inr List.mem_cons_self
        · exact .inr (List.mem_cons_of_mem _ later)
  have among : b ∈ ((FieldPlan.byKey plans).foldl
      (fun properties e =>
        Table.set properties (config.keyEncoder.encode e.1) (some e.2.requested)) []).map
          Prod.snd := by
    simpa [SchemaLayer.below, SchemaLayer.object] using isBelow
  rcases ofFields _ [] among with absent | ⟨e, isField, rfl⟩
  · cases absent
  · rcases ofPlans plans [] isField with absent | isPlan
    · cases absent
    · exact ⟨_, List.mem_map_of_mem isPlan, rfl⟩

/-- What stands right below the layer of a type is something that the type asks
for, or anything at all. -/
theorem Layout.mem_below_layer
    {config : SchemaConfig}
    {kind : PrimitiveKind}
    {common : List TypeForm → Option TypeForm}
    {layout : Layout}
    {b : Option TypeForm}
    (fromItems : ∀ items b, common items = some b → b ∈ items)
    (isBelow : b ∈ (layout.layer config kind common).below) :
    ∀ request, b = some request → request ∈ layout.requests := by
  rintro request rfl
  cases layout with
  | unknown => cases isBelow
  | record plans =>
      obtain ⟨other, asked, same⟩ := SchemaLayer.mem_below_object isBelow
      cases same
      exact asked
  | sequence item =>
      obtain ⟨rfl⟩ := List.mem_singleton.mp isBelow
      exact List.mem_cons_self
  | tuple items => exact fromItems items request (List.mem_singleton.mp isBelow).symm
  | mapping value =>
      obtain ⟨rfl⟩ := List.mem_singleton.mp isBelow
      exact List.mem_cons_self
  | nullable x => cases isBelow
  | scalar value cases => cases isBelow

/-- A description says nothing about what stands below. -/
theorem SchemaLayer.below_describe (caps : Capabilities) (layer : SchemaLayer) :
    (layer.describe caps).below = layer.below := by
  unfold describe
  split <;> rfl

/-- The common form of some type forms is one of them. -/
theorem Store.mem_of_commonForm
    {s : Store}
    {items : List TypeForm}
    {b : TypeForm}
    (isCommon : s.commonForm items = some b) :
    b ∈ items := by
  cases items with
  | nil => cases isCommon
  | cons first rest =>
      rw [commonForm] at isCommon
      split at isCommon
      · cases isCommon
        exact List.mem_cons_self
      · cases isCommon

/-- What stands right below the layer of a type is among types that are closed under
what is asked for. -/
theorem PlainSynthesis.among_of_mem_below
    {b : Option TypeForm}
    (closed : plain.known.IsClosed among)
    (isAmong : ∀ form, a = some form → among form)
    (isBelow : b ∈ (plain.layer (plain.known.bareRecord a)).below) :
    ∀ form, b = some form → among form := by
  cases record : plain.known.bareRecord a with
  | none =>
      rw [record] at isBelow
      cases isBelow
  | some caps =>
      obtain ⟨form, rfl, found⟩ := Option.bind_eq_some_iff.mp record
      rw [record, layer, SchemaLayer.below_describe, undescribed] at isBelow
      split at isBelow
      · cases isBelow
      · split at isBelow
        · cases isBelow
        · cases isBelow
        · split at isBelow
          · cases isBelow
          · rename_i type layout isInner
            have entry : plain.known.entry (plain.known.bare form) = .inner type layout := by
              rw [Store.entry, found]
              exact isInner
            intro request isRequest
            exact closed _ type layout (closed.bare (isAmong form rfl)) entry request
              (Layout.mem_below_layer (fun _ _ isCommon => Store.mem_of_commonForm isCommon)
                isBelow request isRequest)

/-- The same is known about types of one name where different types go by different
names. -/
theorem Store.NamesApart.eq_of_name
    {s : Store}
    {b c : TypeForm}
    {caps others : Capabilities}
    (apart : s.NamesApart among)
    (isAmong : among b)
    (otherAmong : among c)
    (record : s.bareRecord (some b) = some caps)
    (otherRecord : s.bareRecord (some c) = some others)
    (sameName : caps.name = others.name) :
    caps = others := by
  have identity := apart b c isAmong otherAmong caps others record otherRecord sameName
  rw [bareRecord, Option.bind_some, find?_congr _ identity] at record
  rw [bareRecord, Option.bind_some, record] at otherRecord
  exact Option.some.inj otherRecord

/-- A schema that shows a type leads to an inline one that does. -/
theorem SchemaRegistry.follow_shows
    (apart : plain.known.NamesApart among)
    (arePlain : Schema.ArePlain declared)
    (registryShows : r.Shows plain among)
    (registryResolves : r.Resolves sharedName declared)
    (isAmong : ∀ form, a = some form → among form)
    (shows : schema.Shows plain (plain.known.bareRecord a))
    (resolves : schema.Resolves sharedName declared r.names) :
    ∃ header properties items additional,
      r.follow schema = .inline header properties items additional ∧
        (Schema.inline header properties items additional).Shows plain
          (plain.known.bareRecord a) ∧
        (Schema.inline header properties items additional).PartsResolve sharedName declared
          r.names := by
  cases schema with
  | inline header properties items additional =>
      exact ⟨header, properties, items, additional, rfl, shows, resolves.parts arePlain⟩
  | reference target description =>
      obtain ⟨caps, isRecord, rfl⟩ := shows
      obtain ⟨form, rfl, found⟩ := Option.bind_eq_some_iff.mp isRecord
      have isShared := resolves.parts arePlain
      rw [Schema.PartsResolve, sharedName_sharedHome] at isShared
      obtain ⟨entry, isEntry⟩ : ∃ entry, r.get? caps.name = some entry := by
        cases unknown : r.get? caps.name with
        | some entry => exact ⟨entry, rfl⟩
        | none => exact absurd isShared (Table.lookup_eq_none_iff_not_mem.mp unknown)
      have isMember := Table.mem_of_lookup isEntry
      obtain ⟨b, others, otherAmong, isOther, sameName, referenceable, entryShows⟩ :=
        registryShows _ isMember
      -- there is but one type of the name, so what is shared shows this one
      obtain rfl := apart.eq_of_name otherAmong (isAmong form rfl) isOther isRecord sameName
      cases entry with
      | reference _ _ => cases referenceable
      | inline header properties items additional =>
          refine ⟨header, properties, items, additional, ?_, ?_, ?_⟩
          · rw [follow, sharedName_sharedHome, isEntry]
            rfl
          · rw [isRecord]
            exact entryShows
          · exact (registryResolves _ isMember).parts arePlain

/-- A part that shows what stands in its place becomes what is read there, if every
schema does that shows it. -/
theorem Schema.ShowsPart.map_eq
    {part : Option Schema}
    {form : Option (Option TypeForm)}
    {cut : Schema → Schema}
    {read : Option TypeForm → Schema}
    (shows : ShowsPart plain part form)
    (same : ∀ schema, part = some schema → ∀ b, form = some b →
      schema.Shows plain (plain.known.bareRecord b) → cut schema = read b) :
    part.map cut = form.map read := by
  cases part with
  | none =>
      obtain rfl : form = none := shows
      rfl
  | some schema =>
      obtain ⟨b, rfl, shown⟩ := shows
      exact congrArg some (same schema rfl b rfl shown)

/-- Properties that show what stands under their names become what is read there, if
every schema does that shows it. -/
theorem Schema.ShowsEach.map_eq
    {properties : List (String × Schema)}
    {table : List (String × Option TypeForm)}
    {cut : Schema → Schema}
    {read : Option TypeForm → Schema}
    (shows : ShowsEach plain properties table)
    (same : ∀ e ∈ properties, ∀ f ∈ table,
      e.2.Shows plain (plain.known.bareRecord f.2) → cut e.2 = read f.2) :
    (properties.map fun e => (e.1, cut e.2)) = table.map fun f => (f.1, read f.2) := by
  have alike := showsEach_iff.mp shows
  clear shows
  induction alike with
  | nil => rfl
  | cons first _ inductionHypothesis =>
      obtain ⟨sameName, shown⟩ := first
      rw [List.map_cons, List.map_cons, sameName,
        same _ List.mem_cons_self _ List.mem_cons_self shown,
        inductionHypothesis fun e later f further =>
          same e (List.mem_cons_of_mem _ later) f (List.mem_cons_of_mem _ further)]

/-- A table of properties that shows what stands in its place becomes what is read
there, if every schema does that shows it. -/
theorem Schema.ShowsTable.map_eq
    {properties : Option (List (String × Schema))}
    {table : Option (List (String × Option TypeForm))}
    {cut : Schema → Schema}
    {read : Option TypeForm → Schema}
    (shows : ShowsTable plain properties table)
    (same : ∀ entries, properties = some entries → ∀ e ∈ entries, ∀ f ∈ table.getD [],
      e.2.Shows plain (plain.known.bareRecord f.2) → cut e.2 = read f.2) :
    (properties.map fun entries => entries.map fun e => (e.1, cut e.2)) =
      table.map fun forms => forms.map fun f => (f.1, read f.2) := by
  cases properties with
  | none =>
      obtain rfl : table = none := shows
      rfl
  | some entries =>
      obtain ⟨forms, rfl, each⟩ := shows
      exact congrArg some (ShowsEach.map_eq each (same entries rfl))

/-- Following references in a schema that shows a type form gives the schema of the
type form, to every depth. -/
theorem SchemaRegistry.cutTo_eq_schemaTo
    (apart : plain.known.NamesApart among)
    (closed : plain.known.IsClosed among)
    (arePlain : Schema.ArePlain declared)
    (registryShows : r.Shows plain among)
    (registryResolves : r.Resolves sharedName declared)
    (depth : Nat)
    (isAmong : ∀ form, a = some form → among form)
    (shows : schema.Shows plain (plain.known.bareRecord a))
    (resolves : schema.Resolves sharedName declared r.names) :
    r.cutTo depth schema = plain.schemaTo depth a := by
  induction depth generalizing schema a with
  | zero => rfl
  | succ depth inductionHypothesis =>
      obtain ⟨header, properties, items, additional, followed, shown, parts⟩ :=
        follow_shows apart arePlain registryShows registryResolves isAmong shows resolves
      obtain ⟨sameHeader, tableShown, itemsShown, additionalShown⟩ := shown
      obtain ⟨tableResolves, itemsResolve, additionalResolve⟩ := parts
      have part {schema : Schema} {b : Option TypeForm}
          (isBelow : b ∈ (plain.layer (plain.known.bareRecord a)).below)
          (shows : schema.Shows plain (plain.known.bareRecord b))
          (resolves : schema.Resolves sharedName declared r.names) :
          r.cutTo depth schema = plain.schemaTo depth b :=
        inductionHypothesis (plain.among_of_mem_below closed isAmong isBelow) shows resolves
      have sameTable := tableShown.map_eq fun entries isTable e isEntry f isForm shows =>
        part (List.mem_append_left _ (List.mem_append_left _ (List.mem_map_of_mem isForm))) shows
          (tableResolves entries isTable e isEntry)
      have sameItems := itemsShown.map_eq fun schema isItems b isForm shows =>
        part (List.mem_append_left _ (List.mem_append_right _ (Option.mem_toList.mpr isForm))) shows
          (itemsResolve schema isItems)
      have sameAdditional := additionalShown.map_eq fun schema isPart b isForm shows =>
        part (List.mem_append_right _ (Option.mem_toList.mpr isForm)) shows
          (additionalResolve schema isPart)
      rw [cutTo, followed, PlainSynthesis.schemaTo, sameHeader]
      simp only [sameTable, sameItems, sameAdditional]

end

end SchemaProbe

import SchemaProbe.Proofs.PlainForm
import SchemaProbe.Proofs.Settling

namespace SchemaProbe

/-!
# Looking types up in a universe

A universe is a list of plain type forms that contains everything that reading
one of them asks for.  Looking up a type of the universe succeeds unless it is
no type at all, fixes what the type stands for from then on, and says nothing
about it that would lead out of the universe.
-/

/-- What the classes of a universe may do by hooks: some of them are decoded by a
program, and types may declare some schemas for themselves. -/
structure Allowance where
  programs : List Key
  schemas : SchemaHook → Prop

/-- No class is decoded by a program. -/
def Allowance.programFree : Allowance :=
  ⟨[], fun _ => True⟩

/-- Whether a list of type forms contains everything that a world asks for in
them, and no class among them does by a hook what is not allowed.  None lists
cases by a hook. -/
structure World.Covers (w : World) (forms : List TypeForm) (allowed : Allowance) : Prop where
  any : .any ∈ forms
  text : .builtin .str ∈ forms
  plain : ∀ a ∈ forms, a.isPlain = true
  asks : ∀ a ∈ forms, ∀ b ∈ a.asks, b ∈ forms
  unapplied : ∀ a ∈ forms, ∀ c, a.aliasOrigin? = some (.cls c) → c.key ∉ allowed.programs
  cases : ∀ c, .cls c ∈ forms → (w.hooks c).cases = none
  program : ∀ c, .cls c ∈ forms → c.key ∉ allowed.programs → (w.hooks c).program = none
  schema : ∀ c, .cls c ∈ forms → ∀ hook, (w.hooks c).schema = some hook → allowed.schemas hook
  arguments : ∀ c, .cls c ∈ forms → ∀ b, ∀ a ∈ w.baseArguments c b, a ∈ forms
  member : ∀ c, .cls c ∈ forms → .cls (w.memberClass c) ∈ forms
  plans : ∀ c, .cls c ∈ forms → ∀ plans, w.plansOf? c = some plans →
    ∀ p ∈ plans, p.form ∈ forms

/-- Whether a class has no hooks and asks for nothing outside a list of type forms. -/
structure World.KeepsWithin (w : World) (forms : List TypeForm) (c : ClassRef) : Prop where
  unhooked : w.hooks c = .none
  arguments : ∀ b, w.baseArguments c b = []
  member : .cls (w.memberClass c) ∈ forms
  plans : ∀ plans, w.plansOf? c = some plans → ∀ p ∈ plans, p.form ∈ forms

/-- Classes without hooks and what they ask for make a universe, whatever is allowed short of
programs. -/
theorem World.Covers.of_unhooked
    {w : World}
    {forms : List TypeForm}
    {allowed : Allowance}
    (isProgramFree : allowed.programs = [])
    (any : .any ∈ forms)
    (text : .builtin .str ∈ forms)
    (plain : forms.all TypeForm.isPlain = true)
    (asks : ∀ a ∈ forms, ∀ b ∈ a.asks, b ∈ forms)
    (classes : ∀ c, .cls c ∈ forms → w.KeepsWithin forms c) :
    w.Covers forms allowed where
  any := any
  text := text
  plain := List.all_eq_true.mp plain
  asks := asks
  unapplied _ _ _ _ := by
    rw [isProgramFree]
    exact List.not_mem_nil
  cases c member := by
    rw [(classes c member).unhooked]
    rfl
  program c member _ := by
    rw [(classes c member).unhooked]
    rfl
  schema c member hook declares := by
    rw [(classes c member).unhooked] at declares
    cases declares
  arguments c member b a isArgument := by
    rw [(classes c member).arguments] at isArgument
    cases isArgument
  member c member := (classes c member).member
  plans c member := (classes c member).plans

/-- Whether a way of reading fits the rest of what is known about a type: cases
belong to types that are read as one of some values, and null to types that are
read as another one or null. -/
def Reader.Fits (caps : Capabilities) (allowed : Allowance) : Reader → Prop
  | .nullable inner => caps.cases = none ∧ caps.type.stripNull = (inner, true)
  | .oneOf _ | .member _ =>
    caps.type.stripNull.2 = false ∧ ∃ cases, caps.cases = some cases ∧ Value.allContent cases = true
  | .program _ _ => caps.type.identity ∈ allowed.programs
  | _ => caps.type.stripNull.2 = false ∧ caps.cases = none

/-- Whether what is known about the type of a key is right, and does not lead out
of a universe. -/
structure Capabilities.Sound
    (s : Store)
    (forms : List TypeForm)
    (allowed : Allowance)
    (key : Key)
    (caps : Capabilities) :
    Prop where
  identity : caps.type.identity = key
  plain : caps.type.isPlain = true
  accepted : caps.type.hasCapabilities = true
  schema : ∀ hook, caps.schema = some hook → allowed.schemas hook
  fits : ∀ reader, caps.kind = none → caps.bypassesProbe = false → caps.reader = some reader →
    reader.Fits caps allowed
  closed : ∀ reader, caps.kind = none → caps.bypassesProbe = false → caps.reader = some reader →
    ∀ request ∈ (s.layout caps reader).requests, request ∈ forms

namespace Store

/-- Whether a state knows its universe: everything found out so far is sound. -/
structure Ready (s : Store) (forms : List TypeForm) (allowed : Allowance) : Prop where
  covers : s.world.Covers forms allowed
  known : ∀ a ∈ forms, ∀ caps, (s.registry .current).find? a = some caps →
    caps.Sound s forms allowed a.identity

/-- Whether a later state reads classes alike and knows what was known. -/
structure GrowsTo (s reached : Store) : Prop where
  reading : s.world.SameReading reached.world
  found : ∀ a caps, (s.registry .current).find? a = some caps →
    (reached.registry .current).find? a = some caps

/-- Whether a state was reached by finding things out and nothing else. -/
structure Learns (s reached : Store) (forms : List TypeForm) (allowed : Allowance) : Prop where
  ready : reached.Ready forms allowed
  grows : s.GrowsTo reached
  guard : reached.guard = s.guard

/-- Whether a state was reached by settling declared classes and noting things, and
nothing else. -/
structure SettlesTo (s reached : Store) : Prop where
  world : s.world.SettlesTo reached.world
  registry : reached.registry .current = s.registry .current
  guard : reached.guard = s.guard

/-- Whether a type form is known, unless it is no type. -/
def Knows (s : Store) (a : TypeForm) : Prop :=
  a.hasCapabilities = true → ((s.registry .current).find? a).isSome

theorem GrowsTo.refl (s : Store) : s.GrowsTo s :=
  ⟨.refl s.world, fun _ _ found => found⟩

theorem GrowsTo.trans
    {s reached last : Store}
    (first : s.GrowsTo reached)
    (second : reached.GrowsTo last) :
    s.GrowsTo last :=
  ⟨first.reading.trans second.reading, fun a caps found =>
    second.found a caps (first.found a caps found)⟩

section

variable {s reached last : Store} {forms : List TypeForm} {allowed : Allowance}

theorem Learns.refl (ready : s.Ready forms allowed) : s.Learns s forms allowed :=
  ⟨ready, .refl s, rfl⟩

theorem Learns.trans
    (first : s.Learns reached forms allowed)
    (second : reached.Learns last forms allowed) :
    s.Learns last forms allowed :=
  ⟨second.ready, first.grows.trans second.grows, second.guard.trans first.guard⟩

/-! ## What a state reads -/

/-- How a type is laid out depends on how classes are read. -/
theorem layout_congr
    (reading : s.world.SameReading reached.world)
    (caps : Capabilities)
    (reader : Reader) :
    reached.layout caps reader = s.layout caps reader := by
  cases reader with
  | fields c => simp only [layout, reading.plansOf?]
  | member c => simp only [layout, reading.memberClass]
  | _ => rfl

theorem covers_congr
    {w reached : World}
    (covers : w.Covers forms allowed)
    (reading : w.SameReading reached) :
    reached.Covers forms allowed where
  any := covers.any
  text := covers.text
  plain := covers.plain
  asks := covers.asks
  unapplied := covers.unapplied
  cases c member := by rw [reading.hooks, covers.cases c member]
  program c member outside := by rw [reading.hooks, covers.program c member outside]
  schema c member hook := by
    rw [reading.hooks]
    exact covers.schema c member hook
  arguments c member b := by
    rw [reading.baseArguments]
    exact covers.arguments c member b
  member c member := by
    rw [reading.memberClass]
    exact covers.member c member
  plans c member := by
    rw [reading.plansOf?]
    exact covers.plans c member

theorem sound_congr
    {key : Key}
    {caps : Capabilities}
    (sound : caps.Sound s forms allowed key)
    (reading : s.world.SameReading reached.world) :
    caps.Sound reached forms allowed key where
  identity := sound.identity
  plain := sound.plain
  accepted := sound.accepted
  schema := sound.schema
  fits := sound.fits
  closed reader isNone probed reads := by
    rw [layout_congr reading]
    exact sound.closed reader isNone probed reads

/-- A state that has the registry of another one and reads classes like it knows
what that one knows. -/
theorem Learns.of_registry
    (ready : s.Ready forms allowed)
    (reading : s.world.SameReading reached.world)
    (registry : reached.registry .current = s.registry .current)
    (guard : reached.guard = s.guard) :
    s.Learns reached forms allowed where
  ready :=
    { covers := covers_congr ready.covers reading
      known := fun a member caps found => by
        rw [registry] at found
        exact sound_congr (ready.known a member caps found) reading }
  grows :=
    { reading := reading
      found := fun a caps found => by rw [registry, found] }
  guard := guard

/-- Settling declared classes is learning nothing. -/
theorem SettlesTo.learns
    (settles : s.SettlesTo reached)
    (ready : s.Ready forms allowed) :
    s.Learns reached forms allowed :=
  .of_registry ready settles.world.reading settles.registry settles.guard

theorem SettlesTo.refl (s : Store) : s.SettlesTo s :=
  ⟨.refl, rfl, rfl⟩

theorem SettlesTo.trans
    (first : s.SettlesTo reached)
    (second : reached.SettlesTo last) :
    s.SettlesTo last :=
  ⟨first.world.trans second.world, second.registry.trans first.registry,
    second.guard.trans first.guard⟩

/-- What is known stays known. -/
theorem Knows.of_growsTo
    {a : TypeForm}
    (known : s.Knows a)
    (grows : s.GrowsTo reached) :
    reached.Knows a := by
  intro accepted
  obtain ⟨caps, found⟩ := Option.isSome_iff_exists.mp (known accepted)
  rw [grows.found a caps found]
  rfl

/-- Settling declared classes forgets nothing. -/
theorem Knows.of_settlesTo
    {a : TypeForm}
    (known : s.Knows a)
    (settles : s.SettlesTo reached) :
    reached.Knows a := by
  rw [Knows, settles.registry]
  exact known

/-- Noting something settles nothing. -/
theorem SettlesTo.note (s : Store) (events : List Event) : s.SettlesTo { s with events := events } :=
  ⟨.refl, rfl, rfl⟩

/-! ## Remembering -/

theorem registry_changeRegistry
    (s : Store)
    (change : CapabilityRegistry → CapabilityRegistry) :
    (s.changeRegistry .current change).registry .current = change (s.registry .current) := by
  cases owns : s.own <;> simp [changeRegistry, registry, owns]

theorem find?_remember_self
    (r : CapabilityRegistry)
    {a b : TypeForm}
    (caps : Capabilities)
    (same : b.identity = a.identity) :
    (r.remember a caps).find? b = some caps := by
  unfold CapabilityRegistry.find? CapabilityRegistry.remember
  rw [same, Table.lookup_set_self]
  rfl

theorem find?_remember_of_ne
    (r : CapabilityRegistry)
    {a b : TypeForm}
    (caps : Capabilities)
    (different : b.identity ≠ a.identity) :
    (r.remember a caps).find? b = r.find? b := by
  unfold CapabilityRegistry.find? CapabilityRegistry.remember
  rw [Table.lookup_set_of_ne _ _ different]

/-- What is found depends on the identity of a type form alone. -/
theorem find?_congr
    (r : CapabilityRegistry)
    {a b : TypeForm}
    (same : b.identity = a.identity) :
    r.find? b = r.find? a := by
  rw [CapabilityRegistry.find?, CapabilityRegistry.find?, same]

/-- The state in which something was found out and remembered. -/
def remembering (s : Store) (a : TypeForm) (caps : Capabilities) : Store :=
  s.changeRegistry .current fun r => r.remember a caps

/-- Remembering declares nothing. -/
@[simp]
theorem world_remembering
    (s : Store)
    (a : TypeForm)
    (caps : Capabilities) :
    (s.remembering a caps).world = s.world := by
  unfold remembering changeRegistry
  split <;> rfl

/-- Remembering what is sound for a type that was not known loses nothing. -/
theorem learns_remembering
    {a : TypeForm}
    {caps : Capabilities}
    (learns : s.Learns reached forms allowed)
    (unknown : (s.registry .current).find? a = none)
    (sound : caps.Sound reached forms allowed a.identity) :
    s.Learns (reached.remembering a caps) forms allowed ∧
      ((reached.remembering a caps).registry .current).find? a = some caps := by
  have reading : reached.world.SameReading (reached.remembering a caps).world := by
    rw [world_remembering]
    exact .refl _
  have registry := registry_changeRegistry reached fun r => r.remember a caps
  refine ⟨⟨⟨covers_congr learns.ready.covers reading, ?_⟩, ⟨?_, ?_⟩, ?_⟩, ?_⟩
  · intro b member other found
    rw [remembering, registry] at found
    by_cases same : b.identity = a.identity
    · rw [find?_remember_self _ _ same] at found
      cases found
      rw [same]
      exact sound_congr sound reading
    · rw [find?_remember_of_ne _ _ same] at found
      exact sound_congr (learns.ready.known b member other found) reading
  · exact learns.grows.reading.trans reading
  · intro b other found
    rw [remembering, registry]
    by_cases same : b.identity = a.identity
    · rw [find?_congr _ same, unknown] at found
      cases found
    · rw [find?_remember_of_ne _ _ same]
      exact learns.grows.found b other found
  · rw [← learns.guard]
    unfold remembering changeRegistry
    split <;> rfl
  · rw [remembering, registry, find?_remember_self _ _ rfl]

/-- Looking up what is known finds it. -/
theorem run_remembered_of_known
    {scope : Scope}
    {a : TypeForm}
    {caps : Capabilities}
    (resolve : Step Store Capabilities)
    (found : (s.registry scope).find? a = some caps) :
    (remembered scope a resolve).run s = (.ok caps, s) := by
  rw [remembered, Step.run_bind_of_ok (Step.run_current s), found]
  rfl

/-- A type without notes is looked up by what it is. -/
theorem lookup_of_plain
    {a : TypeForm}
    (plain : a.isPlain = true) :
    lookup .current a = remembered .current a (resolveBare .current a) := by
  cases a with
  | annotated inner notes => cases plain
  | _ => rfl

/-- Looking up a type without notes that is known finds it. -/
theorem run_lookup_of_known
    {a : TypeForm}
    {caps : Capabilities}
    (plain : a.isPlain = true)
    (found : (s.registry .current).find? a = some caps) :
    (lookup .current a).run s = (.ok caps, s) := by
  rw [lookup_of_plain plain, run_remembered_of_known _ found]

/-- Looking something up that can be found out finds it. -/
theorem remembered_learns
    {a : TypeForm}
    {resolve : Step Store Capabilities}
    (ready : s.Ready forms allowed)
    (resolves : (s.registry .current).find? a = none →
      ∃ caps reached, resolve.run s = (.ok caps, reached) ∧ s.Learns reached forms allowed ∧
        caps.Sound reached forms allowed a.identity) :
    ∃ caps reached, (remembered .current a resolve).run s = (.ok caps, reached) ∧
      s.Learns reached forms allowed ∧ (reached.registry .current).find? a = some caps := by
  rw [remembered, Step.run_bind_of_ok (Step.run_current s)]
  cases found : (s.registry .current).find? a with
  | some caps => exact ⟨caps, s, rfl, .refl ready, found⟩
  | none =>
      obtain ⟨caps, between, ran, learns, sound⟩ := resolves found
      refine ⟨caps, between.remembering a caps, ?_, learns_remembering learns found sound⟩
      rw [Step.run_bind_of_ok ran]
      rfl

end

end Store

/-! ## Plans -/

/-- Whether a plan leaves null out of its type form exactly where it may. -/
def FieldPlan.IsFaithful (p : FieldPlan) : Prop :=
  p.inner = p.form.stripNull.1 ∧ (p.form.stripNull.2 = true → p.isOptional = true)

theorem FieldPlan.isFaithful_of
    (name key : String)
    (form : TypeForm)
    (hasDefault : Bool) :
    (FieldPlan.of name key form hasDefault).IsFaithful := by
  refine ⟨rfl, fun isNullable => ?_⟩
  have orDefault : (form.stripNull.2 || hasDefault) = true := by
    rw [show form.stripNull.2 = true from isNullable]
    rfl
  exact orDefault

namespace World

/-- The plans of a class are faithful. -/
theorem isFaithful_of_mem_plansOf?
    {w : World}
    {c : ClassRef}
    {plans : List FieldPlan}
    (found : w.plansOf? c = some plans) :
    ∀ p ∈ plans, p.IsFaithful := by
  rw [plansOf?] at found
  cases ran : (decodingPlans c).run w with
  | mk outcome reached =>
      rw [ran] at found
      cases outcome with
      | error interrupt => cases found
      | ok made =>
          cases found
          intro p member
          rcases decodingPlans_eq_ok ran with
            ⟨fields, refusal, hints, -, -, -, rfl⟩ | ⟨fields, -, -, -, rfl⟩
          · obtain ⟨h, -, rfl⟩ := List.mem_map.mp member
            exact FieldPlan.isFaithful_of _ _ _ _
          · obtain ⟨f, -, rfl⟩ := List.mem_map.mp member
            split
            · exact FieldPlan.isFaithful_of _ _ _ _
            · exact FieldPlan.isFaithful_of _ _ _ _

/-! ## Classes -/

theorem hasContent_label (w : World) (v : Value) : (w.label v).hasContent = true := by
  have ofLabel {v : Value} (labels : isLabel v = true) : v.hasContent = true := by
    cases v <;> first | rfl | cases labels
  have ofBare (bare : Value) :
      (if isLabel bare then bare else .text (w.textOf bare) : Value).hasContent = true := by
    split
    · rename_i labels
      exact ofLabel labels
    · rfl
  exact ofBare _

theorem allContent_labels
    (w : World)
    (values : List Value) :
    Value.allContent (values.map w.label) = true := by
  induction values with
  | nil => rfl
  | cons v rest inductionHypothesis =>
      simp [Value.allContent, hasContent_label, inductionHypothesis]

/-- Whether a class is an enumeration. -/
def isEnumeration (w : World) (c : ClassRef) : Bool :=
  match w.body c with
  | .enumeration _ _ _ => true
  | _ => false

theorem isSome_members? (w : World) (c : ClassRef) :
    (w.members? c).isSome = w.isEnumeration c := by
  unfold members? isEnumeration
  cases w.body c with
  | enumeration mixin members aliases => cases c <;> rfl
  | _ => rfl

/-- How a class is read: by its program, its members, its fields, or as the
collection that it extends. -/
theorem reader?_cases
    {w : World}
    {c : ClassRef}
    {reader : Reader}
    (reads : w.reader? c = some reader) :
    (∃ body, (w.hooks c).program = some body ∧ reader = .program (.cls c) body) ∨
      (w.isEnumeration c = true ∧ reader = .member c) ∨
      (w.isEnumeration c = false ∧ (reader = .fields c ∨
        (∃ value cls, (value = .any ∨ value ∈ w.baseArguments c .dict) ∧
          reader = .mapping value cls) ∨
        ∃ item into b, (item = .any ∨ item ∈ w.baseArguments c b) ∧
          reader = .sequence item into)) := by
  unfold reader? at reads
  split at reads
  · rename_i body hasProgram
    cases reads
    exact .inl ⟨body, hasProgram, rfl⟩
  · refine .inr ?_
    have others : (w.isEnumeration c = false ∧ (reader = .fields c ∨
        (∃ value cls, (value = .any ∨ value ∈ w.baseArguments c .dict) ∧
          reader = .mapping value cls) ∨
        ∃ item into b, (item = .any ∨ item ∈ w.baseArguments c b) ∧
          reader = .sequence item into)) ∨ w.isEnumeration c = true ∧ reader = .member c := by
      unfold isEnumeration
      split at reads
      · rename_i isBody
        cases reads
        exact .inr ⟨by rw [isBody], rfl⟩
      · rename_i isBody
        cases reads
        exact .inl ⟨by rw [isBody], .inl rfl⟩
      · rename_i isBody
        cases reads
        exact .inl ⟨by rw [isBody], .inl rfl⟩
      · rename_i notEnumeration _ _
        refine .inl ⟨?_, ?_⟩
        · split
          · rename_i mixin members aliases isEnumeration
            exact absurd isEnumeration (notEnumeration mixin members aliases)
          · rfl
        · split at reads
          · cases reads
            exact .inl rfl
          · split at reads
            · cases reads
              refine .inr (.inl ⟨_, _, ?_, rfl⟩)
              split
              · rename_i key value arguments
                exact .inr (by simp [arguments])
              · exact .inl rfl
            · obtain ⟨shape, _, rfl⟩ := Option.map_eq_some_iff.mp reads
              refine .inr (.inr ⟨_, _, shape.builtin, ?_, rfl⟩)
              cases w.baseArguments c shape.builtin with
              | nil => exact .inl rfl
              | cons item rest => exact .inr List.mem_cons_self
    exact others.symm

end World

section

variable {s : Store} {forms : List TypeForm} {allowed : Allowance}

/-- What fields are asked for is among the type forms that a world covers. -/
theorem mem_of_mem_record
    {w : World}
    {c : ClassRef}
    {plans : List FieldPlan}
    (covers : w.Covers forms allowed)
    (member : .cls c ∈ forms)
    (found : w.plansOf? c = some plans) :
    ∀ request ∈ (Layout.record plans).requests, request ∈ forms := by
  intro request asked
  obtain ⟨p, isPlan, rfl⟩ := List.mem_map.mp asked
  have formMember := covers.plans c member plans found p isPlan
  by_cases isOptional : p.isOptional = true
  · rw [if_pos isOptional]
    rw [(World.isFaithful_of_mem_plansOf? found p isPlan).1]
    rcases TypeForm.stripNull_cases (covers.plain _ formMember) with
      stays | ⟨style, members, isUnion, hasNull, stripped⟩
    · rw [stays]
      exact formMember
    · refine covers.asks _ formMember _ ?_
      rw [isUnion] at stripped ⊢
      simp [TypeForm.asks, stripped]
  · rw [if_neg isOptional]
    exact formMember

/-- What is found out about a class of the universe is sound. -/
theorem classCapabilities_sound
    {c : ClassRef}
    (covers : s.world.Covers forms allowed)
    (member : .cls c ∈ forms) :
    ∃ caps, (classCapabilities c).run s.world = (.ok caps, s.world) ∧
      caps.Sound s forms allowed (TypeForm.cls c).identity := by
  have casesOf : (classCases c).run s.world = (.ok (s.world.members? c), s.world) := by
    rw [classCases, Step.run_bind_of_ok (Step.run_current _), covers.cases c member]
    rfl
  rw [classCapabilities, Step.run_bind_of_ok (Step.run_current _)]
  cases s.world.kind? c with
  | some kind =>
      refine ⟨_, rfl, rfl, rfl, rfl, fun _ declares => (by cases declares), ?_, ?_⟩
      · intro reader isNone
        cases isNone
      · intro reader isNone
        cases isNone
  | none =>
      cases isDate : s.world.inherits c .date with
      | true =>
          refine ⟨_, rfl, rfl, rfl, rfl, fun _ declares => (by cases declares), ?_, ?_⟩
          · intro reader _ probed
            cases probed
          · intro reader _ probed
            cases probed
      | false =>
          refine ⟨_, Step.run_bind_of_ok casesOf _, rfl, rfl, rfl, covers.schema c member, ?_, ?_⟩
          · intro reader _ _ reads
            have members := s.world.isSome_members? c
            rcases World.reader?_cases reads with
              ⟨body, hasProgram, rfl⟩ | ⟨isEnumeration, rfl⟩ | ⟨notEnumeration, others⟩
            · by_cases outside : c.key ∈ allowed.programs
              · exact outside
              · rw [covers.program c member outside] at hasProgram
                cases hasProgram
            · rw [isEnumeration] at members
              obtain ⟨values, isSome⟩ := Option.isSome_iff_exists.mp members
              exact ⟨rfl, values.map s.world.label, by rw [isSome]; rfl,
                s.world.allContent_labels values⟩
            · rw [notEnumeration, Option.isSome_eq_false_iff, Option.isNone_iff_eq_none] at members
              rcases others with rfl | ⟨value, cls, _, rfl⟩ | ⟨item, into, b, _, rfl⟩
              · exact ⟨rfl, by rw [members]; rfl⟩
              · exact ⟨rfl, by rw [members]; rfl⟩
              · exact ⟨rfl, by rw [members]; rfl⟩
          · intro reader _ _ reads request asked
            rcases World.reader?_cases reads with
              ⟨body, _, rfl⟩ | ⟨_, rfl⟩ | ⟨_, rfl | ⟨value, cls, found, rfl⟩ | ⟨item, into, b, found, rfl⟩⟩
            · cases asked
            · obtain rfl := List.mem_singleton.mp asked
              exact covers.member c member
            · simp only [Store.layout] at asked
              cases plansCase : s.world.plansOf? c with
              | none =>
                  rw [plansCase] at asked
                  cases asked
              | some plans =>
                  rw [plansCase] at asked
                  exact mem_of_mem_record covers member plansCase request asked
            · obtain rfl := List.mem_singleton.mp asked
              rcases found with rfl | isArgument
              · exact covers.any
              · exact covers.arguments c member .dict _ isArgument
            · obtain rfl := List.mem_singleton.mp asked
              rcases found with rfl | isArgument
              · exact covers.any
              · exact covers.arguments c member b _ isArgument

/-- Nothing but a name is known about a type that is not read. -/
theorem Capabilities.sound_named
    {a : TypeForm}
    (plain : a.isPlain = true)
    (accepted : a.hasCapabilities = true)
    (name : String) :
    (Capabilities.named a name).Sound s forms allowed a.identity :=
  ⟨rfl, plain, accepted, fun _ declares => (by cases declares), fun _ _ _ reads => (by cases reads),
    fun _ _ _ reads => (by cases reads)⟩

/-- Noting something and finding out nothing is learning nothing. -/
theorem Store.learns_note
    (ready : s.Ready forms allowed)
    (events : List Event) :
    s.Learns { s with events := events } forms allowed :=
  .of_registry ready (.refl _) rfl rfl

theorem resolveClass_learns
    {c : ClassRef}
    (ready : s.Ready forms allowed)
    (member : .cls c ∈ forms) :
    ∃ caps reached, (resolveClass c).run s = (.ok caps, reached) ∧ s.Learns reached forms allowed ∧
      caps.Sound reached forms allowed (TypeForm.cls c).identity := by
  obtain ⟨caps, ran, sound⟩ := classCapabilities_sound ready.covers member
  have found : (Step.inWorld (classCapabilities c)).run s = (.ok caps, s) := by
    rw [Step.inWorld, Step.run_within, ran]
  rw [resolveClass, Step.run_bind_of_ok found]
  cases lacks : caps.lacksReader with
  | false => exact ⟨caps, s, rfl, .refl ready, sound⟩
  | true =>
      have learns := Store.learns_note ready (s.events ++ [.withoutReader caps.name])
      exact ⟨caps, _, rfl, learns, Store.sound_congr sound learns.grows.reading⟩

theorem lookupClass_learns
    {c : ClassRef}
    (ready : s.Ready forms allowed)
    (member : .cls c ∈ forms) :
    ∃ caps reached, (lookupClass .current c).run s = (.ok caps, reached) ∧
      s.Learns reached forms allowed ∧ (reached.registry .current).find? (.cls c) = some caps := by
  refine Store.remembered_learns ready fun _ => ?_
  split
  · exact ⟨_, s, rfl, .refl ready, Capabilities.sound_named rfl rfl _⟩
  · exact resolveClass_learns ready member

/-- A class with arguments is a type and no union. -/
theorem TypeForm.accepted_of_applies
    {a : TypeForm}
    {c : ClassRef}
    (applies : a.aliasOrigin? = some (.cls c)) :
    a.hasCapabilities = true ∧ a.stripNull.2 = false := by
  cases a with
  | bare b => exact ⟨rfl, rfl⟩
  | generic origin args =>
      cases applies
      exact ⟨rfl, rfl⟩
  | callable params result => exact ⟨rfl, rfl⟩
  | _ => cases applies

/-- What is known about a class is known about the class with arguments. -/
theorem Capabilities.Sound.applied
    {c : ClassRef}
    {a : TypeForm}
    {caps : Capabilities}
    (sound : caps.Sound s forms allowed (TypeForm.cls c).identity)
    (plain : a.isPlain = true)
    (applies : a.aliasOrigin? = some (.cls c))
    (outside : c.key ∉ allowed.programs)
    (name : String) :
    { caps with type := a, name := name }.Sound s forms allowed a.identity := by
  have accepted := a.accepted_of_applies applies
  have notNull : caps.type.stripNull.2 = false := by
    rw [← TypeForm.isNullable_key sound.plain, ← TypeForm.identity_of_isPlain sound.plain,
      sound.identity]
    cases c <;> rfl
  refine ⟨rfl, plain, accepted.1, sound.schema, fun reader isNone probed reads => ?_,
    fun reader isNone probed reads => sound.closed reader isNone probed reads⟩
  have fits := sound.fits reader isNone probed reads
  cases reader with
  | nullable inner =>
      rw [fits.2] at notNull
      cases notNull
  | program maker body =>
      have isExempt : caps.type.identity ∈ allowed.programs := fits
      rw [sound.identity] at isExempt
      exact absurd isExempt outside
  | oneOf values => exact ⟨accepted.2, fits.2⟩
  | member d => exact ⟨accepted.2, fits.2⟩
  | _ => exact ⟨accepted.2, fits.2⟩

/-- The class that a type form of the universe applies to arguments is of the
universe. -/
theorem World.Covers.origin_mem
    {w : World}
    {c : ClassRef}
    {a : TypeForm}
    (covers : w.Covers forms allowed)
    (member : a ∈ forms)
    (applies : a.aliasOrigin? = some (.cls c)) :
    .cls c ∈ forms := by
  refine covers.asks a member _ ?_
  cases a with
  | bare b =>
      cases applies
      exact List.mem_singleton_self _
  | generic origin args =>
      cases applies
      exact List.mem_append_left _ (List.mem_singleton_self _)
  | callable params result =>
      cases applies
      exact List.mem_singleton_self _
  | _ => cases applies

theorem asOrigin_learns
    {c : ClassRef}
    {a : TypeForm}
    (ready : s.Ready forms allowed)
    (member : a ∈ forms)
    (applies : a.aliasOrigin? = some (.cls c)) :
    ∃ caps reached, (resolveApplied.asOrigin .current a c).run s = (.ok caps, reached) ∧
      s.Learns reached forms allowed ∧ caps.Sound reached forms allowed a.identity := by
  have classMember := ready.covers.origin_mem member applies
  obtain ⟨caps, reached, ran, learns, found⟩ := lookupClass_learns ready classMember
  have sound := learns.ready.known _ classMember caps found
  refine ⟨_, reached, ?_, learns,
    sound.applied (ready.covers.plain a member) applies (ready.covers.unapplied a member c applies)
      a.schemaName⟩
  rw [resolveApplied.asOrigin, Step.run_bind_of_ok ran]
  rfl

/-- What is found out about a collection is sound if its parts are covered. -/
theorem Capabilities.sound_readBy
    {a : TypeForm}
    {reader : Reader}
    (plain : a.isPlain = true)
    (accepted : a.hasCapabilities = true)
    (placeholder : Value)
    (fits : reader.Fits (Capabilities.readBy a reader placeholder) allowed)
    (closed : ∀ request ∈ (s.layout (Capabilities.readBy a reader placeholder) reader).requests,
      request ∈ forms) :
    (Capabilities.readBy a reader placeholder).Sound s forms allowed a.identity := by
  refine ⟨rfl, plain, accepted, fun _ declares => (by cases declares), fun other _ _ reads => ?_,
    fun other _ _ reads => ?_⟩
  · cases reads
    exact fits
  · cases reads
    exact closed

/-- What is known about a class or a collection with arguments is sound. -/
theorem resolveApplied_learns
    {c : ClassRef}
    {a : TypeForm}
    {args : List TypeForm}
    (ready : s.Ready forms allowed)
    (member : a ∈ forms)
    (applies : a.aliasOrigin? = some (.cls c))
    (covered : c ≠ .builtin .callable → ∀ arg ∈ args, arg ∈ forms) :
    ∃ caps reached, (resolveApplied .current a (.cls c) args).run s = (.ok caps, reached) ∧
      s.Learns reached forms allowed ∧ caps.Sound reached forms allowed a.identity := by
  obtain ⟨accepted, notNull⟩ := TypeForm.accepted_of_applies applies
  have plain := ready.covers.plain a member
  have ofPart (item : TypeForm) (found : item = .any ∨ item ∈ args)
      (notCallable : c ≠ .builtin .callable) : ∀ request ∈ [item], request ∈ forms := by
    intro request asked
    obtain rfl := List.mem_singleton.mp asked
    rcases found with rfl | isArgument
    · exact ready.covers.any
    · exact covered notCallable _ isArgument
  cases c with
  | builtin b =>
      cases shapeOf : b.sequenceShape? with
      | some shape =>
          simp only [resolveApplied, shapeOf]
          refine ⟨_, s, rfl, .refl ready, Capabilities.sound_readBy plain accepted _
            ⟨notNull, rfl⟩ (ofPart _ ?_ ?_)⟩
          · cases args with
            | nil => exact .inl rfl
            | cons item rest => exact .inr List.mem_cons_self
          · rintro ⟨rfl⟩
            cases shapeOf
      | none =>
          by_cases isTuple : b = .tuple
          · subst isTuple
            have notCallable : ClassRef.builtin .tuple ≠ .builtin .callable := by decide
            simp only [resolveApplied, shapeOf]
            refine ⟨_, s, rfl, .refl ready, Capabilities.sound_readBy plain accepted _ ?_ ?_⟩
            · unfold tupleReader
              split <;> exact ⟨notNull, rfl⟩
            · unfold tupleReader
              split
              · exact ofPart _ (.inr List.mem_cons_self) notCallable
              · exact covered notCallable
          · by_cases isMapping : b.isMappingOrigin = true
            · have notCallable : ClassRef.builtin b ≠ .builtin .callable := by
                rintro ⟨rfl⟩
                cases isMapping
              have notTuple : (b == .tuple) = false := by simpa using isTuple
              simp only [resolveApplied, shapeOf, notTuple, isMapping, if_true, Bool.false_eq_true,
                if_false]
              refine ⟨_, s, rfl, .refl ready, Capabilities.sound_readBy plain accepted _
                ⟨notNull, rfl⟩ (ofPart _ ?_ notCallable)⟩
              split
              · exact .inr (by simp)
              · exact .inl rfl
            · have notTuple : (b == .tuple) = false := by simpa using isTuple
              simp only [resolveApplied, shapeOf, notTuple, isMapping, Bool.false_eq_true, if_false]
              exact asOrigin_learns ready member applies
  | _ => exact asOrigin_learns ready member applies

/-- What is known about a type without notes is sound. -/
theorem resolveBare_learns
    {a : TypeForm}
    (ready : s.Ready forms allowed)
    (member : a ∈ forms)
    (accepted : a.hasCapabilities = true) :
    ∃ caps reached, (resolveBare .current a).run s = (.ok caps, reached) ∧
      s.Learns reached forms allowed ∧ caps.Sound reached forms allowed a.identity := by
  have plain := ready.covers.plain a member
  have asks := ready.covers.asks a member
  cases a with
  | any => exact ⟨_, s, rfl, .refl ready, Capabilities.sound_named plain accepted _⟩
  | «variable» name => exact ⟨_, s, rfl, .refl ready, Capabilities.sound_named plain accepted _⟩
  | cls c =>
      obtain ⟨caps, reached, ran, learns, found⟩ := lookupClass_learns ready member
      exact ⟨caps, reached, ran, learns, learns.ready.known _ member caps found⟩
  | union style members =>
      refine ⟨unionCapabilities (.union style members), s, rfl, .refl ready, ?_⟩
      unfold unionCapabilities
      split
      · rename_i inner stripped
        refine ⟨rfl, plain, rfl, fun _ declares => (by cases declares), fun reader _ _ reads => ?_,
          fun reader _ _ reads => ?_⟩
        · cases reads
          exact ⟨rfl, stripped⟩
        · cases reads
          intro request asked
          obtain rfl := List.mem_singleton.mp asked
          exact asks _ (by simp [TypeForm.asks, stripped])
      · exact Capabilities.sound_named plain rfl _
  | literal values =>
      refine ⟨literalCapabilities s.world (.literal values) values, s, rfl, .refl ready, ?_⟩
      refine ⟨rfl, plain, rfl, fun _ declares => (by cases declares), fun reader _ _ reads => ?_,
        fun reader _ _ reads => ?_⟩
      · cases reads
        exact ⟨rfl, _, rfl, s.world.allContent_labels values⟩
      · cases reads
        intro request asked
        obtain rfl := List.mem_singleton.mp asked
        cases values with
        | nil => exact ready.covers.text
        | cons v rest => exact asks _ (by simp [TypeForm.asks])
  | bare b => exact resolveApplied_learns ready member rfl fun _ arg isArg => by cases isArg
  | generic origin args =>
      cases origin with
      | cls c =>
          exact resolveApplied_learns ready member rfl fun _ arg isArg =>
            asks arg (List.mem_append_right _ isArg)
      | _ => cases accepted
  | callable params result =>
      have applied : ∃ caps reached,
          (resolveApplied .current (.callable params result) (.cls (.builtin .callable))
            (params ++ [result])).run s = (.ok caps, reached) ∧
          s.Learns reached forms allowed ∧
          caps.Sound reached forms allowed (TypeForm.callable params result).identity :=
        resolveApplied_learns ready member rfl fun notCallable => absurd rfl notCallable
      exact applied
  | annotated inner notes => cases plain
  | _ => cases accepted

/-- Looking up a type of the universe finds it. -/
theorem lookup_learns
    {a : TypeForm}
    (ready : s.Ready forms allowed)
    (member : a ∈ forms)
    (accepted : a.hasCapabilities = true) :
    ∃ caps reached, (lookup .current a).run s = (.ok caps, reached) ∧
      s.Learns reached forms allowed ∧ (reached.registry .current).find? a = some caps := by
  rw [Store.lookup_of_plain (ready.covers.plain a member)]
  exact Store.remembered_learns ready fun _ => resolveBare_learns ready member accepted

/-- What is no type is never known. -/
theorem Store.Ready.find?_eq_none
    {a : TypeForm}
    (ready : s.Ready forms allowed)
    (member : a ∈ forms)
    (noType : a.hasCapabilities = false) :
    (s.registry .current).find? a = none := by
  cases found : (s.registry .current).find? a with
  | none => rfl
  | some caps =>
      have sound := ready.known a member caps found
      have plain := ready.covers.plain a member
      have sameKey : caps.type.key = a.key := by
        rw [← TypeForm.identity_of_isPlain sound.plain, sound.identity,
          TypeForm.identity_of_isPlain plain]
      have accepted := TypeForm.namesType_key sound.plain
      rw [sameKey, TypeForm.namesType_key plain, noType, sound.accepted] at accepted
      cases accepted

/-- Looking up what is no type is a fault that leaves no trace. -/
theorem lookup_fails
    {a : TypeForm}
    (ready : s.Ready forms allowed)
    (member : a ∈ forms)
    (noType : a.hasCapabilities = false) :
    ∃ f, (lookup .current a).run s = (.error (.fault f), s) ∧ f.kind = .surface := by
  have unknown := ready.find?_eq_none member noType
  have fails (fault : Fault) (resolve : Step Store Capabilities)
      (failure : resolve.run s = (.error (.fault fault), s)) :
      (remembered .current a resolve).run s = (.error (.fault fault), s) := by
    rw [remembered, Step.run_bind_of_ok (Step.run_current s), unknown]
    exact Step.run_bind_of_error failure _
  cases a with
  | never => exact ⟨_, fails _ _ rfl, rfl⟩
  | newType c => exact ⟨_, fails _ _ rfl, rfl⟩
  | generic origin args =>
      cases origin with
      | cls c => cases noType
      | _ => exact ⟨_, fails _ _ rfl, rfl⟩
  | reference name => exact ⟨_, fails _ _ rfl, rfl⟩
  | text name => exact ⟨_, fails _ _ rfl, rfl⟩
  | ellipsis => exact ⟨_, fails _ _ rfl, rfl⟩
  | value v => exact ⟨_, fails _ _ rfl, rfl⟩
  | _ => cases noType

end

end SchemaProbe

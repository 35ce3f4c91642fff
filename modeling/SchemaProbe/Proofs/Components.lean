import SchemaProbe.Proofs.SchemaUnfolding
import SchemaProbe.Proofs.Surveying

namespace SchemaProbe

/-!
# Components do not depend on the order of types

The schemas of several types are written into one registry, one after the other.
Which of the versions of a schema is shared in the end depends on the order of the
types, as a version that is written later takes the place of an earlier one, and what
is written in place in one of them may be a reference in another one.  All versions
under one name show the same type, though, so they are the same once references are
followed.
-/

open List

/-! ## Names of what is surveyed -/

namespace Store

section

variable {s last : Store} {forms : List TypeForm} {allowed : Allowance} {a : TypeForm}

/-- A survey knows the types of a universe by their own names, if the state does. -/
theorem Surveys.isNamedFor
    {caps : Capabilities}
    (surveys : s.Surveys last (· ∈ forms))
    (ready : s.Ready forms allowed)
    (named : ∀ b ∈ forms, ∀ own, (s.registry .current).find? b = some own → own.IsNamedFor b)
    (member : a ∈ forms)
    (found : (last.registry .current).find? a = some caps) :
    caps.IsNamedFor a := by
  rw [surveys.known a member] at found
  cases accepted : a.hasCapabilities with
  | true => exact ready.isNamedFor_of_foresee (named a member) member accepted found
  | false =>
      rw [ready.foresee_eq_none member accepted] at found
      cases found

/-- What is known about a type that is looked into says how it is read. -/
theorem reads_of_inner
    {type : TypeForm}
    {layout : Layout}
    {caps : Capabilities}
    (isInner : s.entry a = .inner type layout)
    (found : (s.registry .current).find? a = some caps) :
    caps.reader.isSome = true ∧ caps.type = type := by
  rw [entry, found] at isInner
  simp only [entryOf] at isInner
  split at isInner
  · rename_i reads
    cases isInner
    rw [reads]
    exact ⟨rfl, rfl⟩
  · cases isInner

/-- In a survey types that may be null go by the names of what they are read as, and
have no description. -/
theorem Surveys.wrapsNamed
    (surveys : s.Surveys last (· ∈ forms))
    (ready : s.Ready forms allowed)
    (named : ∀ b ∈ forms, ∀ own, (s.registry .current).find? b = some own → own.IsNamedFor b) :
    last.WrapsNamed (· ∈ forms) ∧
      ∀ a ∈ forms, ∀ type x caps, last.entry a = .inner type (.nullable x) →
        (last.registry .current).find? a = some caps → caps.description = none := by
  have lastReady := surveys.ready ready fun _ isForm => isForm
  have nullable {a type x : TypeForm} {caps : Capabilities} (member : a ∈ forms)
      (isInner : last.entry a = .inner type (.nullable x))
      (found : (last.registry .current).find? a = some caps) :
      type.isPlain = true ∧ type.stripNull = (x, true) ∧ caps.name = x.schemaName ∧
        caps.description = none := by
    obtain ⟨plain, _, stripped⟩ := lastReady.stripNull_of_nullable member isInner
    obtain ⟨reads, isType⟩ := reads_of_inner isInner found
    obtain ⟨isOwn, isName, undescribed⟩ := surveys.isNamedFor ready named member found reads
    rw [← isOwn, isType, stripped] at isName undescribed
    exact ⟨plain, stripped, isName, undescribed rfl⟩
  refine ⟨?_, fun a member type x caps isInner found => (nullable member isInner found).2.2.2⟩
  intro a member type x inside layout caps wrapped isInner wrappedInner found wrappedFound
  obtain ⟨plain, stripped, isName, _⟩ := nullable member isInner found
  have wrappedMember := lastReady.lawful.nullable_mem member isInner
  obtain ⟨_, isWrappedName, _⟩ := surveys.isNamedFor ready named wrappedMember wrappedFound
    (reads_of_inner wrappedInner wrappedFound).1
  have again := TypeForm.stripNull_stripNull plain
  rw [stripped] at again
  rw [isName, isWrappedName, again]

end

end Store

/-! ## Looking up what is known later -/

section

variable {s last found : Store} {config : SchemaConfig} {type : Option TypeForm}
  {structural : Option Capabilities → Step Store KnownShape} {known : KnownShape}

/-- Dates are written in the same way where classes are declared alike. -/
theorem SchemaConfig.dateSchema_congr
    {w other : World}
    (config : SchemaConfig)
    (alike : w.DeclaresAlike other) :
    config.dateSchema other = config.dateSchema w := by
  funext type
  simp only [dateSchema, alike.inherits]

/-- What is known about the type of a node is known later too. -/
theorem Store.GrowsTo.recordOf_eq
    (grows : s.GrowsTo last)
    (isKnown : ∀ a, type = some a → ((s.registry .current).find? a).isSome) :
    s.recordOf type = last.recordOf type := by
  cases type with
  | none => rfl
  | some a =>
      obtain ⟨caps, found⟩ := Option.isSome_iff_exists.mp (isKnown a rfl)
      have lastFound := grows.found a caps found
      simp only [recordOf, Option.bind_some, found, lastFound]

/-- A node of known type is found to be what it is later, if its parts are. -/
theorem knowNode_of_later
    (grows : s.GrowsTo last)
    (dates : config.dateSchema last.world = config.dateSchema s.world)
    (isKnown : ∀ a, type = some a → ((s.registry .current).find? a).isSome)
    (ofParts : ∀ record, (structural record).run last = (.ok known, found) →
      found = last ∧ (structural record).run s = (.ok known, s))
    (ran : (knowNode config type structural).run last = (.ok known, found)) :
    found = last ∧ (knowNode config type structural).run s = (.ok known, s) := by
  have lastKnown (a : TypeForm) (isType : type = some a) :
      ((last.registry .current).find? a).isSome := by
    obtain ⟨caps, found⟩ := Option.isSome_iff_exists.mp (isKnown a isType)
    rw [grows.found a caps found]
    rfl
  obtain ⟨same, _, before, rfl⟩ :=
    knowNode_follows Eq (fun _ => rfl) lastKnown (grows.recordOf_eq isKnown) dates.symm
      (fun record ended => by
        obtain ⟨same, before⟩ := ofParts record ended
        exact ⟨same, known, before, rfl⟩) ran
  exact ⟨same, before⟩

end

mutual

/-- Where all types are known, looking up a tree finds what is found later. -/
theorem Shape.know_of_later
    {s last found : Store}
    {config : SchemaConfig}
    {known : KnownShape}
    (grows : s.GrowsTo last)
    (dates : config.dateSchema last.world = config.dateSchema s.world)
    (given : Option TypeForm)
    (shape : Shape)
    (isKnown : shape.IsKnown s)
    (givenKnown : ∀ a, given = some a → ((s.registry .current).find? a).isSome)
    (ran : (shape.know config given).run last = (.ok known, found)) :
    found = last ∧ (shape.know config given).run s = (.ok known, s) := by
  have typeKnown := isKnown.type_known givenKnown
  have partsKnown (part : Shape) (isPart : part ∈ shape.parts) := isKnown.part isPart
  cases shape with
  | single h kind =>
      rw [Shape.know] at ran ⊢
      refine knowNode_of_later grows dates typeKnown (fun record ended => ?_) ran
      cases ended
      exact ⟨rfl, rfl⟩
  | keyed h isFixed fields =>
      cases isFixed with
      | true =>
          rw [Shape.know] at ran ⊢
          refine knowNode_of_later grows dates typeKnown (fun record ended => ?_) ran
          obtain ⟨knownFields, between, fieldsRan, result⟩ := Step.run_bind_eq_ok_iff.mp ended
          cases result
          obtain ⟨same, before⟩ := Shape.knowFields_of_later grows dates fields partsKnown fieldsRan
          rw [Step.run_bind_of_ok before]
          exact ⟨same, rfl⟩
      | false =>
          cases fields with
          | nil =>
              rw [Shape.know] at ran ⊢
              refine knowNode_of_later grows dates typeKnown (fun record ended => ?_) ran
              cases ended
              exact ⟨rfl, rfl⟩
          | cons field rest =>
              obtain ⟨name, first⟩ := field
              rw [Shape.know] at ran ⊢
              refine knowNode_of_later grows dates typeKnown (fun record ended => ?_) ran
              obtain ⟨values, between, valuesRan, result⟩ := Step.run_bind_eq_ok_iff.mp ended
              cases result
              obtain ⟨same, before⟩ := Shape.know_of_later grows dates none first
                (partsKnown first mem_cons_self) (fun _ isGiven => nomatch isGiven) valuesRan
              rw [Step.run_bind_of_ok before]
              exact ⟨same, rfl⟩
  | unkeyed h element =>
      rw [Shape.know] at ran ⊢
      refine knowNode_of_later grows dates typeKnown (fun record ended => ?_) ran
      obtain ⟨items, between, itemsRan, result⟩ := Step.run_bind_eq_ok_iff.mp ended
      cases result
      obtain ⟨same, before⟩ := Shape.know_of_later grows dates none element
        (partsKnown element mem_cons_self) (fun _ isGiven => nomatch isGiven) itemsRan
      rw [Step.run_bind_of_ok before]
      exact ⟨same, rfl⟩
  | recursive h marker =>
      have markerKnown : ((s.registry .current).find? marker).isSome := by
        cases isKnown with
        | node _ markers _ => exact markers h marker rfl
      obtain ⟨caps, isFound⟩ := Option.isSome_iff_exists.mp markerKnown
      rw [Shape.know] at ran ⊢
      refine knowNode_of_later grows dates typeKnown (fun record ended => ?_) ran
      rw [Step.run_bind_of_ok (lookup?_of_known (grows.found marker caps isFound))] at ended
      rw [Step.run_bind_of_ok (lookup?_of_known isFound)]
      cases ended
      exact ⟨rfl, rfl⟩
  | unconstrained h =>
      rw [Shape.know] at ran ⊢
      refine knowNode_of_later grows dates typeKnown (fun record ended => ?_) ran
      cases ended
      exact ⟨rfl, rfl⟩
termination_by structural shape

/-- Where all types are known, looking up fields finds what is found later. -/
theorem Shape.knowFields_of_later
    {s last found : Store}
    {config : SchemaConfig}
    {known : List (String × Bool × KnownShape)}
    (grows : s.GrowsTo last)
    (dates : config.dateSchema last.world = config.dateSchema s.world)
    (fields : List (String × Shape))
    (isKnown : ∀ part ∈ fields.map Prod.snd, part.IsKnown s)
    (ran : (Shape.knowFields config fields).run last = (.ok known, found)) :
    found = last ∧ (Shape.knowFields config fields).run s = (.ok known, s) := by
  cases fields with
  | nil =>
      cases ran
      exact ⟨rfl, rfl⟩
  | cons field rest =>
      obtain ⟨name, shape⟩ := field
      rw [Shape.knowFields] at ran ⊢
      obtain ⟨first, between, firstRan, later⟩ := Step.run_bind_eq_ok_iff.mp ran
      obtain ⟨others, reached, othersRan, result⟩ := Step.run_bind_eq_ok_iff.mp later
      cases result
      obtain ⟨rfl, before⟩ := Shape.know_of_later grows dates none shape
        (isKnown shape mem_cons_self) (fun _ isGiven => nomatch isGiven) firstRan
      obtain ⟨same, restBefore⟩ := Shape.knowFields_of_later grows dates rest
        (fun part isPart => isKnown part (mem_cons_of_mem _ isPart)) othersRan
      rw [Step.run_bind_of_ok before, Step.run_bind_of_ok restBefore]
      exact ⟨same, rfl⟩
termination_by structural fields

end

/-! ## One tree for each type -/

/-- Whether a known tree is what synthesis builds the schema of a type from, whichever
types were described before: nodes that refer back are bound in it, and it is written
in a way that shows the type. -/
structure KnownShape.StandsFor
    (known : KnownShape)
    (s : Store)
    (forms : List TypeForm)
    (plain : PlainSynthesis)
    (among : TypeForm → Prop)
    (a : TypeForm) :
    Prop where
  bound : known.MarkersBound []
  writes : known.Writes plain among (plain.known.bareRecord (some a))
  runs : ∀ start registry, s.Follows start forms .declaringPlainly (· ∈ forms) →
    ∃ last, (schemaFor plain.config a).run (registry, start) =
        (.ok (known.schema plain.config), registry.overwrittenBy (known.shares plain.config),
          last) ∧
      s.Follows last forms .declaringPlainly (· ∈ forms)

section

variable {s : Store} {forms : List TypeForm} {plain : PlainSynthesis} {among : TypeForm → Prop}
  {a : TypeForm} {types : List TypeForm} {declared : List Schema}

/-- A known tree stands for each type whose nodes are the same wherever they are met. -/
theorem Store.Surveys.exists_standsFor
    (surveys : s.Surveys plain.known (· ∈ forms))
    (ready : s.Ready forms .declaringPlainly)
    (once : SpelledOnce (· ∈ forms))
    (named : ∀ b ∈ forms, ∀ own, (s.registry .current).find? b = some own → own.IsNamedFor b)
    (hasKinds : plain.known.HasKinds among (fun _ => none) plain.kinds)
    (covered : ∀ b, among b → b ∈ forms)
    (within : ∀ b, plain.known.Reaches a b → among b)
    (conventional : s.Conventional .declaringPlainly a)
    (leads : ∀ b, s.LeadsTo a b → b ∈ forms)
    (accepted : a.hasCapabilities = true)
    (agree : KindsAgree plain.known.entry [] a) :
    ∃ known : KnownShape, known.StandsFor s forms plain among a := by
  have lastReady := surveys.ready ready fun _ isForm => isForm
  have member : a ∈ forms := leads a .root
  obtain ⟨wraps, undescribed⟩ := surveys.wrapsNamed ready named
  have isKnown : ((plain.known.registry .current).find? a).isSome := by
    obtain ⟨caps, _, ran, _⟩ := lookup_learns ready member accepted
    rw [surveys.known a member, Store.foresee, ran]
    rfl
  obtain ⟨shape, unfolds⟩ := exists_unfolds lastReady.lawful.closed (fun _ => none) member []
  obtain ⟨known, knows, explained, writes⟩ :=
    Unfolds.root_writes lastReady lastReady (.refl _) rfl within
      (fun b isAmong => wraps b (covered b isAmong)) (undescribed a member) hasKinds member isKnown
      unfolds unfolds
  refine ⟨known, explained.bound, writes, fun start registry follows => ?_⟩
  obtain ⟨own, reached, described, reachedFollows, ⟨kinds, ownUnfolds⟩, later⟩ :=
    follows.describe ready rfl once conventional leads accepted
  obtain rfl := (later plain.known surveys agree).unique unfolds
  have grows := reachedFollows.growsTo_survey surveys
  have rootKnown := Unfolds.root_known lastReady member isKnown unfolds ownUnfolds
  have dates : plain.config.dateSchema plain.known.world =
      plain.config.dateSchema reached.world := by
    rw [surveys.world, SchemaConfig.dateSchema_congr _ reachedFollows.recalls.alike]
  obtain ⟨_, ownKnows⟩ := Shape.know_of_later grows dates (some a) own
    (ownUnfolds.isKnown reachedFollows.ready member) (by rintro b ⟨rfl⟩; exact rootKnown) knows
  obtain ⟨events, synthesised⟩ := synthesize_of_know ownKnows registry reached.events
  rw [Store.withEvents_self] at synthesised
  have begun : (Step.shared (describe a)).run (registry, start) = (.ok own, registry, reached) := by
    rw [Step.shared, Step.run_within, described]
  refine ⟨reached.withEvents events, ?_, ?_⟩
  · rw [schemaFor, Step.run_bind_of_ok begun]
    exact synthesised
  · exact reachedFollows.of_registry (.refl _) (.refl _) rfl

/-- Synthesising the schemas of types one after the other shares what each of them
shares, and what is shared shows types and leads nowhere else. -/
theorem schemasFor_shows
    {found : TypeForm → KnownShape}
    {start : Store}
    {registry : SchemaRegistry}
    (each : ∀ a ∈ types, (found a).StandsFor s forms plain among a)
    (declares : ∀ a ∈ types, (found a).declaredSchemas ⊆ declared)
    (follows : s.Follows start forms .declaringPlainly (· ∈ forms))
    (shows : registry.Shows plain among)
    (resolves : registry.Resolves sharedName declared) :
    ∃ reached last, (schemasFor plain.config types).run (registry, start) = (.ok (), reached, last) ∧
      s.Follows last forms .declaringPlainly (· ∈ forms) ∧
      reached.Shows plain among ∧ reached.Resolves sharedName declared ∧
      ∀ name, name ∈ reached.names ↔
        name ∈ registry.names ∨ ∃ a ∈ types, name ∈ ((found a).shares plain.config).names := by
  induction types generalizing registry start with
  | nil => exact ⟨registry, start, rfl, follows, shows, resolves, fun name => by simp⟩
  | cons a rest inductionHypothesis =>
      have stands := each a mem_cons_self
      obtain ⟨between, ran, betweenFollows⟩ := stands.runs start registry follows
      have written := ((found a).build_into plain.config registry).2
      have betweenShows := stands.writes.registry ⟨registry, []⟩ shows
      obtain ⟨_, betweenResolves, _⟩ := KnownShape.build_resolves plain.config stands.bound
        (fun record _ => sharedName_sharedHome record.name) (declares a mem_cons_self) resolves
      rw [written] at betweenShows betweenResolves
      obtain ⟨reached, last, restRan, lastFollows, reachedShows, reachedResolves, names⟩ :=
        inductionHypothesis (fun b member => each b (mem_cons_of_mem a member))
          (fun b member => declares b (mem_cons_of_mem a member)) betweenFollows betweenShows
          betweenResolves
      refine ⟨reached, last, ?_, lastFollows, reachedShows, reachedResolves, fun name => ?_⟩
      · have first : (do let _ ← schemaFor plain.config a).run (registry, start) =
            (.ok (), registry.overwrittenBy ((found a).shares plain.config), between) := by
          rw [Step.run_bind_of_ok ran]
          rfl
        rw [schemasFor, Step.visit, Step.run_bind_of_ok first]
        exact restRan
      · rw [names, ((found a).shares_isTidy plain.config).mem_names_overwrittenBy registry,
          exists_mem_cons_iff, or_assoc]

/-- Registries whose schemas show types of one universe, with the same names, share the
same under each name once references are followed. -/
theorem SchemaRegistry.cutTo_eq_of_names
    {r other : SchemaRegistry}
    (apart : plain.known.NamesApart among)
    (closed : plain.known.IsClosed among)
    (arePlain : Schema.ArePlain declared)
    (shows : r.Shows plain among)
    (otherShows : other.Shows plain among)
    (resolves : r.Resolves sharedName declared)
    (otherResolves : other.Resolves sharedName declared)
    (names : ∀ name, name ∈ r.names ↔ name ∈ other.names)
    (name : String)
    (depth : Nat) :
    (r.get? name).map (r.cutTo depth) = (other.get? name).map (other.cutTo depth) := by
  cases found : r.get? name with
  | none =>
      have absent := mt (names name).mpr (Table.lookup_eq_none_iff_not_mem.mp found)
      have otherFound : other.get? name = none := Table.lookup_eq_none_iff_not_mem.mpr absent
      rw [otherFound]
      rfl
  | some schema =>
      have isMember := Table.mem_of_lookup found
      have isName : name ∈ other.names := (names name).mp (mem_map_of_mem isMember)
      obtain ⟨otherSchema, otherFound⟩ : ∃ otherSchema, other.get? name = some otherSchema := by
        cases unknown : other.get? name with
        | some otherSchema => exact ⟨otherSchema, rfl⟩
        | none => exact absurd isName (Table.lookup_eq_none_iff_not_mem.mp unknown)
      have otherMember := Table.mem_of_lookup otherFound
      obtain ⟨a, caps, isAmong, record, isNamed, _, schemaShows⟩ := shows _ isMember
      obtain ⟨b, others, otherAmong, otherRecord, otherNamed, _, otherSchemaShows⟩ :=
        otherShows _ otherMember
      obtain rfl := apart.eq_of_name otherAmong isAmong otherRecord record
        (otherNamed.trans isNamed.symm)
      have inAmong (form : TypeForm) (isForm : some a = some form) : among form := by
        cases isForm
        exact isAmong
      rw [← record] at schemaShows otherSchemaShows
      rw [otherFound, Option.map_some, Option.map_some,
        cutTo_eq_schemaTo apart closed arePlain shows resolves depth inAmong schemaShows
          (resolves _ isMember),
        cutTo_eq_schemaTo apart closed arePlain otherShows otherResolves depth inAmong
          otherSchemaShows (otherResolves _ otherMember)]

end

/-! ## Several types -/

namespace Store

/-- What reading any of some type forms leads to in the end. -/
def AnyLeadsTo (s : Store) (types : List TypeForm) (b : TypeForm) : Prop :=
  ∃ a ∈ types, s.LeadsTo a b

/-- What any of some type forms leads to by plain unfolding. -/
def AnyReaches (s : Store) (types : List TypeForm) (b : TypeForm) : Prop :=
  ∃ a ∈ types, s.Reaches a b

section

variable {s : Store} {types : List TypeForm} {forms : List TypeForm} {allowed : Allowance}

/-- What some types lead to is closed under what is asked for. -/
theorem isClosed_anyReaches (s : Store) (types : List TypeForm) :
    s.IsClosed (s.AnyReaches types) := by
  rintro b type layout ⟨a, isType, reaches⟩ isInner request asked
  exact ⟨a, isType, reaches.request isInner asked⟩

/-- A state knows the types of several universes if it knows those of each. -/
theorem Ready.flatMap
    {formsOf : TypeForm → List TypeForm}
    (each : ∀ a ∈ types, s.Ready (formsOf a) allowed)
    (any : ∃ a, a ∈ types) :
    s.Ready (types.flatMap formsOf) allowed := by
  obtain ⟨first, isFirst⟩ := any
  have further {a b : TypeForm} (isType : a ∈ types) (isForm : b ∈ formsOf a) :
      b ∈ types.flatMap formsOf :=
    mem_flatMap.mpr ⟨a, isType, isForm⟩
  have ofEach {motive : TypeForm → Prop}
      (holds : ∀ a ∈ types, ∀ b ∈ formsOf a, motive b) (b : TypeForm)
      (member : b ∈ types.flatMap formsOf) : motive b := by
    obtain ⟨a, isType, isForm⟩ := mem_flatMap.mp member
    exact holds a isType b isForm
  have ofClasses {motive : ClassRef → Prop}
      (holds : ∀ a ∈ types, ∀ c, .cls c ∈ formsOf a → motive c) (c : ClassRef)
      (member : .cls c ∈ types.flatMap formsOf) : motive c := by
    obtain ⟨a, isType, isForm⟩ := mem_flatMap.mp member
    exact holds a isType c isForm
  refine ⟨?_, ?_⟩
  · constructor
    · exact further isFirst (each first isFirst).covers.any
    · exact further isFirst (each first isFirst).covers.text
    · exact ofEach fun a isType => (each a isType).covers.plain
    · exact ofEach fun a isType b isForm c asked =>
        further isType ((each a isType).covers.asks b isForm c asked)
    · exact ofEach fun a isType => (each a isType).covers.unapplied
    · exact ofClasses fun a isType => (each a isType).covers.cases
    · exact ofClasses fun a isType => (each a isType).covers.program
    · exact ofClasses fun a isType => (each a isType).covers.schema
    · exact ofClasses fun a isType c isForm base b isArgument =>
        further isType ((each a isType).covers.arguments c isForm base b isArgument)
    · exact ofClasses fun a isType c isForm =>
        further isType ((each a isType).covers.member c isForm)
    · exact ofClasses fun a isType c isForm plans found p isPlan =>
        further isType ((each a isType).covers.plans c isForm plans found p isPlan)
  · refine ofEach fun a isType b isForm caps found => ?_
    have sound := (each a isType).known b isForm caps found
    exact
      { sound with
        closed := fun reader isNone probed reads request asked =>
          further isType (sound.closed reader isNone probed reads request asked) }

/-- Everything that some conventional type forms lead to is one universe. -/
theorem exists_universe_of_types
    (conventional : ∀ a ∈ types, s.Conventional allowed a)
    (any : ∃ a, a ∈ types) :
    ∃ forms, s.Ready forms allowed ∧ s.AnyLeadsTo types = (· ∈ forms) := by
  have each (a : TypeForm) : ∃ forms, a ∈ types →
      s.Ready forms allowed ∧ ∀ b, b ∈ forms ↔ s.LeadsTo a b := by
    by_cases isType : a ∈ types
    · obtain ⟨forms, ready, universal, _⟩ := (conventional a isType).exists_universe (.refl s)
      exact ⟨forms, fun _ => ⟨ready, universal⟩⟩
    · exact ⟨[], fun absurdly => absurd absurdly isType⟩
  choose formsOf spec using each
  refine ⟨types.flatMap formsOf, .flatMap (fun a isType => (spec a isType).1) any, ?_⟩
  funext b
  refine propext ⟨?_, fun member => ?_⟩
  · rintro ⟨a, isType, leads⟩
    exact mem_flatMap.mpr ⟨a, isType, ((spec a isType).2 b).mpr leads⟩
  · obtain ⟨a, isType, isForm⟩ := mem_flatMap.mp member
    exact ⟨a, isType, ((spec a isType).2 b).mp isForm⟩

end

end Store

/-- Whether a state tells apart what some types lead to: these are conventional and
accepted by lookup, each of them is written in one way, has the same node wherever it is
met and goes by a name of its own, and what is known beforehand is named after them. -/
structure Store.TellsApart (s : Store) (types : List TypeForm) : Prop where
  conventional : ∀ a ∈ types, s.Conventional .declaringPlainly a
  accepted : ∀ a ∈ types, a.hasCapabilities = true
  named : ∀ b, s.AnyLeadsTo types b →
    ∀ caps, (s.registry .current).find? b = some caps → caps.IsNamedFor b
  once : SpelledOnce (s.AnyLeadsTo types)
  agree : ∀ survey, s.Surveys survey (s.AnyLeadsTo types) →
    ∀ a ∈ types, KindsAgree survey.entry [] a
  apart : ∀ survey, s.Surveys survey (s.AnyLeadsTo types) →
    survey.NamesApart (survey.AnyReaches types)

section

variable {s : Store} {types : List TypeForm} {forms : List TypeForm}

/-- What types of a universe lead to in a survey is of the universe. -/
theorem Store.Surveys.mem_of_anyReaches
    {last : Store}
    {b : TypeForm}
    (surveys : s.Surveys last (· ∈ forms))
    (ready : s.Ready forms .declaringPlainly)
    (universal : s.AnyLeadsTo types = (· ∈ forms))
    (reached : last.AnyReaches types b) :
    b ∈ forms := by
  obtain ⟨a, isType, reaches⟩ := reached
  have member : s.AnyLeadsTo types a := ⟨a, isType, .root⟩
  rw [universal] at member
  exact reaches.mem (surveys.ready ready fun _ isForm => isForm) member

/-- A known tree stands for each of some types that are told apart. -/
theorem Store.TellsApart.exists_found
    {plain : PlainSynthesis}
    (tells : s.TellsApart types)
    (ready : s.Ready forms .declaringPlainly)
    (universal : s.AnyLeadsTo types = (· ∈ forms))
    (surveys : s.Surveys plain.known (· ∈ forms))
    (hasKinds : plain.known.HasKinds (plain.known.AnyReaches types) (fun _ => none) plain.kinds) :
    ∃ found : TypeForm → KnownShape, ∀ a ∈ types,
      (found a).StandsFor s forms plain (plain.known.AnyReaches types) a := by
  have once := tells.once
  have named := tells.named
  have agree := tells.agree
  rw [universal] at once named agree
  have each (a : TypeForm) : ∃ known : KnownShape, a ∈ types →
      known.StandsFor s forms plain (plain.known.AnyReaches types) a := by
    by_cases isType : a ∈ types
    · have leads (b : TypeForm) (leadsTo : s.LeadsTo a b) : b ∈ forms := by
        have isForm : s.AnyLeadsTo types b := ⟨a, isType, leadsTo⟩
        rwa [universal] at isForm
      obtain ⟨known, stands⟩ := surveys.exists_standsFor ready once named hasKinds
        (fun b => surveys.mem_of_anyReaches ready universal)
        (fun b reaches => ⟨a, isType, reaches⟩) (tells.conventional a isType) leads
        (tells.accepted a isType) (agree _ surveys a isType)
      exact ⟨known, fun _ => stands⟩
    · exact ⟨.plain none .empty, fun absurdly => absurd absurdly isType⟩
  choose found stands using each
  exact ⟨found, stands⟩

/-- The schemas of several types that are told apart have the same names in whichever
order the types come, and are the same once references are followed, to every depth and
for every configuration; so they are if the types come again in the state that the
first run leaves behind. -/
theorem schemasFor_perm
    {others : List TypeForm}
    (perm : others.Perm types)
    (tells : s.TellsApart types)
    (config : SchemaConfig) :
    ∃ r last, (schemasFor config types).run (.empty, s) = (.ok (), r, last) ∧
      ∀ start, start = s ∨ start = last →
        ∃ other final, (schemasFor config others).run (.empty, start) = (.ok (), other, final) ∧
          ∀ name depth,
            (r.get? name).map (r.cutTo depth) = (other.get? name).map (other.cutTo depth) := by
  by_cases any : ∃ a, a ∈ types
  · obtain ⟨forms, ready, universal⟩ := Store.exists_universe_of_types tells.conventional any
    obtain ⟨survey, surveys⟩ := ready.exists_surveys (universal ▸ tells.once)
    obtain ⟨kinds, hasKinds⟩ := (surveys.ready ready fun _ isForm => isForm).exists_kinds
      (fun b => surveys.mem_of_anyReaches ready universal) fun _ => none
    let plain : PlainSynthesis := ⟨survey, config, kinds⟩
    obtain ⟨found, stands⟩ : ∃ found : TypeForm → KnownShape, ∀ a ∈ types,
        (found a).StandsFor s forms plain (plain.known.AnyReaches types) a :=
      tells.exists_found ready universal surveys hasKinds
    -- Both runs start from the same trees; only what is written over what differs.
    let declared := types.flatMap fun a => (found a).declaredSchemas
    have declares (a : TypeForm) (isType : a ∈ types) : (found a).declaredSchemas ⊆ declared :=
      fun schema member => mem_flatMap.mpr ⟨a, isType, member⟩
    have arePlain : Schema.ArePlain declared := by
      intro schema member
      obtain ⟨a, isType, isDeclared⟩ := mem_flatMap.mp member
      exact (stands a isType).writes.declares schema isDeclared
    have nothing : SchemaRegistry.empty.Shows plain (plain.known.AnyReaches types) :=
      fun e absent => nomatch absent
    have nowhere : SchemaRegistry.empty.Resolves sharedName declared := fun e absent => nomatch absent
    have apart : plain.known.NamesApart (plain.known.AnyReaches types) :=
      tells.apart survey (universal ▸ surveys)
    obtain ⟨r, last, ran, lastFollows, shows, resolves, names⟩ :=
      schemasFor_shows stands declares (ready.follows _) nothing nowhere
    refine ⟨r, last, ran, fun start isStart => ?_⟩
    have follows : s.Follows start forms .declaringPlainly (· ∈ forms) := by
      rcases isStart with rfl | rfl
      · exact ready.follows _
      · exact lastFollows
    obtain ⟨other, final, otherRan, _, otherShows, otherResolves, otherNames⟩ :=
      schemasFor_shows (fun a isType => stands a (perm.mem_iff.mp isType))
        (fun a isType => declares a (perm.mem_iff.mp isType)) follows nothing nowhere
    have sameNames (name : String) : name ∈ r.names ↔ name ∈ other.names := by
      rw [names, otherNames]
      simp only [perm.mem_iff]
    exact ⟨other, final, otherRan, SchemaRegistry.cutTo_eq_of_names apart
      (plain.known.isClosed_anyReaches types) arePlain shows otherShows resolves otherResolves
      sameNames⟩
  · obtain rfl : types = [] := eq_nil_iff_forall_not_mem.mpr fun a isType => any ⟨a, isType⟩
    obtain rfl := perm.eq_nil
    exact ⟨.empty, s, rfl, fun start _ => ⟨.empty, start, rfl, fun _ _ => rfl⟩⟩

end

/-- Nodes and their children are told apart. -/
theorem tellsApart_nodes : (nodeStore []).TellsApart [.cls nodeClass, childrenForm] := by
  have isForm : ∀ a ∈ [.cls nodeClass, childrenForm], a ∈ nodeForms :=
    forall_mem_cons.mpr ⟨by simp [nodeForms],
      forall_mem_singleton.mpr (by simp [nodeForms, childrenForm])⟩
  have conventional (a : TypeForm) (isType : a ∈ [.cls nodeClass, childrenForm]) :
      (nodeStore []).Conventional .declaringPlainly a :=
    .of_unknown (covers_nodeForms [] rfl) (unknown_nodeForms []) (isForm a isType)
  have among {b : TypeForm}
      (leads : (nodeStore []).AnyLeadsTo [.cls nodeClass, childrenForm] b) : b ∈ nodeForms := by
    obtain ⟨a, isType, leads⟩ := leads
    have covers : (nodeStore []).world.Covers nodeForms .declaringPlainly := covers_nodeForms [] rfl
    exact leads.mem_of_unknown covers (unknown_nodeForms []) (isForm a isType)
  have once : SpelledOnce ((nodeStore []).AnyLeadsTo [.cls nodeClass, childrenForm]) := by
    have distinct : (nodeForms.map TypeForm.identity).Nodup := by decide
    intro a b leads otherLeads
    exact inj_on_of_nodup_map distinct (among leads) (among otherLeads)
  refine ⟨conventional, ?_, ?_, once, ?_, ?_⟩
  · exact forall_mem_cons.mpr ⟨rfl, forall_mem_singleton.mpr rfl⟩
  · intro b leads caps found
    rw [unknown_nodeForms [] b (among leads)] at found
    cases found
  · intro survey surveys a isType
    apply (conventional a isType).kindsAgree (surveys.mono fun b leads => ⟨a, isType, leads⟩)
    have each : (nodeForms.all fun b =>
        (((nodeStore []).foresee b).bind (·.cases)).isNone) = true := by
      rfl
    intro b leads caps foreseen
    have uncased := all_eq_true.mp each b (among ⟨a, isType, leads⟩)
    rw [foreseen] at uncased
    simpa using uncased
  · intro survey surveys
    obtain ⟨forms, ready, universal⟩ :=
      Store.exists_universe_of_types conventional ⟨_, mem_cons_self⟩
    rw [universal] at once surveys
    obtain ⟨shape, reached, ran, follows, _⟩ := (ready.follows _).describe ready rfl once
      (conventional _ mem_cons_self) (fun b leads => by
        have isForm : (nodeStore []).AnyLeadsTo [.cls nodeClass, childrenForm] b :=
          ⟨_, mem_cons_self, leads⟩
        rwa [universal] at isForm) rfl
    have isReached : nodesDescribed = reached := by
      rw [nodesDescribed, ran]
    have knows := knowsNodes_of_described (isReached ▸ follows.growsTo_survey surveys)
    refine (knows.namesSuit ?_).apart
    rintro b ⟨a, isType, reaches⟩
    refine knows.reaches ?_ reaches
    simpa using isType

/-- The schemas of nodes and their children are the same in both orders once references
are followed. -/
theorem schemasFor_perm_nodes :
    ∃ r last other final,
      (schemasFor .default [.cls nodeClass, childrenForm]).run (.empty, nodeStore []) =
          (.ok (), r, last) ∧
        (schemasFor .default [childrenForm, .cls nodeClass]).run (.empty, nodeStore []) =
          (.ok (), other, final) ∧
        ∀ name depth,
          (r.get? name).map (r.cutTo depth) = (other.get? name).map (other.cutTo depth) := by
  obtain ⟨r, last, ran, orders⟩ := schemasFor_perm (.swap _ _ []) tellsApart_nodes .default
  obtain ⟨other, final, otherRan, same⟩ := orders _ (.inl rfl)
  exact ⟨r, last, other, final, ran, otherRan, same⟩

/-- The targets of the references right below a schema, if they are properties. -/
def Schema.propertyTargets : Schema → List String
  | .inline _ properties _ _ =>
    (properties.getD []).filterMap fun e =>
      match e.2 with
      | .reference target _ => some target
      | .inline .. => none
  | .reference _ _ => []

/-- A step that ends without an interrupt gives what it returns. -/
theorem run_of_isOk
    {step : Step (SchemaRegistry × Store) Unit}
    {s : SchemaRegistry × Store}
    (isOk : (step.run s).1.isOk = true) :
    step.run s = (.ok (), (step.run s).2.1, (step.run s).2.2) := by
  cases ran : step.run s with
  | mk outcome reached =>
      rw [ran] at isOk
      cases outcome with
      | ok result => rfl
      | error interrupt => cases isOk

/-- The order of types matters for what is shared, even if all of them are told apart:
the children of a node are a reference if the schema of nodes is the last one that is
written, and are written in place if that of their children is. -/
theorem schemasFor_order_matters :
    ¬ ∀ s types others config r last other final, others.Perm types → s.TellsApart types →
      (schemasFor config types).run (.empty, s) = (.ok (), r, last) →
      (schemasFor config others).run (.empty, s) = (.ok (), other, final) →
      ∀ name, r.get? name = other.get? name := by
  intro claim
  have first : ((schemasFor .default [.cls nodeClass, childrenForm]).run
      (.empty, nodeStore [])).1.isOk = true := by
    decide +kernel
  have second : ((schemasFor .default [childrenForm, .cls nodeClass]).run
      (.empty, nodeStore [])).1.isOk = true := by
    decide +kernel
  have same := claim _ _ _ _ _ _ _ _ (.swap _ _ []) tellsApart_nodes (run_of_isOk first)
    (run_of_isOk second) "Node"
  have targets : (((schemasFor .default [.cls nodeClass, childrenForm]).run
      (.empty, nodeStore [])).2.1.get? "Node").map Schema.propertyTargets =
        some ["#/components/schemas/list_Node"] := by
    decide +kernel
  have otherTargets : (((schemasFor .default [childrenForm, .cls nodeClass]).run
      (.empty, nodeStore [])).2.1.get? "Node").map Schema.propertyTargets = some [] := by
    decide +kernel
  rw [same, otherTargets] at targets
  cases targets

end SchemaProbe

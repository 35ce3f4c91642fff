import SchemaProbe.Proofs.Growing
import SchemaProbe.Proofs.SharedNames
import SchemaProbe.Proofs.Tables

namespace SchemaProbe

/-!
# What a type comes from

A type form with notes takes its capabilities from what the notes are about, and a class
with arguments takes them from the class.  Everything else is found out by itself, in
the declared classes alone, and what is found out lasts while more is declared.  So
looking up goes from a type form to what it comes from, and back.
-/

open Step

/-! ## What a type comes from -/

/-- The class that a type form takes its capabilities from when it is applied to
arguments, unless it is read as a container. -/
def TypeForm.originClass? (a : TypeForm) : Option ClassRef :=
  if a.isContainerAlias then none
  else
    match a.aliasOrigin? with
    | some (.cls c) => some c
    | _ => none

/-- The type form that another one takes its capabilities from. -/
def TypeForm.source? : TypeForm → Option TypeForm
  | .annotated inner _ => some inner
  | a => a.originClass?.map .cls

/-- A type form and all that it takes its capabilities from. -/
def TypeForm.sources : TypeForm → List TypeForm
  | .annotated inner notes => .annotated inner notes :: inner.sources
  | a => a :: (a.originClass?.map .cls).toList

/-- What is known about a type form by what is known about the one that it comes
from. -/
def TypeForm.adopt (a : TypeForm) (found : Capabilities) : Capabilities :=
  match a with
  | .annotated _ _ => found
  | _ => { found with type := a, name := a.schemaName }

namespace TypeForm

/-- A type form without notes comes from the class that it applies, if from any. -/
theorem source?_of_noteless
    {a : TypeForm}
    (noteless : ∀ inner notes, a ≠ .annotated inner notes) :
    a.source? = a.originClass?.map .cls := by
  cases a with
  | annotated inner notes => exact absurd rfl (noteless inner notes)
  | _ => rfl

/-- Every type form comes from others in finitely many steps. -/
theorem source_induction
    {motive : TypeForm → Prop}
    (own : ∀ a, a.source? = none → motive a)
    (derived : ∀ a b, a.source? = some b → motive b → motive a)
    (a : TypeForm) :
    motive a := by
  induction a using lookup.induct with
  | case1 inner notes inductionHypothesis =>
      exact derived _ inner rfl inductionHypothesis
  | case2 a noteless =>
      cases origin : a.originClass? with
      | none =>
          apply own
          rw [source?_of_noteless noteless, origin]
          rfl
      | some c =>
          apply derived a (.cls c)
          · rw [source?_of_noteless noteless, origin]
            rfl
          · exact own _ rfl

/-- A type form comes before what it comes from. -/
theorem sources_of_source
    {a b : TypeForm}
    (comes : a.source? = some b) :
    a.sources = a :: b.sources := by
  by_cases noteless : ∀ inner notes, a ≠ .annotated inner notes
  · rw [source?_of_noteless noteless] at comes
    obtain ⟨c, origin, rfl⟩ := Option.map_eq_some_iff.mp comes
    rw [sources, origin]
    · rfl
    · exact noteless
  · simp only [not_forall, not_not] at noteless
    obtain ⟨inner, notes, rfl⟩ := noteless
    cases comes
    rfl

/-- What comes from nothing else is its only source. -/
theorem sources_of_sourceless
    {a : TypeForm}
    (sourceless : a.source? = none) :
    a.sources = [a] := by
  have noteless : ∀ inner notes, a ≠ .annotated inner notes := by
    rintro inner notes rfl
    cases sourceless
  rw [source?_of_noteless noteless] at sourceless
  rw [sources, sourceless]
  · rfl
  · exact noteless

theorem mem_sources_self (a : TypeForm) : a ∈ a.sources := by
  cases comes : a.source? with
  | none => simp [sources_of_sourceless comes]
  | some b => simp [sources_of_source comes]

/-- What a type form comes from is one of its sources. -/
theorem mem_sources_of_source
    {a b : TypeForm}
    (comes : a.source? = some b) :
    b ∈ a.sources := by
  rw [sources_of_source comes]
  exact List.mem_cons_of_mem _ (mem_sources_self b)

/-- What a source comes from is a source. -/
theorem sources_subset
    {a b : TypeForm}
    (member : b ∈ a.sources) :
    b.sources ⊆ a.sources := by
  induction a using source_induction with
  | own a sourceless =>
      rw [sources_of_sourceless sourceless, List.mem_singleton] at member
      rw [member]
      exact List.Subset.refl _
  | derived a c comes inductionHypothesis =>
      rw [sources_of_source comes] at member ⊢
      rcases List.mem_cons.mp member with rfl | isLater
      · rw [sources_of_source comes]
        exact List.Subset.refl _
      · exact List.subset_cons_of_subset a (inductionHypothesis isLater)

end TypeForm

/-- Whether the classes that decide what is found out about a type form are declared. -/
structure World.Knows (w : World) (a : TypeForm) : Prop where
  classes : ∀ c, .cls c ∈ a.sources → w.Declares c
  literals : ∀ values, .literal values ∈ a.sources → ∀ v ∈ values, w.Declares v.labelling

/-- What is known to a world is known to every later one. -/
theorem World.Knows.of_growsTo
    {w later : World}
    {a : TypeForm}
    (knows : w.Knows a)
    (grows : w.GrowsTo later) :
    later.Knows a where
  classes c member := grows.declares (knows.classes c member)
  literals values member v isValue := grows.declares (knows.literals values member v isValue)

/-- What a known type form comes from is known. -/
theorem World.Knows.of_mem
    {w : World}
    {a b : TypeForm}
    (knows : w.Knows a)
    (member : b ∈ a.sources) :
    w.Knows b where
  classes c isSource := knows.classes c (TypeForm.sources_subset member isSource)
  literals values isSource := knows.literals values (TypeForm.sources_subset member isSource)

/-! ## How looking up goes -/

section Looking

variable {scope : Scope} {a b : TypeForm} {s reached : Store} {caps : Capabilities}

/-- What is changed in a registry is what that registry becomes. -/
theorem Store.registry_changeRegistry_self
    (s : Store)
    (scope : Scope)
    (change : CapabilityRegistry → CapabilityRegistry) :
    (s.changeRegistry scope change).registry scope = change (s.registry scope) := by
  cases owns : s.own <;> cases scope <;> simp [changeRegistry, registry, owns]

/-- Of two changes to a registry the second one is made to what the first one made. -/
theorem Store.changeRegistry_changeRegistry
    (s : Store)
    (scope : Scope)
    (first second : CapabilityRegistry → CapabilityRegistry) :
    (s.changeRegistry scope first).changeRegistry scope second =
      s.changeRegistry scope fun r => second (first r) := by
  cases owns : s.own <;> cases scope <;> simp [changeRegistry, owns]

/-- What is not known is found out and remembered. -/
theorem run_remembered_unknown
    (resolve : Step Store Capabilities)
    (unknown : (s.registry scope).find? a = none) :
    (remembered scope a resolve).run s =
      match resolve.run s with
      | (.ok found, reached) => (.ok found, reached.changeRegistry scope (·.remember a found))
      | (.error interrupt, reached) => (.error interrupt, reached) := by
  unfold remembered
  rw [run_bind_of_ok (run_current s), unknown]
  dsimp only
  rw [run_bind]
  rcases resolve.run s with ⟨⟨interrupt⟩ | ⟨found⟩, reached⟩ <;> rfl

/-- How looking up runs: what is known is given and nothing changes, and what is not is
found out, and remembered unless that fails. -/
theorem remembered_cases
    {resolve : Step Store Capabilities}
    {outcome : Except Interrupt Capabilities}
    (ran : (remembered scope a resolve).run s = (outcome, reached)) :
    (∃ caps, (s.registry scope).find? a = some caps ∧ outcome = .ok caps ∧ reached = s) ∨
      ((s.registry scope).find? a = none ∧
        ((∃ interrupt, outcome = .error interrupt ∧
            resolve.run s = (.error interrupt, reached)) ∨
          ∃ found between, outcome = .ok found ∧ resolve.run s = (.ok found, between) ∧
            reached = between.changeRegistry scope (·.remember a found))) := by
  cases known : (s.registry scope).find? a with
  | some caps =>
      rw [Store.run_remembered_of_known _ known] at ran
      cases ran
      exact .inl ⟨caps, rfl, rfl, rfl⟩
  | none =>
      right
      rw [run_remembered_unknown _ known] at ran
      rcases resolved : resolve.run s with ⟨⟨interrupt⟩ | ⟨found⟩, between⟩ <;>
        rw [resolved] at ran <;> cases ran
      · exact ⟨rfl, .inl ⟨interrupt, rfl, rfl⟩⟩
      · exact ⟨rfl, .inr ⟨found, between, rfl, rfl, rfl⟩⟩

/-- Remembering twice is remembering once. -/
theorem remembered_remembered (resolve : Step Store Capabilities) :
    remembered scope a (remembered scope a resolve) = remembered scope a resolve := by
  apply Step.ext_run
  intro s
  cases known : (s.registry scope).find? a with
  | some caps => rw [Store.run_remembered_of_known _ known, Store.run_remembered_of_known _ known]
  | none =>
      rw [run_remembered_unknown _ known, run_remembered_unknown _ known]
      rcases resolve.run s with ⟨⟨interrupt⟩ | ⟨found⟩, reached⟩
      · rfl
      · dsimp only
        rw [Store.changeRegistry_changeRegistry]
        simp only [CapabilityRegistry.remember, Table.set_set]

/-- A class is looked up as a type form as it is by itself. -/
theorem lookup_cls (scope : Scope) (c : ClassRef) :
    lookup scope (.cls c) = lookupClass scope c := by
  rw [lookup, resolveBare, lookupClass, remembered_remembered]
  simp

/-- A class with arguments has the capabilities of the class, unless it is read as a
container. -/
theorem resolveBare_of_origin
    {c : ClassRef}
    (origin : a.originClass? = some c) :
    resolveBare scope a = resolveApplied.asOrigin scope a c := by
  have applied
      (args : List TypeForm)
      (applies : a.aliasOrigin? = some (.cls c))
      (noContainer : a.isContainerAlias = false) :
      resolveApplied scope a (.cls c) args = resolveApplied.asOrigin scope a c := by
    unfold TypeForm.isContainerAlias at noContainer
    rw [applies] at noContainer
    unfold resolveApplied
    cases c with
    | builtin b =>
        simp only [Builtin.isContainer, Bool.or_eq_false_iff, Option.isSome_eq_false_iff,
          Option.isNone_iff_eq_none] at noContainer
        simp [noContainer]
    | user _ | sized _ _ => rfl
  unfold TypeForm.originClass? at origin
  split at origin
  · cases origin
  · rename_i noContainer
    have noContainer := Bool.eq_false_iff.mpr noContainer
    split at origin
    · rename_i applies
      cases origin
      cases a with
      | bare b =>
          cases applies
          exact applied [] rfl noContainer
      | generic origin args =>
          cases applies
          exact applied args rfl noContainer
      | callable params result =>
          cases applies
          exact applied (params ++ [result]) rfl noContainer
      | _ => cases applies
    · cases origin

/-- A type form that comes from another one is looked up by looking up that one. -/
theorem lookup_of_source
    (comes : a.source? = some b) :
    lookup scope a = remembered scope a (lookup scope b >>= fun found => pure (a.adopt found)) := by
  by_cases noteless : ∀ inner notes, a ≠ .annotated inner notes
  · rw [TypeForm.source?_of_noteless noteless] at comes
    obtain ⟨c, origin, rfl⟩ := Option.map_eq_some_iff.mp comes
    rw [lookup, resolveBare_of_origin origin, resolveApplied.asOrigin, lookup_cls]
    · congr 2
      funext found
      cases a with
      | annotated inner notes => exact absurd rfl (noteless inner notes)
      | _ => rfl
    · exact noteless
  · simp only [not_forall, not_not] at noteless
    obtain ⟨inner, notes, rfl⟩ := noteless
    cases comes
    rw [lookup]
    exact congrArg _ (bind_pure_self _).symm

end Looking

/-! ## What is found out about a type by itself -/

/-- Whether how a step ends depends on the declared classes alone. -/
def Step.ReadsWorld (step : Step Store Capabilities) : Prop :=
  ∀ s other : Store, other.world = s.world → (step.run other).1 = (step.run s).1

/-- Whether what a step finds out lasts, and the step leaves the registries as they
are. -/
structure Step.FindsOutAt (step : Step Store Capabilities) (s : Store) : Prop where
  registry : ∀ scope, (step.run s).2.registry scope = s.registry scope
  grows : s.world.GrowsTo (step.run s).2.world
  closed : (step.run s).2.world.IsClosed
  again : ∀ caps, (step.run s).1 = .ok caps → ∀ later : Store,
    (step.run s).2.world.GrowsTo later.world → (step.run later).1 = .ok caps

section FindingOut

variable {scope : Scope} {a : TypeForm} {s : Store}

/-- A result that does not depend on the state is found out. -/
theorem Step.FindsOutAt.ofExcept
    (closed : s.world.IsClosed)
    (result : Except Fault Capabilities) :
    (Step.ofExcept result : Step Store Capabilities).FindsOutAt s := by
  have ran (s : Store) := Step.run_ofExcept result s
  constructor
  · intro scope
    rw [ran]
  · rw [ran]
    exact .refl _
  · rw [ran]
    exact closed
  · intro caps found later _
    rw [ran] at found ⊢
    exact found

/-- A result that does not depend on the state does not depend on what is declared. -/
theorem Step.ReadsWorld.ofExcept (result : Except Fault Capabilities) :
    (Step.ofExcept result : Step Store Capabilities).ReadsWorld := by
  intro s other _
  rw [Step.run_ofExcept, Step.run_ofExcept]

/-- Finding out about a class is finding out about it in the declared classes, and noting
something at most. -/
theorem run_resolveClass
    (c : ClassRef)
    (s : Store) :
    ∃ events, (resolveClass c).run s =
      (((classCapabilities c).run s.world).1,
        { s with world := ((classCapabilities c).run s.world).2, events := events }) := by
  unfold resolveClass inWorld
  rw [run_bind, run_within]
  rcases (classCapabilities c).run s.world with ⟨⟨interrupt⟩ | ⟨found⟩, reached⟩
  · exact ⟨s.events, rfl⟩
  · dsimp only
    split
    · exact ⟨s.events ++ [.withoutReader found.name], rfl⟩
    · exact ⟨s.events, rfl⟩

/-- What is found out about a class depends on what is declared. -/
theorem resolveClass_readsWorld (c : ClassRef) : (resolveClass c).ReadsWorld := by
  intro s other sameWorld
  obtain ⟨events, ran⟩ := run_resolveClass c s
  obtain ⟨otherEvents, otherRan⟩ := run_resolveClass c other
  rw [ran, otherRan, sameWorld]

/-- What is found out about a declared class lasts. -/
theorem resolveClass_findsOut
    {c : ClassRef}
    (closed : s.world.IsClosed)
    (declared : s.world.Declares c) :
    (resolveClass c).FindsOutAt s := by
  have lasts := classCapabilities_lasts closed declared
  obtain ⟨events, ran⟩ := run_resolveClass c s
  obtain ⟨grows, reachedClosed⟩ := lasts.grows_run rfl
  constructor
  · intro scope
    rw [ran]
    cases scope <;> rfl
  · rw [ran]
    exact grows
  · rw [ran]
    exact reachedClosed
  · intro caps found later laterGrows
    obtain ⟨laterEvents, laterRan⟩ := run_resolveClass c later
    rw [ran] at found laterGrows
    rw [laterRan, lasts.run_later (Prod.ext found rfl) laterGrows]

/-- The capabilities of a literal type form last while its values keep their labels. -/
theorem literal_findsOut
    {values : List Value}
    (closed : s.world.IsClosed)
    (labelled : ∀ v ∈ values, s.world.Declares v.labelling) :
    (resolveBare scope (.literal values)).FindsOutAt s := by
  have ran (s : Store) : (resolveBare scope (.literal values)).run s =
      (.ok (literalCapabilities s.world (.literal values) values), s) :=
    rfl
  constructor
  · intro scope
    rw [ran]
  · rw [ran]
    exact .refl _
  · rw [ran]
    exact closed
  · intro caps found later grows
    rw [ran] at found grows ⊢
    cases found
    have labels : values.map later.world.label = values.map s.world.label :=
      List.map_congr_left fun v member => grows.label (labelled v member)
    simp only [literalCapabilities, labels]

/-- The type forms that a reader asks for, if they are written in it. -/
def Reader.asked? : Reader → Option (List TypeForm)
  | .sequence item _ => some [item]
  | .positions items => some items
  | .mapping value _ => some [value]
  | .nullable inner => some [inner]
  | .oneOf values => some [.cls ((values.head?.map Value.classOf).getD (.builtin .str))]
  | _ => none

/-- The type forms that what is read as a type form may ask for. -/
def TypeForm.inside : TypeForm → List TypeForm
  | .generic _ args => .any :: args
  | .union style members => [(TypeForm.union style members).stripNull.1]
  | _ => [.any]

/-- Whether what a result tells about how to read asks for some type forms at most. -/
def Capabilities.AsksAmong (forms : List TypeForm) (result : Except Fault Capabilities) : Prop :=
  ∀ caps, result = .ok caps → ∀ reader, caps.reader = some reader →
    ∃ asked, reader.asked? = some asked ∧ asked ⊆ forms

/-- What is found out without a reader asks for nothing. -/
theorem Capabilities.asksAmong_of_none
    {caps : Capabilities}
    (unread : caps.reader = none)
    (forms : List TypeForm) :
    Capabilities.AsksAmong forms (.ok caps) := by
  rintro _ ⟨rfl⟩ reader reads
  rw [unread] at reads
  cases reads

/-- What is not found out asks for nothing. -/
theorem Capabilities.asksAmong_error (f : Fault) (forms : List TypeForm) :
    Capabilities.AsksAmong forms (.error f) := by
  intro caps found
  cases found

/-- A type form that applies something and comes from no class has capabilities that
depend on nothing declared. -/
theorem exists_resolveApplied
    {origin : Origin}
    (args : List TypeForm)
    (applies : a.aliasOrigin? = some origin)
    (noOrigin : a.originClass? = none) :
    ∃ result, Capabilities.AsksAmong (.any :: args) result ∧
      ∀ scope, resolveApplied scope a origin args = Step.ofExcept result := by
  unfold TypeForm.originClass? at noOrigin
  rw [applies] at noOrigin
  have isContainer (c : ClassRef) (same : origin = .cls c) : a.isContainerAlias = true := by
    subst same
    by_contra noContainer
    rw [if_neg noContainer] at noOrigin
    cases noOrigin
  unfold TypeForm.isContainerAlias at isContainer
  rw [applies] at isContainer
  have reads {reader : Reader} {asked : List TypeForm} (placeholder : Value)
      (isAsked : reader.asked? = some asked) (among : asked ⊆ .any :: args) :
      Capabilities.AsksAmong (.any :: args) (.ok (.readBy a reader placeholder)) := by
    rintro _ ⟨rfl⟩ _ ⟨rfl⟩
    exact ⟨asked, isAsked, among⟩
  cases origin with
  | cls c =>
      cases c with
      | builtin b =>
          have contained := isContainer (.builtin b) rfl
          unfold resolveApplied
          dsimp only
          cases isSequence : b.sequenceShape? with
          | some shape =>
              refine ⟨_, reads _ rfl ?_, fun scope => rfl⟩
              cases args with
              | nil => exact List.cons_subset.mpr ⟨List.mem_cons_self, List.nil_subset _⟩
              | cons item rest =>
                  exact List.cons_subset.mpr
                    ⟨List.mem_cons_of_mem _ List.mem_cons_self, List.nil_subset _⟩
          | none =>
              dsimp only
              by_cases isTuple : (b == .tuple) = true
              · simp only [if_pos isTuple]
                have asks : ∃ asked, (tupleReader args).asked? = some asked ∧ asked ⊆ args := by
                  unfold tupleReader
                  split
                  · exact ⟨_, rfl, List.cons_subset.mpr ⟨List.mem_cons_self, List.nil_subset _⟩⟩
                  · exact ⟨_, rfl, List.Subset.refl _⟩
                obtain ⟨asked, isAsked, among⟩ := asks
                exact ⟨_, reads _ isAsked (List.subset_cons_of_subset _ among), fun scope => rfl⟩
              · simp only [if_neg isTuple]
                by_cases isMapping : b.isMappingOrigin = true
                · simp only [if_pos isMapping]
                  refine ⟨_, reads _ rfl ?_, fun scope => rfl⟩
                  refine List.cons_subset.mpr ⟨?_, List.nil_subset _⟩
                  split
                  · exact List.mem_cons_of_mem _ (List.mem_cons_of_mem _ List.mem_cons_self)
                  · exact List.mem_cons_self
                · simp [Builtin.isContainer, isSequence, isTuple, isMapping] at contained
      | user _ | sized _ _ => cases isContainer _ rfl
  | _ =>
      exact ⟨.error (.unsupportedForm a.display), Capabilities.asksAmong_error _ _, fun scope => rfl⟩

/-- How what comes from nothing else is found out: by what is written in it, or in the
declared classes. -/
inductive TypeForm.FoundOutBy : TypeForm → Step Store Capabilities → Prop
  | written {a : TypeForm} {result : Except Fault Capabilities} :
      Capabilities.AsksAmong a.inside result → FoundOutBy a (Step.ofExcept result)
  | cls (c : ClassRef) : FoundOutBy (.cls c) (resolveClass c)
  | literal (values : List Value) :
      FoundOutBy (.literal values)
        (do pure (literalCapabilities (← Step.current).world (.literal values) values))

/-- What comes from nothing else is found out by itself, in whichever registry. -/
theorem exists_lookup_of_sourceless
    (sourceless : a.source? = none) :
    ∃ resolve, a.FoundOutBy resolve ∧
      ∀ scope, lookup scope a = remembered scope a resolve := by
  have noteless : ∀ inner notes, a ≠ .annotated inner notes := by
    rintro inner notes rfl
    cases sourceless
  have noOrigin : a.originClass? = none := by
    rw [TypeForm.source?_of_noteless noteless] at sourceless
    exact Option.map_eq_none_iff.mp sourceless
  have looked (scope : Scope) : lookup scope a = remembered scope a (resolveBare scope a) := by
    rw [lookup]
    exact noteless
  have written {result : Except Fault Capabilities} (asks : Capabilities.AsksAmong a.inside result)
      (same : ∀ scope, resolveBare scope a = Step.ofExcept result) :
      ∃ resolve, a.FoundOutBy resolve ∧ ∀ scope, lookup scope a = remembered scope a resolve :=
    ⟨_, .written asks, fun scope => (looked scope).trans (congrArg _ (same scope))⟩
  cases a with
  | annotated inner notes => exact absurd rfl (noteless inner notes)
  | cls c =>
      by_cases isObject : (c == .builtin .object) = true
      · have unread : (Capabilities.named (.cls c) anyName).reader = none := rfl
        refine ⟨_, .written (Capabilities.asksAmong_of_none unread _), fun scope => ?_⟩
        rw [lookup_cls, lookupClass, if_pos isObject]
        rfl
      · refine ⟨_, .cls c, fun scope => ?_⟩
        rw [lookup_cls, lookupClass, if_neg isObject]
  | literal values => exact ⟨_, .literal values, looked⟩
  | bare b =>
      have applies : (TypeForm.bare b).aliasOrigin? = some (.cls (.builtin b)) := rfl
      obtain ⟨result, asks, same⟩ := exists_resolveApplied [] applies noOrigin
      exact written asks same
  | generic origin args =>
      obtain ⟨result, asks, same⟩ := exists_resolveApplied args rfl noOrigin
      exact written asks same
  | callable params result => cases noOrigin
  | union style members =>
      have asks : Capabilities.AsksAmong (TypeForm.union style members).inside
          (.ok (unionCapabilities (.union style members))) := by
        rintro _ ⟨rfl⟩ reader reads
        unfold unionCapabilities at reads
        split at reads
        · rename_i inner isStripped
          cases reads
          refine ⟨_, rfl, ?_⟩
          rw [TypeForm.inside, isStripped]
          exact List.Subset.refl _
        · cases reads
      exact written asks fun scope => rfl
  | any =>
      have unread : (Capabilities.named .any anyName).reader = none := rfl
      exact written (Capabilities.asksAmong_of_none unread _) fun scope => rfl
  | «variable» name =>
      have unread : (Capabilities.named (.variable name) anyName).reader = none := rfl
      exact written (Capabilities.asksAmong_of_none unread _) fun scope => rfl
  | text _ | reference _ =>
      exact written (Capabilities.asksAmong_error (.unresolvedReference _) _) fun scope => rfl
  | _ => exact written (Capabilities.asksAmong_error (.notATypeForm _) _) fun scope => rfl

/-- What comes from nothing else is found out by itself, and lasts. -/
theorem lookup_of_sourceless
    (sourceless : a.source? = none) :
    ∃ resolve, lookup scope a = remembered scope a resolve ∧ resolve.ReadsWorld ∧
      ∀ s : Store, s.world.IsClosed → s.world.Knows a → resolve.FindsOutAt s := by
  obtain ⟨resolve, foundOut, looked⟩ := exists_lookup_of_sourceless sourceless
  refine ⟨resolve, looked scope, ?_⟩
  cases foundOut with
  | @written _ result _ =>
      exact ⟨.ofExcept result, fun s closed _ => .ofExcept closed result⟩
  | cls c =>
      exact ⟨resolveClass_readsWorld c, fun s closed knows =>
        resolveClass_findsOut closed (knows.classes c (TypeForm.mem_sources_self _))⟩
  | literal values =>
      refine ⟨fun s other sameWorld => ?_, fun s closed knows => ?_⟩
      · change Except.ok (literalCapabilities other.world _ _) = _
        rw [sameWorld]
        rfl
      · have finds : (resolveBare scope (.literal values)).FindsOutAt s :=
          literal_findsOut closed (knows.literals values (TypeForm.mem_sources_self _))
        exact finds

end FindingOut

end SchemaProbe

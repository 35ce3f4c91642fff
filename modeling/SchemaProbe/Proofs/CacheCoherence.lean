import SchemaProbe.Proofs.Sources

namespace SchemaProbe

/-!
# What a registry remembers

What is found out about a type is remembered under its identity, beside what is found
out about the types that it comes from.  Nothing remembered goes stale by looking further
types up, so a registry answers like one that has the same registrations and remembers
nothing, as long as equal types are written alike and a type is registered before
anything that comes from it is looked up.  What is registered for a type itself holds
for it at once and in any order.
-/

open Step

/-! ## What a registry answers -/

/-- The state whose registry remembers nothing that was found out. -/
def Store.forgetting (scope : Scope) (s : Store) : Store :=
  s.changeRegistry scope fun r => { r with cache := [] }

/-- What looking up a type form ends with where the same is registered and nothing is
remembered. -/
def Store.answer (scope : Scope) (s : Store) (a : TypeForm) : Except Interrupt Capabilities :=
  ((lookup scope a).run (s.forgetting scope)).1

section Answering

variable {scope : Scope} {a b : TypeForm} {s other : Store} {caps : Capabilities}

/-- How looking up ends: with what is known, or as finding out does. -/
theorem outcome_remembered
    (resolve : Step Store Capabilities)
    (s : Store) :
    ((remembered scope a resolve).run s).1 =
      match (s.registry scope).find? a with
      | some caps => .ok caps
      | none => (resolve.run s).1 := by
  cases known : (s.registry scope).find? a with
  | some caps => rw [Store.run_remembered_of_known _ known]
  | none =>
      rw [run_remembered_unknown _ known]
      rcases resolve.run s with ⟨⟨interrupt⟩ | ⟨found⟩, reached⟩ <;> rfl

/-- A registry that remembers nothing knows what is registered. -/
theorem find?_forgetting
    (s : Store)
    (a : TypeForm) :
    ((s.forgetting scope).registry scope).find? a =
      (s.registry scope).explicit.lookup a.identity := by
  rw [Store.forgetting, Store.registry_changeRegistry_self, CapabilityRegistry.find?]
  rfl

/-- Every type is looked up among what is known first. -/
theorem exists_lookup_eq_remembered
    (scope : Scope)
    (a : TypeForm) :
    ∃ resolve, lookup scope a = remembered scope a resolve := by
  cases comes : a.source? with
  | none =>
      obtain ⟨resolve, looked, -⟩ := lookup_of_sourceless comes
      exact ⟨resolve, looked⟩
  | some b => exact ⟨_, lookup_of_source comes⟩

/-- What is registered for a type is answered. -/
theorem answer_of_registered
    (registered : (s.registry scope).explicit.lookup a.identity = some caps) :
    s.answer scope a = .ok caps := by
  obtain ⟨resolve, looked⟩ := exists_lookup_eq_remembered scope a
  rw [Store.answer, looked, outcome_remembered, find?_forgetting, registered]

/-- What is made of a result is made of it where the step ends. -/
theorem run_bind_pure
    {σ α β : Type}
    (step : Step σ α)
    (make : α → β)
    (s : σ) :
    (step >>= fun a => pure (make a)).run s = ((step.run s).1.map make, (step.run s).2) := by
  rw [run_bind]
  rcases step.run s with ⟨⟨interrupt⟩ | ⟨a⟩, reached⟩ <;> rfl

/-- A type for which nothing is registered is answered like the type that it comes
from. -/
theorem answer_of_source
    (comes : a.source? = some b)
    (unregistered : (s.registry scope).explicit.lookup a.identity = none) :
    s.answer scope a = (s.answer scope b).map a.adopt := by
  rw [Store.answer, lookup_of_source comes, outcome_remembered, find?_forgetting, unregistered]
  exact congrArg Prod.fst (run_bind_pure _ _ _)

/-- How a type is answered depends on the declared classes and on what is registered for
it and for what it comes from. -/
theorem answer_congr
    (sameWorld : other.world = s.world)
    (sameRegistrations : ∀ d ∈ a.sources,
      (other.registry scope).explicit.lookup d.identity =
        (s.registry scope).explicit.lookup d.identity) :
    other.answer scope a = s.answer scope a := by
  induction a using TypeForm.source_induction with
  | own a sourceless =>
      have same := sameRegistrations a (TypeForm.mem_sources_self a)
      obtain ⟨resolve, looked, reads, findsOut⟩ := lookup_of_sourceless sourceless
      rw [Store.answer, Store.answer, looked, outcome_remembered, outcome_remembered,
        find?_forgetting, find?_forgetting, same]
      split
      · rfl
      · apply reads
        simpa [Store.forgetting] using sameWorld
  | derived a b comes inductionHypothesis =>
      have same := sameRegistrations a (TypeForm.mem_sources_self a)
      have isSource := TypeForm.mem_sources_of_source comes
      cases registered : (s.registry scope).explicit.lookup a.identity with
      | some caps =>
          rw [answer_of_registered registered, answer_of_registered (same.trans registered)]
      | none =>
          rw [answer_of_source comes registered, answer_of_source comes (same.trans registered)]
          rw [inductionHypothesis fun d member =>
            sameRegistrations d (TypeForm.sources_subset isSource member)]

end Answering

/-! ## Registering -/

namespace CapabilityRegistry

/-- Registering a type changes nothing registered for another one. -/
theorem explicit_register_of_ne
    (r : CapabilityRegistry)
    {caps : Capabilities}
    {key : Key}
    (different : key ≠ caps.type.identity) :
    (r.register caps).explicit.lookup key = r.explicit.lookup key :=
  Table.lookup_set_of_ne _ _ different

/-- Registering a type forgets what was found out about it. -/
theorem cache_register_self
    (r : CapabilityRegistry)
    (caps : Capabilities) :
    (r.register caps).cache.lookup caps.type.identity = none :=
  Table.lookup_erase_self _ _

/-- Registering a type forgets nothing about another one. -/
theorem cache_register_of_ne
    (r : CapabilityRegistry)
    {caps : Capabilities}
    {key : Key}
    (different : key ≠ caps.type.identity) :
    (r.register caps).cache.lookup key = r.cache.lookup key :=
  Table.lookup_erase_of_ne _ different

end CapabilityRegistry

/-! ## What is remembered is what is answered -/

/-- Whether what a registry remembers of some types is what it would answer if it
remembered nothing, now and when more has been declared. -/
structure Store.Coherent (scope : Scope) (s : Store) (forms : List TypeForm) : Prop where
  closed : s.world.IsClosed
  remembers : ∀ a ∈ forms, ∀ caps, (s.registry scope).cache.lookup a.identity = some caps →
    ∀ w, s.world.GrowsTo w → { s with world := w }.answer scope a = .ok caps

section Coherence

variable {scope : Scope} {a b : TypeForm} {s reached : Store} {caps : Capabilities}
  {forms : List TypeForm}

/-- What a registry remembers of fewer types is coherent, too. -/
theorem Store.Coherent.mono
    {fewer : List TypeForm}
    (coherent : s.Coherent scope forms)
    (subset : fewer ⊆ forms) :
    s.Coherent scope fewer :=
  ⟨coherent.closed, fun a member => coherent.remembers a (subset member)⟩

/-- What a coherent registry knows of a type is what it answers. -/
theorem Store.Coherent.answer_of_known
    (coherent : s.Coherent scope forms)
    (member : a ∈ forms)
    (known : (s.registry scope).find? a = some caps)
    {w : World}
    (grows : s.world.GrowsTo w) :
    { s with world := w }.answer scope a = .ok caps := by
  rcases Option.or_eq_some_iff.mp known with cached | ⟨-, registered⟩
  · exact coherent.remembers a member caps cached w grows
  · exact answer_of_registered registered

/-- A type that is not known is not registered. -/
theorem unregistered_of_unknown
    (unknown : (s.registry scope).find? a = none) :
    (s.registry scope).explicit.lookup a.identity = none :=
  (Option.or_eq_none_iff.mp unknown).2

/-- Looking up a type in a coherent registry ends with the answer. -/
theorem Store.Coherent.outcome_lookup
    (coherent : s.Coherent scope a.sources)
    (knows : s.world.Knows a) :
    ((lookup scope a).run s).1 = s.answer scope a := by
  induction a using TypeForm.source_induction with
  | own a sourceless =>
      obtain ⟨resolve, looked, reads, findsOut⟩ := lookup_of_sourceless sourceless
      cases known : (s.registry scope).find? a with
      | some caps =>
          rw [looked, outcome_remembered, known]
          exact (coherent.answer_of_known (TypeForm.mem_sources_self a) known (.refl _)).symm
      | none =>
          rw [Store.answer, looked, outcome_remembered, outcome_remembered, find?_forgetting, known,
            unregistered_of_unknown known]
          exact (reads _ _ (Store.world_changeRegistry _ _ _)).symm
  | derived a b comes inductionHypothesis =>
      cases known : (s.registry scope).find? a with
      | some caps =>
          rw [lookup_of_source comes, outcome_remembered, known]
          exact (coherent.answer_of_known (TypeForm.mem_sources_self a) known (.refl _)).symm
      | none =>
          have isSource := TypeForm.mem_sources_of_source comes
          rw [lookup_of_source comes, outcome_remembered, known]
          dsimp only
          rw [run_bind_pure, answer_of_source comes (unregistered_of_unknown known)]
          dsimp only
          rw [inductionHypothesis (coherent.mono (TypeForm.sources_subset isSource))
            (knows.of_mem isSource)]

/-- What a coherent registry finds out about a type is what it would answer from then on
if it remembered nothing. -/
theorem Store.Coherent.answer_of_found
    (coherent : s.Coherent scope a.sources)
    (knows : s.world.Knows a)
    (ran : (lookup scope a).run s = (.ok caps, reached))
    {w : World}
    (grows : reached.world.GrowsTo w) :
    { s with world := w }.answer scope a = .ok caps := by
  induction a using TypeForm.source_induction generalizing caps reached with
  | own a sourceless =>
      obtain ⟨resolve, looked, reads, findsOut⟩ := lookup_of_sourceless sourceless
      rw [looked] at ran
      rcases remembered_cases ran with
        ⟨found, known, same, rfl⟩ | ⟨unknown, ⟨_, failed, _⟩ |
          ⟨found, between, same, ended, rfl⟩⟩
      · cases same
        exact coherent.answer_of_known (TypeForm.mem_sources_self a) known grows
      · cases failed
      · cases same
        have registrations : ({ s with world := w }.registry scope).explicit.lookup a.identity =
            none :=
          unregistered_of_unknown unknown
        rw [Store.answer, looked, outcome_remembered, find?_forgetting, registrations]
        apply (findsOut s coherent.closed knows).again _ (congrArg Prod.fst ended)
        rw [ended]
        simpa [Store.forgetting] using grows
  | derived a b comes inductionHypothesis =>
      rw [lookup_of_source comes] at ran
      rcases remembered_cases ran with
        ⟨found, known, same, rfl⟩ | ⟨unknown, ⟨_, failed, _⟩ |
          ⟨found, between, same, ended, rfl⟩⟩
      · cases same
        exact coherent.answer_of_known (TypeForm.mem_sources_self a) known grows
      · cases failed
      · cases same
        obtain ⟨source, middle, sourceRan, adopted⟩ := run_bind_eq_ok_iff.mp ended
        cases adopted
        have isSource := TypeForm.mem_sources_of_source comes
        have answered := inductionHypothesis (coherent.mono (TypeForm.sources_subset isSource))
          (knows.of_mem isSource) sourceRan (by simpa using grows)
        have registrations : ({ s with world := w }.registry scope).explicit.lookup a.identity =
            none :=
          unregistered_of_unknown unknown
        rw [answer_of_source comes registrations, answered]
        rfl

/-- What looking up a type leads to: what is declared grows, what is registered stays, and
what is remembered was remembered before or is what looking up a source of the type
finds. -/
structure Store.LooksUp (scope : Scope) (s : Store) (a : TypeForm) (reached : Store) : Prop where
  grows : s.world.GrowsTo reached.world
  closed : reached.world.IsClosed
  explicit : (reached.registry scope).explicit = (s.registry scope).explicit
  cache : ∀ key caps, (reached.registry scope).cache.lookup key = some caps →
    (s.registry scope).cache.lookup key = some caps ∨
      ((s.registry scope).explicit.lookup key = none ∧
        ∃ d ∈ a.sources, d.identity = key ∧
          ∃ between, (lookup scope d).run s = (.ok caps, between) ∧
            between.world.GrowsTo reached.world)

/-- Looking up nothing new leads nowhere. -/
theorem Store.LooksUp.refl
    (closed : s.world.IsClosed)
    (a : TypeForm) :
    s.LooksUp scope a s :=
  ⟨.refl _, closed, rfl, fun _ _ cached => .inl cached⟩

/-- Remembering what was found out about a type is part of what looking it up leads to. -/
theorem Store.LooksUp.remember
    {between : Store}
    (leads : s.LooksUp scope a between)
    (unknown : (s.registry scope).find? a = none)
    (ran : (lookup scope a).run s =
      (.ok caps, between.changeRegistry scope (·.remember a caps))) :
    s.LooksUp scope a (between.changeRegistry scope (·.remember a caps)) := by
  constructor
  · rw [Store.world_changeRegistry]
    exact leads.grows
  · rw [Store.world_changeRegistry]
    exact leads.closed
  · rw [Store.registry_changeRegistry_self]
    exact leads.explicit
  · intro key found cached
    rw [Store.registry_changeRegistry_self] at cached
    by_cases same : key = a.identity
    · subst same
      cases (Table.lookup_set_self _ _ _).symm.trans cached
      exact .inr ⟨unregistered_of_unknown unknown, a, TypeForm.mem_sources_self a, rfl, _, ran,
        .refl _⟩
    · rw [Store.world_changeRegistry]
      exact leads.cache key found ((Table.lookup_set_of_ne _ _ same).symm.trans cached)

/-- Looking up a type leads to a state that remembers its sources. -/
theorem lookup_looksUp
    (closed : s.world.IsClosed)
    (knows : s.world.Knows a)
    {outcome : Except Interrupt Capabilities}
    (ran : (lookup scope a).run s = (outcome, reached)) :
    s.LooksUp scope a reached := by
  induction a using TypeForm.source_induction generalizing outcome reached with
  | own a sourceless =>
      obtain ⟨resolve, looked, reads, findsOut⟩ := lookup_of_sourceless sourceless
      have finds := findsOut s closed knows
      have own {outcome : Except Interrupt Capabilities} {between : Store}
          (ended : resolve.run s = (outcome, between)) : s.LooksUp scope a between := by
        have registry := finds.registry scope
        have grows := finds.grows
        have reachedClosed := finds.closed
        rw [ended] at registry grows reachedClosed
        exact ⟨grows, reachedClosed, congrArg _ registry, fun key caps cached =>
          .inl (registry ▸ cached)⟩
      have looking := ran
      rw [looked] at ran
      rcases remembered_cases ran with
        ⟨found, known, same, rfl⟩ | ⟨unknown, ⟨_, failed, ended⟩ |
          ⟨found, between, same, ended, rfl⟩⟩
      · exact .refl closed a
      · exact own ended
      · cases same
        exact (own ended).remember unknown looking
  | derived a b comes inductionHypothesis =>
      have isSource := TypeForm.mem_sources_of_source comes
      have derived {outcome : Except Interrupt Capabilities} {between : Store}
          (sourceRan : (lookup scope b).run s = (outcome, between)) :
          s.LooksUp scope a between := by
        have leads := inductionHypothesis (knows.of_mem isSource) sourceRan
        refine ⟨leads.grows, leads.closed, leads.explicit, fun key caps cached => ?_⟩
        rcases leads.cache key caps cached with before | ⟨unregistered, d, member, rest⟩
        · exact .inl before
        · exact .inr ⟨unregistered, d, TypeForm.sources_subset isSource member, rest⟩
      have looking := ran
      rw [lookup_of_source comes] at ran
      rcases remembered_cases ran with
        ⟨found, known, same, rfl⟩ | ⟨unknown, ⟨_, failed, ended⟩ |
          ⟨found, between, same, ended, rfl⟩⟩
      · exact .refl closed a
      · rcases run_bind_eq_error_iff.mp ended with sourceRan | ⟨_, _, _, adopted⟩
        · exact derived sourceRan
        · cases adopted
      · cases same
        obtain ⟨source, middle, sourceRan, adopted⟩ := run_bind_eq_ok_iff.mp ended
        cases adopted
        exact (derived sourceRan).remember unknown looking

/-- Looking up a type keeps a registry coherent for types that are written like the same
types among its sources. -/
theorem Store.Coherent.of_lookup
    (coherent : s.Coherent scope forms)
    (closedForms : ∀ b ∈ forms, b.sources ⊆ forms)
    (knowsForms : ∀ b ∈ forms, s.world.Knows b)
    (writtenAlike : ∀ d ∈ a.sources, ∀ b ∈ forms, d.identity = b.identity → d = b)
    (leads : s.LooksUp scope a reached) :
    reached.Coherent scope forms := by
  constructor
  · exact leads.closed
  · intro b member caps cached w grows
    have answered : { s with world := w }.answer scope b = .ok caps := by
      rcases leads.cache _ caps cached with
        before | ⟨-, d, isSource, same, between, ran, reaches⟩
      · exact coherent.remembers b member caps before w (leads.grows.trans grows)
      · obtain rfl := writtenAlike d isSource b member same
        exact (coherent.mono (closedForms d member)).answer_of_found (knowsForms d member) ran
          (reaches.trans grows)
    rw [← answered]
    apply answer_congr
    · rfl
    · intro d _
      exact congrArg (·.lookup d.identity) leads.explicit

/-- Registering a type keeps a registry coherent for types that nothing is remembered of
if they come from that type. -/
theorem Store.Coherent.of_register
    (coherent : s.Coherent scope forms)
    (spares : ∀ b ∈ forms, (s.registry scope).cache.lookup b.identity ≠ none →
      ∀ d ∈ b.sources, d ≠ b → d.identity ≠ caps.type.identity) :
    (s.changeRegistry scope (·.register caps)).Coherent scope forms := by
  constructor
  · rw [Store.world_changeRegistry]
    exact coherent.closed
  · intro b member found cached w grows
    rw [Store.registry_changeRegistry_self] at cached
    rw [Store.world_changeRegistry] at grows
    have different : b.identity ≠ caps.type.identity := by
      intro same
      rw [same, CapabilityRegistry.cache_register_self] at cached
      cases cached
    have before : (s.registry scope).cache.lookup b.identity = some found :=
      ((s.registry scope).cache_register_of_ne different).symm.trans cached
    rw [← coherent.remembers b member found before w grows]
    apply answer_congr
    · rfl
    · intro d isSource
      have otherType : d.identity ≠ caps.type.identity := by
        by_cases same : d = b
        · rw [same]
          exact different
        · exact spares b member (by simp [before]) d isSource same
      have registered : { s.changeRegistry scope (·.register caps) with world := w }.registry scope =
          (s.registry scope).register caps :=
        s.registry_changeRegistry_self scope _
      rw [registered]
      exact (s.registry scope).explicit_register_of_ne otherType

end Coherence

/-! ## Sequences of calls -/

/-- A call on a registry. -/
inductive RegistryCall
  | register (r : Registration)
  | lookup (a : TypeForm)

namespace RegistryCall

/-- Makes a call; the fault of a lookup is the caller's. -/
def make (scope : Scope) : RegistryCall → Step Store Unit
  | .register r => Step.update fun s =>
    s.changeRegistry scope (·.register (r.capabilities s.world))
  | .lookup a => do
    let _ ← Step.attempt (SchemaProbe.lookup scope a)

/-- Whether nothing that a type comes from is registered after what comes from it was
looked up: an earlier call found out about none of its sources what comes from a type
that a later call registers. -/
def Spares (a : TypeForm) : RegistryCall → RegistryCall → Prop
  | .lookup b, .register r =>
    ∀ d ∈ a.sources, d ∈ b.sources → ∀ c ∈ d.sources, c ≠ d →
      c.identity ≠ r.type.identity
  | _, _ => True

/-- Whether a call looks up no source of a type that is written in another way. -/
def WritesAlike (a : TypeForm) : RegistryCall → Prop
  | .lookup b => ∀ d ∈ b.sources, ∀ c ∈ a.sources, d.identity = c.identity → d = c
  | .register _ => True

/-- Whether a call looks up declared types only. -/
def IsKnown (w : World) : RegistryCall → Prop
  | .lookup a => w.Knows a
  | .register _ => True

end RegistryCall

section Calls

variable {scope : Scope} {a : TypeForm} {s reached : Store} {caps : Capabilities}

/-- A lookup in a sequence of calls leaves the state that looking up leaves. -/
theorem run_make_lookup
    (scope : Scope)
    (a : TypeForm)
    (s : Store) :
    (RegistryCall.make scope (.lookup a)).run s = (.ok (), ((lookup scope a).run s).2) := by
  have ends := lookup_ends scope a s
  unfold RegistryCall.make
  rw [run_bind, run_attempt]
  rcases ran : (lookup scope a).run s with ⟨⟨f⟩ | ⟨caps⟩, reached⟩
  · cases f with
    | fault f => rfl
    | exhausted =>
        rw [ran] at ends
        exact absurd rfl ends
  · rfl

/-- A call leaves a state behind and is never interrupted. -/
theorem run_make
    (scope : Scope)
    (call : RegistryCall)
    (s : Store) :
    (call.make scope).run s = (.ok (), ((call.make scope).run s).2) := by
  cases call with
  | register r => rfl
  | lookup a => rw [run_make_lookup]

/-- What holds before a sequence of calls and is kept by each of them, after those before
it, holds at the end. -/
theorem visit_make
    {holds : List RegistryCall → Store → Prop}
    {calls : List RegistryCall}
    (start : holds [] s)
    (keeps : ∀ before call after s, calls = before ++ call :: after → holds before s →
      holds (before ++ [call]) ((call.make scope).run s).2) :
    ∃ reached, (Step.visit (RegistryCall.make scope) calls).run s = (.ok (), reached) ∧
      holds calls reached := by
  have goesOn (before after : List RegistryCall) (s : Store) (isAll : calls = before ++ after)
      (holdsBefore : holds before s) :
      ∃ reached, (Step.visit (RegistryCall.make scope) after).run s = (.ok (), reached) ∧
        holds calls reached := by
    induction after generalizing before s with
    | nil =>
        rw [List.append_nil] at isAll
        exact ⟨s, rfl, isAll ▸ holdsBefore⟩
    | cons call rest inductionHypothesis =>
        have holdsAfter := keeps before call rest s isAll holdsBefore
        obtain ⟨reached, ran, holdsAtEnd⟩ :=
          inductionHypothesis (before ++ [call]) _ (by simp [isAll]) holdsAfter
        exact ⟨reached, (run_bind_of_ok (run_make scope call s) _).trans ran, holdsAtEnd⟩
  exact goesOn [] calls s rfl start

/-- What holds of the whole registry between calls: nothing that is referred to is
undeclared, and nothing is remembered of a type that is registered. -/
structure Store.Prefers (scope : Scope) (start s : Store) : Prop where
  grows : start.world.GrowsTo s.world
  closed : s.world.IsClosed
  registered : ∀ key caps, (s.registry scope).explicit.lookup key = some caps →
    (s.registry scope).cache.lookup key = none

/-- A call keeps what holds of the whole registry. -/
theorem Store.Prefers.make
    {start : Store}
    {call : RegistryCall}
    (prefers : start.Prefers scope s)
    (known : call.IsKnown start.world) :
    start.Prefers scope ((call.make scope).run s).2 := by
  cases call with
  | register r =>
      let caps := r.capabilities s.world
      change start.Prefers scope (s.changeRegistry scope (·.register caps))
      constructor
      · rw [Store.world_changeRegistry]
        exact prefers.grows
      · rw [Store.world_changeRegistry]
        exact prefers.closed
      · intro key found registered
        rw [Store.registry_changeRegistry_self] at registered ⊢
        by_cases same : key = caps.type.identity
        · rw [same]
          exact CapabilityRegistry.cache_register_self _ caps
        · rw [CapabilityRegistry.explicit_register_of_ne _ same] at registered
          rw [CapabilityRegistry.cache_register_of_ne _ same]
          exact prefers.registered key found registered
  | lookup b =>
      rw [run_make_lookup]
      have leads : s.LooksUp scope b _ :=
        lookup_looksUp prefers.closed (known.of_growsTo prefers.grows) rfl
      constructor
      · exact prefers.grows.trans leads.grows
      · exact leads.closed
      · intro key caps registered
        rw [leads.explicit] at registered
        by_contra cached
        obtain ⟨found, isCached⟩ := Option.ne_none_iff_exists'.mp cached
        rcases leads.cache key found isCached with before | ⟨unregistered, -⟩
        · cases (prefers.registered key caps registered).symm.trans before
        · cases unregistered.symm.trans registered

/-- What holds between calls of a type: the registry is coherent for the type and what it
comes from, and remembers of them what was looked up. -/
structure Store.Serves
    (scope : Scope)
    (s : Store)
    (before : List RegistryCall)
    (a : TypeForm) :
    Prop where
  coherent : s.Coherent scope a.sources
  lookedUp : ∀ d ∈ a.sources, (s.registry scope).cache.lookup d.identity ≠ none →
    ∃ b, .lookup b ∈ before ∧ d ∈ b.sources

/-- A call keeps what holds of a type that is written in one way, unless it registers what
the type comes from after the type was looked up. -/
theorem Store.Serves.make
    {start : Store}
    {before : List RegistryCall}
    {call : RegistryCall}
    (serves : s.Serves scope before a)
    (prefers : start.Prefers scope s)
    (knows : start.world.Knows a)
    (known : call.IsKnown start.world)
    (writtenAlike : call.WritesAlike a)
    (spares : ∀ earlier ∈ before, RegistryCall.Spares a earlier call) :
    ((call.make scope).run s).2.Serves scope (before ++ [call]) a := by
  have kept {d : TypeForm} (looked : ∃ b, .lookup b ∈ before ∧ d ∈ b.sources) :
      ∃ b, .lookup b ∈ before ++ [call] ∧ d ∈ b.sources := by
    obtain ⟨b, member, isSource⟩ := looked
    exact ⟨b, List.mem_append_left _ member, isSource⟩
  cases call with
  | register r =>
      let caps := r.capabilities s.world
      change (s.changeRegistry scope (·.register caps)).Serves scope _ a
      constructor
      · apply serves.coherent.of_register
        intro d isSource cached c isDeeper different
        obtain ⟨b, member, looked⟩ := serves.lookedUp d isSource cached
        exact spares (.lookup b) member d isSource looked c isDeeper different
      · intro d isSource cached
        rw [Store.registry_changeRegistry_self] at cached
        apply kept
        apply serves.lookedUp d isSource
        by_cases same : d.identity = caps.type.identity
        · rw [same, CapabilityRegistry.cache_register_self] at cached
          exact absurd rfl cached
        · rwa [CapabilityRegistry.cache_register_of_ne _ same] at cached
  | lookup b =>
      rw [run_make_lookup]
      have leads : s.LooksUp scope b _ :=
        lookup_looksUp prefers.closed (known.of_growsTo prefers.grows) rfl
      constructor
      · apply serves.coherent.of_lookup _ _ writtenAlike leads
        · intro d isSource
          exact TypeForm.sources_subset isSource
        · intro d isSource
          exact (knows.of_mem isSource).of_growsTo prefers.grows
      · intro d isSource cached
        obtain ⟨found, isCached⟩ := Option.ne_none_iff_exists'.mp cached
        rcases leads.cache _ found isCached with earlier | ⟨-, c, looked, same, -⟩
        · exact kept (serves.lookedUp d isSource (by simp [earlier]))
        · obtain rfl := writtenAlike c looked d isSource same
          exact ⟨b, List.mem_append_right _ (List.mem_singleton_self _), looked⟩

/-- What holds between calls holds after all of them, where a registry remembers nothing at
first. -/
theorem visit_serves
    (closed : s.world.IsClosed)
    (forgotten : (s.registry scope).cache = [])
    {calls : List RegistryCall}
    (known : ∀ call ∈ calls, call.IsKnown s.world) :
    ∃ reached, (Step.visit (RegistryCall.make scope) calls).run s = (.ok (), reached) ∧
      s.Prefers scope reached ∧
        ∀ a, s.world.Knows a → (∀ call ∈ calls, call.WritesAlike a) →
          calls.Pairwise (RegistryCall.Spares a) → reached.Serves scope calls a := by
  let holds (before : List RegistryCall) (t : Store) : Prop :=
    s.Prefers scope t ∧ ∀ a, s.world.Knows a → (∀ call ∈ calls, call.WritesAlike a) →
      calls.Pairwise (RegistryCall.Spares a) → t.Serves scope before a
  have absent (key : Key) : (s.registry scope).cache.lookup key = none := by
    rw [forgotten]
    rfl
  apply @visit_make scope s holds calls
  · constructor
    · exact ⟨.refl _, closed, fun key _ _ => absent key⟩
    · intro a _ _ _
      constructor
      · exact ⟨closed, fun d _ caps cached => nomatch (absent d.identity).symm.trans cached⟩
      · intro d _ cached
        exact absurd (absent d.identity) cached
  · intro before call after t isAll holdsBefore
    obtain ⟨prefers, serves⟩ := holdsBefore
    have member : call ∈ calls := by simp [isAll]
    refine ⟨prefers.make (known call member), fun a knows writtenAlike spares => ?_⟩
    apply (serves a knows writtenAlike spares).make prefers knows (known call member)
      (writtenAlike call member)
    intro earlier isEarlier
    rw [isAll] at spares
    exact (List.pairwise_append.mp spares).2.2 earlier isEarlier call List.mem_cons_self

/-- A sequence of calls on a registry that remembers nothing at first is never
interrupted.  Afterwards looking up a type for which something is registered gives that.
Any other type is looked up as in a registry with the same registrations that remembers
nothing, if what was looked up is written like the equal types that it comes from, and
none of these was registered after what comes from it was looked up: a type form with
notes has the capabilities of what the notes are about, and a class with arguments those
of the class, under its own name. -/
theorem lookup_coherent
    (scope : Scope)
    (calls : List RegistryCall)
    (s : Store)
    (closed : s.world.IsClosed)
    (forgotten : (s.registry scope).cache = [])
    (known : ∀ call ∈ calls, call.IsKnown s.world) :
    ∃ reached, (Step.visit (RegistryCall.make scope) calls).run s = (.ok (), reached) ∧
      (∀ a caps, (reached.registry scope).explicit.lookup a.identity = some caps →
        ((lookup scope a).run reached).1 = .ok caps) ∧
      ∀ a, s.world.Knows a → (∀ call ∈ calls, call.WritesAlike a) →
        calls.Pairwise (RegistryCall.Spares a) →
        ((lookup scope a).run reached).1 = ((lookup scope a).run (reached.forgetting scope)).1 ∧
          ((reached.registry scope).explicit.lookup a.identity = none →
            (∀ inner notes, a = .annotated inner notes →
              ((lookup scope a).run reached).1 = ((lookup scope inner).run reached).1) ∧
            ∀ c, a.originClass? = some c →
              ((lookup scope a).run reached).1 =
                ((lookup scope (.cls c)).run reached).1.map fun found =>
                  { found with type := a, name := a.schemaName }) := by
  obtain ⟨reached, ran, prefers, serves⟩ := visit_serves closed forgotten known
  refine ⟨reached, ran, ?_, ?_⟩
  · intro a caps registered
    have known : (reached.registry scope).find? a = some caps := by
      rw [CapabilityRegistry.find?, prefers.registered _ caps registered, registered]
      rfl
    obtain ⟨resolve, looked⟩ := exists_lookup_eq_remembered scope a
    rw [looked, outcome_remembered, known]
  · intro a knows writtenAlike spares
    have coherent := (serves a knows writtenAlike spares).coherent
    have answers {b : TypeForm} (isSource : b ∈ a.sources) :
        ((lookup scope b).run reached).1 = reached.answer scope b :=
      (coherent.mono (TypeForm.sources_subset isSource)).outcome_lookup
        ((knows.of_mem isSource).of_growsTo prefers.grows)
    have itself := answers (TypeForm.mem_sources_self a)
    refine ⟨itself, fun unregistered => ⟨?_, ?_⟩⟩
    · rintro inner notes rfl
      have comes : (TypeForm.annotated inner notes).source? = some inner := rfl
      rw [itself, answers (TypeForm.mem_sources_of_source comes),
        answer_of_source comes unregistered]
      cases reached.answer scope inner <;> rfl
    · intro c origin
      have noteless : ∀ inner notes, a ≠ .annotated inner notes := by
        rintro inner notes rfl
        cases origin
      have comes : a.source? = some (.cls c) := by
        rw [TypeForm.source?_of_noteless noteless, origin]
        rfl
      rw [itself, answers (TypeForm.mem_sources_of_source comes),
        answer_of_source comes unregistered]
      cases a with
      | annotated inner notes => exact absurd rfl (noteless inner notes)
      | _ => rfl

end Calls

/-! ## An example -/

/-- A generic class. -/
def pageClass : UserClass :=
  ⟨1, "Page", "pages"⟩

/-- A class with arguments. -/
def pageForm : TypeForm :=
  .generic (.cls (.user pageClass)) [.builtin .int]

/-- A class with arguments and a note. -/
def notedPageForm : TypeForm :=
  .annotated pageForm [.text "first"]

/-- The state in which the generic class is declared. -/
def pageStore : Store :=
  let record : ClassRecord :=
    { cls := pageClass
      lineage := [.user pageClass]
      base := none
      params := ["T"]
      hooks := .none
      body := .dataclass [] none }
  { Store.initial with
    world := { World.empty with
      classes := [record]
      names := [("Page", .cls (.user pageClass))] } }

/-- A registration that describes a type and says nothing else about it. -/
def descriptionOf (a : TypeForm) (description : String) : Registration where
  type := a
  reader := none
  kind := none
  placeholder := .null
  cases := none
  schema := none
  description := some description
  isDate := false
  name := none
  isReferenceable := false

/-- Calls that register the class before the class with arguments is looked up. -/
def pageCalls : List RegistryCall :=
  [.register (descriptionOf (.cls (.user pageClass)) "A page."), .lookup notedPageForm,
    .register (descriptionOf (.builtin .int) "A number.")]

theorem isClosed_pageStore : pageStore.world.IsClosed := by
  constructor
  · intro name c found
    have named : c = .user pageClass := by
      simp only [pageStore, List.lookup_cons] at found
      split at found
      · cases found
        rfl
      · cases found
    rw [named]
    rfl
  · intro r member
    obtain rfl := List.mem_singleton.mp member
    constructor
    · intro c inLine
      obtain rfl := List.mem_singleton.mp inLine
      rfl
    · intro mixin members aliases isBody
      cases isBody
    · intro values isHook
      cases isHook

theorem knows_notedPageForm : pageStore.world.Knows notedPageForm := by
  have sources : notedPageForm.sources = [notedPageForm, pageForm, .cls (.user pageClass)] := rfl
  constructor
  · intro c member
    rw [sources] at member
    simp [notedPageForm, pageForm] at member
    rw [member]
    rfl
  · intro values member
    rw [sources] at member
    simp [notedPageForm, pageForm] at member

/-- The noted class with arguments has what the class with arguments has. -/
theorem lookup_coherent_page :
    ∃ reached,
      (Step.visit (RegistryCall.make .current) pageCalls).run pageStore = (.ok (), reached) ∧
      ((lookup .current notedPageForm).run reached).1 =
        ((lookup .current notedPageForm).run (reached.forgetting .current)).1 ∧
      ((reached.registry .current).explicit.lookup notedPageForm.identity = none →
        ((lookup .current notedPageForm).run reached).1 =
          ((lookup .current pageForm).run reached).1) := by
  have known : ∀ call ∈ pageCalls, call.IsKnown pageStore.world := by
    simp only [pageCalls, List.forall_mem_cons]
    exact ⟨trivial, knows_notedPageForm, trivial, by simp⟩
  obtain ⟨reached, ran, -, coherent⟩ :=
    lookup_coherent .current pageCalls pageStore isClosed_pageStore rfl known
  have writtenAlike : ∀ call ∈ pageCalls, call.WritesAlike notedPageForm := by
    have distinct : (notedPageForm.sources.map TypeForm.identity).Nodup := by decide +kernel
    simp only [pageCalls, List.forall_mem_cons]
    exact ⟨trivial, fun d isSource c isOther same =>
      List.inj_on_of_nodup_map distinct isSource isOther same, trivial, by simp⟩
  have spares : pageCalls.Pairwise (RegistryCall.Spares notedPageForm) := by
    have apart : ∀ c ∈ notedPageForm.sources,
        c.identity ≠ (TypeForm.builtin .int).identity := by
      decide +kernel
    simp only [pageCalls, List.pairwise_cons, List.forall_mem_cons]
    exact ⟨⟨trivial, trivial, by simp⟩, ⟨fun d isSource _ c isDeeper _ =>
      apart c (TypeForm.sources_subset isSource isDeeper), by simp⟩, by simp, .nil⟩
  obtain ⟨same, derived⟩ := coherent notedPageForm knows_notedPageForm writtenAlike spares
  exact ⟨reached, ran, same, fun unregistered => (derived unregistered).1 _ _ rfl⟩

/-- Nothing is declared at the start, so nothing undeclared is referred to. -/
theorem isClosed_initial : Store.initial.world.IsClosed where
  names _ _ found := nomatch found
  records _ absent := nomatch absent

/-- A type form that neither a class nor a literal is a source of is known from the start. -/
theorem knows_initial
    {a : TypeForm}
    (classes : ∀ c, .cls c ∈ a.sources → ∃ b, c = .builtin b)
    (literals : ∀ values, .literal values ∈ a.sources → ∀ v ∈ values, ∃ n, v = .int n) :
    Store.initial.world.Knows a where
  classes c member := by
    obtain ⟨b, rfl⟩ := classes c member
    trivial
  literals values member v isValue := by
    obtain ⟨n, rfl⟩ := literals values member v isValue
    trivial

/-- A single call is made as it is by itself. -/
theorem visit_single (call : RegistryCall) (s : Store) :
    (Step.visit (RegistryCall.make .current) [call]).run s =
      (.ok (), ((call.make .current).run s).2) :=
  run_bind_of_ok (run_make .current call s) _

/-- Equal types share what was found out first: a literal that was looked up in another
order has the first value of that order as its placeholder.  And what is registered for a
type with a note holds for it alone. -/
theorem lookup_shares_equal_types :
    (¬ ∀ calls s reached, s.world.IsClosed → (s.registry .current).cache = [] →
      (∀ call ∈ calls, RegistryCall.IsKnown s.world call) →
      (Step.visit (RegistryCall.make .current) calls).run s = (.ok (), reached) →
      ∀ a, s.world.Knows a →
        ((lookup .current a).run reached).1 =
          ((lookup .current a).run (reached.forgetting .current)).1) ∧
    ¬ ∀ calls s reached, s.world.IsClosed → (s.registry .current).cache = [] →
      (∀ call ∈ calls, RegistryCall.IsKnown s.world call) →
      (Step.visit (RegistryCall.make .current) calls).run s = (.ok (), reached) →
      ∀ inner notes, s.world.Knows (.annotated inner notes) →
        ((lookup .current (.annotated inner notes)).run reached).1 =
          ((lookup .current inner).run reached).1 := by
  constructor
  · intro claim
    have knows (values : List Value) (numbers : ∀ v ∈ values, ∃ n, v = .int n) :
        Store.initial.world.Knows (.literal values) := by
      have sources : (TypeForm.literal values).sources = [.literal values] := rfl
      apply knows_initial
      · intro c member
        simp [sources] at member
      · intro others member
        simp only [sources, List.mem_singleton, TypeForm.literal.injEq] at member
        rw [member]
        exact numbers
    let placeholder (outcome : Except Interrupt Capabilities) : Option Key :=
      outcome.toOption.map fun caps => caps.placeholder.key
    let call : RegistryCall := .lookup (.literal [.int 1, .int 2])
    let reached : Store := ((call.make .current).run Store.initial).2
    have same := claim [call] Store.initial reached isClosed_initial rfl
      (List.forall_mem_singleton.mpr (knows [.int 1, .int 2] (by simp))) (visit_single call _)
      (.literal [.int 2, .int 1]) (knows [.int 2, .int 1] (by simp))
    have first : placeholder ((lookup .current (.literal [.int 2, .int 1])).run reached).1 =
        some (.ofInt 1) := by
      decide +kernel
    have second : placeholder ((lookup .current (.literal [.int 2, .int 1])).run
        (reached.forgetting .current)).1 = some (.ofInt 2) := by
      decide +kernel
    rw [same, second] at first
    cases first
  · intro claim
    let noted : TypeForm := .annotated (.builtin .int) [.text "m"]
    have sources : noted.sources = [noted, .builtin .int] := rfl
    have knows : Store.initial.world.Knows noted := by
      apply knows_initial
      · intro c member
        rw [sources] at member
        simp only [noted, TypeForm.builtin, List.mem_cons, reduceCtorEq, TypeForm.cls.injEq,
          List.not_mem_nil, or_false, false_or] at member
        exact ⟨_, member⟩
      · intro values member
        rw [sources] at member
        simp [noted, TypeForm.builtin] at member
    let description (outcome : Except Interrupt Capabilities) : Option String :=
      outcome.toOption.bind (·.description)
    let call : RegistryCall := .register (descriptionOf noted "A count.")
    let reached : Store := ((call.make .current).run Store.initial).2
    have same := claim [call] Store.initial reached isClosed_initial rfl
      (List.forall_mem_singleton.mpr trivial) (visit_single call _) _ _ knows
    have first : description ((lookup .current noted).run reached).1 = some "A count." := by
      decide +kernel
    have second : description ((lookup .current (.builtin .int)).run reached).1 = none := by
      decide +kernel
    rw [same, second] at first
    cases first

end SchemaProbe

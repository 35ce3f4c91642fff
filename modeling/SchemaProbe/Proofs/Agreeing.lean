import SchemaProbe.Proofs.Foreseeing

namespace SchemaProbe

/-!
# States that know the same of all types but one

Two states that declare the same and know the same of all types but one find out the
same about every other type, and know the same of all types but that one afterwards.
-/

namespace Store

/-- Whether two states declare the same and know the same of all types but one. -/
structure AgreesBut (key : Key) (s t : Store) : Prop where
  reading : s.world.SameReading t.world
  alike : s.world.DeclaresAlike t.world
  found : ∀ a, a.identity ≠ key → (t.registry .current).find? a = (s.registry .current).find? a

namespace AgreesBut

variable {key : Key} {s t between later : Store} {a : TypeForm} {c : ClassRef}
  {caps : Capabilities}

theorem refl (key : Key) (s : Store) : s.AgreesBut key s :=
  ⟨.refl _, .refl _, fun _ _ => rfl⟩

theorem symm (agrees : s.AgreesBut key t) : t.AgreesBut key s :=
  ⟨agrees.reading.symm, agrees.alike.symm, fun a other => (agrees.found a other).symm⟩

theorem trans
    (first : s.AgreesBut key between)
    (second : between.AgreesBut key t) :
    s.AgreesBut key t where
  reading := first.reading.trans second.reading
  alike := first.alike.trans second.alike
  found a other := (second.found a other).trans (first.found a other)

/-- What is declared and what is known is all that matters of a state. -/
theorem congr_right
    (agrees : s.AgreesBut key t)
    (world : later.world = t.world)
    (registry : later.registry .current = t.registry .current) :
    s.AgreesBut key later := by
  refine ⟨?_, ?_, fun a other => ?_⟩
  · rw [world]
    exact agrees.reading
  · rw [world]
    exact agrees.alike
  · rw [registry, agrees.found a other]

/-- Settling declared classes changes nothing that is known. -/
theorem of_settlesTo (settles : s.SettlesTo t) : s.AgreesBut key t :=
  ⟨settles.world.reading, settles.world.declaresAlike, fun a _ => by rw [settles.registry]⟩

/-- What is found out about the one type does not matter. -/
theorem of_remembering
    (caps : Capabilities)
    (same : a.identity = key) :
    s.AgreesBut key (s.remembering a caps) := by
  refine ⟨?_, ?_, fun b other => ?_⟩
  · rw [world_remembering]
    exact .refl _
  · rw [world_remembering]
    exact .refl _
  · rw [Store.remembering, registry_changeRegistry, find?_remember_of_ne]
    rwa [same]

/-- The same can be remembered in both states. -/
theorem remembering
    (agrees : s.AgreesBut key t)
    (a : TypeForm)
    (caps : Capabilities) :
    (s.remembering a caps).AgreesBut key (t.remembering a caps) := by
  refine ⟨?_, ?_, fun b other => ?_⟩
  · rw [world_remembering, world_remembering]
    exact agrees.reading
  · rw [world_remembering, world_remembering]
    exact agrees.alike
  · rw [Store.remembering, Store.remembering, registry_changeRegistry, registry_changeRegistry]
    by_cases same : b.identity = a.identity
    · rw [find?_remember_self _ _ same, find?_remember_self _ _ same]
    · rw [find?_remember_of_ne _ _ same, find?_remember_of_ne _ _ same, agrees.found b other]

/-- Whether a step ends well with the same result from two states, and the states
agree afterwards.  Nothing is found out about the one type. -/
def Finds (key : Key) (s t : Store) (step : Step Store Capabilities) : Prop :=
  ∃ caps reached later, step.run s = (.ok caps, reached) ∧ step.run t = (.ok caps, later) ∧
    reached.AgreesBut key later ∧
    ∀ a, a.identity = key → (reached.registry .current).find? a = (s.registry .current).find? a

/-- What is found out in the same way is remembered in both states. -/
theorem remembered
    {resolve : Step Store Capabilities}
    (agrees : s.AgreesBut key t)
    (other : a.identity ≠ key)
    (resolves : Finds key s t resolve) :
    Finds key s t (SchemaProbe.remembered .current a resolve) := by
  cases found : (s.registry .current).find? a with
  | some caps =>
      have alsoFound := (agrees.found a other).trans found
      exact ⟨caps, s, t, run_remembered_of_known _ found, run_remembered_of_known _ alsoFound,
        agrees, fun _ _ => rfl⟩
  | none =>
      have alsoUnknown := (agrees.found a other).trans found
      obtain ⟨caps, reached, later, ran, alsoRan, agreesLater, kept⟩ := resolves
      refine ⟨caps, _, _, run_remembered_of_unknown found ran,
        run_remembered_of_unknown alsoUnknown alsoRan, agreesLater.remembering a caps,
        fun b isKey => ?_⟩
      rw [Store.remembering, registry_changeRegistry, find?_remember_of_ne, kept b isKey]
      rw [isKey]
      exact other.symm

/-- The same is found out about a class that lists no cases by a hook. -/
theorem resolveClass
    (agrees : s.AgreesBut key t)
    (uncased : (s.world.hooks c).cases = none) :
    Finds key s t (SchemaProbe.resolveClass c) := by
  obtain ⟨caps, ran, alsoRan⟩ := agrees.alike.classCapabilities uncased
  have found : (Step.inWorld (classCapabilities c)).run s = (.ok caps, s) := by
    rw [Step.inWorld, Step.run_within, ran]
  have alsoFound : (Step.inWorld (classCapabilities c)).run t = (.ok caps, t) := by
    rw [Step.inWorld, Step.run_within, alsoRan]
  rw [Finds, SchemaProbe.resolveClass, Step.run_bind_of_ok found, Step.run_bind_of_ok alsoFound]
  cases caps.lacksReader with
  | false => exact ⟨caps, s, t, rfl, rfl, agrees, fun _ _ => rfl⟩
  | true =>
      exact ⟨caps, _, _, rfl, rfl, ⟨agrees.reading, agrees.alike, agrees.found⟩, fun _ _ => rfl⟩

/-- A class is looked up in the same way. -/
theorem lookupClass
    (agrees : s.AgreesBut key t)
    (other : (TypeForm.cls c).identity ≠ key)
    (uncased : (s.world.hooks c).cases = none) :
    Finds key s t (SchemaProbe.lookupClass .current c) := by
  refine agrees.remembered other ?_
  split
  · exact ⟨_, s, t, rfl, rfl, agrees, fun _ _ => rfl⟩
  · exact agrees.resolveClass uncased

section

variable {forms : List TypeForm} {allowed : Allowance}

/-- A type of a universe is looked up in the same way, if it is not the one and that one
is no class. -/
theorem lookup
    (agrees : s.AgreesBut key t)
    (covers : s.world.Covers forms allowed)
    (noClass : ∀ c, (TypeForm.cls c).identity ≠ key)
    (member : a ∈ forms)
    (accepted : a.hasCapabilities = true)
    (other : a.identity ≠ key) :
    Finds key s t (SchemaProbe.lookup .current a) := by
  have classes (c : ClassRef) (isForm : .cls c ∈ forms) :=
    agrees.lookupClass (noClass c) (covers.cases c isForm)
  have plain := covers.plain a member
  rw [lookup_of_plain plain]
  refine agrees.remembered other ?_
  rcases resolveBare_cases plain accepted with
    ⟨caps, isPure, _, _⟩ | ⟨values, rfl⟩ | ⟨c, rfl⟩ | ⟨c, applies, asOrigin⟩
  · rw [isPure]
    exact ⟨caps, s, t, rfl, rfl, agrees, fun _ _ => rfl⟩
  · have labels : t.world.label = s.world.label := funext agrees.alike.label
    have same : literalCapabilities t.world (.literal values) values =
        literalCapabilities s.world (.literal values) values := by
      rw [literalCapabilities, literalCapabilities, labels]
    refine ⟨literalCapabilities s.world (.literal values) values, s, t, rfl, ?_, agrees,
      fun _ _ => rfl⟩
    rw [← same]
    rfl
  · exact classes c member
  · obtain ⟨caps, reached, later, ran, alsoRan, agreesLater, kept⟩ :=
      classes c (covers.origin_mem member applies)
    rw [asOrigin, resolveApplied.asOrigin, Finds, Step.run_bind_of_ok ran,
      Step.run_bind_of_ok alsoRan]
    exact ⟨_, reached, later, rfl, rfl, agreesLater, kept⟩

end

end AgreesBut

end Store

/-- Looking up a union with null finds what is known about it, or finds out at once what
it is read as. -/
theorem run_lookup_union
    {s : Store}
    {a inner : TypeForm}
    (plain : a.isPlain = true)
    (strips : a.stripNull = (inner, true)) :
    (∃ caps, (s.registry .current).find? a = some caps ∧
        (lookup .current a).run s = (.ok caps, s)) ∨
      (s.registry .current).find? a = none ∧
        (lookup .current a).run s =
          (.ok (unionCapabilities a), s.remembering a (unionCapabilities a)) := by
  obtain ⟨style, members, rfl⟩ : ∃ style members, a = .union style members := by
    rcases TypeForm.stripNull_cases plain with stays | ⟨style, members, isUnion, _⟩
    · rw [stays] at strips
      cases strips
    · exact ⟨style, members, isUnion⟩
  cases found : (s.registry .current).find? (.union style members) with
  | some caps => exact .inl ⟨caps, rfl, Store.run_lookup_of_known plain found⟩
  | none =>
      have resolved : (resolveBare .current (.union style members)).run s =
          (.ok (unionCapabilities (.union style members)), s) :=
        rfl
      rw [Store.lookup_of_plain plain]
      exact .inr ⟨rfl, Store.run_remembered_of_unknown found resolved⟩

/-! ## Classes that are read by their fields -/

/-- Whether the class by whose fields something is read, if any, is among some type
forms. -/
def Capabilities.ReadsWithin (caps : Capabilities) (forms : List TypeForm) : Prop :=
  ∀ c, caps.reader = some (.fields c) → .cls c ∈ forms

/-- Whether known types of a universe are read by the fields of its classes alone. -/
def Store.ReadsWithin (s : Store) (forms : List TypeForm) : Prop :=
  ∀ a ∈ forms, ∀ caps, (s.registry .current).find? a = some caps → caps.ReadsWithin forms

namespace Store.ReadsWithin

variable {s reached : Store} {forms : List TypeForm} {allowed : Allowance} {a : TypeForm}
  {c : ClassRef} {caps : Capabilities}

/-- What is known does not depend on the rest of a state. -/
theorem of_registry
    (within : s.ReadsWithin forms)
    (registry : reached.registry .current = s.registry .current) :
    reached.ReadsWithin forms := by
  rw [ReadsWithin, registry]
  exact within

theorem remembering
    (within : s.ReadsWithin forms)
    (capsWithin : caps.ReadsWithin forms) :
    (s.remembering a caps).ReadsWithin forms := by
  intro b member others found
  rw [Store.remembering, registry_changeRegistry] at found
  by_cases same : b.identity = a.identity
  · rw [find?_remember_self _ _ same] at found
    cases found
    exact capsWithin
  · rw [find?_remember_of_ne _ _ same] at found
    exact within b member others found

/-- Whether a step that ends well finds something that is read within a universe. -/
def Keeps (s : Store) (forms : List TypeForm) (step : Step Store Capabilities) : Prop :=
  ∀ caps reached, step.run s = (.ok caps, reached) →
    caps.ReadsWithin forms ∧ reached.ReadsWithin forms

theorem remembered
    {resolve : Step Store Capabilities}
    (within : s.ReadsWithin forms)
    (member : a ∈ forms)
    (resolves : Keeps s forms resolve) :
    Keeps s forms (SchemaProbe.remembered .current a resolve) := by
  intro caps reached ran
  cases found : (s.registry .current).find? a with
  | some known =>
      rw [run_remembered_of_known _ found] at ran
      cases ran
      exact ⟨within a member _ found, within⟩
  | none =>
      rw [SchemaProbe.remembered, Step.run_bind_of_ok (Step.run_current s), found] at ran
      obtain ⟨_, _, resolved, result⟩ := Step.run_bind_eq_ok_iff.mp ran
      cases result
      obtain ⟨capsWithin, reachedWithin⟩ := resolves _ _ resolved
      exact ⟨capsWithin, reachedWithin.remembering capsWithin⟩

/-- A class that is read by fields is read by its own. -/
theorem resolveClass
    (within : s.ReadsWithin forms)
    (member : .cls c ∈ forms) :
    Keeps s forms (SchemaProbe.resolveClass c) := by
  intro caps reached ran
  obtain ⟨found, between, classRan, noted⟩ := Step.run_bind_eq_ok_iff.mp ran
  rw [Step.inWorld, Step.run_within] at classRan
  cases ended : (classCapabilities c).run s.world with
  | mk outcome world =>
      rw [ended] at classRan
      cases classRan
      have foundWithin : found.ReadsWithin forms := by
        intro d reads
        rw [classCapabilities, Step.run_bind_of_ok (Step.run_current _)] at ended
        split at ended
        · cases ended
          cases reads
        · split at ended
          · cases ended
            cases reads
          · obtain ⟨cases, later, _, result⟩ := Step.run_bind_eq_ok_iff.mp ended
            cases result
            rcases World.reader?_cases reads with
              ⟨_, _, isProgram⟩ | ⟨_, isMember⟩ | ⟨_, isFields | ⟨_, _, _, isMapping⟩ |
                ⟨_, _, _, _, isSequence⟩⟩
            · cases isProgram
            · cases isMember
            · cases isFields
              exact member
            · cases isMapping
            · cases isSequence
      split at noted <;> cases noted <;> exact ⟨foundWithin, within.of_registry rfl⟩

theorem lookupClass
    (within : s.ReadsWithin forms)
    (member : .cls c ∈ forms) :
    Keeps s forms (SchemaProbe.lookupClass .current c) := by
  refine within.remembered member ?_
  split
  · intro caps reached ran
    cases ran
    exact ⟨fun _ reads => (nomatch reads), within⟩
  · exact within.resolveClass member

/-- What looking up a type of a universe finds is read within it. -/
theorem lookup
    (within : s.ReadsWithin forms)
    (covers : s.world.Covers forms allowed)
    (member : a ∈ forms)
    (accepted : a.hasCapabilities = true) :
    Keeps s forms (SchemaProbe.lookup .current a) := by
  have plain := covers.plain a member
  rw [lookup_of_plain plain]
  refine within.remembered member fun caps reached ran => ?_
  rcases resolveBare_cases plain accepted with
    ⟨own, isPure, _, notFields⟩ | ⟨values, rfl⟩ | ⟨c, rfl⟩ | ⟨c, applies, asOrigin⟩
  · rw [isPure] at ran
    cases ran
    exact ⟨fun c reads => absurd reads (notFields c), within⟩
  · cases ran
    exact ⟨fun _ reads => (nomatch reads), within⟩
  · exact within.lookupClass member caps reached ran
  · rw [asOrigin] at ran
    obtain ⟨_, _, classRan, result⟩ := Step.run_bind_eq_ok_iff.mp ran
    cases result
    obtain ⟨ownWithin, reachedWithin⟩ :=
      within.lookupClass (covers.origin_mem member applies) _ _ classRan
    exact ⟨ownWithin, reachedWithin⟩

end Store.ReadsWithin

end SchemaProbe

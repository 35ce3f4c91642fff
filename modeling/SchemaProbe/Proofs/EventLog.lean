import SchemaProbe.Synthesis

namespace SchemaProbe

/-!
# The log of events

Events are noted and never read, and what is being probed does not matter for
what types are.  A step that only looks at classes and registries therefore ends
in the same way whatever the log and the guard say, and the states that it
reaches differ in these alone.
-/

namespace Store

/-- A state with another log. -/
def withEvents (s : Store) (events : List Event) : Store :=
  { s with events := events }

/-- A state with another log and another guard. -/
def beside (s : Store) (events : List Event) (guard : CycleGuard) : Store :=
  { s with events := events, guard := guard }

@[simp]
theorem withEvents_world (s : Store) (events : List Event) :
    (s.withEvents events).world = s.world :=
  rfl

@[simp]
theorem withEvents_events (s : Store) (events : List Event) :
    (s.withEvents events).events = events :=
  rfl

@[simp]
theorem withEvents_withEvents (s : Store) (events later : List Event) :
    (s.withEvents events).withEvents later = s.withEvents later :=
  rfl

/-- A state with its own log is itself. -/
theorem withEvents_self (s : Store) : s.withEvents s.events = s :=
  rfl

/-- Neither the log nor the guard says which registry is asked. -/
@[simp]
theorem beside_registry
    (s : Store)
    (events : List Event)
    (guard : CycleGuard)
    (scope : Scope) :
    (s.beside events guard).registry scope = s.registry scope := by
  cases scope <;> rfl

/-- Changing a registry leaves the log and the guard alone. -/
theorem beside_changeRegistry
    (s : Store)
    (events : List Event)
    (guard : CycleGuard)
    (scope : Scope)
    (change : CapabilityRegistry → CapabilityRegistry) :
    (s.beside events guard).changeRegistry scope change =
      (s.changeRegistry scope change).beside events guard := by
  cases scope with
  | shared => rfl
  | current =>
      unfold changeRegistry
      cases ownCase : s.own <;> simp [beside, ownCase]

end Store

namespace Step

/-- A step that ends alike whatever the log and the guard say. -/
def IgnoresEvents (step : Step Store α) : Prop :=
  ∀ s events guard, ∃ later,
    step.run (s.beside events guard) = ((step.run s).1, (step.run s).2.beside later guard)

namespace IgnoresEvents

/-- A step that ignores the guard leaves it alone. -/
theorem guard_eq
    {step : Step Store α}
    (ignores : IgnoresEvents step)
    (s : Store) :
    (step.run s).2.guard = s.guard := by
  obtain ⟨later, stepRun⟩ := ignores s s.events s.guard
  have reached : (step.run s).2 = (step.run s).2.beside later s.guard :=
    congrArg Prod.snd stepRun
  rw [reached]
  rfl

/-- A step that ignores the log ends alike whatever the log says. -/
theorem withEvents
    {step : Step Store α}
    (ignores : IgnoresEvents step)
    (s : Store)
    (events : List Event) :
    ∃ later, step.run (s.withEvents events) = ((step.run s).1, (step.run s).2.withEvents later) := by
  obtain ⟨later, stepRun⟩ := ignores s events s.guard
  have besides : (step.run s).2.beside later s.guard = (step.run s).2.withEvents later := by
    rw [← ignores.guard_eq s]
    rfl
  exact ⟨later, stepRun.trans (by rw [besides])⟩

/-- A pure result ignores the log. -/
theorem pure (a : α) : IgnoresEvents (Pure.pure a : Step Store α) :=
  fun _ events _ => ⟨events, rfl⟩

/-- A fault ignores the log. -/
theorem fail (f : Fault) : IgnoresEvents (Step.fail f : Step Store α) :=
  fun _ events _ => ⟨events, rfl⟩

/-- Two steps that ignore the log ignore it one after the other. -/
theorem bind
    {first : Step Store α}
    {next : α → Step Store β}
    (firstIgnores : IgnoresEvents first)
    (nextIgnores : ∀ a, IgnoresEvents (next a)) :
    IgnoresEvents (first >>= next) := by
  intro s events guard
  obtain ⟨between, firstRun⟩ := firstIgnores s events guard
  cases ended : first.run s with
  | mk outcome reached =>
      rw [ended] at firstRun
      cases outcome with
      | ok a =>
          obtain ⟨later, nextRun⟩ := nextIgnores a reached between guard
          refine ⟨later, ?_⟩
          rw [run_bind_of_ok firstRun, run_bind_of_ok ended, nextRun]
      | error interrupt =>
          refine ⟨between, ?_⟩
          rw [run_bind_of_error firstRun, run_bind_of_error ended]

/-- Looking at the state ignores the log if what follows does not look at
it. -/
theorem current_bind
    {next : Store → Step Store α}
    (unread : ∀ s events guard, next (s.beside events guard) = next s)
    (nextIgnores : ∀ s, IgnoresEvents (next s)) :
    IgnoresEvents (current >>= next) := by
  intro s events guard
  obtain ⟨later, nextRun⟩ := nextIgnores s s events guard
  refine ⟨later, ?_⟩
  rw [run_bind_of_ok (run_current _), run_bind_of_ok (run_current _), unread, nextRun]

/-- A change that leaves the log alone ignores it. -/
theorem update
    {change : Store → Store}
    (leaves : ∀ s events guard,
      change (s.beside events guard) = (change s).beside events guard) :
    IgnoresEvents (Step.update change) :=
  fun s events guard => ⟨events, by rw [run_update, run_update, leaves]⟩

/-- Noting an event ignores the log so far. -/
theorem note (e : Event) : IgnoresEvents (Step.note e) :=
  fun _ events _ => ⟨events ++ [e], rfl⟩

/-- A step on the declared classes does not see the log. -/
theorem inWorld (step : Step World α) : IgnoresEvents (Step.inWorld step) :=
  fun _ events _ => ⟨events, rfl⟩

/-- Catching a fault ignores the log if the step does. -/
theorem attempt
    {step : Step Store α}
    (ignores : IgnoresEvents step) :
    IgnoresEvents (Step.attempt step) := by
  intro s events guard
  obtain ⟨later, stepRun⟩ := ignores s events guard
  refine ⟨later, ?_⟩
  rw [run_attempt, run_attempt, stepRun]
  cases step.run s with
  | mk outcome reached =>
      cases outcome with
      | ok a => rfl
      | error interrupt => cases interrupt <;> rfl

end IgnoresEvents

end Step

/-! ## What looks types up -/

open Step

/-- Finding out about a class ignores the log. -/
theorem resolveClass_ignoresEvents (c : ClassRef) : IgnoresEvents (resolveClass c) := by
  unfold resolveClass
  refine .bind (.inWorld _) fun found => ?_
  split
  · exact .bind (.note _) fun _ => .pure found
  · exact .pure found

/-- Remembering what was found ignores the log if finding it does. -/
theorem remembered_ignoresEvents
    {resolve : Step Store Capabilities}
    (scope : Scope)
    (a : TypeForm)
    (ignores : IgnoresEvents resolve) :
    IgnoresEvents (remembered scope a resolve) := by
  unfold remembered
  refine .current_bind (fun s events guard => by rw [Store.beside_registry]) fun s => ?_
  split
  · exact .pure _
  · refine .bind ignores fun found => ?_
    refine .bind (.update fun s events guard => ?_) fun _ => .pure found
    exact s.beside_changeRegistry events guard scope _

/-- Looking up a class ignores the log. -/
theorem lookupClass_ignoresEvents (scope : Scope) (c : ClassRef) :
    IgnoresEvents (lookupClass scope c) := by
  unfold lookupClass
  apply remembered_ignoresEvents
  split
  · exact .pure _
  · exact resolveClass_ignoresEvents c

/-- Finding out about a parametrised type form ignores the log. -/
theorem resolveApplied_ignoresEvents
    (scope : Scope)
    (a : TypeForm)
    (origin : Origin)
    (args : List TypeForm) :
    IgnoresEvents (resolveApplied scope a origin args) := by
  have asOrigin (c : ClassRef) : IgnoresEvents (resolveApplied.asOrigin scope a c) :=
    .bind (lookupClass_ignoresEvents scope c) fun _ => .pure _
  unfold resolveApplied
  split
  · split
    · exact .pure _
    · split
      · exact .pure _
      · split
        · exact .pure _
        · exact asOrigin _
  · exact asOrigin _
  · exact .fail _

/-- Finding out about a type form without notes ignores the log. -/
theorem resolveBare_ignoresEvents (scope : Scope) (a : TypeForm) :
    IgnoresEvents (resolveBare scope a) := by
  unfold resolveBare
  split
  case h_7 values => exact .current_bind (fun _ _ _ => rfl) fun _ => .pure _
  all_goals first
    | exact .pure _
    | exact .fail _
    | exact lookupClass_ignoresEvents scope _
    | exact resolveApplied_ignoresEvents scope _ _ _

/-- Looking up a type ignores the log. -/
theorem lookup_ignoresEvents (scope : Scope) (a : TypeForm) :
    IgnoresEvents (lookup scope a) := by
  fun_induction lookup scope a with
  | case1 inner notes ih => exact remembered_ignoresEvents scope _ ih
  | case2 a bare => exact remembered_ignoresEvents scope a (resolveBare_ignoresEvents scope a)

/-- Looking up what may be no type form ignores the log. -/
theorem lookup?_ignoresEvents (a : TypeForm) : IgnoresEvents (lookup? a) := by
  unfold lookup?
  refine .bind (.attempt (lookup_ignoresEvents .current a)) fun outcome => ?_
  split
  · exact .pure _
  · split
    · exact .pure _
    · exact .fail _

/-- Looking up what may be missing ignores the log. -/
theorem lookupOptional_ignoresEvents (type : Option TypeForm) :
    IgnoresEvents (lookupOptional type) := by
  cases type with
  | none => exact .pure none
  | some a => exact lookup?_ignoresEvents a

end SchemaProbe

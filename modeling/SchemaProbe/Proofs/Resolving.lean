import SchemaProbe.Proofs.TiedLookups

namespace SchemaProbe

/-!
# Finding out about types comes to an end

Resolving what is written, making plans of fields and looking up capabilities
change the declared classes in three ways only: a typing form is spelled for the
first time, a generic model is given arguments, and fields are settled.  What
these keep, all of it keeps, and none of it runs out of a bound.
-/

open Step

/-! ## Resolving what is written -/

/-- Whether something holds of the steps that resolving is made of under a naming, and
of two steps one after the other if it holds of both. -/
structure Naming.Carries
    (naming : Naming)
    (holds : ∀ {α : Type}, Step World α → Prop) :
    Prop where
  pure : ∀ {α : Type} (a : α), holds (Pure.pure a : Step World α)
  ofExcept : ∀ {α : Type} (result : Except Fault α), holds (Step.ofExcept result : Step World α)
  bind : ∀ {α β : Type} {first : Step World α} {next : α → Step World β},
    holds first → (∀ a, holds (next a)) → holds (first >>= next)
  named : ∀ name, holds ((TypeTerm.named name).resolve naming)
  spelled : ∀ form parts built, holds (spelled form parts built)
  applied : ∀ c args, holds (applyClass c args)
  member : ∀ enumeration name, holds ((ValueTerm.member enumeration name).resolve naming)
  instanceOf : ∀ name, holds ((ValueTerm.instanceOf name).resolve naming)

section Carrying

variable {naming : Naming} {holds : ∀ {α : Type}, Step World α → Prop}
  (carries : naming.Carries holds)

include carries

/-- What is carried holds of faults. -/
theorem Naming.Carries.fail (f : Fault) : holds (Step.fail f : Step World α) :=
  carries.ofExcept (.error f)

/-- What is carried holds of a step on each element. -/
theorem Naming.Carries.each
    {α β : Type}
    {f : α → Step World β}
    (each : ∀ a, holds (f a))
    (elements : List α) :
    holds (Step.each f elements) := by
  induction elements with
  | nil => exact carries.pure []
  | cons a rest inductionHypothesis =>
      exact carries.bind (each a) fun b =>
        carries.bind inductionHypothesis fun bs => carries.pure (b :: bs)

/-- What is carried holds of checking arguments. -/
theorem Naming.Carries.checkedArguments (args : List TypeForm) :
    holds (Step.each (fun a => Step.ofExcept a.checkedArgument?) args) :=
  carries.each (fun a => carries.ofExcept a.checkedArgument?) args

/-- What is carried holds of making a union. -/
theorem Naming.Carries.namedUnion (members : List TypeForm) :
    holds (SchemaProbe.namedUnion members) := by
  unfold SchemaProbe.namedUnion
  apply carries.bind (carries.checkedArguments members)
  intro checked
  split
  · exact carries.fail _
  · split
    · exact carries.fail _
    · exact carries.spelled _ _ _

/-- What is carried holds of putting bars between type forms. -/
theorem Naming.Carries.barChain
    (isDeferred : Bool)
    (first : TypeForm)
    (rest : List TypeForm) :
    holds (SchemaProbe.barChain isDeferred first rest) := by
  induction rest generalizing first with
  | nil => exact carries.pure first
  | cons next rest inductionHypothesis =>
      have pair : holds (barPair isDeferred first next) := by
        unfold barPair
        split
        · exact carries.namedUnion _
        · cases first.barred? isDeferred next with
          | some joined => exact carries.pure joined
          | none => exact carries.fail _
      exact carries.bind pair inductionHypothesis

/-- What is carried holds of adding a note. -/
theorem Naming.Carries.noted
    (a : TypeForm)
    (note : Value) :
    holds (SchemaProbe.noted a note) := by
  unfold SchemaProbe.noted
  split
  · exact carries.spelled _ _ _
  · exact carries.pure _

mutual

/-- What is carried holds of resolving a written type form. -/
theorem TypeTerm.resolve_carried (t : TypeTerm) : holds (t.resolve naming) := by
  cases t with
  | known a =>
      rw [TypeTerm.resolve]
      exact carries.pure a
  | named name => exact carries.named name
  | optional inner =>
      rw [TypeTerm.resolve]
      exact carries.bind (TypeTerm.resolve_carried inner) fun _ => carries.namedUnion _
  | union members =>
      rw [TypeTerm.resolve]
      exact carries.bind (TypeTerm.resolveAll_carried members) fun _ => carries.namedUnion _
  | bar members =>
      rw [TypeTerm.resolve]
      apply carries.bind (TypeTerm.resolveAll_carried members)
      intro resolved
      cases resolved with
      | nil => exact carries.fail _
      | cons first rest => exact carries.barChain _ first rest
  | literal values =>
      rw [TypeTerm.resolve]
      exact carries.bind (ValueTerm.resolveAll_carried values) fun _ => carries.pure _
  | annotated inner note =>
      rw [TypeTerm.resolve]
      exact carries.bind (TypeTerm.resolve_carried inner) fun a =>
        carries.bind (ValueTerm.resolve_carried note) fun v => carries.noted a v
  | generic origin args =>
      have checked : holds (do
          let resolved ← TypeTerm.resolveAll naming args
          let checked ← Step.each (fun a => Step.ofExcept a.checkedArgument?) resolved
          Pure.pure (TypeForm.generic origin checked) : Step World TypeForm) :=
        carries.bind (TypeTerm.resolveAll_carried args) fun resolved =>
          carries.bind (carries.checkedArguments resolved) fun _ => carries.pure _
      cases origin with
      | cls c =>
          rw [TypeTerm.resolve]
          exact carries.bind (TypeTerm.resolveAll_carried args) fun _ => carries.pure _
      | classVar =>
          rw [TypeTerm.resolve]
          · exact checked
          · simp
      | final =>
          rw [TypeTerm.resolve]
          · exact checked
          · simp
  | callable params result =>
      rw [TypeTerm.resolve]
      exact carries.bind (TypeTerm.resolveAll_carried params) fun _ =>
        carries.bind (TypeTerm.resolve_carried result) fun _ => carries.pure _
  | applied generic args =>
      rw [TypeTerm.resolve]
      apply carries.bind (TypeTerm.resolve_carried generic)
      intro a
      cases a with
      | cls c =>
          exact carries.bind (TypeTerm.resolveAll_carried args) fun _ => carries.applied c _
      | _ => exact carries.fail _
  | inPlace value =>
      rw [TypeTerm.resolve]
      exact carries.bind (ValueTerm.resolve_carried value) fun _ => carries.pure _
termination_by structural t

/-- What is carried holds of resolving written type forms. -/
theorem TypeTerm.resolveAll_carried (ts : List TypeTerm) :
    holds (TypeTerm.resolveAll naming ts) := by
  cases ts with
  | nil => exact carries.pure []
  | cons t rest =>
      rw [TypeTerm.resolveAll]
      exact carries.bind (TypeTerm.resolve_carried t) fun _ =>
        carries.bind (TypeTerm.resolveAll_carried rest) fun _ => carries.pure _
termination_by structural ts

/-- What is carried holds of resolving a written value. -/
theorem ValueTerm.resolve_carried (t : ValueTerm) : holds (t.resolve naming) := by
  cases t with
  | known v =>
      rw [ValueTerm.resolve]
      exact carries.pure v
  | items shape elements =>
      rw [ValueTerm.resolve]
      exact carries.bind (ValueTerm.resolveAll_carried elements) fun _ => carries.ofExcept _
  | dict entries =>
      rw [ValueTerm.resolve]
      exact carries.bind (ValueTerm.resolveEntries_carried entries) fun _ => carries.ofExcept _
  | type t =>
      rw [ValueTerm.resolve]
      exact carries.bind (TypeTerm.resolve_carried t) fun _ => carries.pure _
  | member enumeration name => exact carries.member enumeration name
  | instanceOf name => exact carries.instanceOf name
termination_by structural t

/-- What is carried holds of resolving written values. -/
theorem ValueTerm.resolveAll_carried (ts : List ValueTerm) :
    holds (ValueTerm.resolveAll naming ts) := by
  cases ts with
  | nil => exact carries.pure []
  | cons t rest =>
      rw [ValueTerm.resolveAll]
      exact carries.bind (ValueTerm.resolve_carried t) fun _ =>
        carries.bind (ValueTerm.resolveAll_carried rest) fun _ => carries.pure _
termination_by structural ts

/-- What is carried holds of resolving the entries of a written mapping. -/
theorem ValueTerm.resolveEntries_carried (ts : List (ValueTerm × ValueTerm)) :
    holds (ValueTerm.resolveEntries naming ts) := by
  cases ts with
  | nil => exact carries.pure []
  | cons entry rest =>
      obtain ⟨key, t⟩ := entry
      rw [ValueTerm.resolveEntries]
      exact carries.bind (ValueTerm.resolve_carried key) fun _ =>
        carries.bind (ValueTerm.resolve_carried t) fun _ =>
          carries.bind (ValueTerm.resolveEntries_carried rest) fun _ => carries.pure _
termination_by structural ts

end

end Carrying

/-- Whether what holds of the declared classes survives what is done to them, and
faults are allowed. -/
structure Regime.Resolves (R : Regime World) : Prop where
  faults : R.AllowsFaults
  spells : ∀ w key a, R.holds w → R.holds { w with spellings := w.spellings ++ [(key, a)] }
  specialises : ∀ w u r args fields key, R.holds w → w.record? u = some r →
    R.holds
      { w.add (w.specialisation r args fields) with
        specialised := w.specialised ++ [(key, (w.specialisation r args fields).cls)] }
  settles : ∀ w c, R.holds w → R.holds (w.settle c)

section Resolution

variable {R : Regime World}

/-- Spelling a typing form ends like itself. -/
theorem spelled_alike
    (resolves : R.Resolves)
    (form : String)
    (parts : List TypeForm)
    (built : TypeForm) :
    Alike R anything (spelled form parts built) (spelled form parts built) := by
  unfold spelled
  refine .current_bind fun w holds => ?_
  split
  · exact .pure holds trivial
  · have spells := Alike.update (resolves.spells · (.labelled form (.sequence (TypeForm.keys parts))) built)
    exact (spells w holds).bind fun _ _ reachedHolds _ => .pure reachedHolds trivial

/-- Checking arguments ends like itself. -/
theorem checkedArguments_alike
    (resolves : R.Resolves)
    (args : List TypeForm) :
    Alike R (fun checked => ∀ a ∈ checked, anything a)
      (Step.each (fun a => .ofExcept a.checkedArgument?) args)
      (Step.each (fun a => .ofExcept a.checkedArgument?) args) :=
  .each fun _ _ => .ofExcept resolves.faults fun _ _ => trivial

/-- Giving arguments to a generic model ends like itself. -/
theorem specialise_alike
    (resolves : R.Resolves)
    {w : World}
    {u : UserClass}
    {r : ClassRecord}
    (fields : List Field)
    (args : List TypeForm)
    (holds : R.holds w)
    (isRecord : w.record? u = some r) :
    AlikeAt R anything (specialise r fields args) (specialise r fields args) w := by
  unfold specialise
  split
  · exact .fail holds (resolves.faults _)
  · split
    · exact .pure holds trivial
    · refine .current_bind ?_
      split
      · exact .pure holds trivial
      · refine .current_bind ?_
        exact .ok rfl rfl (resolves.specialises w u r args fields _ holds isRecord) trivial

/-- Giving arguments to a class ends like itself. -/
theorem applyClass_alike
    (resolves : R.Resolves)
    (c : ClassRef)
    (args : List TypeForm) :
    Alike R anything (applyClass c args) (applyClass c args) := by
  unfold applyClass
  refine .current_bind fun w holds => ?_
  cases c with
  | builtin b =>
      dsimp only
      split
      · exact .pure holds trivial
      · exact .fail holds (resolves.faults _)
  | sized number home => exact .fail holds (resolves.faults _)
  | user u =>
      dsimp only
      split
      · exact .fail holds (resolves.faults _)
      · rename_i r isRecord
        split
        · exact specialise_alike resolves _ args holds isRecord
        · split
          · split
            · exact .pure holds trivial
            · exact .fail holds (resolves.faults _)
          · split
            · exact .fail holds (resolves.faults _)
            · exact (checkedArguments_alike resolves args w holds).bind fun _ _ reachedHolds _ => .pure reachedHolds trivial

/-- Finding the class that a name refers to ends like itself. -/
theorem classNamed_alike
    (resolves : R.Resolves)
    (naming : Naming)
    (name : String) :
    Alike R anything (classNamed naming name) (classNamed naming name) := by
  unfold classNamed
  refine .current_bind fun w holds => ?_
  have takes : Alike R anything (Step.ofExcept (naming.meaning w name)) (Step.ofExcept (naming.meaning w name)) :=
    .ofExcept resolves.faults fun _ _ => trivial
  refine (takes w holds).bind fun a _ reachedHolds _ => ?_
  cases a with
  | cls c => exact .pure reachedHolds trivial
  | _ => exact .fail reachedHolds (resolves.faults _)

/-- Resolving is made of steps that end like themselves. -/
theorem Regime.Resolves.carries
    (resolves : R.Resolves)
    (naming : Naming) :
    naming.Carries fun step => Alike R anything step step where
  pure _ := .pure trivial
  ofExcept _ := .ofExcept resolves.faults fun _ _ => trivial
  bind firstAlike nextAlike := firstAlike.bind fun a _ => nextAlike a
  named name := by
    rw [TypeTerm.resolve]
    apply Alike.current_bind
    intro w holds
    exact Alike.ofExcept resolves.faults (fun _ _ => trivial) w holds
  spelled := spelled_alike resolves
  applied := applyClass_alike resolves
  member enumeration name := by
    rw [ValueTerm.resolve]
    apply (classNamed_alike resolves naming enumeration).bind
    intro c _
    apply Alike.current_bind
    intro w holds
    exact Alike.ofOption resolves.faults (fun _ _ => trivial) w holds
  instanceOf name := by
    rw [ValueTerm.resolve]
    apply (classNamed_alike resolves naming name).bind
    intro c _
    apply Alike.current_bind
    intro w holds
    exact Alike.ofExcept resolves.faults (fun _ _ => trivial) w holds

/-- Resolving a written type form ends like itself. -/
theorem TypeTerm.resolve_alike
    (resolves : R.Resolves)
    (naming : Naming)
    (t : TypeTerm) :
    Alike R anything (t.resolve naming) (t.resolve naming) :=
  TypeTerm.resolve_carried (resolves.carries naming) t

/-- Resolving a written value ends like itself. -/
theorem ValueTerm.resolve_alike
    (resolves : R.Resolves)
    (naming : Naming)
    (t : ValueTerm) :
    Alike R anything (t.resolve naming) (t.resolve naming) :=
  ValueTerm.resolve_carried (resolves.carries naming) t

/-- Resolving written values ends like itself. -/
theorem ValueTerm.resolveAll_alike
    (resolves : R.Resolves)
    (naming : Naming)
    (ts : List ValueTerm) :
    Alike R anything (ValueTerm.resolveAll naming ts) (ValueTerm.resolveAll naming ts) :=
  ValueTerm.resolveAll_carried (resolves.carries naming) ts

/-! ## Plans and cases -/

/-- Making the plans of a class ends like itself. -/
theorem decodingPlans_alike
    (resolves : R.Resolves)
    (c : ClassRef) :
    Alike R anything (decodingPlans c) (decodingPlans c) := by
  have takes (plans : Except Fault (List FieldPlan)) :
      Alike R anything (Step.ofExcept plans) (Step.ofExcept plans) :=
    .ofExcept resolves.faults fun _ _ => trivial
  have settles : Alike R anything (Step.update fun w => w.settle c)
      (Step.update fun w => w.settle c) :=
    .update fun w => resolves.settles w c
  unfold decodingPlans
  refine .current_bind fun w holds => ?_
  split
  · exact takes _ w holds
  · split
    · exact settles.bind (fun _ _ => .current_bind fun reached => takes _ reached) w holds
    · exact settles.bind (fun _ _ => .current_bind fun reached => takes _ reached) w holds

/-- Listing the cases of a class ends like itself. -/
theorem classCases_alike
    (resolves : R.Resolves)
    (c : ClassRef) :
    Alike R anything (classCases c) (classCases c) := by
  unfold classCases
  refine .current_bind fun w holds => ?_
  split
  · exact (ValueTerm.resolveAll_alike resolves _ _ w holds).bind
      fun _ _ reachedHolds _ => .pure reachedHolds trivial
  · exact .fail holds (resolves.faults _)
  · exact .pure holds trivial

end Resolution

/-- A bound is not used up by finding out about classes. -/
theorem Regime.ending_resolves : (Regime.ending World).Resolves where
  faults := Regime.ending_allowsFaults World
  spells _ _ _ _ := trivial
  specialises _ _ _ _ _ _ _ _ := trivial
  settles _ _ _ := trivial

/-- The declared classes that finding out about types can lead to. -/
inductive World.Reaches (start : World) : World → Prop
  | start : Reaches start start
  | spell {w : World} (key : Key) (a : TypeForm) :
      Reaches start w → Reaches start { w with spellings := w.spellings ++ [(key, a)] }
  | specialise {w : World} {u : UserClass} {r : ClassRecord} (args : List TypeForm)
      (fields : List Field) (key : Key) :
      Reaches start w → w.record? u = some r →
        Reaches start
          { w.add (w.specialisation r args fields) with
            specialised := w.specialised ++ [(key, (w.specialisation r args fields).cls)] }
  | settle {w : World} (c : ClassRef) : Reaches start w → Reaches start (w.settle c)

/-- The regime of everything that is done to the declared classes from some on. -/
def World.reaching (start : World) : Regime World where
  holds := start.Reaches
  allows _ := True

/-- Finding out about classes leads to classes that can be reached. -/
theorem World.reaching_resolves (start : World) : start.reaching.Resolves where
  faults _ := trivial
  spells _ key a holds := .spell key a holds
  specialises _ _ _ args fields key holds isRecord := .specialise args fields key holds isRecord
  settles _ c holds := .settle c holds

/-! ## Looking up capabilities -/

/-- What is known of a state when its declared classes are changed alone. -/
def Regime.worldOf (R : Regime Store) (s : Store) : Regime World where
  holds w := R.holds { s with world := w }
  allows := R.allows

section Worlds

variable {α : Type} {R : Regime Store} {good : α → Prop} {first second : Step World α} {s : Store}

/-- Steps on the declared classes that end alike do so on the whole state. -/
theorem Step.AlikeAt.inWorld
    (alike : AlikeAt (R.worldOf s) good first second s.world) :
    AlikeAt R good (inWorld first) (inWorld second) s := by
  cases alike with
  | ok firstRun secondRun holds isGood =>
      exact .ok (by rw [Step.inWorld, run_within, firstRun])
        (by rw [Step.inWorld, run_within, secondRun]) holds isGood
  | error firstRun secondRun holds allowed =>
      exact .error (by rw [Step.inWorld, run_within, firstRun])
        (by rw [Step.inWorld, run_within, secondRun]) holds allowed

/-- Steps on the declared classes that end alike on the whole state do so by
themselves. -/
theorem Step.AlikeAt.ofWorld
    (alike : AlikeAt R good (Step.inWorld first) (Step.inWorld second) s) :
    AlikeAt (R.worldOf s) good first second s.world := by
  have run_world {step : Step World α} {outcome : Except Interrupt α} {reached : Store}
      (ran : (Step.inWorld step).run s = (outcome, reached)) :
      step.run s.world = (outcome, reached.world) ∧ reached = { s with world := reached.world } := by
    rw [Step.inWorld, run_within] at ran
    cases ran
    exact ⟨rfl, rfl⟩
  cases alike with
  | ok firstRun secondRun holds isGood =>
      obtain ⟨firstWorld, sameStore⟩ := run_world firstRun
      rw [sameStore] at holds
      exact .ok firstWorld (run_world secondRun).1 holds isGood
  | error firstRun secondRun holds allowed =>
      obtain ⟨firstWorld, sameStore⟩ := run_world firstRun
      rw [sameStore] at holds
      exact .error firstWorld (run_world secondRun).1 holds allowed

end Worlds

/-- Whether a type declares no schema but an acceptable one. -/
def Capabilities.IsAccepted (accepts : SchemaHook → Prop) (caps : Capabilities) : Prop :=
  ∀ hook, caps.schema = some hook → accepts hook

/-- Whether what holds of states survives looking up capabilities, the faults of
types without any are allowed, and the schemas that types declare are
acceptable. -/
structure Regime.Looks
    (R : Regime Store)
    (accepts : SchemaHook → Prop) :
    Prop where
  surface : ∀ f, f.kind = .surface → R.allows (.fault f)
  cases : ∀ c, Alike R anything (inWorld (classCases c)) (inWorld (classCases c))
  notes : ∀ s events, R.holds s → R.holds (s.withEvents events)
  remembers : ∀ s scope a caps, R.holds s → caps.IsAccepted accepts →
    R.holds (s.changeRegistry scope fun r => r.remember a caps)
  known : ∀ s scope a caps, R.holds s → (s.registry scope).find? a = some caps →
    caps.IsAccepted accepts
  declared : ∀ s c, R.holds s → ∀ hook, (s.world.hooks c).schema = some hook → accepts hook

/-- Whether what holds of states survives looking up capabilities, but for listing the
cases of classes. -/
structure Regime.Keeps
    (R : Regime Store)
    (accepts : SchemaHook → Prop) :
    Prop where
  surface : ∀ f, f.kind = .surface → R.allows (.fault f)
  notes : ∀ s events, R.holds s → R.holds (s.withEvents events)
  remembers : ∀ s scope a caps, R.holds s → caps.IsAccepted accepts →
    R.holds (s.changeRegistry scope fun r => r.remember a caps)
  known : ∀ s scope a caps, R.holds s → (s.registry scope).find? a = some caps →
    caps.IsAccepted accepts
  declared : ∀ s c, R.holds s → ∀ hook, (s.world.hooks c).schema = some hook → accepts hook

/-- What survives looking up does so but for listing cases. -/
theorem Regime.Looks.keeps
    {R : Regime Store}
    {accepts : SchemaHook → Prop}
    (looks : R.Looks accepts) :
    R.Keeps accepts :=
  ⟨looks.surface, looks.notes, looks.remembers, looks.known, looks.declared⟩

/-- Whether the cases of a class are listed like themselves. -/
def Regime.Lists (R : Regime Store) (c : ClassRef) : Prop :=
  Alike R anything (inWorld (classCases c)) (inWorld (classCases c))

section Looking

variable {R : Regime Store} {accepts : SchemaHook → Prop}

/-- A type that declares no schema is acceptable. -/
theorem Capabilities.isAccepted_of_none
    {caps : Capabilities}
    (undeclared : caps.schema = none) :
    caps.IsAccepted accepts := by
  intro hook declares
  rw [undeclared] at declares
  cases declares

/-- Finding out the capabilities of a class ends like itself if its cases are listed
so. -/
theorem classCapabilities_alike
    (keeps : R.Keeps accepts)
    {c : ClassRef}
    (lists : R.Lists c) :
    Alike R (·.IsAccepted accepts) (inWorld (classCapabilities c))
      (inWorld (classCapabilities c)) := by
  intro s holds
  refine .inWorld ?_
  unfold classCapabilities
  refine .current_bind ?_
  dsimp only
  split
  · exact .pure holds (Capabilities.isAccepted_of_none rfl)
  · split
    · exact .pure holds (Capabilities.isAccepted_of_none rfl)
    · refine (lists s holds).ofWorld.bind fun cases reached reachedHolds _ => ?_
      exact .current_bind (.pure reachedHolds (keeps.declared s c holds))

/-- What survives looking up knows of all types what is the same and acceptable. -/
theorem Regime.Keeps.bond
    (keeps : R.Keeps accepts) :
    R.bond.Looks (Same (·.IsAccepted accepts)) fun _ => True where
  surface := keeps.surface
  notes := by
    rintro s _ e ⟨rfl, holds⟩
    exact ⟨rfl, keeps.notes s _ holds⟩
  plain caps undeclared := ⟨rfl, Capabilities.isAccepted_of_none undeclared⟩
  retyped := by
    rintro caps _ a name ⟨rfl, accepted⟩
    exact ⟨rfl, accepted⟩
  lacking := by
    rintro caps _ ⟨rfl, -⟩
    exact ⟨rfl, rfl⟩
  labels := by
    rintro s _ ⟨rfl, -⟩
    rfl
  known := by
    rintro s _ scope a - ⟨rfl, holds⟩
    cases found : (s.registry scope).find? a with
    | none => exact .none
    | some caps => exact .some ⟨rfl, keeps.known s scope a caps holds found⟩
  remembers := by
    rintro s _ scope a caps _ - ⟨rfl, holds⟩ ⟨rfl, accepted⟩
    exact ⟨rfl, keeps.remembers s scope a caps holds accepted⟩

/-- Looking up a type ends like itself if the cases of its class are listed so. -/
theorem lookup_alike_of_lists
    (keeps : R.Keeps accepts)
    (scope : Scope)
    {a : TypeForm}
    (lists : ∀ c, a.listed? = some c → R.Lists c) :
    Alike R (·.IsAccepted accepts) (lookup scope a) (lookup scope a) :=
  tied_iff_alike.mp (lookup_tied keeps.bond scope (fun _ _ => trivial) fun c listed =>
    tied_iff_alike.mpr (classCapabilities_alike keeps (lists c listed)))

/-- Looking up a type ends like itself. -/
theorem lookup_alike
    (looks : R.Looks accepts)
    (scope : Scope)
    (a : TypeForm) :
    Alike R (·.IsAccepted accepts) (lookup scope a) (lookup scope a) :=
  lookup_alike_of_lists looks.keeps scope fun c _ => looks.cases c

end Looking

/-- A bound is not used up by looking up. -/
theorem Regime.ending_looks : (Regime.ending Store).Looks fun _ => True where
  surface f _ := Regime.ending_allowsFaults Store f
  cases c := (classCases_alike Regime.ending_resolves c).within (fun _ _ => trivial) (fun _ _ _ _ => trivial)
    fun _ allowed => allowed
  notes _ _ _ := trivial
  remembers _ _ _ _ _ _ := trivial
  known _ _ _ _ _ _ _ _ := trivial
  declared _ _ _ _ _ := trivial

/-- Looking up comes to an end. -/
theorem lookup_ends
    (scope : Scope)
    (a : TypeForm)
    (s : Store) :
    ((lookup scope a).run s).1 ≠ .error .exhausted :=
  fun interrupted =>
    ((lookup_alike Regime.ending_looks scope a) s trivial).allows_run interrupted rfl

end SchemaProbe

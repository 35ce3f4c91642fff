import SchemaProbe.Proofs.Overwriting
import SchemaProbe.Proofs.Terminating

namespace SchemaProbe

/-!
# Faults are contained

What a decode program raises does not leave the description of its type, and a
request for something that is no type form does not reach the program that made
it.  As long as the hooks that list cases and describe schemas return, only the
type that is asked for can be at fault; a schema is also refused when a type on
the way describes itself by something else than a schema.
-/

open Step

/-! ## Hooks that return -/

/-- Whether a hook describes a schema. -/
def SchemaHook.isSchema : SchemaHook → Bool
  | .declared _ => true
  | _ => false

/-- Whether a schema hook returns something, be it a schema or not. -/
def SchemaHook.Returns (w : World) : SchemaHook → Prop
  | .declared _ => True
  | .other t => ∃ v reached, (t.resolve .strict).run w = (.ok v, reached)
  | .refused _ => False

/-- Whether a schema hook returns wherever finding out about types leads. -/
def World.Accepts (w : World) (hook : SchemaHook) : Prop :=
  ∀ reached, w.Reaches reached → hook.Returns reached

/-- Whether the hooks for cases and schemas return, those of the declared classes
and those of what is registered. -/
structure Store.HooksReturn (s : Store) : Prop where
  cases : ∀ w, s.world.Reaches w → ∀ c, ∃ values reached,
    (classCases c).run w = (.ok values, reached)
  declared : ∀ w, s.world.Reaches w → ∀ c hook, (w.hooks c).schema = some hook →
    s.world.Accepts hook
  registered : ∀ scope a caps, (s.registry scope).find? a = some caps →
    caps.IsAccepted s.world.Accepts

/-- What holds of the states that finding out about types leads to when hooks
return. -/
def Store.hooking (start : Store) (allowed : Interrupt → Prop) : Regime Store where
  holds s :=
    start.world.Reaches s.world ∧
      ∀ scope a caps, (s.registry scope).find? a = some caps →
        caps.IsAccepted start.world.Accepts
  allows := allowed

section

variable {start s : Store} {allowed : Interrupt → Prop}

/-- Neither the log nor the guard declares or registers anything. -/
theorem Store.hooking_beside
    (holds : (start.hooking allowed).holds s)
    (events : List Event)
    (guard : CycleGuard) :
    (start.hooking allowed).holds (s.beside events guard) :=
  ⟨holds.1, fun scope a caps found => holds.2 scope a caps (by rwa [beside_registry] at found)⟩

/-- Finding out about the declared classes registers nothing. -/
theorem Store.hooking_inWorld
    {find : Step World α}
    (finds : Alike start.world.reaching anything find find)
    (returns : ∀ w interrupt, start.world.Reaches w → (find.run w).1 = .error interrupt →
      allowed interrupt) :
    Alike (start.hooking allowed) anything (inWorld find) (inWorld find) := by
  intro s holds
  refine .of_run ⟨(finds s.world holds.1).holds_run, ?_⟩ (returns s.world · holds.1)
    fun _ _ => trivial
  intro scope a caps found
  exact holds.2 scope a caps (by cases scope <;> exact found)

/-- Changing a registry changes each registry that is asked in the same way or not at
all. -/
theorem Store.registry_changeRegistry_cases
    (s : Store)
    (scope other : Scope)
    (change : CapabilityRegistry → CapabilityRegistry) :
    (s.changeRegistry scope change).registry other = s.registry other ∨
      (s.changeRegistry scope change).registry other = change (s.registry other) := by
  cases owns : s.own <;> cases scope <;> cases other <;> simp [changeRegistry, registry, owns]

/-- Looking up finds types whose hooks return. -/
theorem Store.HooksReturn.looks
    (hooks : start.HooksReturn)
    (surface : ∀ f, f.kind = .surface → allowed (.fault f)) :
    (start.hooking allowed).Looks start.world.Accepts where
  surface := surface
  cases c := by
    refine hooking_inWorld (classCases_alike start.world.reaching_resolves c) ?_
    intro w interrupt reached interrupted
    obtain ⟨values, last, ran⟩ := hooks.cases w reached c
    rw [ran] at interrupted
    cases interrupted
  notes s events holds := hooking_beside holds events s.guard
  remembers s scope a caps holds accepted := by
    refine ⟨?_, fun other b known found => ?_⟩
    · have world : (s.changeRegistry scope fun r => r.remember a caps).world = s.world := by
        unfold changeRegistry
        split <;> rfl
      rw [world]
      exact holds.1
    · rcases registry_changeRegistry_cases s scope other fun r => r.remember a caps with
        same | changed
      · rw [same] at found
        exact holds.2 other b known found
      · rw [changed] at found
        by_cases isSame : b.identity = a.identity
        · rw [find?_remember_self _ _ isSame] at found
          cases found
          exact accepted
        · rw [find?_remember_of_ne _ _ isSame] at found
          exact holds.2 other b known found
  known s scope a caps holds found := holds.2 scope a caps found
  declared s c holds hook declares := hooks.declared s.world holds.1 c hook declares

/-- A state is one that finding out about its own types leads to. -/
theorem Store.HooksReturn.holds
    (hooks : start.HooksReturn)
    (events : List Event)
    (guard : CycleGuard) :
    (start.hooking allowed).holds (start.beside events guard) :=
  hooking_beside ⟨.start, hooks.registered⟩ events guard

/-- Whether an interrupt is the fault of something that is no type form. -/
def Interrupt.IsSurface : Interrupt → Prop
  | .fault f => f.kind = .surface
  | .exhausted => False

/-- Looking up raises nothing but that something is no type form. -/
theorem Store.HooksReturn.lookup_alike
    (hooks : start.HooksReturn)
    (a : TypeForm) :
    Alike (start.hooking Interrupt.IsSurface) (·.IsAccepted start.world.Accepts)
      (lookup .current a) (lookup .current a) :=
  SchemaProbe.lookup_alike (hooks.looks fun _ isSurface => isSurface) .current a

end

/-! ## What leaves a description -/

section

variable {s : Store} {a : TypeForm} {depth : Nat} {f : Fault}

/-- The regime in which nothing is known and everything is allowed. -/
def Regime.free (σ : Type) : Regime σ where
  holds _ := True
  allows _ := True

/-- Every step ends like itself when nothing is known and everything is allowed. -/
theorem Regime.free_alike (step : Step σ α) : Alike (free σ) anything step step :=
  fun _ _ => .of_run trivial (fun _ _ => trivial) fun _ _ => trivial

/-- Reading a type raises no fault, whatever its reader does. -/
theorem probeGuarded_faultless
    (nested : NestedProbe)
    (caps : Capabilities)
    (reader : Reader)
    (path : Path)
    (s : Store) :
    AlikeAt (Regime.free Store).faultless anything (probeGuarded nested caps reader path)
      (probeGuarded nested caps reader path) s := by
  have free {σ : Type} (step : Step (σ × Store) Value) (part : σ) (t : Store) :
      AlikeAt ((Regime.free Store).beside σ) anything step step (part, t) :=
    Regime.free_alike step (part, t) trivial
  have reads : Alike (Regime.free Store).faultless anything (probeReading nested caps reader path)
      (probeReading nested caps reader path) :=
    probeReading_alike (fun _ _ _ => trivial) (fun t _ => free _ _ t) fun t _ => free _ _ t
  exact probeGuarded_alikeAt trivial reads (fun _ _ _ _ => trivial)
    fun _ => ⟨⟨rfl, trivial⟩, fun _ _ => trivial⟩

/-- Probing a type raises exactly what looking it up raises. -/
theorem probe_fault_iff
    (depth : Nat)
    (path : Path) :
    ((probe (depth + 1) a path).run s).1 = .error (.fault f) ↔
      ((lookup .current a).run s).1 = .error (.fault f) := by
  cases found : (lookup .current a).run s with
  | mk outcome reached =>
      cases outcome with
      | error interrupt =>
          have probed : (probe (depth + 1) a path).run s = (.error interrupt, reached) :=
            run_bind_of_error found _
          simp [probed]
      | ok caps =>
          have looks : AlikeAt (Regime.free Store).faultless anything (lookup .current a)
              (lookup .current a) s :=
            .ok found found trivial trivial
          have probes : AlikeAt (Regime.free Store).faultless anything (probe (depth + 1) a path)
              (probe (depth + 1) a path) s :=
            probe_alikeAt (fun _ _ _ => trivial) looks fun caps reader reached events _ _ _ =>
              probeGuarded_faultless _ caps reader path _
          constructor
          · intro interrupted
            exact absurd (probes.allows_run interrupted).1 (by simp)
          · intro absent
            cases absent

/-- Describing a type raises exactly what looking it up raises. -/
theorem describeTo_fault_iff :
    ((describeTo (depth + 1) a).run s).1 = .error (.fault f) ↔
      ((lookup .current a).run s).1 = .error (.fault f) := by
  let begun := s.beside (s.events ++ [.probeStarted]) .empty
  obtain ⟨later, looked⟩ := lookup_ignoresEvents .current a s (s.events ++ [.probeStarted]) .empty
  have same : ((lookup .current a).run begun).1 = ((lookup .current a).run s).1 := by
    rw [looked]
  rw [← same, ← probe_fault_iff depth []]
  have describes : (describeTo (depth + 1) a).run s =
      (probe (depth + 1) a [] >>= fun found =>
        Step.note (.probeEnded found.1.kindName) >>= fun _ => pure found.1).run begun :=
    rfl
  rw [describes]
  cases probed : (probe (depth + 1) a []).run begun with
  | mk outcome reached =>
      cases outcome with
      | ok found =>
          rw [run_bind_of_ok probed]
          constructor
          · intro absent
            cases absent
          · intro absent
            cases absent
      | error interrupt =>
          rw [run_bind_of_error probed]
          simp

end

/-! ## Requests for what is no type form -/

/-- The shape that a request records for the shape of its type form. -/
def Request.shaped (request : Request T K) (shape : Shape) : Shape :=
  match request with
  | .decodeIfPresent _ _ => shape.optional true
  | _ => shape

/-- What a container records of a request: a shape under a key, as an element, or as
the single value. -/
def Recording.received
    (r : Recording)
    (h : Handle)
    (key : Option String)
    (shape : Shape) :
    Recording :=
  match h.role, key with
  | .keyed, some name => r.change h.slot (·.put name (.shape shape))
  | .unkeyed, _ => r.change h.slot (·.push (.shape shape))
  | .single, _ => r.change h.slot (·.setValue shape)
  | _, _ => r

section

variable {s : Store} {a : TypeForm} {depth : Nat} {f : Fault}

/-- A nested type form that stands for no type is described as unconstrained. -/
theorem nestedProbe_surface
    (depth : Nat)
    (failed : ((lookup .current a).run s).1 = .error (.fault f))
    (isSurface : f.kind = .surface)
    (path : Path) :
    ∃ reached, (nestedProbe (probe (depth + 1)) a path).run s =
      (.ok (.any none, .null), reached) := by
  have raised := (probe_fault_iff depth path).mpr failed
  have attempted : (Step.attempt (probe (depth + 1) a path)).run s =
      (.ok (.error f), ((probe (depth + 1) a path).run s).2) := by
    rw [run_attempt]
    cases probed : (probe (depth + 1) a path).run s with
    | mk outcome reached =>
        rw [probed] at raised
        obtain rfl : outcome = _ := raised
        rfl
  rw [nestedProbe, Step.recover, run_bind_of_ok attempted]
  simp only [isSurface, beq_self_eq_true, if_true]
  exact ⟨_, rfl⟩

/-- What stands in for a type form that stands for no type is null. -/
theorem placeholderOf_surface
    (failed : ((lookup .current a).run s).1 = .error (.fault f))
    (isSurface : f.kind = .surface) :
    ∃ reached, (placeholderOf a).run s = (.ok .null, reached) := by
  have attempted : (Step.attempt (lookup .current a)).run s =
      (.ok (.error f), ((lookup .current a).run s).2) := by
    rw [run_attempt]
    cases found : (lookup .current a).run s with
    | mk outcome reached =>
        rw [found] at failed
        obtain rfl : outcome = _ := failed
        rfl
  rw [placeholderOf, run_bind_of_ok attempted]
  simp only [isSurface, beq_self_eq_true, if_true]
  exact ⟨_, rfl⟩

/-- A request for what is no type form is answered by null, and an unconstrained
shape without a type is recorded for it. -/
theorem recorder_surface
    {h : Handle}
    {request : Request TypeForm String}
    (isForm : request.form? = some a)
    (failed : ((lookup .current a).run s).1 = .error (.fault f))
    (isSurface : f.kind = .surface)
    (known : request.isKnownTo h.role = true)
    (fits : request.fits h.role = true)
    (r : Recording) :
    ∃ reached, ((recorder (nestedProbe (probe (depth + 1)))).ask h request).run (r, s) =
      (.ok .null, r.received h request.key? (request.shaped (.any none)), reached) := by
  have nested (path : Path) := nestedProbe_surface depth failed isSurface path
  obtain ⟨role, path, relative, slot⟩ := h
  cases request with
  | decode b key =>
      cases isForm
      cases role with
      | decoder => cases known
      | keyed =>
          obtain ⟨name, rfl⟩ := Option.isSome_iff_exists.mp fits
          obtain ⟨reached, ran⟩ := nested (path ++ [.key name])
          exact ⟨reached, run_bind_of_ok (run_shared_of_ok ran r) _⟩
      | unkeyed =>
          obtain rfl := Option.isNone_iff_eq_none.mp fits
          obtain ⟨reached, ran⟩ := nested (path ++ [.index (r.sizeOf slot)])
          exact ⟨reached, run_bind_of_ok (run_shared_of_ok ran r) _⟩
      | single =>
          obtain rfl := Option.isNone_iff_eq_none.mp fits
          obtain ⟨reached, ran⟩ := nested path
          exact ⟨reached, run_bind_of_ok (run_shared_of_ok ran r) _⟩
  | decodeIfPresent b key =>
      cases isForm
      cases role with
      | decoder => cases known
      | keyed =>
          obtain ⟨name, rfl⟩ := Option.isSome_iff_exists.mp fits
          obtain ⟨reached, ran⟩ := nested (path ++ [.key name])
          exact ⟨reached, run_bind_of_ok (run_shared_of_ok ran r) _⟩
      | unkeyed =>
          obtain rfl := Option.isNone_iff_eq_none.mp fits
          obtain ⟨reached, ran⟩ := nested (path ++ [.index (r.sizeOf slot)])
          exact ⟨reached, run_bind_of_ok (run_shared_of_ok ran r) _⟩
      | single => cases known
  | _ => cases isForm

/-- A request for what is no type form is answered by null when keys are checked,
too. -/
theorem keyChecker_surface
    {h : Handle}
    {request : Request TypeForm String}
    (isForm : request.form? = some a)
    (failed : ((lookup .current a).run s).1 = .error (.fault f))
    (isSurface : f.kind = .surface)
    (known : request.isKnownTo h.role = true)
    (fits : request.fits h.role = true)
    (c : KeyCheck) :
    ∃ later reached, ((keyChecker placeholderOf).ask h request).run (c, s) =
      (.ok .null, later, reached) := by
  obtain ⟨reached, ran⟩ := placeholderOf_surface failed isSurface
  obtain ⟨role, path, relative, slot⟩ := h
  cases request with
  | decode b key =>
      cases isForm
      cases role with
      | decoder => cases known
      | keyed =>
          obtain ⟨name, rfl⟩ := Option.isSome_iff_exists.mp fits
          exact ⟨c, reached, run_bind_of_ok (run_shared_of_ok ran c) _⟩
      | unkeyed =>
          obtain rfl := Option.isNone_iff_eq_none.mp fits
          exact ⟨c.advance slot, reached, run_bind_of_ok (run_shared_of_ok ran _) _⟩
      | single =>
          obtain rfl := Option.isNone_iff_eq_none.mp fits
          exact ⟨c, reached, run_bind_of_ok (run_shared_of_ok ran c) _⟩
  | decodeIfPresent b key =>
      cases role with
      | decoder => cases known
      | keyed =>
          obtain ⟨name, rfl⟩ := Option.isSome_iff_exists.mp fits
          exact ⟨c, s, rfl⟩
      | unkeyed =>
          obtain rfl := Option.isNone_iff_eq_none.mp fits
          exact ⟨c.advance slot, s, rfl⟩
      | single => cases known
  | _ => cases isForm

end

/-! ## What synthesis visits -/

/-- The schema hooks of a node and of the nodes that are visited below it.  A date
or a type that describes its own schema is not looked into. -/
def surveyNode
    (type : Option TypeForm)
    (below : Step Store (List SchemaHook)) :
    Step Store (List SchemaHook) := do
  match ← lookupOptional type with
  | none => below
  | some caps =>
    if caps.isDate then pure []
    else
      match caps.schema with
      | some hook => pure [hook]
      | none => below

mutual

/-- The schema hooks of the visited nodes of a shape. -/
def Shape.survey (given : Option TypeForm) : Shape → Step Store (List SchemaHook)
  | .single h _ => surveyNode (h.type.or given) (pure [])
  | .keyed h true fields => surveyNode (h.type.or given) (Shape.surveyFields fields)
  | .keyed h false [] => surveyNode (h.type.or given) (pure [])
  | .keyed h false ((_, first) :: _) => surveyNode (h.type.or given) (first.survey none)
  | .unkeyed h element => surveyNode (h.type.or given) (element.survey none)
  | .recursive h marker =>
    surveyNode (h.type.or given) do
      let _ ← lookup? marker
      pure []
  | .unconstrained h => surveyNode (h.type.or given) (pure [])

/-- The schema hooks of the visited nodes of fields. -/
def Shape.surveyFields : List (String × Shape) → Step Store (List SchemaHook)
  | [] => pure []
  | (_, s) :: rest => do
    let hooks ← s.survey none
    pure (hooks ++ (← Shape.surveyFields rest))

end

/-- The schema hooks of visited nodes decide how looking up their types ends: with
something, if all describe schemas, and else with the fault of one that does not. -/
inductive SurveyedAt
    (R : Regime Store)
    (find : Step Store κ)
    (survey : Step Store (List SchemaHook))
    (s : Store) :
    Prop
  | schemas {k : κ} {hooks : List SchemaHook} {reached : Store} :
      survey.run s = (.ok hooks, reached) → R.holds reached → find.run s = (.ok k, reached) →
        (∀ hook ∈ hooks, hook.isSchema = true) → SurveyedAt R find survey s
  | refused {hooks : List SchemaHook} {reached last : Store} {name type : String}
      {hook : SchemaHook} :
      survey.run s = (.ok hooks, reached) → R.holds reached →
        find.run s = (.error (.fault (.notASchema name type)), last) →
          hook ∈ hooks → hook.isSchema = false → SurveyedAt R find survey s

/-- Schema hooks decide how looking up ends after something else was looked up. -/
theorem SurveyedAt.after
    {R : Regime Store}
    {first : Step Store α}
    {find : α → Step Store κ}
    {survey : α → Step Store (List SchemaHook)}
    {a : α}
    {s reached : Store}
    (surveyedAt : SurveyedAt R (find a) (survey a) reached)
    (ran : first.run s = (.ok a, reached)) :
    SurveyedAt R (first >>= find) (first >>= survey) s := by
  cases surveyedAt with
  | schemas surveyRun reachedHolds findRun areSchemas =>
      exact .schemas ((run_bind_of_ok ran survey).trans surveyRun) reachedHolds
        ((run_bind_of_ok ran find).trans findRun) areSchemas
  | refused surveyRun reachedHolds findRun member isOther =>
      exact .refused ((run_bind_of_ok ran survey).trans surveyRun) reachedHolds
        ((run_bind_of_ok ran find).trans findRun) member isOther

/-- Whether schema hooks decide how looking up types ends wherever the regime
holds. -/
def Surveyed
    (R : Regime Store)
    (find : Step Store κ)
    (survey : Step Store (List SchemaHook)) :
    Prop :=
  ∀ s, R.holds s → SurveyedAt R find survey s

namespace Surveyed

variable {R : Regime Store} {survey : Step Store (List SchemaHook)}

/-- Where nothing is looked up there are no hooks. -/
theorem pure (k : κ) : Surveyed R (Pure.pure k) (Pure.pure []) :=
  fun s holds => .schemas (run_pure _ s) holds (run_pure _ s) (List.forall_mem_nil _)

/-- Hooks decide alike about what is made of what is looked up. -/
theorem map
    {find : Step Store κ}
    (surveyed : Surveyed R find survey)
    (wrap : κ → ι) :
    Surveyed R (find >>= fun k => Pure.pure (wrap k)) survey := by
  intro s holds
  cases surveyed s holds with
  | schemas surveyRun reachedHolds findRun areSchemas =>
      exact .schemas surveyRun reachedHolds (run_bind_of_ok findRun _) areSchemas
  | refused surveyRun reachedHolds findRun member isOther =>
      exact .refused surveyRun reachedHolds (run_bind_of_error findRun _) member isOther

/-- Hooks decide about what is looked up one after the other. -/
theorem cons
    {find : Step Store κ}
    {findRest : Step Store ι}
    {surveyRest : Step Store (List SchemaHook)}
    (surveyed : Surveyed R find survey)
    (restSurveyed : Surveyed R findRest surveyRest)
    (wrap : κ → ι → ν) :
    Surveyed R (find >>= fun k => findRest >>= fun others => Pure.pure (wrap k others))
      (survey >>= fun hooks => surveyRest >>= fun more => Pure.pure (hooks ++ more)) := by
  intro s holds
  cases surveyed s holds with
  | schemas surveyRun reachedHolds findRun areSchemas =>
      rename_i k hooks reached
      cases restSurveyed reached reachedHolds with
      | schemas restRun lastHolds restFind moreSchemas =>
          refine .schemas ((run_bind_of_ok surveyRun _).trans (run_bind_of_ok restRun _)) lastHolds
            ((run_bind_of_ok findRun _).trans (run_bind_of_ok restFind _)) ?_
          exact List.forall_mem_append.mpr ⟨areSchemas, moreSchemas⟩
      | refused restRun lastHolds restFind member isOther =>
          exact .refused ((run_bind_of_ok surveyRun _).trans (run_bind_of_ok restRun _)) lastHolds
            ((run_bind_of_ok findRun _).trans (run_bind_of_error restFind _))
            (List.mem_append_right _ member) isOther
  | refused surveyRun reachedHolds findRun member isOther =>
      rename_i hooks reached last name type hook
      -- the rest is not looked up any more, but it has hooks all the same
      obtain ⟨more, final, restRun, finalHolds⟩ : ∃ more final,
          surveyRest.run reached = (.ok more, final) ∧ R.holds final := by
        cases restSurveyed reached reachedHolds with
        | schemas restRun finalHolds _ _ => exact ⟨_, _, restRun, finalHolds⟩
        | refused restRun finalHolds _ _ _ => exact ⟨_, _, restRun, finalHolds⟩
      exact .refused ((run_bind_of_ok surveyRun _).trans (run_bind_of_ok restRun _)) finalHolds
        (run_bind_of_error findRun _) (List.mem_append_left _ member) isOther

end Surveyed

section

variable {start : Store} {config : SchemaConfig}

/-- Whether an interrupt is none at all. -/
def Interrupt.IsAbsent (_ : Interrupt) : Prop :=
  False

/-- Looking up a type that there may be finds types whose hooks return, and is not
interrupted. -/
theorem Store.HooksReturn.lookup?_alike
    (hooks : start.HooksReturn)
    (a : TypeForm) :
    Alike (start.hooking Interrupt.IsAbsent)
      (fun record => ∀ caps, record = some caps → caps.IsAccepted start.world.Accepts)
      (lookup? a) (lookup? a) := by
  intro s holds
  cases hooks.lookup_alike a s holds with
  | @ok caps reached ran _ reachedHolds accepted =>
      have looked : (lookup? a).run s = (.ok (some caps), reached) := by
        have attempted := run_attempt (lookup .current a) s
        rw [ran] at attempted
        exact run_bind_of_ok attempted _
      refine .ok looked looked reachedHolds ?_
      rintro _ ⟨rfl⟩
      exact accepted
  | @error interrupt reached ran _ reachedHolds isSurface =>
      cases interrupt with
      | exhausted => cases isSurface
      | fault f =>
          have isForeign : f.kind = .surface := isSurface
          have looked : (lookup? a).run s = (.ok none, reached) := by
            have attempted := run_attempt (lookup .current a) s
            rw [ran] at attempted
            rw [lookup?, run_bind_of_ok attempted]
            simp [isForeign]
          exact .ok looked looked reachedHolds fun _ absent => nomatch absent

/-- The type of a node is looked up without an interrupt. -/
theorem Store.HooksReturn.lookupOptional_alike
    (hooks : start.HooksReturn)
    (type : Option TypeForm) :
    Alike (start.hooking Interrupt.IsAbsent)
      (fun record => ∀ caps, record = some caps → caps.IsAccepted start.world.Accepts)
      (lookupOptional type) (lookupOptional type) := by
  cases type with
  | none => exact .pure fun _ absent => nomatch absent
  | some a => exact hooks.lookup?_alike a

/-- The schema hook of a node, or those below it, decide how looking it up ends. -/
theorem Store.HooksReturn.surveyed_node
    (hooks : start.HooksReturn)
    {structural : Option Capabilities → Step Store KnownShape}
    {below : Step Store (List SchemaHook)}
    (surveyed : ∀ record, Surveyed (start.hooking Interrupt.IsAbsent) (structural record) below)
    (type : Option TypeForm) :
    Surveyed (start.hooking Interrupt.IsAbsent) (knowNode config type structural)
      (surveyNode type below) := by
  intro s holds
  cases hooks.lookupOptional_alike type s holds with
  | error _ _ _ absent => cases absent
  | @ok record reached ran _ reachedHolds accepted =>
      rw [knowNode, surveyNode]
      refine .after ?_ ran
      cases record with
      | none => exact surveyed none reached reachedHolds
      | some caps =>
          dsimp only
          split
          · exact .schemas rfl reachedHolds rfl (List.forall_mem_nil _)
          · cases declares : caps.schema with
            | none => exact surveyed (some caps) reached reachedHolds
            | some hook =>
                have returns := accepted caps rfl hook declares reached.world reachedHolds.1
                cases hook with
                | declared schema =>
                    have isSchema : ∀ hook ∈ [SchemaHook.declared schema], hook.isSchema = true :=
                      List.forall_mem_singleton.mpr rfl
                    exact .schemas rfl reachedHolds rfl isSchema
                | other t =>
                    obtain ⟨v, w, resolved⟩ := returns
                    have refuses : (inWorld (SchemaHook.evaluate caps.name (.other t))).run reached =
                        (.error (.fault (.notASchema caps.name v.classOf.name)),
                          { reached with world := w }) := by
                      rw [Step.inWorld, run_within, SchemaHook.evaluate, run_bind_of_ok resolved]
                      rfl
                    have isOther : (SchemaHook.other t).isSchema = false := rfl
                    exact .refused rfl reachedHolds (run_bind_of_error refuses _)
                      List.mem_cons_self isOther
                | refused message => cases returns

mutual

/-- The schema hooks of the visited nodes decide how looking up their types
ends. -/
theorem Shape.know_surveyed
    (hooks : start.HooksReturn)
    (given : Option TypeForm)
    (shape : Shape) :
    Surveyed (start.hooking Interrupt.IsAbsent) (shape.know config given) (shape.survey given) := by
  cases shape with
  | single h kind =>
      rw [Shape.know, Shape.survey]
      exact hooks.surveyed_node (fun record => .pure _) _
  | keyed h isFixed fields =>
      cases isFixed with
      | true =>
          rw [Shape.know, Shape.survey]
          exact hooks.surveyed_node
            (fun record => (Shape.knowFields_surveyed hooks fields).map _) _
      | false =>
          cases fields with
          | nil =>
              rw [Shape.know, Shape.survey]
              exact hooks.surveyed_node (fun record => .pure _) _
          | cons field rest =>
              obtain ⟨name, first⟩ := field
              rw [Shape.know, Shape.survey]
              exact hooks.surveyed_node
                (fun record => (Shape.know_surveyed hooks none first).map _) _
  | unkeyed h element =>
      rw [Shape.know, Shape.survey]
      exact hooks.surveyed_node
        (fun record => (Shape.know_surveyed hooks none element).map _) _
  | recursive h marker =>
      rw [Shape.know, Shape.survey]
      refine hooks.surveyed_node (fun record s holds => ?_) _
      cases hooks.lookup?_alike marker s holds with
      | error _ _ _ absent => cases absent
      | @ok caps reached ran _ reachedHolds _ =>
          exact .after (.schemas rfl reachedHolds rfl (List.forall_mem_nil _)) ran
  | unconstrained h =>
      rw [Shape.know, Shape.survey]
      exact hooks.surveyed_node (fun record => .pure _) _
termination_by structural shape

/-- The schema hooks of the visited nodes of fields decide how looking up their
types ends. -/
theorem Shape.knowFields_surveyed
    (hooks : start.HooksReturn)
    (fields : List (String × Shape)) :
    Surveyed (start.hooking Interrupt.IsAbsent) (Shape.knowFields config fields)
      (Shape.surveyFields fields) := by
  cases fields with
  | nil => exact .pure _
  | cons field rest =>
      obtain ⟨name, first⟩ := field
      rw [Shape.knowFields, Shape.surveyFields]
      exact (Shape.know_surveyed hooks none first).cons (Shape.knowFields_surveyed hooks rest) _
termination_by structural fields

end

/-- Synthesis is refused exactly if the hook of a visited node describes something
else than a schema. -/
theorem synthesize_surveyed
    {s : Store}
    (hooks : start.HooksReturn)
    (holds : (start.hooking Interrupt.IsAbsent).holds s)
    (config : SchemaConfig)
    (shape : Shape)
    (given : Option TypeForm)
    (registry : SchemaRegistry) :
    ∃ found, ((shape.survey given).run s).1 = .ok found ∧
      (((∀ hook ∈ found, hook.isSchema = true) ∧
          ∃ schema, ((synthesize config shape given).run (registry, s)).1 = .ok schema) ∨
        ((∃ hook ∈ found, hook.isSchema = false) ∧
          ∃ name type, ((synthesize config shape given).run (registry, s)).1 =
            .error (.fault (.notASchema name type)))) := by
  have builtFrom :=
    shape.synthesize_builtFrom config given ⟨registry, []⟩ s (s.events ++ [.synthesisStarted])
  have surveyed : Surveyed (start.hooking Interrupt.IsAbsent) (shape.know config given)
      (shape.survey given) :=
    Shape.know_surveyed hooks given shape
  have runs := synthesize_run config shape given registry s
  cases surveyed s holds with
  | schemas surveyRun _ findRun areSchemas =>
      rw [findRun] at builtFrom
      obtain ⟨later, ended⟩ := builtFrom
      rw [ended] at runs
      exact ⟨_, congrArg Prod.fst surveyRun, .inl ⟨areSchemas, _, congrArg Prod.fst runs⟩⟩
  | refused surveyRun _ findRun member isOther =>
      rw [findRun] at builtFrom
      obtain ⟨σ, later, ended⟩ := builtFrom
      rw [ended] at runs
      exact ⟨_, congrArg Prod.fst surveyRun,
        .inr ⟨⟨_, member, isOther⟩, _, _, congrArg Prod.fst runs⟩⟩

end

/-! ## Where a description leads -/

/-- Whether an interrupt is any at all. -/
def Interrupt.IsAny (_ : Interrupt) : Prop :=
  True

section

variable {start : Store}

/-- Probing keeps hooks returning. -/
theorem Store.HooksReturn.survives
    (hooks : start.HooksReturn) :
    (start.hooking Interrupt.IsAny).Survives start.world start.world.Accepts where
  interrupts _ := trivial
  looks := hooks.looks fun _ _ => trivial
  besides _ events guard holds := hooking_beside holds events guard
  finds _ finds := hooking_inWorld finds fun _ _ _ _ => trivial

/-- What survives probing survives describing a type. -/
theorem Regime.Persists.describeTo
    {R : Regime Store}
    {start : World}
    (persists : R.Persists start)
    (depth : Nat)
    (a : TypeForm) :
    Alike R anything (SchemaProbe.describeTo depth a) (SchemaProbe.describeTo depth a) := by
  intro s holds
  refine .bind_of_run ?_ (run_update _ s) (run_update _ s)
  refine .bind_of_run ?_ (run_update _ _) (run_update _ _)
  refine (persists.probe depth a [] _ (persists.besides s _ _ holds)).bind
    fun found reached reachedHolds _ => ?_
  exact .ok rfl rfl (persists.besides reached _ reached.guard reachedHolds) trivial

/-- Describing a type leads to states in which hooks return. -/
theorem Store.HooksReturn.describeTo_alike
    (hooks : start.HooksReturn)
    (depth : Nat)
    (a : TypeForm) :
    Alike (start.hooking Interrupt.IsAny) anything (describeTo depth a) (describeTo depth a) :=
  hooks.survives.persists.describeTo depth a

end

/-! ## Readers that terminate -/

/-- Whether a reader comes to an end in what can be found, if the types that it asks
for do. -/
structure Reader.Terminates
    (reader : Reader)
    (start : Store)
    (root : TypeForm) :
    Prop where
  recording : ∀ nested : NestedProbe,
    (∀ a path s, start.Finds root (.form a) → start.Finds root (.state s) →
      ((nested a path).run s).1 ≠ .error .exhausted ∧
        start.Finds root (.state ((nested a path).run s).2)) →
      ∀ path s, start.Finds root (.state s) →
        ((reader.run (recorder nested) (Recorder.decoder path)).run (.start, s)).1 ≠
          .error .exhausted
  checking : ∀ s, start.Finds root (.state s) →
    ((reader.run (keyChecker placeholderOf) (Recorder.decoder [])).run (.start, s)).1 ≠
      .error .exhausted

section

variable {start : Store} {root : TypeForm} {above : List Key}

/-- What ends like something that comes to an end does so like itself. -/
theorem Store.expanding_of_ends
    {good : α → Prop}
    {step other : Step (σ × Store) α}
    {s : σ × Store}
    (alike : AlikeAt ((start.expanding root Interrupt.IsAny above).beside σ) good step other s)
    (ends : (other.run s).1 ≠ .error .exhausted) :
    AlikeAt ((start.expanding root Interrupt.IsFault above).beside σ) good step step s := by
  cases alike with
  | ok firstRun _ holds isGood => exact .ok firstRun firstRun holds isGood
  | error firstRun secondRun holds _ =>
      refine .error firstRun firstRun holds fun isExhausted => ends ?_
      rw [secondRun, isExhausted]

open Classical in
/-- Probes nested types where something holds, and fails elsewhere. -/
noncomputable def NestedProbe.restrict
    (nested : NestedProbe)
    (holds : Store → Prop) :
    NestedProbe :=
  fun a path =>
    ⟨fun s => if holds s then (nested a path).run s else (.error (.fault .endlessDelegation), s)⟩

/-- Types whose readers terminate are read like themselves. -/
theorem Store.readsAlike_of_terminates
    (terminates : ∀ reader, start.Finds root (.reader reader) → reader.Terminates start root) :
    start.ReadsAlike root 0 := by
  intro reader isRead above depth caps path nested
  have faults : (start.expanding root Interrupt.IsAny above).AllowsFaults := fun _ => trivial
  have endless (reader : Reader) (_ : start.Finds root (.reader reader))
      (_ : .endOfSequence ∈ reader.needs) : Interrupt.IsAny .exhausted :=
    trivial
  let holds : Store → Prop := (start.expanding root Interrupt.IsFault above).holds
  -- where types are not probed alike, a nested probe that fails stands in for them
  let restricted : NestedProbe := NestedProbe.restrict (nestedProbe (probe depth)) holds
  have run_restricted {a : TypeForm} {path : Path} {s : Store} (sHolds : holds s) :
      (restricted a path).run s = (nestedProbe (probe depth) a path).run s :=
    if_pos sHolds
  have alike : NestedAlike (start.expanding root Interrupt.IsAny above)
      (fun a => start.Finds root (.form a)) (nestedProbe (probe depth)) restricted := by
    intro a found path s sHolds
    cases nested a found path s sHolds with
    | ok firstRun _ reachedHolds _ =>
        exact .ok firstRun ((run_restricted sHolds).trans firstRun) reachedHolds trivial
    | error firstRun _ reachedHolds _ =>
        exact .error firstRun ((run_restricted sHolds).trans firstRun) reachedHolds trivial
  have ends (a : TypeForm) (path : Path) (s : Store) (found : start.Finds root (.form a))
      (isFound : start.Finds root (.state s)) :
      ((restricted a path).run s).1 ≠ .error .exhausted ∧
        start.Finds root (.state ((restricted a path).run s).2) := by
    by_cases sHolds : holds s
    · have nestedAlike := nested a found path s sHolds
      rw [run_restricted sHolds]
      exact ⟨fun interrupted => nestedAlike.allows_run interrupted rfl, nestedAlike.holds_run.1⟩
    · have failed : (restricted a path).run s = (.error (.fault .endlessDelegation), s) :=
        if_neg sHolds
      rw [failed]
      exact ⟨by simp, isFound⟩
  refine probeReading_alike finding_notes (fun s sHolds => ?_) fun s sHolds => ?_
  · exact expanding_of_ends
      (finding_recorder faults endless alike isRead path (.start, s) sHolds)
      ((terminates reader isRead).recording restricted ends path s sHolds.1)
  · exact expanding_of_ends (finding_keyChecker faults endless isRead (.start, s) sHolds)
      ((terminates reader isRead).checking s sHolds.1)

/-- Readers that neither loop to the end of a sequence nor delegate terminate. -/
theorem Reader.terminates_of_bounded
    {reader : Reader}
    (bounded : ∀ other, start.Finds root (.reader other) → other.isBounded = true)
    (isRead : start.Finds root (.reader reader)) :
    reader.Terminates start root := by
  have endless (other : Reader) (otherRead : start.Finds root (.reader other))
      (unbounded : .endOfSequence ∈ other.needs) : Interrupt.IsFault .exhausted :=
    nomatch List.all_eq_true.mp (bounded other otherRead) _ unbounded
  have faults : (start.finding root Interrupt.IsFault fun _ => True).AllowsFaults :=
    Store.finding_allowsFaults
  constructor
  · intro nested ends path s found
    have alike : NestedAlike (start.finding root Interrupt.IsFault fun _ => True)
        (fun a => start.Finds root (.form a)) nested nested := by
      intro a isForm path t holds
      obtain ⟨isEnded, isFound⟩ := ends a path t isForm holds.1
      refine .of_run ⟨isFound, trivial⟩ ?_ fun _ _ => trivial
      rintro _ interrupted rfl
      exact isEnded interrupted
    intro interrupted
    exact (Store.finding_recorder faults endless alike isRead path (.start, s)
      ⟨found, trivial⟩).allows_run interrupted rfl
  · intro s found interrupted
    exact (Store.finding_keyChecker faults endless isRead (.start, s)
      ⟨found, trivial⟩).allows_run interrupted rfl

end

/-! ## Errors are contained -/

/-- The schema of a type, probed to a depth and synthesised into a registry. -/
def schemaTo
    (depth : Nat)
    (config : SchemaConfig)
    (a : TypeForm) :
    Step (SchemaRegistry × Store) Schema := do
  let shape ← Step.shared (describeTo depth a)
  synthesize config shape (some a)

section

variable {s : Store} {a : TypeForm} {keys : List Key} {depth : Nat}

/-- A type that can be looked up is described. -/
theorem exists_shape_of_lookup
    {caps : Capabilities}
    (finite : ∀ key, s.Finds a (.key key) → key ∈ keys)
    (terminates : ∀ reader, s.Finds a (.reader reader) → reader.Terminates s a)
    (deep : keys.length < depth)
    (found : ((lookup .current a).run s).1 = .ok caps) :
    ∃ shape reached, (describeTo depth a).run s = (.ok shape, reached) := by
  obtain ⟨more, rfl⟩ := Nat.exists_eq_add_of_lt deep
  cases described : (describeTo (keys.length + more + 1) a).run s with
  | mk outcome reached =>
      cases outcome with
      | ok shape => exact ⟨shape, reached, rfl⟩
      | error interrupt =>
          cases interrupt with
          | fault f =>
              have failed := describeTo_fault_iff.mp (congrArg Prod.fst described)
              rw [found] at failed
              cases failed
          | exhausted =>
              have ends := describeTo_alikeAt finite (Store.readsAlike_of_terminates terminates) deep
              exact absurd rfl (ends.allows_run (congrArg Prod.fst described))

/-- Looking up finds something, or that something is no type form. -/
theorem Store.HooksReturn.lookup_outcomes
    (hooks : s.HooksReturn)
    (a : TypeForm) :
    (∃ caps, ((lookup .current a).run s).1 = .ok caps) ∨
      ∃ f, f.kind = .surface ∧ ((lookup .current a).run s).1 = .error (.fault f) := by
  cases hooks.lookup_alike a s (hooks.holds s.events s.guard) with
  | ok ran _ _ _ => exact .inl ⟨_, congrArg Prod.fst ran⟩
  | @error interrupt _ ran _ _ isSurface =>
      cases interrupt with
      | fault f => exact .inr ⟨f, isSurface, congrArg Prod.fst ran⟩
      | exhausted => cases isSurface

/-- A type that cannot be described has no schema. -/
theorem schemaTo_of_fault
    {f : Fault}
    (raised : ((describeTo depth a).run s).1 = .error (.fault f))
    (config : SchemaConfig)
    (registry : SchemaRegistry) :
    ((schemaTo depth config a).run (registry, s)).1 = .error (.fault f) := by
  have described : (Step.shared (describeTo depth a)).run (registry, s) =
      (.error (.fault f), registry, ((describeTo depth a).run s).2) :=
    Prod.ext raised rfl
  exact congrArg Prod.fst (run_bind_of_error described _)

/-- The schema of a type that is described is what its shape gives. -/
theorem schemaTo_of_shape
    {shape : Shape}
    {reached : Store}
    (described : (describeTo depth a).run s = (.ok shape, reached))
    (config : SchemaConfig)
    (registry : SchemaRegistry) :
    (schemaTo depth config a).run (registry, s) =
      (synthesize config shape (some a)).run (registry, reached) :=
  run_bind_of_ok (run_shared_of_ok described registry) _

/-- Errors are contained, as long as hooks for cases and schemas return and decode
programs terminate, which may raise anything: describing a type raises exactly what
looking it up raises, that it is no type form, and otherwise there is a shape; a
request for what is no type form is answered by null in both passes, and an
unconstrained shape without a type is recorded for it; and deriving a schema raises
nothing more but that some visited type describes itself by something else than a
schema. -/
theorem describe_contains_faults
    (hooks : s.HooksReturn)
    (finite : ∀ key, s.Finds a (.key key) → key ∈ keys)
    (terminates : ∀ reader, s.Finds a (.reader reader) → reader.Terminates s a)
    (deep : keys.length < depth) :
    (∀ f, ((describeTo depth a).run s).1 = .error (.fault f) ↔
        f.kind = .surface ∧ ((lookup .current a).run s).1 = .error (.fault f)) ∧
      ((∀ f, f.kind = .surface → ((lookup .current a).run s).1 ≠ .error (.fault f)) →
        ∃ shape, ((describeTo depth a).run s).1 = .ok shape) ∧
      (∀ t b f h (request : Request TypeForm String), request.form? = some b →
        ((lookup .current b).run t).1 = .error (.fault f) → f.kind = .surface →
        request.isKnownTo h.role = true → request.fits h.role = true →
          (∀ nesting r, ∃ reached,
            ((recorder (nestedProbe (probe (nesting + 1)))).ask h request).run (r, t) =
              (.ok .null, r.received h request.key? (request.shaped (.any none)), reached)) ∧
            ∀ c, ∃ later reached, ((keyChecker placeholderOf).ask h request).run (c, t) =
              (.ok .null, later, reached)) ∧
      ∀ config registry,
        (∃ f, f.kind = .surface ∧ ((lookup .current a).run s).1 = .error (.fault f) ∧
            ((schemaTo depth config a).run (registry, s)).1 = .error (.fault f)) ∨
          ∃ shape reached found, (describeTo depth a).run s = (.ok shape, reached) ∧
            ((shape.survey (some a)).run reached).1 = .ok found ∧
            (((∀ hook ∈ found, hook.isSchema = true) ∧
                ∃ schema, ((schemaTo depth config a).run (registry, s)).1 = .ok schema) ∨
              ((∃ hook ∈ found, hook.isSchema = false) ∧
                ∃ name type, ((schemaTo depth config a).run (registry, s)).1 =
                  .error (.fault (.notASchema name type)))) := by
  have surface {f : Fault} (failed : ((lookup .current a).run s).1 = .error (.fault f)) :
      f.kind = .surface :=
    (hooks.lookup_alike a s (hooks.holds s.events s.guard)).allows_run failed
  have raises (f : Fault) : ((describeTo depth a).run s).1 = .error (.fault f) ↔
      ((lookup .current a).run s).1 = .error (.fault f) := by
    obtain ⟨more, rfl⟩ := Nat.exists_eq_add_of_lt deep
    exact describeTo_fault_iff
  have outcomes := hooks.lookup_outcomes a
  refine ⟨fun f => ⟨fun raised => ⟨surface ((raises f).mp raised), (raises f).mp raised⟩,
    fun failed => (raises f).mpr failed.2⟩, fun isForm => ?_, ?_, fun config registry => ?_⟩
  · rcases outcomes with ⟨caps, found⟩ | ⟨f, isSurface, failed⟩
    · obtain ⟨shape, reached, described⟩ := exists_shape_of_lookup finite terminates deep found
      exact ⟨shape, congrArg Prod.fst described⟩
    · exact absurd failed (isForm f isSurface)
  · intro t b f h request isForm failed isSurface known fits
    exact ⟨fun nesting r => recorder_surface isForm failed isSurface known fits r,
      fun c => keyChecker_surface isForm failed isSurface known fits c⟩
  · rcases outcomes with ⟨caps, found⟩ | ⟨f, isSurface, failed⟩
    · obtain ⟨shape, reached, described⟩ := exists_shape_of_lookup finite terminates deep found
      refine .inr ⟨shape, reached, ?_⟩
      have reachedHolds : (s.hooking Interrupt.IsAny).holds reached := by
        have holds := (hooks.describeTo_alike depth a s (hooks.holds s.events s.guard)).holds_run
        rwa [described] at holds
      obtain ⟨found, surveyed, ends⟩ := synthesize_surveyed hooks reachedHolds config shape (some a)
        registry
      rw [schemaTo_of_shape described config registry]
      exact ⟨found, described, surveyed, ends⟩
    · exact .inl ⟨f, isSurface, failed, schemaTo_of_fault ((raises f).mpr failed) config registry⟩

end

/-! ## A class that decodes itself and fails -/

/-- The hooks of a declared class are those of its record, if there is one. -/
theorem World.hooks_user
    (w : World)
    (u : UserClass) :
    w.hooks (.user u) = ((w.record? u).map (·.hooks)).getD .none :=
  rfl

/-- Finding out about types declares no other hooks than there are. -/
theorem World.Reaches.hooks
    {w reached : World}
    (reaches : w.Reaches reached)
    (c : ClassRef) :
    ∃ d, reached.hooks c = w.hooks d := by
  induction reaches generalizing c with
  | start => exact ⟨c, rfl⟩
  | spell key a _ inductionHypothesis => exact inductionHypothesis c
  | settle d _ inductionHypothesis =>
      rw [hooks_settle]
      exact inductionHypothesis c
  | @specialise v u r args fields key _ isRecord inductionHypothesis =>
      cases c with
      | builtin b => exact inductionHypothesis (.builtin b)
      | sized number home => exact inductionHypothesis (.sized number home)
      | user other =>
          let added := v.specialisation r args fields
          have either : (v.add added).record? other = v.record? other ∨
              (v.add added).record? other = some added := by
            rw [World.record?, World.record?, World.add, List.find?_append]
            cases found : v.classes.find? fun r => r.cls == other with
            | some old => exact .inl rfl
            | none =>
                cases isAdded : [added].find? fun r => r.cls == other with
                | none => exact .inl rfl
                | some one =>
                    obtain rfl := List.mem_singleton.mp (List.mem_of_find?_eq_some isAdded)
                    exact .inr rfl
          rcases either with old | new
          · obtain ⟨d, same⟩ := inductionHypothesis (.user other)
            refine ⟨d, .trans ?_ same⟩
            change (v.add added).hooks (.user other) = _
            rw [hooks_user, hooks_user, old]
          · obtain ⟨d, same⟩ := inductionHypothesis (.user u)
            refine ⟨d, .trans ?_ same⟩
            change (v.add added).hooks (.user other) = _
            rw [hooks_user, hooks_user, new, isRecord]
            rfl

/-- What is registered from the start describes schemas, if it describes itself. -/
theorem CapabilityRegistry.isAccepted_of_defaults
    {accepts : SchemaHook → Prop}
    {key : Key}
    {caps : Capabilities}
    (declared : ∀ schema, accepts (.declared schema))
    (registered : defaults.explicit.lookup key = some caps) :
    caps.IsAccepted accepts := by
  have all : ∀ e ∈ defaults.explicit, e.2.schema.all SchemaHook.isSchema = true := by
    decide
  have describes := all _ (Table.mem_of_lookup registered)
  intro hook isHook
  rw [isHook] at describes
  cases hook with
  | declared schema => exact declared schema
  | other t => cases describes
  | refused message => cases describes

/-- Chains have no hooks for cases and schemas. -/
theorem hooks_of_chains (c : ClassRef) :
    (chainStore.world.hooks c).cases = none ∧ (chainStore.world.hooks c).schema = none := by
  cases c with
  | builtin b => exact ⟨rfl, rfl⟩
  | sized number home => exact ⟨rfl, rfl⟩
  | user u =>
      rw [World.hooks_user]
      cases found : chainStore.world.record? u with
      | none => exact ⟨rfl, rfl⟩
      | some r =>
          obtain rfl := List.mem_singleton.mp (List.mem_of_find?_eq_some found)
          exact ⟨rfl, rfl⟩

/-- Where chains are declared, hooks return. -/
theorem hooksReturn_of_chains : chainStore.HooksReturn where
  cases w reaches c := by
    obtain ⟨d, same⟩ := reaches.hooks c
    have unhooked : (w.hooks c).cases = none := by rw [same, (hooks_of_chains d).1]
    refine ⟨w.members? c, w, ?_⟩
    rw [classCases, run_bind_of_ok (run_current w)]
    simp only [unhooked]
    rfl
  declared w reaches c hook declares := by
    obtain ⟨d, same⟩ := reaches.hooks c
    rw [same, (hooks_of_chains d).2] at declares
    cases declares
  registered scope a caps found := by
    cases scope with
    | shared => exact CapabilityRegistry.isAccepted_of_defaults (fun _ _ _ => trivial) found
    | current => exact CapabilityRegistry.isAccepted_of_defaults (fun _ _ _ => trivial) found

/-- Chains are described although their decoding fails. -/
theorem describe_contains_faults_chain :
    ∃ shape, ((describeTo 3 (.cls chainClass)).run chainStore).1 = .ok shape := by
  have contained := describe_contains_faults hooksReturn_of_chains keys_of_chains
    (fun reader isRead => Reader.terminates_of_bounded isBounded_of_chains isRead)
    (by decide : (chainKnowledge.map fun e => e.1.identity).length < 3)
  refine contained.2.1 fun f _ failed => ?_
  have knows : chainStore.KnowsChains := isOfChains_of_finds .start
  obtain ⟨reached, ran, _⟩ := knows.lookup (e := (.cls chainClass, chainCapabilities))
    List.mem_cons_self
  rw [ran] at failed
  cases failed

end SchemaProbe

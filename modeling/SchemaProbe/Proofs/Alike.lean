import SchemaProbe.Store

namespace SchemaProbe

/-!
# Steps that end alike

Two steps end alike under a regime if, from every state of which something
holds, both end in the same way, the same still holds of the state that they
reach, and they are interrupted only as the regime allows.  A step that ends
like itself keeps what holds; under a regime that does not allow a bound to be
used up, it also comes to an end.  How steps are put together keeps them alike.
-/

/-- What holds of the states between steps, and how steps may be interrupted. -/
structure Regime (σ : Type) where
  holds : σ → Prop
  allows : Interrupt → Prop

namespace Regime

/-- The regime of steps that have a private state beside the shared one. -/
def beside (R : Regime τ) (σ : Type) : Regime (σ × τ) where
  holds s := R.holds s.2
  allows := R.allows

/-- Whether every fault is allowed. -/
def AllowsFaults (R : Regime σ) : Prop :=
  ∀ f, R.allows (.fault f)

/-- The regime in which a step may only use up a bound, if it may. -/
def faultless (R : Regime σ) : Regime σ where
  holds := R.holds
  allows interrupt := interrupt = .exhausted ∧ R.allows .exhausted

/-- The regime in which nothing is known of states and a bound is not used up. -/
def ending (σ : Type) : Regime σ where
  holds _ := True
  allows interrupt := interrupt ≠ .exhausted

theorem ending_allowsFaults (σ : Type) : (ending σ).AllowsFaults :=
  fun _ absent => nomatch absent

end Regime

namespace Step

/-- Whether two steps end in the same way from a state, and with a good result if
with any. -/
inductive AlikeAt
    (R : Regime σ)
    (good : α → Prop)
    (first second : Step σ α)
    (s : σ) :
    Prop
  | ok {a : α} {reached : σ} :
      first.run s = (.ok a, reached) → second.run s = (.ok a, reached) →
        R.holds reached → good a → AlikeAt R good first second s
  | error {interrupt : Interrupt} {reached : σ} :
      first.run s = (.error interrupt, reached) → second.run s = (.error interrupt, reached) →
        R.holds reached → R.allows interrupt → AlikeAt R good first second s

/-- Whether two steps end in the same way wherever the regime holds. -/
def Alike (R : Regime σ) (good : α → Prop) (first second : Step σ α) : Prop :=
  ∀ s, R.holds s → AlikeAt R good first second s

/-- Any result is good enough. -/
def anything {α : Type} (_ : α) : Prop :=
  True

namespace AlikeAt

variable {R : Regime σ} {s : σ}

/-- A pure result ends like itself. -/
theorem pure
    {good : α → Prop}
    {a : α}
    (holds : R.holds s)
    (isGood : good a) :
    AlikeAt R good (Pure.pure a) (Pure.pure a) s :=
  .ok (run_pure a s) (run_pure a s) holds isGood

/-- A fault that is allowed ends like itself. -/
theorem fail
    {good : α → Prop}
    {f : Fault}
    (holds : R.holds s)
    (allows : R.allows (.fault f)) :
    AlikeAt R good (Step.fail f : Step σ α) (Step.fail f) s :=
  .error (run_fail f s) (run_fail f s) holds allows

/-- Steps that end alike do so if they are followed by steps that end alike where
they end. -/
theorem bind_run
    {good : α → Prop}
    {goodNext : β → Prop}
    {first second : Step σ α}
    {next others : α → Step σ β}
    (alike : AlikeAt R good first second s)
    (nextAlike : ∀ a reached, first.run s = (.ok a, reached) → R.holds reached → good a →
      AlikeAt R goodNext (next a) (others a) reached) :
    AlikeAt R goodNext (first >>= next) (second >>= others) s := by
  cases alike with
  | ok firstRun secondRun holds isGood =>
      cases nextAlike _ _ firstRun holds isGood with
      | ok nextRun othersRun lastHolds lastGood =>
          exact .ok ((run_bind_of_ok firstRun next).trans nextRun)
            ((run_bind_of_ok secondRun others).trans othersRun) lastHolds lastGood
      | error nextRun othersRun lastHolds allowed =>
          exact .error ((run_bind_of_ok firstRun next).trans nextRun)
            ((run_bind_of_ok secondRun others).trans othersRun) lastHolds allowed
  | error firstRun secondRun holds allowed =>
      exact .error (run_bind_of_error firstRun next) (run_bind_of_error secondRun others) holds
        allowed

/-- Steps that end alike do so one after the other. -/
theorem bind
    {good : α → Prop}
    {goodNext : β → Prop}
    {first second : Step σ α}
    {next others : α → Step σ β}
    (alike : AlikeAt R good first second s)
    (nextAlike : ∀ a reached, R.holds reached → good a →
      AlikeAt R goodNext (next a) (others a) reached) :
    AlikeAt R goodNext (first >>= next) (second >>= others) s :=
  alike.bind_run fun a reached _ => nextAlike a reached

/-- A result that is good is also good enough for less. -/
theorem mono
    {good enough : α → Prop}
    {first second : Step σ α}
    (alike : AlikeAt R good first second s)
    (isEnough : ∀ a, good a → enough a) :
    AlikeAt R enough first second s := by
  cases alike with
  | ok firstRun secondRun holds isGood => exact .ok firstRun secondRun holds (isEnough _ isGood)
  | error firstRun secondRun holds allowed => exact .error firstRun secondRun holds allowed

/-- Looking at the state keeps steps alike that are alike in that state. -/
theorem current_bind
    {good : α → Prop}
    {next others : σ → Step σ α}
    (nextAlike : AlikeAt R good (next s) (others s) s) :
    AlikeAt R good (current >>= next) (current >>= others) s := by
  cases nextAlike with
  | ok nextRun othersRun reachedHolds isGood => exact .ok nextRun othersRun reachedHolds isGood
  | error nextRun othersRun reachedHolds allowed =>
      exact .error nextRun othersRun reachedHolds allowed

/-- Where steps go on from a result that both have, what follows decides. -/
theorem bind_of_run
    {good : β → Prop}
    {first second : Step σ α}
    {next others : α → Step σ β}
    {a : α}
    {reached : σ}
    (nextAlike : AlikeAt R good (next a) (others a) reached)
    (firstRun : first.run s = (.ok a, reached))
    (secondRun : second.run s = (.ok a, reached)) :
    AlikeAt R good (first >>= next) (second >>= others) s := by
  cases nextAlike with
  | ok nextRun othersRun lastHolds isGood =>
      exact .ok ((run_bind_of_ok firstRun next).trans nextRun)
        ((run_bind_of_ok secondRun others).trans othersRun) lastHolds isGood
  | error nextRun othersRun lastHolds allowed =>
      exact .error ((run_bind_of_ok firstRun next).trans nextRun)
        ((run_bind_of_ok secondRun others).trans othersRun) lastHolds allowed

/-- A step ends like itself if it does so when something is made of its result,
which is then as good as what is made of it. -/
theorem of_map
    {good : β → Prop}
    {step : Step σ α}
    {make : α → β}
    (alike : AlikeAt R good (step >>= fun a => Pure.pure (make a))
      (step >>= fun a => Pure.pure (make a)) s) :
    AlikeAt R (fun a => good (make a)) step step s := by
  cases ended : step.run s with
  | mk outcome reached =>
      cases outcome with
      | ok a =>
          have whole := run_bind_of_ok ended fun a => Pure.pure (make a)
          cases alike with
          | ok firstRun _ holds isGood =>
              rw [whole] at firstRun
              cases firstRun
              exact .ok ended ended holds isGood
          | error firstRun _ _ _ =>
              rw [whole] at firstRun
              cases firstRun
      | error interrupt =>
          have whole := run_bind_of_error ended fun a => Pure.pure (make a)
          cases alike with
          | ok firstRun _ _ _ =>
              rw [whole] at firstRun
              cases firstRun
          | error firstRun _ holds allowed =>
              rw [whole] at firstRun
              cases firstRun
              exact .error ended ended holds allowed

/-- Where something holds of the state that a step reaches, and it ends as is
allowed, it ends like itself. -/
theorem of_run
    {good : α → Prop}
    {step : Step σ α}
    (holds : R.holds (step.run s).2)
    (allowed : ∀ interrupt, (step.run s).1 = .error interrupt → R.allows interrupt)
    (isGood : ∀ a, (step.run s).1 = .ok a → good a) :
    AlikeAt R good step step s := by
  cases ended : step.run s with
  | mk outcome reached =>
      rw [ended] at holds allowed isGood
      cases outcome with
      | ok a => exact .ok ended ended holds (isGood a rfl)
      | error interrupt => exact .error ended ended holds (allowed interrupt rfl)

/-- Steps that end alike end in the same way. -/
theorem run_eq
    {good : α → Prop}
    {first second : Step σ α}
    (alike : AlikeAt R good first second s) :
    first.run s = second.run s := by
  cases alike with
  | ok firstRun secondRun _ _ => rw [firstRun, secondRun]
  | error firstRun secondRun _ _ => rw [firstRun, secondRun]

/-- The regime holds where steps end that end alike. -/
theorem holds_run
    {good : α → Prop}
    {first second : Step σ α}
    (alike : AlikeAt R good first second s) :
    R.holds (first.run s).2 := by
  cases alike with
  | ok firstRun _ holds _ =>
      rw [firstRun]
      exact holds
  | error firstRun _ holds _ =>
      rw [firstRun]
      exact holds

/-- A step that ends like itself ends with a good result if with any. -/
theorem good_of_ok
    {good : α → Prop}
    {first second : Step σ α}
    {a : α}
    {reached : σ}
    (alike : AlikeAt R good first second s)
    (ended : first.run s = (.ok a, reached)) :
    good a := by
  cases alike with
  | ok firstRun _ _ isGood =>
      rw [firstRun] at ended
      cases ended
      exact isGood
  | error firstRun _ _ _ =>
      rw [firstRun] at ended
      cases ended

/-- Steps that end alike are interrupted only as the regime allows. -/
theorem allows_run
    {good : α → Prop}
    {first second : Step σ α}
    {interrupt : Interrupt}
    (alike : AlikeAt R good first second s)
    (interrupted : (first.run s).1 = .error interrupt) :
    R.allows interrupt := by
  cases alike with
  | ok firstRun _ _ _ =>
      rw [firstRun] at interrupted
      cases interrupted
  | error firstRun _ _ allowed =>
      rw [firstRun] at interrupted
      cases interrupted
      exact allowed

end AlikeAt

namespace Alike

variable {R : Regime σ}

/-- A pure result ends like itself. -/
theorem pure
    {good : α → Prop}
    {a : α}
    (isGood : good a) :
    Alike R good (Pure.pure a) (Pure.pure a) :=
  fun _ holds => .pure holds isGood

/-- A fault that is allowed ends like itself. -/
theorem fail
    {good : α → Prop}
    {f : Fault}
    (allows : R.allows (.fault f)) :
    Alike R good (Step.fail f : Step σ α) (Step.fail f) :=
  fun _ holds => .fail holds allows

/-- The end of a bound, if it is allowed, ends like itself. -/
theorem exhausted
    {good : α → Prop}
    (allows : R.allows .exhausted) :
    Alike R good (Step.exhausted : Step σ α) Step.exhausted :=
  fun s holds => .error (run_exhausted s) (run_exhausted s) holds allows

/-- Steps that end alike do so one after the other. -/
theorem bind
    {good : α → Prop}
    {goodNext : β → Prop}
    {first second : Step σ α}
    {next others : α → Step σ β}
    (alike : Alike R good first second)
    (nextAlike : ∀ a, good a → Alike R goodNext (next a) (others a)) :
    Alike R goodNext (first >>= next) (second >>= others) :=
  fun s holds => (alike s holds).bind fun a reached reachedHolds isGood =>
    nextAlike a isGood reached reachedHolds

/-- Looking at the state keeps steps alike that are alike in that state. -/
theorem current_bind
    {good : α → Prop}
    {next others : σ → Step σ α}
    (nextAlike : ∀ s, R.holds s → AlikeAt R good (next s) (others s) s) :
    Alike R good (current >>= next) (current >>= others) :=
  fun s holds => .current_bind (nextAlike s holds)

/-- A change that keeps what holds ends like itself. -/
theorem update
    {change : σ → σ}
    (keeps : ∀ s, R.holds s → R.holds (change s)) :
    Alike R anything (Step.update change) (Step.update change) :=
  fun s holds => .ok (run_update change s) (run_update change s) (keeps s holds) trivial

/-- A result that is good is also good enough for less. -/
theorem mono
    {good enough : α → Prop}
    {first second : Step σ α}
    (alike : Alike R good first second)
    (isEnough : ∀ a, good a → enough a) :
    Alike R enough first second :=
  fun s holds => (alike s holds).mono isEnough

/-- Taking a result, or stopping with its fault, ends like itself. -/
theorem ofExcept
    {good : α → Prop}
    {result : Except Fault α}
    (faults : R.AllowsFaults)
    (isGood : ∀ a, result = .ok a → good a) :
    Alike R good (Step.ofExcept result) (Step.ofExcept result) := by
  cases result with
  | ok a => exact .pure (isGood a rfl)
  | error f => exact .fail (faults f)

/-- Taking a result that is there, or stopping with a fault, ends like itself. -/
theorem ofOption
    {good : α → Prop}
    {otherwise : Fault}
    {result : Option α}
    (faults : R.AllowsFaults)
    (isGood : ∀ a, result = some a → good a) :
    Alike R good (Step.ofOption otherwise result) (Step.ofOption otherwise result) := by
  cases result with
  | some a => exact .pure (isGood a rfl)
  | none => exact .fail (faults otherwise)

/-- Steps that end alike do so when their faults are caught. -/
theorem attempt
    {good : α → Prop}
    {first second : Step σ α}
    (alike : Alike R good first second) :
    Alike R (fun result => ∀ a, result = .ok a → good a) (Step.attempt first)
      (Step.attempt second) := by
  intro s holds
  cases alike s holds with
  | ok firstRun secondRun reachedHolds isGood =>
      refine .ok (by rw [run_attempt, firstRun]) (by rw [run_attempt, secondRun]) reachedHolds ?_
      rintro _ ⟨rfl⟩
      exact isGood
  | error firstRun secondRun reachedHolds allowed =>
      rename_i interrupt reached
      cases interrupt with
      | fault f =>
          refine .ok (by rw [run_attempt, firstRun]) (by rw [run_attempt, secondRun]) reachedHolds ?_
          intro _ absent
          cases absent
      | exhausted =>
          exact .error (by rw [run_attempt, firstRun]) (by rw [run_attempt, secondRun])
            reachedHolds allowed

/-- Steps that end alike do so when what follows a fault is alike too. -/
theorem recover
    {good : α → Prop}
    {first second : Step σ α}
    {handler others : Fault → Step σ α}
    (alike : Alike R good first second)
    (handlersAlike : ∀ f, Alike R good (handler f) (others f)) :
    Alike R good (Step.recover first handler) (Step.recover second others) := by
  refine alike.attempt.bind fun result isGood => ?_
  cases result with
  | ok a => exact .pure (isGood a rfl)
  | error f => exact handlersAlike f

/-- Steps that end alike on a part of the state do so on the whole. -/
theorem within
    {whole : Regime τ}
    {good : α → Prop}
    {view : τ → σ}
    {store : σ → τ → τ}
    {first second : Step σ α}
    (alike : Alike R good first second)
    (viewHolds : ∀ s, whole.holds s → R.holds (view s))
    (storeHolds : ∀ part s, whole.holds s → R.holds part → whole.holds (store part s))
    (allowsMore : ∀ interrupt, R.allows interrupt → whole.allows interrupt) :
    Alike whole good (Step.within view store first) (Step.within view store second) := by
  intro s holds
  cases alike (view s) (viewHolds s holds) with
  | ok firstRun secondRun partHolds isGood =>
      exact .ok (by rw [run_within, firstRun]) (by rw [run_within, secondRun])
        (storeHolds _ s holds partHolds) isGood
  | error firstRun secondRun partHolds allowed =>
      exact .error (by rw [run_within, firstRun]) (by rw [run_within, secondRun])
        (storeHolds _ s holds partHolds) (allowsMore _ allowed)

/-- Steps that end alike on the shared state do so beside a private one. -/
theorem shared
    {good : α → Prop}
    {first second : Step τ α}
    {R : Regime τ}
    (alike : Alike R good first second) :
    Alike (R.beside σ) good (Step.shared first) (Step.shared second) :=
  alike.within (fun _ holds => holds) (fun _ _ _ partHolds => partHolds) fun _ allowed => allowed

/-- What is done to the private state alone ends like itself. -/
theorem own_update
    {R : Regime τ}
    (change : σ → σ) :
    Alike (R.beside σ) anything (Step.own (Step.update change)) (Step.own (Step.update change)) :=
  fun _ holds => .ok rfl rfl holds trivial

/-- Steps that are alike for each element are alike for all. -/
theorem each
    {good : β → Prop}
    {f g : α → Step σ β}
    {elements : List α}
    (alike : ∀ a ∈ elements, Alike R good (f a) (g a)) :
    Alike R (fun bs => ∀ b ∈ bs, good b) (Step.each f elements) (Step.each g elements) := by
  induction elements with
  | nil => exact .pure fun _ absent => nomatch absent
  | cons a rest inductionHypothesis =>
      refine (alike a List.mem_cons_self).bind fun b isGood => ?_
      refine (inductionHypothesis fun other member =>
        alike other (List.mem_cons_of_mem _ member)).bind fun bs areGood => ?_
      exact .pure (List.forall_mem_cons.mpr ⟨isGood, areGood⟩)

end Alike

/-- Steps that end alike with a private state do so when their outcome is given
back, and then they are not interrupted. -/
theorem AlikeAt.beside
    {R : Regime τ}
    {good : α → Prop}
    {first second : Step (σ × τ) α}
    {start : σ}
    {s : τ}
    (alike : AlikeAt (R.beside σ) good first second (start, s)) :
    AlikeAt R.faultless
      (fun result =>
        (∀ a, result.1 = .ok a → good a) ∧ ∀ interrupt, result.1 = .error interrupt →
          R.allows interrupt)
      (Step.beside start first) (Step.beside start second) s := by
  have run_beside (step : Step (σ × τ) α) :
      (Step.beside start step).run s =
        (.ok ((step.run (start, s)).1, (step.run (start, s)).2.1), (step.run (start, s)).2.2) :=
    rfl
  cases alike with
  | ok firstRun secondRun holds isGood =>
      refine .ok (by rw [run_beside, firstRun]) (by rw [run_beside, secondRun]) holds ⟨?_, ?_⟩
      · rintro _ ⟨rfl⟩
        exact isGood
      · exact fun _ absent => nomatch absent
  | error firstRun secondRun holds allowed =>
      refine .ok (by rw [run_beside, firstRun]) (by rw [run_beside, secondRun]) holds ⟨?_, ?_⟩
      · exact fun _ absent => nomatch absent
      · rintro _ ⟨rfl⟩
        exact allowed

/-- Steps that end alike and use up a bound at most do so where more is allowed. -/
theorem AlikeAt.ofFaultless
    {R : Regime σ}
    {good : α → Prop}
    {first second : Step σ α}
    {s : σ}
    (alike : AlikeAt R.faultless good first second s) :
    AlikeAt R good first second s := by
  cases alike with
  | ok firstRun secondRun holds isGood => exact .ok firstRun secondRun holds isGood
  | error firstRun secondRun holds allowed =>
      obtain ⟨rfl, endless⟩ := allowed
      exact .error firstRun secondRun holds endless

end Step

end SchemaProbe

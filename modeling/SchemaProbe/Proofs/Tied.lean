import SchemaProbe.Proofs.Alike

namespace SchemaProbe

/-!
# Steps side by side

Two steps run side by side from two states that are tied to each other.  They end
tied if both end with results that belong together, or both with the same interrupt,
and the states that they reach are tied again.  The first of them may run out of a
bound before the second does, if that is said; then nothing is known any more.  How
steps are put together keeps them tied.  Steps that end alike are those that end tied
from the same state.
-/

/-- How the states of two steps that run side by side are tied between steps, how both
may be interrupted, and whether the first one may run out of a bound alone. -/
structure Bond (σ τ : Type) where
  ties : σ → τ → Prop
  allows : Interrupt → Prop
  lapses : Prop

namespace Bond

/-- The bond of steps that have the same private state beside the shared ones, of which
something is kept. -/
def alongside (B : Bond σ τ) (keeps : ρ → Prop) : Bond (ρ × σ) (ρ × τ) where
  ties s t := (s.1 = t.1 ∧ keeps s.1) ∧ B.ties s.2 t.2
  allows := B.allows
  lapses := B.lapses

/-- The bond of steps that have the same private state beside the shared ones. -/
abbrev beside (B : Bond σ τ) (ρ : Type) : Bond (ρ × σ) (ρ × τ) :=
  B.alongside fun _ : ρ => True

/-- Whether every fault is allowed. -/
def AllowsFaults (B : Bond σ τ) : Prop :=
  ∀ f, B.allows (.fault f)

/-- The bond in which steps may only use up a bound, if they may. -/
def faultless (B : Bond σ τ) : Bond σ τ where
  ties := B.ties
  allows interrupt := interrupt = .exhausted ∧ B.allows .exhausted
  lapses := B.lapses

/-- The bond of a state with itself, about which nothing is known. -/
def same (σ : Type) : Bond σ σ where
  ties s t := s = t
  allows _ := True
  lapses := False

/-- The bond of steps of which something holds in all states of the second. -/
def keeping (B : Bond σ τ) (R : Regime τ) : Bond σ τ where
  ties s t := B.ties s t ∧ R.holds t
  allows interrupt := B.allows interrupt ∧ R.allows interrupt
  lapses := B.lapses

/-- Whether a bond asks for less than another. -/
structure Implies (B C : Bond σ τ) : Prop where
  ties : ∀ s t, B.ties s t → C.ties s t
  allows : ∀ interrupt, B.allows interrupt → C.allows interrupt
  lapses : B.lapses → C.lapses

theorem Implies.refl (B : Bond σ τ) : B.Implies B :=
  ⟨fun _ _ ties => ties, fun _ allowed => allowed, fun lapses => lapses⟩

end Bond

/-- The bond of a state with itself. -/
def Regime.bond (R : Regime σ) : Bond σ σ where
  ties s t := s = t ∧ R.holds s
  allows := R.allows
  lapses := False

/-- A state is bound to itself while something holds of it. -/
theorem Bond.keeping_same (R : Regime σ) : (Bond.same σ).keeping R = R.bond := by
  have sameTies : ((Bond.same σ).keeping R).ties = R.bond.ties :=
    funext fun s => funext fun t => propext (and_congr_right fun same => by rw [same])
  have sameAllows : ((Bond.same σ).keeping R).allows = R.bond.allows :=
    funext fun _ => true_and _
  exact congrFun (congr (congrArg Bond.mk sameTies) sameAllows) False

/-- A private state beside a shared one is bound to itself as they are. -/
theorem Regime.bond_beside
    (R : Regime τ)
    (ρ : Type) :
    (R.beside ρ).bond = R.bond.beside ρ := by
  have sameTies (s t : ρ × τ) :
      (s = t ∧ R.holds s.2) = ((s.1 = t.1 ∧ True) ∧ s.2 = t.2 ∧ R.holds s.2) := by
    rw [Prod.ext_iff, and_true, and_assoc]
  exact congrArg (Bond.mk · R.allows False) (funext fun s => funext fun t => sameTies s t)

namespace Step

/-- Whether two results are the same and good. -/
def Same (good : α → Prop) (a b : α) : Prop :=
  a = b ∧ good a

/-- Whether two steps that run side by side from two states end tied, and with results
that belong together if with any. -/
inductive TiedAt
    (B : Bond σ τ)
    (good : α → β → Prop)
    (first : Step σ α)
    (second : Step τ β)
    (s : σ)
    (t : τ) :
    Prop
  | ok {a : α} {b : β} {reached : σ} {other : τ} :
      first.run s = (.ok a, reached) → second.run t = (.ok b, other) →
        B.ties reached other → good a b → TiedAt B good first second s t
  | error {interrupt : Interrupt} {reached : σ} {other : τ} :
      first.run s = (.error interrupt, reached) → second.run t = (.error interrupt, other) →
        B.ties reached other → B.allows interrupt → TiedAt B good first second s t
  | lapsed {reached : σ} :
      first.run s = (.error .exhausted, reached) → B.lapses → TiedAt B good first second s t

/-- Whether two steps end tied from all states that are tied. -/
def Tied
    (B : Bond σ τ)
    (good : α → β → Prop)
    (first : Step σ α)
    (second : Step τ β) :
    Prop :=
  ∀ s t, B.ties s t → TiedAt B good first second s t

/-! ## From two states -/

namespace TiedAt

variable {B : Bond σ τ} {s : σ} {t : τ}

/-- Pure results that belong together end tied. -/
theorem pure
    {good : α → β → Prop}
    {a : α}
    {b : β}
    (tied : B.ties s t)
    (isGood : good a b) :
    TiedAt B good (Pure.pure a) (Pure.pure b) s t :=
  .ok (run_pure a s) (run_pure b t) tied isGood

/-- A fault that is allowed ends tied to itself. -/
theorem fail
    {good : α → β → Prop}
    {f : Fault}
    (tied : B.ties s t)
    (allows : B.allows (.fault f)) :
    TiedAt B good (Step.fail f) (Step.fail f) s t :=
  .error (run_fail f s) (run_fail f t) tied allows

/-- Steps that end tied do so if they are followed by steps that end tied where they
end. -/
theorem bind_run
    {good : α → β → Prop}
    {goodNext : α' → β' → Prop}
    {first : Step σ α}
    {second : Step τ β}
    {next : α → Step σ α'}
    {others : β → Step τ β'}
    (tied : TiedAt B good first second s t)
    (nextTied : ∀ a b reached other, first.run s = (.ok a, reached) →
      second.run t = (.ok b, other) → B.ties reached other → good a b →
        TiedAt B goodNext (next a) (others b) reached other) :
    TiedAt B goodNext (first >>= next) (second >>= others) s t := by
  cases tied with
  | ok firstRun secondRun ties isGood =>
      cases nextTied _ _ _ _ firstRun secondRun ties isGood with
      | ok nextRun othersRun lastTies lastGood =>
          exact .ok ((run_bind_of_ok firstRun next).trans nextRun)
            ((run_bind_of_ok secondRun others).trans othersRun) lastTies lastGood
      | error nextRun othersRun lastTies allowed =>
          exact .error ((run_bind_of_ok firstRun next).trans nextRun)
            ((run_bind_of_ok secondRun others).trans othersRun) lastTies allowed
      | lapsed nextRun lapses =>
          exact .lapsed ((run_bind_of_ok firstRun next).trans nextRun) lapses
  | error firstRun secondRun ties allowed =>
      exact .error (run_bind_of_error firstRun next) (run_bind_of_error secondRun others) ties
        allowed
  | lapsed firstRun lapses => exact .lapsed (run_bind_of_error firstRun next) lapses

/-- Steps that end tied do so one after the other. -/
theorem bind
    {good : α → β → Prop}
    {goodNext : α' → β' → Prop}
    {first : Step σ α}
    {second : Step τ β}
    {next : α → Step σ α'}
    {others : β → Step τ β'}
    (tied : TiedAt B good first second s t)
    (nextTied : ∀ a b reached other, B.ties reached other → good a b →
      TiedAt B goodNext (next a) (others b) reached other) :
    TiedAt B goodNext (first >>= next) (second >>= others) s t :=
  tied.bind_run fun a b reached other _ _ => nextTied a b reached other

/-- Steps that end tied with the same result do so one after the other. -/
theorem bind_same
    {good : α → Prop}
    {goodNext : α' → β' → Prop}
    {first : Step σ α}
    {second : Step τ α}
    {next : α → Step σ α'}
    {others : α → Step τ β'}
    (tied : TiedAt B (Same good) first second s t)
    (nextTied : ∀ a reached other, B.ties reached other → good a →
      TiedAt B goodNext (next a) (others a) reached other) :
    TiedAt B goodNext (first >>= next) (second >>= others) s t := by
  refine tied.bind fun a b reached other ties same => ?_
  obtain ⟨rfl, isGood⟩ := same
  exact nextTied a reached other ties isGood

/-- Results that belong together are also good enough for less. -/
theorem mono
    {good enough : α → β → Prop}
    {first : Step σ α}
    {second : Step τ β}
    (tied : TiedAt B good first second s t)
    (isEnough : ∀ a b, good a b → enough a b) :
    TiedAt B enough first second s t := by
  cases tied with
  | ok firstRun secondRun ties isGood => exact .ok firstRun secondRun ties (isEnough _ _ isGood)
  | error firstRun secondRun ties allowed => exact .error firstRun secondRun ties allowed
  | lapsed firstRun lapses => exact .lapsed firstRun lapses

/-- Looking at the states keeps steps tied that are tied in those states. -/
theorem current_bind
    {good : α → β → Prop}
    {next : σ → Step σ α}
    {others : τ → Step τ β}
    (nextTied : TiedAt B good (next s) (others t) s t) :
    TiedAt B good (current >>= next) (current >>= others) s t := by
  cases nextTied with
  | ok nextRun othersRun ties isGood => exact .ok nextRun othersRun ties isGood
  | error nextRun othersRun ties allowed => exact .error nextRun othersRun ties allowed
  | lapsed nextRun lapses => exact .lapsed nextRun lapses

/-- Where steps go on from results that they have, what follows decides. -/
theorem bind_of_run
    {good : α' → β' → Prop}
    {first : Step σ α}
    {second : Step τ β}
    {next : α → Step σ α'}
    {others : β → Step τ β'}
    {a : α}
    {b : β}
    {reached : σ}
    {other : τ}
    (nextTied : TiedAt B good (next a) (others b) reached other)
    (firstRun : first.run s = (.ok a, reached))
    (secondRun : second.run t = (.ok b, other)) :
    TiedAt B good (first >>= next) (second >>= others) s t := by
  cases nextTied with
  | ok nextRun othersRun ties isGood =>
      exact .ok ((run_bind_of_ok firstRun next).trans nextRun)
        ((run_bind_of_ok secondRun others).trans othersRun) ties isGood
  | error nextRun othersRun ties allowed =>
      exact .error ((run_bind_of_ok firstRun next).trans nextRun)
        ((run_bind_of_ok secondRun others).trans othersRun) ties allowed
  | lapsed nextRun lapses => exact .lapsed ((run_bind_of_ok firstRun next).trans nextRun) lapses

/-- Steps that end tied do so in every bond that asks for less. -/
theorem weaken
    {C : Bond σ τ}
    {good : α → β → Prop}
    {first : Step σ α}
    {second : Step τ β}
    (tied : TiedAt B good first second s t)
    (implies : B.Implies C) :
    TiedAt C good first second s t := by
  cases tied with
  | ok firstRun secondRun ties isGood =>
      exact .ok firstRun secondRun (implies.ties _ _ ties) isGood
  | error firstRun secondRun ties allowed =>
      exact .error firstRun secondRun (implies.ties _ _ ties) (implies.allows _ allowed)
  | lapsed firstRun lapses => exact .lapsed firstRun (implies.lapses lapses)

/-- What holds of the second step may be added to what ties it to the first. -/
theorem keeping
    {R : Regime τ}
    {good : α → β → Prop}
    {fine : β → Prop}
    {first : Step σ α}
    {second : Step τ β}
    (tied : TiedAt B good first second s t)
    (alike : AlikeAt R fine second second t) :
    TiedAt (B.keeping R) (fun a b => good a b ∧ fine b) first second s t := by
  have keeps := alike.holds_run
  cases tied with
  | ok firstRun secondRun reachedTies isGood =>
      rw [secondRun] at keeps
      exact .ok firstRun secondRun ⟨reachedTies, keeps⟩ ⟨isGood, alike.good_of_ok secondRun⟩
  | error firstRun secondRun reachedTies allowed =>
      have allowedToo := alike.allows_run (by rw [secondRun])
      rw [secondRun] at keeps
      exact .error firstRun secondRun ⟨reachedTies, keeps⟩ ⟨allowed, allowedToo⟩
  | lapsed firstRun lapses => exact .lapsed firstRun lapses

/-- Steps that end tied with the same result end in the same way, unless the first may run
out of a bound alone. -/
theorem outcome_eq
    {good : α → Prop}
    {first : Step σ α}
    {second : Step τ α}
    (tied : TiedAt B (Same good) first second s t)
    (bounded : B.lapses → False) :
    (first.run s).1 = (second.run t).1 := by
  cases tied with
  | ok firstRun secondRun _ same => rw [firstRun, secondRun, same.1]
  | error firstRun secondRun _ _ => rw [firstRun, secondRun]
  | lapsed _ lapses => exact (bounded lapses).elim

end TiedAt

/-! ## From all states that are tied -/

namespace Tied

variable {B : Bond σ τ}

/-- Pure results that belong together end tied. -/
theorem pure
    {good : α → β → Prop}
    {a : α}
    {b : β}
    (isGood : good a b) :
    Tied B good (Pure.pure a) (Pure.pure b) :=
  fun _ _ tied => .pure tied isGood

/-- A pure result that is good ends tied to itself. -/
theorem pure_same
    {good : α → Prop}
    {a : α}
    (isGood : good a) :
    Tied B (Same good) (Pure.pure a) (Pure.pure a) :=
  .pure ⟨rfl, isGood⟩

/-- A fault that is allowed ends tied to itself. -/
theorem fail
    {good : α → β → Prop}
    {f : Fault}
    (allows : B.allows (.fault f)) :
    Tied B good (Step.fail f) (Step.fail f) :=
  fun _ _ tied => .fail tied allows

/-- The end of a bound, if it is allowed, ends tied to itself. -/
theorem exhausted
    {good : α → β → Prop}
    (allows : B.allows .exhausted) :
    Tied B good (Step.exhausted : Step σ α) (Step.exhausted : Step τ β) :=
  fun s t tied => .error (run_exhausted s) (run_exhausted t) tied allows

/-- Steps that end tied do so one after the other. -/
theorem bind
    {good : α → β → Prop}
    {goodNext : α' → β' → Prop}
    {first : Step σ α}
    {second : Step τ β}
    {next : α → Step σ α'}
    {others : β → Step τ β'}
    (tied : Tied B good first second)
    (nextTied : ∀ a b, good a b → Tied B goodNext (next a) (others b)) :
    Tied B goodNext (first >>= next) (second >>= others) :=
  fun s t ties => (tied s t ties).bind fun a b reached other reachedTies isGood =>
    nextTied a b isGood reached other reachedTies

/-- Steps that end tied with the same result do so one after the other. -/
theorem bind_same
    {good : α → Prop}
    {goodNext : α' → β' → Prop}
    {first : Step σ α}
    {second : Step τ α}
    {next : α → Step σ α'}
    {others : α → Step τ β'}
    (tied : Tied B (Same good) first second)
    (nextTied : ∀ a, good a → Tied B goodNext (next a) (others a)) :
    Tied B goodNext (first >>= next) (second >>= others) :=
  fun s t ties => (tied s t ties).bind_same fun a reached other reachedTies isGood =>
    nextTied a isGood reached other reachedTies

/-- Looking at the states keeps steps tied that are tied in those states. -/
theorem current_bind
    {good : α → β → Prop}
    {next : σ → Step σ α}
    {others : τ → Step τ β}
    (nextTied : ∀ s t, B.ties s t → TiedAt B good (next s) (others t) s t) :
    Tied B good (current >>= next) (current >>= others) :=
  fun s t ties => .current_bind (nextTied s t ties)

/-- Changes that keep states tied end tied. -/
theorem update
    {change : σ → σ}
    {other : τ → τ}
    (keeps : ∀ s t, B.ties s t → B.ties (change s) (other t)) :
    Tied B (Same anything) (Step.update change) (Step.update other) :=
  fun s t ties => .ok (run_update change s) (run_update other t) (keeps s t ties) ⟨rfl, trivial⟩

/-- Results that belong together are also good enough for less. -/
theorem mono
    {good enough : α → β → Prop}
    {first : Step σ α}
    {second : Step τ β}
    (tied : Tied B good first second)
    (isEnough : ∀ a b, good a b → enough a b) :
    Tied B enough first second :=
  fun s t ties => (tied s t ties).mono isEnough

/-- Results that are the same need not be good. -/
theorem mono_same
    {good enough : α → Prop}
    {first : Step σ α}
    {second : Step τ α}
    (tied : Tied B (Same good) first second)
    (isEnough : ∀ a, good a → enough a) :
    Tied B (Same enough) first second :=
  tied.mono fun a _ same => ⟨same.1, isEnough a same.2⟩

/-- Taking a result, or stopping with its fault, ends tied to itself. -/
theorem ofExcept
    {good : α → Prop}
    {result : Except Fault α}
    (faults : B.AllowsFaults)
    (isGood : ∀ a, result = .ok a → good a) :
    Tied B (Same good) (Step.ofExcept result) (Step.ofExcept result) := by
  cases result with
  | ok a => exact .pure_same (isGood a rfl)
  | error f => exact .fail (faults f)

/-- Taking a result that is there, or stopping with a fault, ends tied to itself. -/
theorem ofOption
    {good : α → Prop}
    {otherwise : Fault}
    {result : Option α}
    (faults : B.AllowsFaults)
    (isGood : ∀ a, result = some a → good a) :
    Tied B (Same good) (Step.ofOption otherwise result) (Step.ofOption otherwise result) := by
  cases result with
  | some a => exact .pure_same (isGood a rfl)
  | none => exact .fail (faults otherwise)

/-- Steps that end tied do so when their faults are caught, if what follows is tied. -/
theorem attempt_bind
    {good : α → β → Prop}
    {goodNext : α' → β' → Prop}
    {first : Step σ α}
    {second : Step τ β}
    {next : Except Fault α → Step σ α'}
    {others : Except Fault β → Step τ β'}
    (tied : Tied B good first second)
    (okTied : ∀ a b, good a b → Tied B goodNext (next (.ok a)) (others (.ok b)))
    (errorTied : ∀ f, Tied B goodNext (next (.error f)) (others (.error f))) :
    Tied B goodNext (Step.attempt first >>= next) (Step.attempt second >>= others) := by
  intro s t ties
  cases tied s t ties with
  | ok firstRun secondRun reachedTies isGood =>
      exact .bind_of_run (okTied _ _ isGood _ _ reachedTies) (by rw [run_attempt, firstRun])
        (by rw [run_attempt, secondRun])
  | error firstRun secondRun reachedTies allowed =>
      rename_i interrupt reached other
      cases interrupt with
      | fault f =>
          exact .bind_of_run (errorTied f reached other reachedTies)
            (by rw [run_attempt, firstRun]) (by rw [run_attempt, secondRun])
      | exhausted =>
          exact .error (run_bind_of_error (by rw [run_attempt, firstRun]) _)
            (run_bind_of_error (by rw [run_attempt, secondRun]) _) reachedTies allowed
  | lapsed firstRun lapses =>
      exact .lapsed (run_bind_of_error (by rw [run_attempt, firstRun]) _) lapses

/-- Steps that end tied with the same result do so when what follows a fault is tied
too. -/
theorem recover
    {good : α → Prop}
    {first : Step σ α}
    {second : Step τ α}
    {handler : Fault → Step σ α}
    {others : Fault → Step τ α}
    (tied : Tied B (Same good) first second)
    (handlersTied : ∀ f, Tied B (Same good) (handler f) (others f)) :
    Tied B (Same good) (Step.recover first handler) (Step.recover second others) :=
  tied.attempt_bind (fun _ _ same => .pure same) handlersTied

/-- Steps that end tied on parts of the states do so on the wholes. -/
theorem within
    {whole : Bond σ' τ'}
    {good : α → β → Prop}
    {view : σ' → σ}
    {otherView : τ' → τ}
    {store : σ → σ' → σ'}
    {otherStore : τ → τ' → τ'}
    {first : Step σ α}
    {second : Step τ β}
    (tied : Tied B good first second)
    (viewTies : ∀ s t, whole.ties s t → B.ties (view s) (otherView t))
    (storeTies : ∀ part other s t, whole.ties s t → B.ties part other →
      whole.ties (store part s) (otherStore other t))
    (allowsMore : ∀ interrupt, B.allows interrupt → whole.allows interrupt)
    (lapsesToo : B.lapses → whole.lapses) :
    Tied whole good (Step.within view store first) (Step.within otherView otherStore second) := by
  intro s t ties
  cases tied (view s) (otherView t) (viewTies s t ties) with
  | ok firstRun secondRun partTies isGood =>
      exact .ok (by rw [run_within, firstRun]) (by rw [run_within, secondRun])
        (storeTies _ _ s t ties partTies) isGood
  | error firstRun secondRun partTies allowed =>
      exact .error (by rw [run_within, firstRun]) (by rw [run_within, secondRun])
        (storeTies _ _ s t ties partTies) (allowsMore _ allowed)
  | lapsed firstRun lapses => exact .lapsed (by rw [run_within, firstRun]) (lapsesToo lapses)

/-- Steps that end tied on the shared states do so beside a private one. -/
theorem shared
    {keeps : ρ → Prop}
    {good : α → β → Prop}
    {first : Step σ α}
    {second : Step τ β}
    (tied : Tied B good first second) :
    Tied (B.alongside keeps) good (Step.shared first) (Step.shared second) :=
  tied.within (fun _ _ ties => ties.2) (fun _ _ _ _ ties partTies => ⟨ties.1, partTies⟩)
    (fun _ allowed => allowed) fun lapses => lapses

/-- What is done to the private state alone ends tied to itself. -/
theorem own_update
    {keeps : ρ → Prop}
    (change : ρ → ρ)
    (isKept : ∀ r, keeps r → keeps (change r)) :
    Tied (B.alongside keeps) (Same anything) (Step.own (Step.update change))
      (Step.own (Step.update change)) :=
  fun _ _ ties => .ok rfl rfl ⟨⟨congrArg change ties.1.1, isKept _ ties.1.2⟩, ties.2⟩ ⟨rfl, trivial⟩

/-- Steps that end tied for each element do so one after the other. -/
theorem each
    {first : α → Step σ β}
    {second : α → Step τ β}
    (eachTied : ∀ a, Tied B (Same anything) (first a) (second a))
    (elements : List α) :
    Tied B (Same anything) (Step.each first elements) (Step.each second elements) := by
  induction elements with
  | nil => exact .pure_same trivial
  | cons a rest inductionHypothesis =>
      exact (eachTied a).bind_same fun _ _ =>
        inductionHypothesis.bind_same fun _ _ => .pure_same trivial

/-- A step ends tied to itself from the same state. -/
theorem refl (step : Step σ α) : Tied (.same σ) (Same anything) step step := by
  rintro s _ ⟨rfl⟩
  cases ran : step.run s with
  | mk result reached =>
      cases result with
      | ok a => exact .ok ran ran rfl ⟨rfl, trivial⟩
      | error interrupt => exact .error ran ran rfl trivial

/-- What holds of the second step may be added to what ties it to the first. -/
theorem keeping
    {R : Regime τ}
    {good : α → β → Prop}
    {fine : β → Prop}
    {first : Step σ α}
    {second : Step τ β}
    (tied : Tied B good first second)
    (alike : Alike R fine second second) :
    Tied (B.keeping R) (fun a b => good a b ∧ fine b) first second :=
  fun s t ties => (tied s t ties.1).keeping (alike t ties.2)

/-- What holds of the second step may be added to what ties it to the first, where both
have the same result. -/
theorem keeping_same
    {R : Regime τ}
    {good : α → Prop}
    {first : Step σ α}
    {second : Step τ α}
    (tied : Tied B (Same anything) first second)
    (alike : Alike R good second second) :
    Tied (B.keeping R) (Same good) first second :=
  (tied.keeping alike).mono fun _ _ both => ⟨both.1.1, both.1.1 ▸ both.2⟩

end Tied

/-- Steps with a private state end tied when their outcomes are given back and what
follows them is tied, if the first goes no further where it ran out of a bound. -/
theorem TiedAt.beside_bind
    {B C : Bond σ τ}
    {keeps : ρ → Prop}
    {good : α → Prop}
    {goodNext : α' → β' → Prop}
    {first : Step (ρ × σ) α}
    {second : Step (ρ × τ) α}
    {next : Except Interrupt α × ρ → Step σ α'}
    {others : Except Interrupt α × ρ → Step τ β'}
    {start : ρ}
    {s : σ}
    {t : τ}
    (tied : TiedAt (B.alongside keeps) (Same good) first second (start, s) (start, t))
    (okTied : ∀ a left reached other, keeps left → B.ties reached other → good a →
      TiedAt C goodNext (next (.ok a, left)) (others (.ok a, left)) reached other)
    (errorTied : ∀ interrupt left reached other, keeps left → B.ties reached other →
      B.allows interrupt → TiedAt C goodNext (next (.error interrupt, left))
        (others (.error interrupt, left)) reached other)
    (stops : ∀ left reached, ∃ last,
      (next (.error .exhausted, left)).run reached = (.error .exhausted, last))
    (lapsesToo : B.lapses → C.lapses) :
    TiedAt C goodNext (Step.beside start first >>= next) (Step.beside start second >>= others)
      s t := by
  have run_beside {υ δ : Type} (step : Step (ρ × υ) δ) (u : υ) :
      (Step.beside start step).run u =
        (.ok ((step.run (start, u)).1, (step.run (start, u)).2.1), (step.run (start, u)).2.2) :=
    rfl
  cases tied with
  | ok firstRun secondRun ties same =>
      rename_i a b reached other
      obtain ⟨left, reached⟩ := reached
      obtain ⟨otherLeft, other⟩ := other
      obtain ⟨⟨rfl, isKept⟩, sharedTies⟩ : (left = otherLeft ∧ keeps left) ∧ B.ties reached other :=
        ties
      obtain ⟨rfl, isGood⟩ := same
      exact .bind_of_run (okTied a left reached other isKept sharedTies isGood)
        (by rw [run_beside, firstRun]) (by rw [run_beside, secondRun])
  | error firstRun secondRun ties allowed =>
      rename_i interrupt reached other
      obtain ⟨left, reached⟩ := reached
      obtain ⟨otherLeft, other⟩ := other
      obtain ⟨⟨rfl, isKept⟩, sharedTies⟩ : (left = otherLeft ∧ keeps left) ∧ B.ties reached other :=
        ties
      exact .bind_of_run (errorTied interrupt left reached other isKept sharedTies allowed)
        (by rw [run_beside, firstRun]) (by rw [run_beside, secondRun])
  | lapsed firstRun lapses =>
      rename_i reached
      obtain ⟨last, stopped⟩ := stops reached.1 reached.2
      have began : (Step.beside start first).run s =
          (.ok (.error .exhausted, reached.1), reached.2) := by
        rw [run_beside, firstRun]
      exact .lapsed ((run_bind_of_ok began next).trans stopped) (lapsesToo lapses)

/-! ## Steps that end alike -/

section

variable {R : Regime σ} {good : α → Prop} {first second : Step σ α} {s : σ}

/-- Steps that end alike end tied from the same state. -/
theorem AlikeAt.tied (alike : AlikeAt R good first second s) :
    TiedAt R.bond (Same good) first second s s := by
  cases alike with
  | ok firstRun secondRun holds isGood =>
      exact .ok firstRun secondRun ⟨rfl, holds⟩ ⟨rfl, isGood⟩
  | error firstRun secondRun holds allowed =>
      exact .error firstRun secondRun ⟨rfl, holds⟩ allowed

/-- Steps that end tied from the same state end alike. -/
theorem TiedAt.alike (tied : TiedAt R.bond (Same good) first second s s) :
    AlikeAt R good first second s := by
  cases tied with
  | ok firstRun secondRun ties same =>
      obtain ⟨rfl, holds⟩ := ties
      obtain ⟨rfl, isGood⟩ := same
      exact .ok firstRun secondRun holds isGood
  | error firstRun secondRun ties allowed =>
      obtain ⟨rfl, holds⟩ := ties
      exact .error firstRun secondRun holds allowed
  | lapsed _ lapses => exact lapses.elim

/-- Steps end alike exactly if they end tied from the same state. -/
theorem tied_iff_alike : Tied R.bond (Same good) first second ↔ Alike R good first second := by
  constructor
  · intro tied s holds
    exact (tied s s ⟨rfl, holds⟩).alike
  · rintro alike s _ ⟨rfl, holds⟩
    exact (alike s holds).tied

end

/-- Steps with a private state end alike exactly if they end tied from the same
states. -/
theorem tied_beside_iff_alike
    {R : Regime τ}
    {good : α → Prop}
    {first second : Step (ρ × τ) α} :
    Tied (R.bond.beside ρ) (Same good) first second ↔ Alike (R.beside ρ) good first second := by
  rw [← R.bond_beside]
  exact tied_iff_alike

end Step

end SchemaProbe

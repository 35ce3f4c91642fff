import SchemaProbe.Fault

namespace SchemaProbe

/-!
# Steps

A step reads and changes a state and ends with a result or an interrupt.  An
interrupt keeps the state reached: what was done before a fault stays done.
How each step runs is an equation below, and steps are a lawful monad.
-/

/-- A computation on a state that may be interrupted. -/
structure Step (σ α : Type) where
  run : σ → Except Interrupt α × σ

namespace Step

/-- The step that changes nothing. -/
protected def pure (a : α) : Step σ α :=
  ⟨fun s => (.ok a, s)⟩

/-- One step after another; an interrupt skips what follows. -/
protected def bind
    (first : Step σ α)
    (next : α → Step σ β) :
    Step σ β :=
  ⟨fun s =>
    match first.run s with
    | (.ok a, reached) => (next a).run reached
    | (.error interrupt, reached) => (.error interrupt, reached)⟩

instance : Monad (Step σ) where
  pure := Step.pure
  bind := Step.bind

/-- The current state. -/
def current : Step σ σ :=
  ⟨fun s => (.ok s, s)⟩

/-- Looks something up in the current state. -/
def read (view : σ → α) : Step σ α :=
  ⟨fun s => (.ok (view s), s)⟩

/-- Changes the state. -/
def update (change : σ → σ) : Step σ Unit :=
  ⟨fun s => (.ok (), change s)⟩

/-- Stops with a fault. -/
def fail (f : Fault) : Step σ α :=
  ⟨fun s => (.error (.fault f), s)⟩

/-- Stops because a bound is used up. -/
def exhausted : Step σ α :=
  ⟨fun s => (.error .exhausted, s)⟩

instance : Inhabited (Step σ α) := ⟨exhausted⟩

/-- Takes a result, or stops with its fault. -/
def ofExcept : Except Fault α → Step σ α
  | .ok a => pure a
  | .error f => fail f

/-- Takes a result that is there, or stops with a fault. -/
def ofOption
    (otherwise : Fault) :
    Option α → Step σ α
  | some a => pure a
  | none => fail otherwise

/-- Runs a step and catches its fault; the state stays as the step left it. -/
def attempt (step : Step σ α) : Step σ (Except Fault α) :=
  ⟨fun s =>
    match step.run s with
    | (.ok a, reached) => (.ok (.ok a), reached)
    | (.error (.fault f), reached) => (.ok (.error f), reached)
    | (.error .exhausted, reached) => (.error .exhausted, reached)⟩

/-- Runs a step and goes on with another one after a fault. -/
def recover
    (step : Step σ α)
    (handler : Fault → Step σ α) :
    Step σ α := do
  match ← attempt step with
  | .ok a => pure a
  | .error f => handler f

/-- Runs a step on a part of the state. -/
def within
    (view : τ → σ)
    (store : σ → τ → τ)
    (step : Step σ α) :
    Step τ α :=
  ⟨fun s =>
    let (outcome, part) := step.run (view s)
    (outcome, store part s)⟩

/-- Runs a step that has a private state beside the shared one, and gives back
what became of the private state, also after an interrupt. -/
def beside
    (start : σ)
    (step : Step (σ × τ) α) :
    Step τ (Except Interrupt α × σ) :=
  ⟨fun s =>
    let (outcome, left, reached) := step.run (start, s)
    (.ok (outcome, left), reached)⟩

/-- Runs a step on the shared state from where there is a private one. -/
def shared (step : Step τ α) : Step (σ × τ) α :=
  within Prod.snd (fun part whole => (whole.1, part)) step

/-- Runs a step on the private state alone. -/
def own (step : Step σ α) : Step (σ × τ) α :=
  within Prod.fst (fun part whole => (part, whole.2)) step

/-- Applies a step to each element and collects the results in order. -/
def each
    (f : α → Step σ β) :
    List α → Step σ (List β)
  | [] => pure []
  | a :: rest => do
    let b ← f a
    let bs ← each f rest
    pure (b :: bs)

/-- Applies a step to each element for its effect. -/
def visit
    (f : α → Step σ Unit) :
    List α → Step σ Unit
  | [] => pure ()
  | a :: rest => do
    f a
    visit f rest

/-! ## How steps run -/

/-- A pure result leaves the state alone. -/
@[simp]
theorem run_pure
    (a : α)
    (s : σ) :
    (pure a : Step σ α).run s = (.ok a, s) :=
  rfl

/-- What follows goes on from a result and the state reached with it. -/
theorem run_bind
    (first : Step σ α)
    (next : α → Step σ β)
    (s : σ) :
    (first >>= next).run s =
      match first.run s with
      | (.ok a, reached) => (next a).run reached
      | (.error interrupt, reached) => (.error interrupt, reached) :=
  rfl

/-- What follows a step that ended well starts from where it ended. -/
theorem run_bind_of_ok
    {first : Step σ α}
    {a : α}
    {s reached : σ}
    (ended : first.run s = (.ok a, reached))
    (next : α → Step σ β) :
    (first >>= next).run s = (next a).run reached := by
  rw [run_bind, ended]

/-- What follows an interrupted step is skipped. -/
theorem run_bind_of_error
    {first : Step σ α}
    {interrupt : Interrupt}
    {s reached : σ}
    (ended : first.run s = (.error interrupt, reached))
    (next : α → Step σ β) :
    (first >>= next).run s = (.error interrupt, reached) := by
  rw [run_bind, ended]

/-- Two steps one after the other end well exactly if both do. -/
theorem run_bind_eq_ok_iff
    {first : Step σ α}
    {next : α → Step σ β}
    {b : β}
    {s last : σ} :
    (first >>= next).run s = (.ok b, last) ↔
      ∃ a reached, first.run s = (.ok a, reached) ∧ (next a).run reached = (.ok b, last) := by
  constructor
  · intro ended
    rw [run_bind] at ended
    split at ended
    · rename_i a reached firstEnded
      exact ⟨a, reached, firstEnded, ended⟩
    · simp at ended
  · rintro ⟨a, reached, firstEnded, nextEnded⟩
    rw [run_bind_of_ok firstEnded, nextEnded]

/-- Two steps one after the other are interrupted where the first of them is,
or else where the second one is. -/
theorem run_bind_eq_error_iff
    {first : Step σ α}
    {next : α → Step σ β}
    {interrupt : Interrupt}
    {s last : σ} :
    (first >>= next).run s = (.error interrupt, last) ↔
      first.run s = (.error interrupt, last) ∨
        ∃ a reached, first.run s = (.ok a, reached) ∧
          (next a).run reached = (.error interrupt, last) := by
  constructor
  · intro ended
    rw [run_bind] at ended
    split at ended
    · rename_i a reached firstEnded
      exact .inr ⟨a, reached, firstEnded, ended⟩
    · rename_i other reached firstEnded
      simp only [Prod.mk.injEq, Except.error.injEq] at ended
      obtain ⟨rfl, rfl⟩ := ended
      exact .inl firstEnded
  · rintro (firstEnded | ⟨a, reached, firstEnded, nextEnded⟩)
    · exact run_bind_of_error firstEnded next
    · rw [run_bind_of_ok firstEnded, nextEnded]

@[simp]
theorem run_current (s : σ) : (current : Step σ σ).run s = (.ok s, s) :=
  rfl

@[simp]
theorem run_read
    (view : σ → α)
    (s : σ) :
    (read view).run s = (.ok (view s), s) :=
  rfl

@[simp]
theorem run_update
    (change : σ → σ)
    (s : σ) :
    (update change).run s = (.ok (), change s) :=
  rfl

@[simp]
theorem run_fail
    (f : Fault)
    (s : σ) :
    (fail f : Step σ α).run s = (.error (.fault f), s) :=
  rfl

@[simp]
theorem run_exhausted (s : σ) : (exhausted : Step σ α).run s = (.error .exhausted, s) :=
  rfl

/-- Taking a result leaves the state alone. -/
@[simp]
theorem run_ofExcept
    (result : Except Fault α)
    (s : σ) :
    (ofExcept result).run s = (result.mapError .fault, s) := by
  cases result <;> rfl

/-- Catching what goes wrong hides a fault and nothing else. -/
theorem run_attempt
    (step : Step σ α)
    (s : σ) :
    (attempt step).run s =
      match step.run s with
      | (.ok a, reached) => (.ok (.ok a), reached)
      | (.error (.fault f), reached) => (.ok (.error f), reached)
      | (.error .exhausted, reached) => (.error .exhausted, reached) :=
  rfl

/-- A step on a part of the state ends as it does by itself, and stores the part
that it reached. -/
theorem run_within
    (view : τ → σ)
    (store : σ → τ → τ)
    (step : Step σ α)
    (s : τ) :
    (within view store step).run s =
      ((step.run (view s)).1, store (step.run (view s)).2 s) :=
  rfl

/-- Steps that run alike are the same. -/
theorem ext_run
    {first second : Step σ α}
    (alike : ∀ s, first.run s = second.run s) :
    first = second := by
  cases first
  cases second
  exact congrArg Step.mk (funext alike)

/-- A step followed by its own result is the step. -/
theorem bind_pure_self (step : Step σ α) : step >>= pure = step := by
  apply ext_run
  intro s
  rw [run_bind]
  split
  · rename_i a reached ended
    rw [run_pure, ended]
  · rename_i interrupt reached ended
    rw [ended]

/-- It does not matter how three steps in a row are grouped. -/
theorem bind_bind
    (first : Step σ α)
    (next : α → Step σ β)
    (last : β → Step σ γ) :
    first >>= next >>= last = first >>= fun a => next a >>= last := by
  apply ext_run
  intro s
  cases firstEnded : first.run s with
  | mk outcome reached =>
      cases outcome with
      | ok a =>
          rw [run_bind_of_ok firstEnded, run_bind, run_bind_of_ok firstEnded]
          rfl
      | error interrupt =>
          rw [run_bind_of_error firstEnded,
            run_bind_of_error (run_bind_of_error firstEnded next)]

instance : LawfulMonad (Step σ) :=
  LawfulMonad.mk' (Step σ) bind_pure_self (fun _ _ => rfl) bind_bind

end Step

end SchemaProbe

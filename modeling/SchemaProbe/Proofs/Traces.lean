import SchemaProbe.Proofs.Requesting

namespace SchemaProbe

/-!
# Traces of programs

What a program does on a surface is a list of marks: the statements that it comes
to, what it asks for and where, which variables it sets, and which it tests.  A
trace is read off the runs of the statements, each from the state that the
statements before it have reached.
-/

/-- Marks that are left from where a step ends well. -/
def Step.follow
    (step : Step σ α)
    (s : σ)
    (next : α → σ → List β) :
    List β :=
  match step.run s with
  | (.ok a, reached) => next a reached
  | (.error _, _) => []

/-- What is left after a step that ended well. -/
theorem Step.follow_of_ok
    {step : Step σ α}
    {s reached : σ}
    {a : α}
    (ended : step.run s = (.ok a, reached))
    (next : α → σ → List β) :
    step.follow s next = next a reached := by
  rw [follow, ended]

/-- Nothing is left after an interrupt. -/
theorem Step.follow_of_error
    {step : Step σ α}
    {s reached : σ}
    {interrupt : Interrupt}
    (ended : step.run s = (.error interrupt, reached))
    (next : α → σ → List β) :
    step.follow s next = [] := by
  rw [follow, ended]

/-- Something that a program does.  A place leads to a statement through the
statements that it is part of; what is asked of a decoder or a container is asked
where that stands. -/
inductive Mark
  | reached (place : List Nat)
  | asked (role : Role) (relative : Path) (request : Request TypeTerm KeyTerm)
  | stored (name : String) (request : Request TypeTerm KeyTerm)
  | tested (name : String)

/-- The marks of a loop to the end of a sequence. -/
def traceToEnd
    (isAtEnd : Run σ Bool)
    (body : Run σ Outcome)
    (mark : Mark)
    (bodyTrace : Frame σ × Store → List Mark) :
    Nat → Frame σ × Store → List Mark
  | 0, _ => []
  | bound + 1, s =>
    mark :: isAtEnd.follow s fun ends begun =>
      if ends then []
      else
        bodyTrace begun ++ body.follow begun fun outcome reached =>
          match outcome with
          | .gave _ => []
          | .went _ => traceToEnd isAtEnd body mark bodyTrace bound reached

mutual

/-- The marks of a statement at a place.  What other types read, and loops over keys,
are not looked into. -/
def Statement.trace
    (surface : Surface σ)
    (delegate : Delegate σ)
    (place : List Nat) :
    Statement → Frame σ × Store → List Mark
  | .request on written store, s =>
    .reached place :: (Run.handle on).follow s fun h _ =>
      .asked h.role h.relative written ::
        (Statement.run surface delegate (.request on written store)).follow s fun _ _ =>
          store.toList.map (Mark.stored · written)
  | .untilEnd on body, s =>
    .reached place :: (Run.handle on).follow s fun h opened =>
      .asked h.role h.relative .isAtEnd ::
        (Run.onSurface (surface.isAtEnd h)).follow opened fun _ begun =>
          .asked h.role h.relative .count ::
            (Run.onSurface (surface.count h)).follow begun fun count counted =>
              traceToEnd (Run.onSurface (surface.isAtEnd h))
                (Statement.runAll surface delegate body) (.asked h.role h.relative .isAtEnd)
                (Statement.traceAll surface delegate place 0 body) (count + idleRounds) counted
  | .branch subject expected agreed otherwise, s =>
    .reached place :: .tested subject :: (Run.binding subject).follow s fun reply _ =>
      if expected.agrees reply.toValue.document then
        Statement.traceAll surface delegate (place ++ [0]) 0 agreed s
      else Statement.traceAll surface delegate (place ++ [1]) 0 otherwise s
  | .attempt body handler, s =>
    .reached place :: Statement.traceAll surface delegate (place ++ [0]) 0 body s ++
      (Step.attempt (Statement.runAll surface delegate body)).follow s fun outcome reached =>
        match outcome with
        | .ok _ => []
        | .error _ => Statement.traceAll surface delegate (place ++ [1]) 0 handler reached
  | .delegate _ _ _, _ | .forKeys _ _ _, _ | .give _, _ | .fail _ _ _, _ => [.reached place]

/-- The marks of statements, from one with a number on, within a place. -/
def Statement.traceAll
    (surface : Surface σ)
    (delegate : Delegate σ)
    (place : List Nat)
    (number : Nat) :
    List Statement → Frame σ × Store → List Mark
  | [], _ => []
  | first :: rest, s =>
    first.trace surface delegate (place ++ [number]) s ++
      (first.run surface delegate).follow s fun outcome reached =>
        match outcome with
        | .gave _ => []
        | .went _ => Statement.traceAll surface delegate place (number + 1) rest reached

end

/-- The marks of a program on a decoder. -/
def Program.trace
    (surface : Surface σ)
    (delegate : Delegate σ)
    (body : Program)
    (decoder : Handle)
    (s : σ × Store) :
    List Mark :=
  Statement.traceAll surface delegate [] 0 body (.start s.1 decoder, s.2)

/-- How statements end. -/
inductive Ending
  | finished
  | gave
  | raised
  | exhausted
  deriving Repr, DecidableEq

/-- How statements end by their outcome. -/
def Ending.of : Except Interrupt Outcome → Ending
  | .ok (.went _) => .finished
  | .ok (.gave _) => .gave
  | .error (.fault _) => .raised
  | .error .exhausted => .exhausted

/-- How a program ends on a decoder. -/
def Program.ending
    (surface : Surface σ)
    (delegate : Delegate σ)
    (body : Program)
    (decoder : Handle)
    (s : σ × Store) :
    Ending :=
  .of ((Statement.runAll surface delegate body).run (.start s.1 decoder, s.2)).1

/-! ## What is tested -/

/-- Whether a request is answered by the same value in both passes of a probe: it is
not one for a value of a type, for keys, for a path, or for something to be opened. -/
def Request.isSteady : Request T K → Bool
  | .decodeIfPresent _ _ | .decodeNull _ | .contains _ | .count | .isAtEnd => true
  | _ => false

/-- The variables that hold something read, a path or something opened, after a
mark. -/
def Mark.leaves (unsteady : List String) : Mark → List String
  | .stored name request =>
    if request.isSteady then unsteady.filter (· != name) else name :: unsteady
  | _ => unsteady

/-- The variables that hold something read, a path or something opened, after
marks. -/
def leavesAll (unsteady : List String) (marks : List Mark) : List String :=
  marks.foldl Mark.leaves unsteady

/-- Whether a mark is no test of one of some variables. -/
def Mark.isBlindTo (unsteady : List String) : Mark → Bool
  | .tested name => !unsteady.contains name
  | _ => true

/-- Whether no mark is the test of a variable that holds something read, a path or
something opened. -/
def areBlind : List String → List Mark → Bool
  | _, [] => true
  | unsteady, mark :: rest => mark.isBlindTo unsteady && areBlind (mark.leaves unsteady) rest

@[simp]
theorem leavesAll_nil (unsteady : List String) : leavesAll unsteady [] = unsteady :=
  rfl

@[simp]
theorem leavesAll_cons
    (unsteady : List String)
    (mark : Mark)
    (rest : List Mark) :
    leavesAll unsteady (mark :: rest) = leavesAll (mark.leaves unsteady) rest :=
  rfl

theorem leavesAll_append
    (unsteady : List String)
    (marks others : List Mark) :
    leavesAll unsteady (marks ++ others) = leavesAll (leavesAll unsteady marks) others :=
  List.foldl_append

/-- Marks are blind if the first of them are, and then the others. -/
theorem areBlind_append
    (unsteady : List String)
    (marks others : List Mark) :
    areBlind unsteady (marks ++ others) =
      (areBlind unsteady marks && areBlind (leavesAll unsteady marks) others) := by
  induction marks generalizing unsteady with
  | nil => rfl
  | cons mark rest inductionHypothesis =>
      rw [List.cons_append, areBlind, areBlind, inductionHypothesis, leavesAll_cons,
        Bool.and_assoc]

/-! ## Straight programs -/

/-- Whether a step ends in the same way from every world that finding out about types
can lead to: always with a result, or always with a fault. -/
def World.IsSteady (start : World) (find : Step World α) : Prop :=
  (∀ w, start.Reaches w → ∃ a reached, find.run w = (.ok a, reached)) ∨
    ∀ w, start.Reaches w → ∃ f reached, find.run w = (.error (.fault f), reached)

/-- Whether the hook that lists the cases of a type's class returns, if it has one. -/
def TypeForm.HooksReturn (start : World) (a : TypeForm) : Prop :=
  ∀ c, a.listed? = some c → ∀ w, start.Reaches w → ∃ values reached,
    (classCases c).run w = (.ok values, reached)

/-- Whether a written type is the same type wherever finding out about types leads, or
never one, and has no hooks that raise. -/
structure TypeTerm.IsRequested (start : World) (t : TypeTerm) : Prop where
  steady : start.IsSteady (t.resolve .strict)
  returns : ∀ w a reached, start.Reaches w → (t.resolve .strict).run w = (.ok a, reached) →
    a.HooksReturn start

mutual

/-- Whether a statement has literal keys, neither loops over keys nor delegates, and
requests types whose hooks do not raise. -/
def Statement.IsStraight (start : World) : Statement → Prop
  | .request _ written _ =>
    (∀ key, written.key? = some key → ∃ name, key = .literal name) ∧
      ∀ t, written.form? = some t → t.IsRequested start
  | .untilEnd _ body => Statement.AreStraight start body
  | .branch _ _ agreed otherwise =>
    Statement.AreStraight start agreed ∧ Statement.AreStraight start otherwise
  | .attempt body handler => Statement.AreStraight start body ∧ Statement.AreStraight start handler
  | .give (.value t) => start.IsSteady (t.resolve .strict)
  | .give (.variable _) | .fail _ _ _ => True
  | .delegate _ _ _ | .forKeys _ _ _ => False

/-- Whether statements are straight. -/
def Statement.AreStraight (start : World) : List Statement → Prop
  | [] => True
  | first :: rest => first.IsStraight start ∧ Statement.AreStraight start rest

end

end SchemaProbe

import SchemaProbe.Proofs.Containing
import SchemaProbe.Proofs.Elements

namespace SchemaProbe

/-!
# What programs ask of sequences

The log of a program keeps the requests that it makes itself, in order, also those
that are refused and those whose fault the program catches; what types without a
program ask is asked of what they open themselves.  A sequence that a request for an
element was made of is at its end from then on, if the surface counts that request.
A loop to the end of a sequence therefore runs its body once if the body asks for an
element.
-/

open Step

/-! ## Logs of programs -/

/-- A request that a program made, and whether it was answered. -/
structure Inquiry where
  handle : Handle
  request : Request TypeForm String
  answered : Bool

/-- Whether a request was one for an element of a sequence, and counted. -/
structure Inquiry.Reads (e : Inquiry) (slot : Nat) (refused : Bool) : Prop where
  role : e.handle.role = .unkeyed
  slot : e.handle.slot = slot
  request : e.request.readsElement = true
  counted : refused = false → e.answered = true

/-- What is asked in a loop over keys. -/
def inquiriesForEach
    (name : String)
    (body : Run σ Outcome)
    (log : Frame σ × Store → List Inquiry) :
    List Value → Frame σ × Store → List Inquiry
  | [], _ => []
  | k :: rest, s =>
    (Run.store (some name) (.value k)).follow s fun _ bound =>
      log bound ++ body.follow bound fun outcome reached =>
        match outcome with
        | .gave _ => []
        | .went _ => inquiriesForEach name body log rest reached

/-- What is asked by the body of a loop to the end of a sequence. -/
def inquiriesToEnd
    (isAtEnd : Run σ Bool)
    (body : Run σ Outcome)
    (log : Frame σ × Store → List Inquiry) :
    Nat → Frame σ × Store → List Inquiry
  | 0, _ => []
  | bound + 1, s =>
    isAtEnd.follow s fun ends begun =>
      if ends then []
      else
        log begun ++ body.follow begun fun outcome reached =>
          match outcome with
          | .gave _ => []
          | .went _ => inquiriesToEnd isAtEnd body log bound reached

mutual

/-- What a statement asks; `delegated` is what other types ask that it delegates to. -/
def Statement.inquiries
    (surface : Surface σ)
    (delegate : Delegate σ)
    (delegated : Reader → Handle → σ × Store → List Inquiry) :
    Statement → Frame σ × Store → List Inquiry
  | .request on written _ => fun s =>
    (Run.handle on).follow s fun h found =>
      if !written.isKnownTo h.role then []
      else
        (Run.request written).follow found fun settled ready =>
          [⟨h, settled, ((surface.ask h settled).run (ready.1.surface, ready.2)).1.isOk⟩]
  | .delegate on type _ => fun s =>
    (Run.binding on).follow s fun target found =>
      (Step.shared (sharedReader type)).follow found fun reader ready =>
        match target with
        | .handle h => delegated reader h (ready.1.surface, ready.2)
        | .value _ => []
  | .forKeys on key body => fun s =>
    (Run.handle on).follow s fun h found =>
      (Run.onSurface (surface.keys h)).follow found fun keys listed =>
        inquiriesForEach key (Statement.runAll surface delegate body)
          (Statement.inquiriesAll surface delegate delegated body) keys listed
  | .untilEnd on body => fun s =>
    (Run.handle on).follow s fun h found =>
      (Run.onSurface (surface.isAtEnd h)).follow found fun _ begun =>
        (Run.onSurface (surface.count h)).follow begun fun count counted =>
          inquiriesToEnd (Run.onSurface (surface.isAtEnd h))
            (Statement.runAll surface delegate body)
            (Statement.inquiriesAll surface delegate delegated body) (count + idleRounds) counted
  | .branch subject expected agreed otherwise => fun s =>
    (Run.binding subject).follow s fun reply found =>
      if expected.agrees reply.toValue.document then
        Statement.inquiriesAll surface delegate delegated agreed found
      else Statement.inquiriesAll surface delegate delegated otherwise found
  | .attempt body handler => fun s =>
    Statement.inquiriesAll surface delegate delegated body s ++
      (Step.attempt (Statement.runAll surface delegate body)).follow s fun outcome reached =>
        match outcome with
        | .ok _ => []
        | .error _ => Statement.inquiriesAll surface delegate delegated handler reached
  | .give _ | .fail _ _ _ => fun _ => []

/-- What statements ask. -/
def Statement.inquiriesAll
    (surface : Surface σ)
    (delegate : Delegate σ)
    (delegated : Reader → Handle → σ × Store → List Inquiry) :
    List Statement → Frame σ × Store → List Inquiry
  | [] => fun _ => []
  | first :: rest => fun s =>
    first.inquiries surface delegate delegated s ++
      (first.run surface delegate).follow s fun outcome reached =>
        match outcome with
        | .gave _ => []
        | .went _ => Statement.inquiriesAll surface delegate delegated rest reached

end

/-- What the program of a type asks, with delegation down to a depth. -/
def Reader.inquiries (surface : Surface σ) : Nat → Reader → Handle → σ × Store → List Inquiry
  | 0, _, _, _ => []
  | depth + 1, .program _ body, decoder, s =>
    Statement.inquiriesAll surface (Reader.runTo surface depth) (Reader.inquiries surface depth) body
      (.start s.1 decoder, s.2)
  | _ + 1, _, _, _ => []

/-! ## What a log tells -/

/-- Whether a sequence is there and has been read so far at least. -/
def HasRead (size? : σ → Nat → Option Nat) (slot least : Nat) (s : σ) : Prop :=
  ∃ n, least ≤ n ∧ size? s slot = some n

/-- Whether what is run takes nothing back, and what its log says was asked for has been
read when it ends. -/
structure Tells
    (size? : σ → Nat → Option Nat)
    (refused : Bool)
    (slot : Nat)
    (run : Run σ α)
    (log : Frame σ × Store → List Inquiry) :
    Prop where
  keeps : ∀ least s, HasRead size? slot least s.1.surface →
    HasRead size? slot least (run.run s).2.1.surface
  tells : ∀ s, HasRead size? slot 0 s.1.surface → ∀ e ∈ log s, e.Reads slot refused →
    HasRead size? slot 1 (run.run s).2.1.surface

section

variable {σ : Type} {size? : σ → Nat → Option Nat} {refused : Bool} {slot : Nat}
  {log : Frame σ × Store → List Inquiry}

/-- Steps that end tied to themselves keep what is kept. -/
theorem keeps_of_tied
    {P : σ → Prop}
    {good : α → α → Prop}
    {run : Run σ α}
    (tied : Tied ((Regime.free Store).bond.framed P) good run run)
    (s : Frame σ × Store)
    (isKept : P s.1.surface) :
    P (run.run s).2.1.surface := by
  cases tied s s ⟨⟨rfl, isKept⟩, rfl, trivial⟩ with
  | ok ran _ ties _ =>
      rw [ran]
      exact ties.1.2
  | error ran _ ties _ =>
      rw [ran]
      exact ties.1.2
  | lapsed _ lapses => exact lapses.elim

namespace Tells

/-- What takes nothing back asks nothing. -/
theorem silent
    {run : Run σ α}
    (tied : ∀ least, Tied ((Regime.free Store).bond.framed (HasRead size? slot least))
      (Same anything) run run) :
    Tells size? refused slot run fun _ => [] :=
  ⟨fun least s isKept => keeps_of_tied (tied least) s isKept, fun _ _ _ absent => nomatch absent⟩

/-- One run after another asks what the first does, and what the other does from where
the first one ends. -/
theorem bind
    {first : Run σ α}
    {next : α → Run σ β}
    {nextLog : α → Frame σ × Store → List Inquiry}
    (tells : Tells size? refused slot first log)
    (nextTells : ∀ a, Tells size? refused slot (next a) (nextLog a)) :
    Tells size? refused slot (first >>= next) fun s => log s ++ first.follow s nextLog := by
  refine ⟨fun least s isKept => ?_, fun s isThere e member reads => ?_⟩
  · have firstKeeps := tells.keeps least s isKept
    rw [run_bind]
    split
    · rename_i a reached ran
      rw [ran] at firstKeeps
      exact (nextTells a).keeps least reached firstKeeps
    · rename_i interrupt reached ran
      rwa [ran] at firstKeeps
  · have firstThere := tells.keeps 0 s isThere
    rw [run_bind]
    split
    · rename_i a reached ran
      rw [ran] at firstThere
      rw [follow_of_ok ran] at member
      rcases List.mem_append.mp member with asked | askedNext
      · have firstTells := tells.tells s isThere e asked reads
        rw [ran] at firstTells
        exact (nextTells a).keeps 1 reached firstTells
      · exact (nextTells a).tells reached firstThere e askedNext reads
    · rename_i interrupt reached ran
      rw [follow_of_error ran, List.append_nil] at member
      have firstTells := tells.tells s isThere e member reads
      rwa [ran] at firstTells

/-- What follows a run that asks nothing asks the same from where that ends. -/
theorem after
    {first : Run σ α}
    {next : α → Run σ β}
    {nextLog : α → Frame σ × Store → List Inquiry}
    (tells : Tells size? refused slot first fun _ => [])
    (nextTells : ∀ a, Tells size? refused slot (next a) (nextLog a)) :
    Tells size? refused slot (first >>= next) fun s => first.follow s nextLog :=
  tells.bind nextTells

/-- What is followed by a run that asks nothing asks all that there is. -/
theorem before
    {first : Run σ α}
    {next : α → Run σ β}
    (tells : Tells size? refused slot first log)
    (nextTells : ∀ a, Tells size? refused slot (next a) fun _ => []) :
    Tells size? refused slot (first >>= next) log := by
  have both := tells.bind nextTells
  have nothing (s : Frame σ × Store) : first.follow s (fun _ _ => ([] : List Inquiry)) = [] := by
    rw [Step.follow]
    split <;> rfl
  simpa only [nothing, List.append_nil] using both

/-- A result that is given asks nothing. -/
theorem pure (a : α) : Tells size? refused slot (Pure.pure a) fun _ => [] :=
  .silent fun _ => .pure_same trivial

/-- A fault asks nothing. -/
theorem fail (f : Fault) : Tells size? refused slot (Step.fail f : Run σ α) fun _ => [] :=
  .silent fun _ => .fail trivial

/-- What is run before a result is given ends with what it asks. -/
theorem sequence
    {first next : Run σ Outcome}
    {nextLog : Frame σ × Store → List Inquiry}
    (tells : Tells size? refused slot first log)
    (nextTells : Tells size? refused slot next nextLog) :
    Tells size? refused slot
      (first >>= fun outcome =>
        match outcome with
        | .gave result => Pure.pure (.gave result)
        | .went _ => next)
      fun s => log s ++ first.follow s fun outcome reached =>
        match outcome with
        | .gave _ => []
        | .went _ => nextLog reached := by
  refine tells.bind fun outcome => ?_
  cases outcome with
  | gave result => exact .pure _
  | went reply => exact nextTells

/-- What is tried asks what it does, and after a fault what handles that. -/
theorem recover
    {run handler : Run σ Outcome}
    {handlerLog : Frame σ × Store → List Inquiry}
    (tells : Tells size? refused slot run log)
    (handlerTells : Tells size? refused slot handler handlerLog) :
    Tells size? refused slot (Step.recover run fun _ => handler) fun s =>
      log s ++ (Step.attempt run).follow s fun outcome reached =>
        match outcome with
        | .ok _ => []
        | .error _ => handlerLog reached := by
  have state (s : Frame σ × Store) : ((Step.attempt run).run s).2 = (run.run s).2 := by
    rw [run_attempt]
    rcases run.run s with ⟨(_ | _) | _, reached⟩ <;> rfl
  have attempts : Tells size? refused slot (Step.attempt run) log := by
    refine ⟨fun least s isKept => ?_, fun s isThere e member reads => ?_⟩
    · rw [state]
      exact tells.keeps least s isKept
    · rw [state]
      exact tells.tells s isThere e member reads
  refine attempts.bind fun outcome => ?_
  cases outcome with
  | ok a => exact .pure a
  | error f => exact handlerTells

/-- A loop over keys asks what its body does. -/
theorem forEach
    {body : Run σ Outcome}
    (tells : Tells size? refused slot body log)
    (name : String)
    (keys : List Value) :
    Tells size? refused slot (forEachKey name body keys) (inquiriesForEach name body log keys) := by
  induction keys with
  | nil => exact .pure _
  | cons k rest inductionHypothesis =>
      exact (Tells.silent fun _ => store_tied (some name) (.value k)).after fun _ =>
        tells.sequence inductionHypothesis

/-- A loop to the end of a sequence asks what its body does. -/
theorem toEnd
    {isAtEnd : Run σ Bool}
    {body : Run σ Outcome}
    (looks : Tells size? refused slot isAtEnd fun _ => [])
    (tells : Tells size? refused slot body log)
    (bound : Nat) :
    Tells size? refused slot (repeatToEnd isAtEnd body bound)
      (inquiriesToEnd isAtEnd body log bound) := by
  induction bound with
  | zero => exact .silent fun _ => .exhausted trivial
  | succ bound inductionHypothesis =>
      refine looks.after fun ends => ?_
      cases ends with
      | true => exact .pure _
      | false => exact tells.sequence inductionHypothesis

end Tells

/-! ## Surfaces that count -/

variable {surface : Surface σ} {delegate : Delegate σ}
  {delegated : Reader → Handle → σ × Store → List Inquiry} {least : Nat}

/-- What keeps something of the private state ends tied to itself. -/
theorem tied_of_keeps
    {P : σ → Prop}
    {step : Step (σ × Store) α}
    (keeps : ∀ s, P s.1 → P (step.run s).2.1) :
    Tied ((Regime.free Store).bond.alongside P) (Same anything) step step := by
  rintro s ⟨part, t⟩ ⟨⟨rfl, isKept⟩, rfl, -⟩
  have kept := keeps s isKept
  cases ran : step.run s with
  | mk outcome reached =>
      rw [ran] at kept
      cases outcome with
      | ok a => exact .ok ran ran ⟨⟨rfl, kept⟩, rfl, trivial⟩ ⟨rfl, trivial⟩
      | error interrupt => exact .error ran ran ⟨⟨rfl, kept⟩, rfl, trivial⟩ trivial

/-- The regime of steps that take nothing back of what has been read of a sequence. -/
def readingOn (size? : σ → Nat → Option Nat) (slot least : Nat) : Regime (σ × Store) where
  holds s := HasRead size? slot least s.1
  allows _ := True

namespace Surface.Counts

/-- A surface that counts takes nothing back when it answers. -/
theorem answer_alike
    (counts : surface.Counts size? refused)
    (h : Handle)
    (request : Request TypeForm String) :
    Alike (readingOn size? slot least) anything (surface.answer h request)
      (surface.answer h request) := by
  rintro s ⟨n, isEnough, found⟩
  obtain ⟨m, isMore, reached⟩ := counts.keeps h request s slot n found
  exact .of_run ⟨m, Nat.le_trans isEnough isMore, reached⟩ (fun _ _ => trivial) fun _ _ => trivial

/-- A surface that counts takes nothing back when it is asked. -/
theorem ask_alike
    (counts : surface.Counts size? refused)
    (h : Handle)
    (request : Request TypeForm String) :
    Alike (readingOn size? slot least) anything (surface.ask h request)
      (surface.ask h request) := by
  unfold Surface.ask
  split
  · exact .fail trivial
  · split
    · exact .fail trivial
    · split
      · exact .pure trivial
      · exact counts.answer_alike h _

/-- Reading the elements of a sequence takes nothing back of any sequence. -/
theorem readSequence_alike
    (counts : surface.Counts size? refused)
    (decoder : Handle)
    (item : TypeForm) :
    Alike (readingOn size? slot least) anything (readSequence surface decoder item)
      (readSequence surface decoder item) := by
  have asks {α : Type} (h : Handle) (request : Request TypeForm String) {next : Reply → Step (σ × Store) α}
      (nextAlike : ∀ reply, Alike (readingOn size? slot least) anything (next reply) (next reply)) :
      Alike (readingOn size? slot least) anything (surface.ask h request >>= next)
        (surface.ask h request >>= next) :=
    (counts.ask_alike h request).bind fun reply _ => nextAlike reply
  have values (h : Handle) (request : Request TypeForm String) :
      Alike (readingOn size? slot least) anything (surface.value h request)
        (surface.value h request) :=
    asks h request fun _ => .pure trivial
  have opens : Alike (readingOn size? slot least) anything (surface.openHandle decoder .openUnkeyed)
      (surface.openHandle decoder .openUnkeyed) := by
    refine asks decoder _ fun reply => ?_
    cases reply with
    | handle opened => exact .pure trivial
    | value v => exact .fail trivial
  refine opens.bind fun container _ => ?_
  have sizes : Alike (readingOn size? slot least) anything (surface.count container)
      (surface.count container) := by
    refine (values container .count).bind fun v _ => ?_
    split <;> exact .pure trivial
  refine sizes.bind fun count _ => ?_
  induction count + 1 with
  | zero => exact .exhausted trivial
  | succ bound inductionHypothesis =>
      have looks : Alike (readingOn size? slot least) anything (surface.isAtEnd container)
          (surface.isAtEnd container) :=
        asks container .isAtEnd fun _ => .pure trivial
      refine looks.bind fun ends _ => ?_
      split
      · exact .pure trivial
      · exact (values container (.decode item none)).bind fun _ _ =>
          inductionHypothesis.bind fun _ _ => .pure trivial

/-- A surface that counts answers like itself, whatever it is asked for. -/
theorem answersTied
    (counts : surface.Counts size? refused)
    (slot least : Nat) :
    surface.AnswersTied (Regime.free Store).bond anything surface (HasRead size? slot least) where
  answer h request _ := tied_of_keeps fun s isKept => (counts.answer_alike h request s isKept).holds_run
  sequence decoder item _ := tied_of_keeps fun s isKept =>
    (counts.readSequence_alike decoder item s isKept).holds_run

end Surface.Counts

/-- Every reader reads in the same way from the same state. -/
theorem Reader.isTied_free (reader : Reader) :
    reader.IsTied (Regime.free Store).bond anything anything := by
  refine Reader.isTied_of_same (s := .initial) trivial reader fun need _ => ?_
  cases need with
  | forms find => exact (Regime.free_alike (inWorld find)).mono fun _ _ _ _ => trivial
  | delegate type => exact Regime.free_alike (sharedReader type)
  | endOfSequence => exact trivial

/-- What a program asks on a surface that counts has been read when it ends. -/
theorem Surface.Counts.onSurface_tells
    (counts : surface.Counts size? refused)
    (h : Handle)
    (request : Request TypeForm String) :
    Tells size? refused slot (Run.onSurface (surface.ask h request)) fun s =>
      [⟨h, request, ((surface.ask h request).run (s.1.surface, s.2)).1.isOk⟩] := by
  refine ⟨fun least s isKept => ?_, fun s isThere e member reads => ?_⟩
  · exact (counts.ask_alike h request (s.1.surface, s.2) isKept).holds_run
  · obtain rfl := List.mem_singleton.mp member
    obtain ⟨isUnkeyed, rfl, reads, counted⟩ := reads
    obtain ⟨n, -, found⟩ := isThere
    refine ⟨n + 1, Nat.le_add_left 1 n, ?_⟩
    refine counts.counts h request (s.1.surface, s.2) n isUnkeyed reads found fun isRefused => ?_
    have answered := counted isRefused
    cases outcome : ((surface.ask h request).run (s.1.surface, s.2)).1 with
    | ok reply => exact ⟨reply, rfl⟩
    | error interrupt =>
        rw [outcome] at answered
        cases answered

/-- Whether what delegated types ask has been read when they end. -/
def DelegatesTell
    (size? : σ → Nat → Option Nat)
    (refused : Bool)
    (slot : Nat)
    (delegate : Delegate σ)
    (delegated : Reader → Handle → σ × Store → List Inquiry) :
    Prop :=
  ∀ reader h, Tells size? refused slot (Run.onSurface (delegate reader h)) fun s =>
    delegated reader h (s.1.surface, s.2)

/-- What is found out in the shared state asks nothing. -/
theorem Tells.inStore (step : Step Store α) :
    Tells size? refused slot (Step.shared step : Run σ α) fun _ => [] :=
  .silent fun _ => (tied_iff_alike.mpr (Regime.free_alike step)).shared

/-- What is asked of a surface that counts and is no request for an element tells
nothing. -/
theorem Tells.onSurface
    {step : Step (σ × Store) α}
    (tied : ∀ least, Tied ((Regime.free Store).bond.alongside (HasRead size? slot least))
      (Same anything) step step) :
    Tells size? refused slot (Run.onSurface step) fun _ => [] :=
  .silent fun least => onSurface_tied (tied least)

mutual

/-- What a statement asks has been read when it ends. -/
theorem Statement.run_tells
    (counts : surface.Counts size? refused)
    (delegates : DelegatesTell size? refused slot delegate delegated)
    (statement : Statement) :
    Tells size? refused slot (statement.run surface delegate)
      (statement.inquiries surface delegate delegated) := by
  have faults : (Regime.free Store).bond.AllowsFaults := fun _ => trivial
  have answers (least : Nat) := counts.answersTied slot least
  cases statement with
  | request on written name =>
      unfold Statement.run Statement.inquiries
      refine (Tells.silent fun _ => handle_tied faults on).after fun h => ?_
      split
      · exact .fail _
      · have settles (least : Nat) :
            Tied ((Regime.free Store).bond.framed (HasRead size? slot least)) (Same anything)
              (Run.request written) (Run.request written) :=
          (request_tied faults fun t _ => tied_iff_alike.mpr
            (Regime.free_alike (inWorld (t.resolve .strict)))).mono_same fun _ _ => trivial
        refine (Tells.silent settles).after fun settled => ?_
        refine (counts.onSurface_tells h settled).before fun reply => ?_
        refine .silent fun _ => ?_
        split
        · exact (collect_tied _).bind_same fun _ _ =>
            (store_tied name reply).bind_same fun _ _ => .pure_same trivial
        · exact (store_tied name reply).bind_same fun _ _ => .pure_same trivial
  | delegate on type name =>
      unfold Statement.run Statement.inquiries
      refine (Tells.silent fun _ => binding_tied faults on).after fun target => ?_
      refine (Tells.inStore (sharedReader type)).after fun reader => ?_
      cases target with
      | handle h =>
          refine (delegates reader h).before fun v => ?_
          exact .silent fun _ => (collect_tied v).bind_same fun _ _ =>
            (store_tied name (.value v)).bind_same fun _ _ => .pure_same trivial
      | value v => exact .fail _
  | forKeys on key body =>
      unfold Statement.run Statement.inquiries
      refine (Tells.silent fun _ => handle_tied faults on).after fun h => ?_
      refine (Tells.onSurface fun least => (answers least).keys faults h).after fun keys => ?_
      exact (Statement.runAll_tells counts delegates body).forEach key keys
  | untilEnd on body =>
      unfold Statement.run Statement.inquiries
      refine (Tells.silent fun _ => handle_tied faults on).after fun h => ?_
      have looks : Tells size? refused slot (Run.onSurface (surface.isAtEnd h)) fun _ => [] :=
        .onSurface fun least => (answers least).isAtEnd faults h
      refine looks.after fun _ => ?_
      refine (Tells.onSurface fun least => (answers least).count faults h).after fun count => ?_
      exact looks.toEnd (Statement.runAll_tells counts delegates body) _
  | branch subject expected agreed otherwise =>
      unfold Statement.run Statement.inquiries
      refine (Tells.silent fun _ => binding_tied faults subject).after fun reply => ?_
      split
      · exact (Statement.runAll_tells counts delegates agreed).before fun _ => .pure _
      · exact (Statement.runAll_tells counts delegates otherwise).before fun _ => .pure _
  | attempt body handler =>
      unfold Statement.run Statement.inquiries
      exact ((Statement.runAll_tells counts delegates body).recover
        (Statement.runAll_tells counts delegates handler)).before fun _ => .pure _
  | give result =>
      unfold Statement.run Statement.inquiries
      cases result with
      | value v => exact (Tells.inStore (inWorld (v.resolve .strict))).before fun _ => .pure _
      | «variable» name =>
          have binds : Tells size? refused slot (Run.binding name) fun _ => [] :=
            .silent fun _ => binding_tied faults name
          exact (binds.before fun reply => .pure _).before fun _ => .pure _
  | fail kind message location =>
      unfold Statement.run Statement.inquiries
      exact .fail _
termination_by structural statement

/-- What statements ask has been read when they end. -/
theorem Statement.runAll_tells
    (counts : surface.Counts size? refused)
    (delegates : DelegatesTell size? refused slot delegate delegated)
    (body : List Statement) :
    Tells size? refused slot (Statement.runAll surface delegate body)
      (Statement.inquiriesAll surface delegate delegated body) := by
  cases body with
  | nil =>
      unfold Statement.runAll Statement.inquiriesAll
      exact .pure _
  | cons first rest =>
      unfold Statement.runAll Statement.inquiriesAll
      exact (Statement.run_tells counts delegates first).sequence
        (Statement.runAll_tells counts delegates rest)
termination_by structural body

end

/-- The result of a program asks nothing. -/
theorem Outcome.result_tells
    (maker : Maker)
    (outcome : Outcome) :
    Tells size? refused slot (outcome.result maker : Run σ Value) fun _ => [] := by
  cases outcome with
  | gave result => exact .pure result
  | went reply =>
      refine .silent fun _ => .current_bind ?_
      rintro s ⟨frame, t⟩ ⟨⟨rfl, isKept⟩, rfl, -⟩
      exact Tied.ofExcept (fun _ => trivial) (fun _ _ => trivial) s s ⟨⟨rfl, isKept⟩, rfl, trivial⟩

/-- What the programs of types ask has been read when the types have been read. -/
theorem Reader.runTo_tells
    (counts : surface.Counts size? refused)
    (depth : Nat) :
    DelegatesTell size? refused slot (Reader.runTo surface depth)
      (Reader.inquiries surface depth) := by
  induction depth with
  | zero => exact fun reader h => .onSurface fun _ => .fail trivial
  | succ depth inductionHypothesis =>
      intro reader h
      have reads : Tells size? refused slot
          (Run.onSurface (Reader.runTo surface (depth + 1) reader h)) fun _ => [] :=
        .onSurface fun least => Reader.runTo_tied (Regime.free Store).bond_makes (fun _ => trivial)
          (counts.answersTied slot least) (fun other _ => other.isTied_free) (depth + 1) trivial h
      cases reader with
      | program maker body =>
          have whole := (Statement.runAll_tells counts inductionHypothesis body).before
            (Outcome.result_tells maker)
          exact ⟨reads.keeps, fun s isThere e member => whole.tells (.start s.1.surface h, s.2)
            isThere e member⟩
      | _ => exact reads

/-- What statements ask that are part of a program has been read when they end. -/
theorem Statement.runAll_tells_runTo
    (counts : surface.Counts size? refused)
    (depth : Nat)
    (body : List Statement) :
    Tells size? refused slot (Statement.runAll surface (Reader.runTo surface depth) body)
      (Statement.inquiriesAll surface (Reader.runTo surface depth) (Reader.inquiries surface depth)
        body) :=
  Statement.runAll_tells counts (Reader.runTo_tells counts depth) body

/-! ## Loops to the end of a sequence -/

section

variable {h : Handle} {s : Frame σ × Store} {n : Nat}

/-- A sequence that has been read is at its end, and asking whether it is changes
nothing. -/
theorem Surface.Counts.isAtEnd_run
    (counts : surface.Counts size? refused)
    (isUnkeyed : h.role = .unkeyed)
    (found : size? s.1.surface h.slot = some n) :
    (Run.onSurface (surface.isAtEnd h)).run s = (.ok (decide (1 ≤ n)), s) := by
  rw [Run.onSurface, run_within, counts.atEnd h (s.1.surface, s.2) n isUnkeyed found]

/-- A sequence is at its end after statements that asked for one of its elements. -/
theorem Surface.Counts.isAtEnd_after
    (counts : surface.Counts size? refused)
    (depth : Nat)
    (body : List Statement)
    (isUnkeyed : h.role = .unkeyed)
    (found : size? s.1.surface h.slot = some n)
    (asks : ∃ e ∈ Statement.inquiriesAll surface (Reader.runTo surface depth)
      (Reader.inquiries surface depth) body s, e.Reads h.slot refused) :
    (Run.onSurface (surface.isAtEnd h)).run
        ((Statement.runAll surface (Reader.runTo surface depth) body).run s).2 =
      (.ok true, ((Statement.runAll surface (Reader.runTo surface depth) body).run s).2) := by
  obtain ⟨e, member, reads⟩ := asks
  obtain ⟨m, isRead, reached⟩ := (Statement.runAll_tells_runTo counts depth body).tells s
    ⟨n, Nat.zero_le n, found⟩ e member reads
  rw [counts.isAtEnd_run isUnkeyed reached, decide_eq_true isRead]

/-- A loop to the end of a sequence runs its body once if that, unless it ends the
loop itself, asks for an element. -/
theorem Surface.Counts.untilEnd_eq
    (counts : surface.Counts size? refused)
    (depth : Nat)
    {on : String}
    (body : List Statement)
    (isBound : (Run.handle on).run s = (.ok h, s))
    (isUnkeyed : h.role = .unkeyed)
    (isNew : size? s.1.surface h.slot = some 0)
    (asks : ∀ reply reached,
      (Statement.runAll surface (Reader.runTo surface depth) body).run s =
          (.ok (.went reply), reached) →
        ∃ e ∈ Statement.inquiriesAll surface (Reader.runTo surface depth)
          (Reader.inquiries surface depth) body s, e.Reads h.slot refused) :
    ((Statement.untilEnd on body).run surface (Reader.runTo surface depth)).run s =
      (Statement.runAll surface (Reader.runTo surface depth) body >>= fun outcome =>
        pure outcome.done).run s := by
  have begins := counts.isAtEnd_run (s := s) isUnkeyed isNew
  have one : (Run.onSurface (surface.count h)).run s = (.ok 1, s) := by
    rw [Run.onSurface, run_within, counts.one h (s.1.surface, s.2) isUnkeyed]
  rw [Statement.run, run_bind_of_ok isBound, run_bind_of_ok begins, run_bind_of_ok one]
  rw [Nat.add_comm, repeatToEnd, run_bind_of_ok begins]
  change (Statement.runAll surface (Reader.runTo surface depth) body >>= _).run s = _
  cases ran : (Statement.runAll surface (Reader.runTo surface depth) body).run s with
  | mk outcome reached =>
      cases outcome with
      | error interrupt => rw [run_bind_of_error ran, run_bind_of_error ran]
      | ok outcome =>
          rw [run_bind_of_ok ran, run_bind_of_ok ran]
          cases outcome with
          | gave result => rfl
          | went reply =>
              have ends := counts.isAtEnd_after depth body isUnkeyed isNew (asks reply reached ran)
              rw [ran] at ends
              exact (run_bind_of_ok ends _).trans rfl

end

end

end SchemaProbe

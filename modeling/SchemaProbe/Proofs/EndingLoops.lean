import SchemaProbe.Proofs.ElementRequests
import SchemaProbe.Proofs.Lockstep

namespace SchemaProbe

/-!
# Loops to the end of a sequence end

A program whose loops to the end of a sequence ask for an element in each round comes
to an end.  Every sequence that one of its variables holds has been opened on the
surface, so the surface counts what is asked of it, and no loop runs its body twice.
Describing types that decode themselves by such programs comes to an end like
describing types without loops.
-/

open Step

/-! ## Programs whose loops read -/

mutual

/-- Whether each round of each loop to the end of a sequence asks for an element of that
sequence, unless it ends the loop itself. -/
def Statement.KeepsReading
    (surface : Surface σ)
    (delegate : Delegate σ)
    (delegated : Reader → Handle → σ × Store → List Inquiry)
    (refused : Bool)
    (holds : Store → Prop) :
    Statement → Prop
  | .untilEnd on body =>
    (∀ s h reply reached, holds s.2 → (Run.handle on).run s = (.ok h, s) → h.role = .unkeyed →
      (Statement.runAll surface delegate body).run s = (.ok (.went reply), reached) →
        ∃ e ∈ Statement.inquiriesAll surface delegate delegated body s, e.Reads h.slot refused) ∧
      Statement.KeepReading surface delegate delegated refused holds body
  | .forKeys _ _ body => Statement.KeepReading surface delegate delegated refused holds body
  | .branch _ _ agreed otherwise =>
    Statement.KeepReading surface delegate delegated refused holds agreed ∧
      Statement.KeepReading surface delegate delegated refused holds otherwise
  | .attempt body handler =>
    Statement.KeepReading surface delegate delegated refused holds body ∧
      Statement.KeepReading surface delegate delegated refused holds handler
  | .request _ _ _ | .delegate _ _ _ | .give _ | .fail _ _ _ => True

/-- Whether the loops of statements read in each round. -/
def Statement.KeepReading
    (surface : Surface σ)
    (delegate : Delegate σ)
    (delegated : Reader → Handle → σ × Store → List Inquiry)
    (refused : Bool)
    (holds : Store → Prop) :
    List Statement → Prop
  | [] => True
  | first :: rest =>
    first.KeepsReading surface delegate delegated refused holds ∧
      Statement.KeepReading surface delegate delegated refused holds rest

end

/-- Whether the loops of a reader's program read in each round, wherever the reader was
delegated to. -/
def Reader.KeepsReading
    (surface : Surface σ)
    (refused : Bool)
    (holds : Store → Prop) :
    Reader → Prop
  | .program _ body => ∀ depth,
    Statement.KeepReading surface (Reader.runTo surface depth) (Reader.inquiries surface depth)
      refused holds body
  | _ => True

/-! ## Frames that hold what was opened -/

/-- Whether a handle, if it stands for a sequence, stands for one that was opened. -/
def Handle.IsThere (size? : σ → Nat → Option Nat) (s : σ) (h : Handle) : Prop :=
  h.role = .unkeyed → HasRead size? h.slot 0 s

/-- Whether a reply, if it is a sequence, is one that was opened. -/
def Reply.IsThere (size? : σ → Nat → Option Nat) (s : σ) : Reply → Prop
  | .handle h => h.IsThere size? s
  | .value _ => True

/-- What holds of the frames of programs: what the variables hold was opened. -/
def Regime.framed (R : Regime Store) (size? : σ → Nat → Option Nat) : Regime (Frame σ × Store) where
  holds s :=
    (∀ name reply, s.1.bindings.lookup name = some reply → reply.IsThere size? s.1.surface) ∧
      R.holds s.2
  allows := R.allows

section

variable {σ α : Type} {R : Regime Store} {size? : σ → Nat → Option Nat} {refused : Bool}
  {met : TypeForm → Prop} {reads : Reader → Prop} {first second : Surface σ}

/-- What is there stays there while nothing is taken back. -/
theorem Reply.IsThere.mono
    {s reached : σ}
    {reply : Reply}
    (isThere : reply.IsThere size? s)
    (keeps : ∀ slot, HasRead size? slot 0 s → HasRead size? slot 0 reached) :
    reply.IsThere size? reached := by
  cases reply with
  | value v => trivial
  | handle h => exact fun isUnkeyed => keeps h.slot (isThere isUnkeyed)

/-- A surface is used alike inside a program if nothing is taken back there. -/
theorem onSurface_alikeAt
    {good : α → Prop}
    {step other : Step (σ × Store) α}
    {s : Frame σ × Store}
    (alike : AlikeAt (R.beside σ) good step other (s.1.surface, s.2))
    (keeps : ∀ slot, HasRead size? slot 0 s.1.surface →
      HasRead size? slot 0 (step.run (s.1.surface, s.2)).2.1)
    (holds : (R.framed size?).holds s) :
    AlikeAt (R.framed size?) good (Run.onSurface step) (Run.onSurface other) s := by
  have uses {step : Step (σ × Store) α} {outcome : Except Interrupt α} {reached : σ × Store}
      (ran : step.run (s.1.surface, s.2) = (outcome, reached)) :
      (Run.onSurface step).run s = (outcome, { s.1 with surface := reached.1 }, reached.2) := by
    rw [Run.onSurface, run_within, ran]
  cases alike with
  | ok ran otherRan reachedHolds isGood =>
      rw [ran] at keeps
      exact .ok (uses ran) (uses otherRan)
        ⟨fun name reply found => (holds.1 name reply found).mono keeps, reachedHolds⟩ isGood
  | error ran otherRan reachedHolds allowed =>
      rw [ran] at keeps
      exact .error (uses ran) (uses otherRan)
        ⟨fun name reply found => (holds.1 name reply found).mono keeps, reachedHolds⟩ allowed

/-- What is found out in the shared state is found out alike inside a program. -/
theorem shared_framed
    {good : α → Prop}
    {step other : Step Store α}
    (alike : Alike R good step other) :
    Alike (R.framed size?) good (Step.shared step) (Step.shared other) :=
  alike.within (fun _ holds => holds.2) (fun _ _ holds partHolds => ⟨holds.1, partHolds⟩)
    fun _ allowed => allowed

/-- Looking at a variable finds what is there. -/
theorem binding_framed
    (faults : R.AllowsFaults)
    (name : String) :
    Alike (R.framed size?) anything (Run.binding name : Run σ Reply) (Run.binding name) :=
  .current_bind fun s holds =>
    Alike.ofOption (R := R.framed size?) faults (fun _ _ => trivial) s holds

/-- Looking at a variable leaves everything as it is. -/
theorem binding_run
    {name : String}
    {s reached : Frame σ × Store}
    {reply : Reply}
    (ran : (Run.binding name).run s = (.ok reply, reached)) :
    reached = s ∧ s.1.bindings.lookup name = some reply := by
  rw [Run.binding, run_bind_of_ok (run_current s)] at ran
  cases found : s.1.bindings.lookup name with
  | none =>
      rw [found] at ran
      cases ran
  | some bound =>
      rw [found] at ran
      cases ran
      exact ⟨rfl, rfl⟩

/-- Looking at a handle leaves everything as it is. -/
theorem handle_run
    {name : String}
    {s reached : Frame σ × Store}
    {h : Handle}
    (ran : (Run.handle name).run s = (.ok h, reached)) :
    reached = s ∧ s.1.bindings.lookup name = some (.handle h) := by
  obtain ⟨reply, between, bound, isHandle⟩ := run_bind_eq_ok_iff.mp ran
  obtain ⟨rfl, found⟩ := binding_run bound
  cases reply with
  | value v => cases isHandle
  | handle other =>
      cases isHandle
      exact ⟨rfl, found⟩

/-- Looking at a handle ends like itself. -/
theorem handle_framed
    (faults : R.AllowsFaults)
    (name : String) :
    Alike (R.framed size?) anything (Run.handle name : Run σ Handle) (Run.handle name) := by
  refine (binding_framed faults name).bind fun reply _ => ?_
  cases reply with
  | handle h => exact .pure trivial
  | value v => exact .fail (faults _)

/-- Binding a variable to what is there ends like itself. -/
theorem store_framed
    (name : Option String)
    {reply : Reply}
    {s : Frame σ × Store}
    (isThere : reply.IsThere size? s.1.surface)
    (holds : (R.framed size?).holds s) :
    AlikeAt (R.framed size?) anything (Run.store name reply) (Run.store name reply) s := by
  cases name with
  | none => exact .pure holds trivial
  | some n =>
      refine .ok (run_update _ s) (run_update _ s) ⟨fun other bound found => ?_, holds.2⟩ trivial
      by_cases same : other = n
      · subst same
        rw [Table.lookup_set_self] at found
        cases found
        exact isThere
      · rw [Table.lookup_set_of_ne _ _ same] at found
        exact holds.1 other bound found

/-- Collecting a result ends like itself. -/
theorem collect_framed (v : Value) :
    Alike (R.framed size?) anything (Run.collect v : Run σ Unit) (Run.collect v) :=
  .update fun _ holds => holds

/-- Settling a key ends like itself. -/
theorem optionalKey_framed
    (faults : R.AllowsFaults)
    (key : Option KeyTerm) :
    Alike (R.framed size?) anything (Run.optionalKey key : Run σ (Option String))
      (Run.optionalKey key) := by
  cases key with
  | none => exact .pure trivial
  | some t =>
      have settles : Alike (R.framed size?) anything (Run.key t : Run σ String) (Run.key t) := by
        cases t with
        | literal name => exact .pure trivial
        | «variable» name =>
            refine (binding_framed faults name).bind fun reply _ => ?_
            split
            · exact .pure trivial
            · exact .fail (faults _)
      exact settles.bind fun _ _ => .pure trivial

/-- Settling a request ends like itself, and with a type form that is asked for. -/
theorem request_framed
    (faults : R.AllowsFaults)
    {written : Request TypeTerm KeyTerm}
    (isMet : ∀ t, written.form? = some t →
      Alike R met (inWorld (t.resolve .strict)) (inWorld (t.resolve .strict))) :
    Alike (R.framed size?) (fun settled => ∀ a, settled.form? = some a → met a)
      (Run.request written : Run σ (Request TypeForm String)) (Run.request written) := by
  have keyed (key : Option KeyTerm) {make : Option String → Request TypeForm String}
      (isGood : ∀ key a, (make key).form? = some a → met a) :
      Alike (R.framed size?) (fun settled => ∀ a, settled.form? = some a → met a)
        (do pure (make (← Run.optionalKey key)) : Run σ (Request TypeForm String))
        (do pure (make (← Run.optionalKey key))) :=
    (optionalKey_framed faults key).bind fun settled _ => .pure (isGood settled)
  cases written with
  | decode t key =>
      exact (shared_framed (isMet t rfl)).bind fun a isMet => keyed key (Request.form?_decode isMet)
  | decodeIfPresent t key =>
      exact (shared_framed (isMet t rfl)).bind fun a isMet =>
        keyed key (Request.form?_decodeIfPresent isMet)
  | decodeNull key => exact keyed key (by simp [Request.form?])
  | nestedKeyed key => exact keyed key (by simp [Request.form?])
  | nestedUnkeyed key => exact keyed key (by simp [Request.form?])
  | parent key => exact keyed key (by simp [Request.form?])
  | contains key => exact keyed key (by simp [Request.form?])
  | _ => exact .pure (by simp [Request.form?])

/-! ## Statements -/

section Running

variable {firstDelegate secondDelegate : Delegate σ}
  {delegated : Reader → Handle → σ × Store → List Inquiry} {holds : Store → Prop}

/-- Whether what is delegated to ends alike from where a handle is there. -/
def DelegatesAlike
    (R : Regime Store)
    (size? : σ → Nat → Option Nat)
    (reads : Reader → Prop)
    (first second : Delegate σ) :
    Prop :=
  ∀ reader, reads reader → ∀ h s, h.IsThere size? s.1 → R.holds s.2 →
    AlikeAt (R.beside σ) anything (first reader h) (second reader h) s

/-- A surface that counts is used alike inside a program. -/
theorem Surface.Counts.onSurface_framed
    {good : α → Prop}
    {step other : Step (σ × Store) α}
    (keeps : ∀ slot, Alike (readingOn size? slot 0) anything step step)
    (alike : Alike (R.beside σ) good step other) :
    Alike (R.framed size?) good (Run.onSurface step) (Run.onSurface other) := fun s isFramed =>
  onSurface_alikeAt (alike _ isFramed.2)
    (fun slot isThere => (keeps slot (s.1.surface, s.2) isThere).holds_run) isFramed

/-- What a surface that counts is asked for is there when it is opened. -/
theorem Surface.Counts.reply_isThere
    (counts : first.Counts size? refused)
    {h : Handle}
    {request : Request TypeForm String}
    {s reached : Frame σ × Store}
    {reply : Reply}
    (ran : (Run.onSurface (first.ask h request)).run s = (.ok reply, reached)) :
    reply.IsThere size? reached.1.surface := by
  cases reply with
  | value v => trivial
  | handle opened =>
      intro isUnkeyed
      cases asked : (first.ask h request).run (s.1.surface, s.2) with
      | mk outcome after =>
          rw [Run.onSurface, run_within, asked] at ran
          cases ran
          obtain ⟨n, found⟩ := counts.opens h request _ opened after asked isUnkeyed
          exact ⟨n, Nat.zero_le n, found⟩

/-- A body is run alike for each key. -/
theorem forEachKey_framed
    (name : String)
    {body other : Run σ Outcome}
    (alike : Alike (R.framed size?) anything body other)
    (keys : List Value) :
    Alike (R.framed size?) anything (forEachKey name body keys) (forEachKey name other keys) := by
  induction keys with
  | nil => exact .pure trivial
  | cons k rest inductionHypothesis =>
      intro s isFramed
      have isValue : (Reply.value k).IsThere size? s.1.surface := trivial
      refine (store_framed (some name) isValue isFramed).bind fun _ bound boundFramed _ => ?_
      refine (alike bound boundFramed).bind fun outcome reached reachedFramed _ => ?_
      cases outcome with
      | gave result => exact .pure reachedFramed trivial
      | went reply => exact inductionHypothesis reached reachedFramed

/-- What is no sequence cannot be asked whether it is at its end. -/
theorem isAtEnd_of_ne_unkeyed
    (surface : Surface σ)
    {h : Handle}
    (isOther : h.role ≠ .unkeyed)
    (s : Frame σ × Store) :
    (Run.onSurface (surface.isAtEnd h)).run s = (.error (.fault .missingOperation), s) := by
  obtain ⟨role, path, relative, slot⟩ := h
  cases role with
  | unkeyed => exact absurd rfl isOther
  | _ => rfl

/-- A loop to the end of a sequence ends, and alike, if its body reads in the first
round. -/
theorem untilEnd_framed
    (faults : R.AllowsFaults)
    (counts : first.Counts size? refused)
    (otherCounts : second.Counts size? refused)
    {h : Handle}
    {body other : Run σ Outcome}
    {s : Frame σ × Store}
    (alike : AlikeAt (R.framed size?) anything body other s)
    (isThere : h.IsThere size? s.1.surface)
    (reads : h.role = .unkeyed → ∀ reply reached, body.run s = (.ok (.went reply), reached) →
      HasRead size? h.slot 1 reached.1.surface)
    (isFramed : (R.framed size?).holds s) :
    AlikeAt (R.framed size?) anything
      (do
        let _ ← Run.onSurface (first.isAtEnd h)
        let count ← Run.onSurface (first.count h)
        repeatToEnd (Run.onSurface (first.isAtEnd h)) body (count + idleRounds))
      (do
        let _ ← Run.onSurface (second.isAtEnd h)
        let count ← Run.onSurface (second.count h)
        repeatToEnd (Run.onSurface (second.isAtEnd h)) other (count + idleRounds)) s := by
  by_cases isUnkeyed : h.role = .unkeyed
  · have looks {n : Nat} {reached : Frame σ × Store} (found : size? reached.1.surface h.slot = some n) :
        (Run.onSurface (first.isAtEnd h)).run reached = (.ok (decide (1 ≤ n)), reached) ∧
          (Run.onSurface (second.isAtEnd h)).run reached = (.ok (decide (1 ≤ n)), reached) :=
      ⟨counts.isAtEnd_run isUnkeyed found, otherCounts.isAtEnd_run isUnkeyed found⟩
    have one {surface : Surface σ} (isCounting : surface.Counts size? refused) :
        (Run.onSurface (surface.count h)).run s = (.ok 1, s) := by
      rw [Run.onSurface, run_within, isCounting.one h (s.1.surface, s.2) isUnkeyed]
    obtain ⟨n, -, found⟩ := isThere isUnkeyed
    refine .bind_of_run ?_ (looks found).1 (looks found).2
    refine .bind_of_run ?_ (one counts) (one otherCounts)
    rw [Nat.add_comm, repeatToEnd, repeatToEnd]
    refine .bind_of_run ?_ (looks found).1 (looks found).2
    split
    · exact .pure isFramed trivial
    · refine alike.bind_run fun outcome reached ran reachedFramed _ => ?_
      cases outcome with
      | gave result => exact .pure reachedFramed trivial
      | went reply =>
          -- the second round finds the sequence at its end
          obtain ⟨m, isRead, last⟩ := reads isUnkeyed reply reached ran
          have atEnd := looks last
          rw [decide_eq_true isRead] at atEnd
          exact .bind_of_run (.pure reachedFramed trivial) atEnd.1 atEnd.2
  · have refuses (surface : Surface σ) := isAtEnd_of_ne_unkeyed surface isUnkeyed s
    exact .error (run_bind_of_error (refuses first) _) (run_bind_of_error (refuses second) _)
      isFramed (faults _)

mutual

/-- A statement whose loops read runs alike on surfaces that answer alike, and comes to
an end. -/
theorem Statement.run_framed
    (faults : R.AllowsFaults)
    (answers : Surface.AnswersAlike R met first second)
    (counts : first.Counts size? refused)
    (otherCounts : second.Counts size? refused)
    (isHeld : ∀ s, R.holds s → holds s)
    (delegates : DelegatesAlike R size? reads firstDelegate secondDelegate)
    (tells : ∀ slot, DelegatesTell size? refused slot firstDelegate delegated)
    (statement : Statement)
    (areMet : ∀ need ∈ statement.needs, need ≠ .endOfSequence → need.IsMet R met reads)
    (keepsReading : statement.KeepsReading first firstDelegate delegated refused holds) :
    Alike (R.framed size?) anything (statement.run first firstDelegate)
      (statement.run second secondDelegate) := by
  have asks (h : Handle) {request : Request TypeForm String}
      (isMet : ∀ a, request.form? = some a → met a) :
      Alike (R.framed size?) anything (Run.onSurface (first.ask h request))
        (Run.onSurface (second.ask h request)) :=
    Surface.Counts.onSurface_framed (fun _ => counts.ask_alike h request)
      (tied_beside_iff_alike.mp (answers.tied.ask faults h isMet))
  cases statement with
  | request on written name =>
      unfold Statement.run
      refine (handle_framed faults on).bind fun h _ => ?_
      split
      · exact .fail (faults _)
      · have forms (t : TypeTerm) (isForm : written.form? = some t) :
            Alike R met (inWorld (t.resolve .strict)) (inWorld (t.resolve .strict)) := by
          have found : Alike R (fun a => ∀ b ∈ [a], met b) (inWorld (t.resolve .strict))
              (inWorld (t.resolve .strict)) := by
            refine Need.IsMet.ofForms (areMet _ ?_ nofun)
            simp [Statement.needs, isForm]
          exact found.mono fun a areMet => areMet a List.mem_cons_self
        refine (request_framed faults forms).bind fun settled isMet s isFramed => ?_
        refine (asks h isMet s isFramed).bind_run fun reply reached ran reachedFramed _ => ?_
        have isThere := counts.reply_isThere ran
        split
        · refine (collect_framed reply.toValue reached reachedFramed).bind_run
            fun _ last collected lastFramed _ => ?_
          have same : last.1.surface = reached.1.surface := by
            rw [Run.collect, run_update] at collected
            cases collected
            rfl
          exact (store_framed name (same ▸ isThere) lastFramed).bind fun _ _ stored _ =>
            .pure stored trivial
        · exact (store_framed name isThere reachedFramed).bind fun _ _ stored _ =>
            .pure stored trivial
  | delegate on type name =>
      unfold Statement.run
      intro s isFramed
      refine (binding_framed faults on s isFramed).bind_run fun target found bound foundFramed _ => ?_
      obtain ⟨rfl, isBound⟩ := binding_run bound
      have isMet : (Need.delegate type).IsMet R met reads := areMet _ List.mem_cons_self nofun
      refine (shared_framed isMet found foundFramed).bind_run
        fun reader ready sought readyFramed isRead => ?_
      cases target with
      | value v => exact .fail readyFramed (faults _)
      | handle h =>
          have same : ready.1 = found.1 := by
            rw [Step.shared, run_within] at sought
            exact (congrArg (·.2.1) sought).symm
          have isThere : h.IsThere size? ready.1.surface := by
            rw [same]
            exact foundFramed.1 on (.handle h) isBound
          refine (onSurface_alikeAt (delegates reader isRead h (ready.1.surface, ready.2) isThere
            readyFramed.2) (fun slot => (tells slot reader h).keeps 0 ready) readyFramed).bind
              fun v reached reachedFramed _ => ?_
          refine (collect_framed v reached reachedFramed).bind fun _ last lastFramed _ => ?_
          have isValue : (Reply.value v).IsThere size? last.1.surface := trivial
          exact (store_framed name isValue lastFramed).bind fun _ _ stored _ => .pure stored trivial
  | forKeys on key body =>
      unfold Statement.run
      unfold Statement.KeepsReading at keepsReading
      refine (handle_framed faults on).bind fun h _ => ?_
      have listsKeys : Alike (R.framed size?) anything (Run.onSurface (first.keys h))
          (Run.onSurface (second.keys h)) := by
        refine Surface.Counts.onSurface_framed (fun slot => ?_)
          (tied_beside_iff_alike.mp (answers.tied.keys faults h))
        have values : Alike (readingOn size? slot 0) anything (first.value h .allKeys)
            (first.value h .allKeys) :=
          (counts.ask_alike h .allKeys).bind fun _ _ => .pure trivial
        refine values.bind fun v _ => ?_
        split <;> exact .pure trivial
      refine listsKeys.bind fun keys _ => ?_
      exact forEachKey_framed key (Statement.runAll_framed faults answers counts otherCounts isHeld
        delegates tells body areMet keepsReading) keys
  | untilEnd on body =>
      unfold Statement.run
      unfold Statement.KeepsReading at keepsReading
      have bodyAlike := Statement.runAll_framed faults answers counts otherCounts isHeld delegates
        tells body (fun need member => areMet need (List.mem_cons_of_mem _ member)) keepsReading.2
      intro s isFramed
      refine (handle_framed faults on s isFramed).bind_run fun h found bound foundFramed _ => ?_
      obtain ⟨rfl, isBound⟩ := handle_run bound
      have isThere : h.IsThere size? found.1.surface := foundFramed.1 on (.handle h) isBound
      refine untilEnd_framed faults counts otherCounts (bodyAlike found foundFramed) isThere
        (fun isUnkeyed reply reached ran => ?_) foundFramed
      obtain ⟨e, member, reads⟩ :=
        keepsReading.1 found h reply reached (isHeld _ foundFramed.2) bound isUnkeyed ran
      have isRead := (Statement.runAll_tells counts (tells h.slot) body).tells found
        (isThere isUnkeyed) e member reads
      rwa [ran] at isRead
  | branch subject expected agreed otherwise =>
      unfold Statement.run
      unfold Statement.KeepsReading at keepsReading
      refine (binding_framed faults subject).bind fun reply _ => ?_
      split
      · exact (Statement.runAll_framed faults answers counts otherCounts isHeld delegates tells agreed
          (fun need member => areMet need (List.mem_append_left _ member)) keepsReading.1).bind
            fun _ _ => .pure trivial
      · exact (Statement.runAll_framed faults answers counts otherCounts isHeld delegates tells
          otherwise (fun need member => areMet need (List.mem_append_right _ member))
            keepsReading.2).bind fun _ _ => .pure trivial
  | attempt body handler =>
      unfold Statement.run
      unfold Statement.KeepsReading at keepsReading
      have bodyAlike := Statement.runAll_framed faults answers counts otherCounts isHeld delegates
        tells body (fun need member => areMet need (List.mem_append_left _ member)) keepsReading.1
      have handlerAlike := Statement.runAll_framed faults answers counts otherCounts isHeld delegates
        tells handler (fun need member => areMet need (List.mem_append_right _ member)) keepsReading.2
      exact (bodyAlike.recover fun _ => handlerAlike).bind fun _ _ => .pure trivial
  | give result =>
      unfold Statement.run
      cases result with
      | value v =>
          have found := Need.IsMet.ofForms (areMet _ List.mem_cons_self nofun)
          exact (shared_framed found).bind fun _ _ => .pure trivial
      | «variable» name =>
          have binds : Alike (R.framed size?) anything (Run.result (.variable name) : Run σ Value)
              (Run.result (.variable name)) :=
            (binding_framed faults name).bind fun _ _ => .pure trivial
          exact binds.bind fun _ _ => .pure trivial
  | fail kind message location =>
      unfold Statement.run
      exact .fail (faults _)
termination_by structural statement

/-- Statements whose loops read run alike on surfaces that answer alike, and come to an
end. -/
theorem Statement.runAll_framed
    (faults : R.AllowsFaults)
    (answers : Surface.AnswersAlike R met first second)
    (counts : first.Counts size? refused)
    (otherCounts : second.Counts size? refused)
    (isHeld : ∀ s, R.holds s → holds s)
    (delegates : DelegatesAlike R size? reads firstDelegate secondDelegate)
    (tells : ∀ slot, DelegatesTell size? refused slot firstDelegate delegated)
    (body : List Statement)
    (areMet : ∀ need ∈ Statement.needsAll body, need ≠ .endOfSequence → need.IsMet R met reads)
    (keepReading : Statement.KeepReading first firstDelegate delegated refused holds body) :
    Alike (R.framed size?) anything (Statement.runAll first firstDelegate body)
      (Statement.runAll second secondDelegate body) := by
  cases body with
  | nil =>
      unfold Statement.runAll
      exact .pure trivial
  | cons statement rest =>
      unfold Statement.runAll
      unfold Statement.KeepReading at keepReading
      refine (Statement.run_framed faults answers counts otherCounts isHeld delegates tells statement
        (fun need member => areMet need (List.mem_append_left _ member)) keepReading.1).bind
          fun outcome _ => ?_
      cases outcome with
      | gave result => exact .pure trivial
      | went reply =>
          exact Statement.runAll_framed faults answers counts otherCounts isHeld delegates tells rest
            (fun need member => areMet need (List.mem_append_right _ member)) keepReading.2
termination_by structural body

end

/-! ## Readers -/

/-- What a program runs in its frame ends alike if it does so beside the state of the
surface. -/
theorem Program.run_framed
    (faults : R.AllowsFaults)
    (maker : Maker)
    {body : Program}
    {decoder : Handle}
    {s : σ × Store}
    (alike : Alike (R.framed size?) anything (Statement.runAll first firstDelegate body)
      (Statement.runAll second secondDelegate body))
    (isThere : decoder.IsThere size? s.1)
    (isHeld : R.holds s.2) :
    AlikeAt (R.beside σ) anything (Program.run first firstDelegate maker body decoder)
      (Program.run second secondDelegate maker body decoder) s := by
  have results (outcome : Outcome) :
      Alike (R.framed size?) anything (outcome.result maker : Run σ Value) (outcome.result maker) := by
    cases outcome with
    | gave result => exact .pure trivial
    | went reply =>
        exact .current_bind fun reached isFramed =>
          Alike.ofExcept (R := R.framed size?) faults (fun _ _ => trivial) reached isFramed
  have isFramed : (R.framed size?).holds (.start s.1 decoder, s.2) := by
    refine ⟨fun name reply found => ?_, isHeld⟩
    change ([("d", Reply.handle decoder)] : List (String × Reply)).lookup name = some reply at found
    rw [List.lookup_cons] at found
    split at found
    · cases found
      exact isThere
    · cases found
  have whole := (alike.bind fun outcome _ => results outcome) (.start s.1 decoder, s.2) isFramed
  have runs (surface : Surface σ) (delegate : Delegate σ) :
      (Program.run surface delegate maker body decoder).run s =
        (((Statement.runAll surface delegate body >>= Outcome.result maker).run
            (.start s.1 decoder, s.2)).1,
          ((Statement.runAll surface delegate body >>= Outcome.result maker).run
            (.start s.1 decoder, s.2)).2.1.surface,
          ((Statement.runAll surface delegate body >>= Outcome.result maker).run
            (.start s.1 decoder, s.2)).2.2) :=
    rfl
  have firstRun := runs first firstDelegate
  have secondRun := runs second secondDelegate
  cases whole with
  | ok ran otherRan reachedFramed isGood =>
      rw [ran] at firstRun
      rw [otherRan] at secondRun
      exact .ok firstRun secondRun reachedFramed.2 isGood
  | error ran otherRan reachedFramed allowed =>
      rw [ran] at firstRun
      rw [otherRan] at secondRun
      exact .error firstRun secondRun reachedFramed.2 allowed

/-- A reader that neither loops nor delegates ends alike on surfaces that answer alike,
whatever could be delegated to. -/
theorem Reader.runWith_bounded
    (firstDelegate secondDelegate : Delegate σ)
    (faults : R.AllowsFaults)
    (answers : Surface.AnswersAlike R met first second)
    {reader : Reader}
    (isBounded : reader.isBounded = true)
    (areMet : ∀ need ∈ reader.needs, need ≠ .endOfSequence → need.IsMet R met reads)
    {h : Handle}
    {s : σ × Store}
    (isHeld : R.holds s.2) :
    AlikeAt (R.beside σ) anything (reader.runWith first firstDelegate h)
      (reader.runWith second secondDelegate h) s := by
  have forms : ∀ need ∈ reader.needs, need.IsMet R met fun _ => False := by
    intro need member
    have bounded : need.isBounded = true := List.all_eq_true.mp isBounded need member
    cases need with
    | forms find => exact areMet _ member nofun
    | _ => cases bounded
  have delegates (other : Reader) (absent : False) (h : Handle) :
      Tied (R.bond.alongside fun _ => True) (Same anything) (firstDelegate other h)
        (secondDelegate other h) :=
    absent.elim
  have tied := Reader.runWith_tied R.bond_makes faults answers.tied delegates reader
    (reader.isTied_of_same isHeld forms) h
  exact tied_beside_iff_alike.mp tied s isHeld

/-- Readers whose loops read end alike on surfaces that answer alike, and come to an
end. -/
theorem Reader.runTo_framed
    (faults : R.AllowsFaults)
    (answers : Surface.AnswersAlike R met first second)
    (counts : first.Counts size? refused)
    (otherCounts : second.Counts size? refused)
    (isHeld : ∀ s, R.holds s → holds s)
    (areMet : ∀ reader, reads reader → ∀ need ∈ reader.needs, need ≠ .endOfSequence →
      need.IsMet R met reads)
    (keepsReading : ∀ reader, reads reader → reader.KeepsReading first refused holds)
    (depth : Nat) :
    DelegatesAlike R size? reads (Reader.runTo first depth) (Reader.runTo second depth) := by
  induction depth with
  | zero => exact fun _ _ _ _ _ isHeld => .fail isHeld (faults _)
  | succ depth inductionHypothesis =>
      intro reader isRead h s isThere holdsHere
      cases reader with
      | program maker body =>
          exact Program.run_framed faults maker
            (Statement.runAll_framed faults answers counts otherCounts isHeld inductionHypothesis
              (fun slot => Reader.runTo_tells counts depth) body (areMet _ isRead)
              (keepsReading _ isRead depth)) isThere holdsHere
      | _ =>
          exact Reader.runWith_bounded (Reader.runTo first depth) (Reader.runTo second depth) faults
            answers rfl (areMet _ isRead) holdsHere

end Running

end

end SchemaProbe

import SchemaProbe.Proofs.EndingLoops

namespace SchemaProbe

/-!
# Reading to the end of a sequence stops

On both surfaces of a probe a sequence is at its end once a request for an element was
counted, whatever else happened to it, and a loop to its end runs its body once.  The
surfaces differ in what they count: the key-checking surface counts every request, the
recording surface those that it answers.  It refuses one only if the type that is asked
for cannot be looked up.  While loops get on in both passes, describing a type comes to
an end.
-/

open Step

/-- Whether reading to the end of a sequence stops on a surface: after statements that
asked for an element, in whatever way they ended, the sequence is at its end, and a loop
to the end of a new sequence runs its body once if that, unless it ends the loop, asks
for an element.  A request that was refused is one only if `refused` says so. -/
structure Surface.StopsReading
    (surface : Surface σ)
    (size? : σ → Nat → Option Nat)
    (refused : Bool) :
    Prop where
  ends : ∀ depth body s h n, h.role = .unkeyed → size? s.1.surface h.slot = some n →
    (∃ e ∈ Statement.inquiriesAll surface (Reader.runTo surface depth)
      (Reader.inquiries surface depth) body s, e.Reads h.slot refused) →
      let reached := ((Statement.runAll surface (Reader.runTo surface depth) body).run s).2
      (Run.onSurface (surface.isAtEnd h)).run reached = (.ok true, reached)
  once : ∀ depth on body s h, (Run.handle on).run s = (.ok h, s) → h.role = .unkeyed →
    size? s.1.surface h.slot = some 0 →
      (∀ reply reached,
        (Statement.runAll surface (Reader.runTo surface depth) body).run s =
            (.ok (.went reply), reached) →
          ∃ e ∈ Statement.inquiriesAll surface (Reader.runTo surface depth)
            (Reader.inquiries surface depth) body s, e.Reads h.slot refused) →
        ((Statement.untilEnd on body).run surface (Reader.runTo surface depth)).run s =
          (Statement.runAll surface (Reader.runTo surface depth) body >>= fun outcome =>
            pure outcome.done).run s

/-- Reading to the end of a sequence stops on a surface that counts. -/
theorem Surface.Counts.stopsReading
    {surface : Surface σ}
    {size? : σ → Nat → Option Nat}
    {refused : Bool}
    (counts : surface.Counts size? refused) :
    surface.StopsReading size? refused where
  ends depth body _ _ _ isUnkeyed found asks := counts.isAtEnd_after depth body isUnkeyed found asks
  once depth _ body _ _ isBound isUnkeyed isNew asks :=
    counts.untilEnd_eq depth body isBound isUnkeyed isNew asks

/-! ## Requests that are refused -/

/-- A nested probe raises what looking the type up raises, unless that is no type. -/
theorem lookup_of_nestedProbe
    {depth : Nat}
    {a : TypeForm}
    {path : Path}
    {s : Store}
    {f : Fault}
    (raised : ((nestedProbe (probe depth) a path).run s).1 = .error (.fault f)) :
    ((lookup .current a).run s).1 = .error (.fault f) ∧ f.kind ≠ .surface := by
  have attempted := run_attempt (probe depth a path) s
  rw [nestedProbe, Step.recover] at raised
  cases probed : (probe depth a path).run s with
  | mk outcome reached =>
      rw [probed] at attempted
      rcases outcome with (g | _) | found
      · rw [run_bind_of_ok attempted] at raised
        dsimp only at raised
        split at raised
        · cases raised
        · rename_i isOther
          cases raised
          refine ⟨?_, fun isSurface => isOther (beq_iff_eq.mpr isSurface)⟩
          cases depth with
          | zero => cases probed
          | succ depth => exact (probe_fault_iff depth path).mp (congrArg Prod.fst probed)
      · rw [run_bind_of_error attempted] at raised
        cases raised
      · rw [run_bind_of_ok attempted] at raised
        cases raised

/-- An element is refused only if what is asked for cannot be looked up. -/
theorem lookup_of_refused
    {depth : Nat}
    {h : Handle}
    {request : Request TypeForm String}
    {s : Recording × Store}
    {f : Fault}
    (isUnkeyed : h.role = .unkeyed)
    (reads : request.readsElement = true)
    (refused : (((recorder (nestedProbe (probe depth))).ask h request).run s).1 =
      .error (.fault f)) :
    ∃ a, request.form? = some a ∧ ((lookup .current a).run s.2).1 = .error (.fault f) ∧
      f.kind ≠ .surface := by
  obtain ⟨r, s⟩ := s
  -- the nested probe is all that can raise something
  have raised {a : TypeForm} {path : Path} {next : Shape × Value → Recorder.Act Reply}
      (answers : ∀ found between, ∃ reply, ((next found).run between).1 = .ok reply)
      (failed : ((Step.shared (nestedProbe (probe depth) a path) >>= next).run (r, s)).1 =
        .error (.fault f)) :
      ((nestedProbe (probe depth) a path).run s).1 = .error (.fault f) := by
    rw [run_bind, Step.shared, run_within] at failed
    cases probed : (nestedProbe (probe depth) a path).run s with
    | mk outcome reached =>
        rw [probed] at failed
        cases outcome with
        | ok found =>
            obtain ⟨reply, answered⟩ := answers found (r, reached)
            rw [answered] at failed
            cases failed
        | error interrupt =>
            cases failed
            rfl
  obtain ⟨role, path, relative, slot⟩ := h
  cases isUnkeyed
  cases request with
  | decode a key | decodeIfPresent a key =>
      cases key with
      | some key => cases reads
      | none => exact ⟨a, rfl, lookup_of_nestedProbe (raised (fun _ _ => ⟨_, rfl⟩) refused)⟩
  | nestedKeyed key | nestedUnkeyed key | parent key =>
      cases key with
      | some key => cases reads
      | none => cases refused
  | _ => cases reads

/-! ## Describing -/

/-- Whether the loops of a reader's program ask for an element in each round, in both
passes of a probe. -/
structure Store.KeepsReading (start : Store) (root : TypeForm) (reader : Reader) : Prop where
  recording : ∀ depth, reader.KeepsReading (recorder (nestedProbe (probe depth))) false
    fun s => start.Finds root (.state s)
  checking : reader.KeepsReading (keyChecker placeholderOf) true
    fun s => start.Finds root (.state s)

/-- Types whose loops ask for an element in each round are read alike. -/
theorem Store.readsAlike_of_keepsReading
    {start : Store}
    {root : TypeForm}
    (keepsReading : ∀ reader, start.Finds root (.reader reader) → start.KeepsReading root reader)
    (extra : Nat) :
    start.ReadsAlike root extra := by
  intro reader isRead above depth caps path nested
  have faults : (start.expanding root Interrupt.IsFault above).AllowsFaults := finding_allowsFaults
  have areMet (reader : Reader) (isRead : start.Finds root (.reader reader)) (need : Need)
      (member : need ∈ reader.needs) (isOther : need ≠ .endOfSequence) :=
    finding_isMet faults isRead member isOther
  refine probeReading_alike finding_notes (fun s holds => ?_) fun s holds => ?_
  · exact Reader.runTo_framed faults (recorder_answersAlike faults nested)
      (recorder_countsElements _) (recorder_countsElements _) (fun _ holds => holds.1) areMet
      (fun reader isRead => (keepsReading reader isRead).recording depth) delegationDepth reader
      isRead (Recorder.decoder path) (.start, s) nofun holds
  · exact Reader.runTo_framed faults
      (keyChecker_answersAlike faults fun _ found => finding_placeholderOf faults found)
      (keyChecker_countsElements _) (keyChecker_countsElements _) (fun _ holds => holds.1) areMet
      (fun reader isRead => (keepsReading reader isRead).checking) delegationDepth reader isRead
      (Recorder.decoder []) (.start, s) nofun holds

/-- Reading until the end stops on both surfaces, where the recording surface counts a
request for an element when it answers it; it refuses one only if the type that is asked
for cannot be looked up.  Describing a type comes to an end, and alike to all depths
beyond the number of types that can be found, if the loops of all programs that are
found ask for an element in each round. -/
theorem reading_stops
    (nested : NestedProbe)
    (placeholder : Placeholder)
    (s : Store)
    (a : TypeForm)
    (keys : List Key) :
    (recorder nested).StopsReading Recording.size? false ∧
      (keyChecker placeholder).StopsReading KeyCheck.size? true ∧
      (∀ depth h request t f, h.role = .unkeyed → request.readsElement = true →
        (((recorder (nestedProbe (probe depth))).ask h request).run t).1 = .error (.fault f) →
          ∃ b, request.form? = some b ∧ ((lookup .current b).run t.2).1 = .error (.fault f) ∧
            f.kind ≠ .surface) ∧
      ((∀ key, s.Finds a (.key key) → key ∈ keys) →
        (∀ reader, s.Finds a (.reader reader) → s.KeepsReading a reader) →
          ∀ depth, keys.length < depth →
            ((describeTo depth a).run s).1 ≠ .error .exhausted ∧
              (describeTo depth a).run s = (describeTo (keys.length + 1) a).run s) := by
  refine ⟨(recorder_countsElements nested).stopsReading,
    (keyChecker_countsElements placeholder).stopsReading,
    fun depth h request t f isUnkeyed reads refused => lookup_of_refused isUnkeyed reads refused,
    fun finite keepsReading depth deep => ?_⟩
  obtain ⟨extra, rfl⟩ := Nat.exists_eq_add_of_le (Nat.succ_le_of_lt deep)
  have alike := describeTo_alikeAt finite (Store.readsAlike_of_keepsReading keepsReading extra)
    (Nat.lt_succ_self _)
  refine ⟨fun interrupted => ?_, alike.run_eq.symm⟩
  rw [← alike.run_eq] at interrupted
  exact alike.allows_run interrupted rfl

/-! ## Lenient programs -/

/-- A round that begins by trying to read asks for an element, also if the request is
refused. -/
theorem exists_inquiry_of_attempt
    {surface : Surface σ}
    {delegate : Delegate σ}
    (delegated : Reader → Handle → σ × Store → List Inquiry)
    {on : String}
    {written : Request TypeTerm KeyTerm}
    {store : Option String}
    {tries handler rest : List Statement}
    {s reached : Frame σ × Store}
    {h : Handle}
    {settled : Request TypeForm String}
    {outcome : Outcome}
    (isBound : (Run.handle on).run s = (.ok h, s))
    (knows : written.isKnownTo h.role = true)
    (settles : (Run.request written).run s = (.ok settled, s))
    (ran : (Statement.runAll surface delegate
      (.attempt (.request on written store :: tries) handler :: rest)).run s =
        (.ok outcome, reached)) :
    ∃ e ∈ Statement.inquiriesAll surface delegate delegated
        (.attempt (.request on written store :: tries) handler :: rest) s,
      e.handle = h ∧ e.request = settled ∧
        (e.answered = true ∨
          ∃ f, ((surface.ask h settled).run (s.1.surface, s.2)).1 = .error (.fault f)) := by
  refine ⟨⟨h, settled, ((surface.ask h settled).run (s.1.surface, s.2)).1.isOk⟩, ?_, rfl, rfl, ?_⟩
  · rw [Statement.inquiriesAll, Statement.inquiries, Statement.inquiriesAll, Statement.inquiries]
    dsimp only
    rw [follow_of_ok isBound, knows, Bool.not_true, if_neg Bool.false_ne_true, follow_of_ok settles]
    exact List.mem_append_left _ (List.mem_append_left _ (List.mem_append_left _
      (List.mem_singleton.mpr rfl)))
  · cases asked : (surface.ask h settled).run (s.1.surface, s.2) with
    | mk answer after =>
        rcases answer with (f | _) | reply
        · exact .inr ⟨f, rfl⟩
        · have exhausts : ((Statement.request on written store).run surface delegate).run s =
              (.error .exhausted, { s.1 with surface := after.1 }, after.2) := by
            rw [Statement.run, run_bind_of_ok isBound, knows, Bool.not_true, if_neg Bool.false_ne_true,
              run_bind_of_ok settles]
            refine run_bind_of_error ?_ _
            rw [Run.onSurface, run_within, asked]
          have tried : (Step.attempt (Statement.runAll surface delegate
              (.request on written store :: tries))).run s =
                (.error .exhausted, { s.1 with surface := after.1 }, after.2) := by
            rw [run_attempt, Statement.runAll, run_bind_of_error exhausts]
          rw [Statement.runAll, Statement.run, Step.recover,
            run_bind_of_error (run_bind_of_error (run_bind_of_error tried _) _)] at ran
          cases ran
        · exact .inl rfl

/-! ## A class that is lenient with its elements -/

/-- A class whose objects list tokens. -/
def listingClass : ClassRef :=
  .user ⟨1, "Listing", "shapes"⟩

/-- A listing reads its tokens to the end and goes on after each that it cannot
read. -/
def listingProgram : Program :=
  [.request "d" .openUnkeyed (some "tokens"),
    .untilEnd "tokens"
      [.attempt [.request "tokens" (.decode (.known (.builtin .uuid)) none) none] []]]

/-- What is registered about listings. -/
def listingCapabilities : Capabilities :=
  .readBy (.cls listingClass) (.program .nothing listingProgram) .null

/-- The state in which listings are registered. -/
def listingStore : Store :=
  { Store.initial with shared := CapabilityRegistry.defaults.register listingCapabilities }

/-- Whether something that is found belongs to listings. -/
def Finding.IsOfListings : Finding → Prop
  | .state s => ∃ events guard, s = listingStore.beside events guard
  | .form a => a = .cls listingClass ∨ a = .builtin .uuid
  | .reader r => r = .program .nothing listingProgram
  | .key k => k = (TypeForm.cls listingClass).identity

/-- Looking up tokens finds what is registered from the start. -/
theorem lookup_token
    (events : List Event)
    (guard : CycleGuard) :
    ∃ caps, (lookup .current (.builtin .uuid)).run (listingStore.beside events guard) =
      (.ok caps, listingStore.beside events guard) ∧ caps.kind = none ∧ caps.reader = none :=
  ⟨_, rfl, rfl, rfl⟩

/-- Looking up what belongs to listings leaves the state as it is. -/
theorem Finding.IsOfListings.lookup
    {a : TypeForm}
    {s : Store}
    (isForm : (Finding.form a).IsOfListings)
    (isState : (Finding.state s).IsOfListings) :
    ∃ caps, (SchemaProbe.lookup .current a).run s = (.ok caps, s) ∧ caps.kind = none ∧
      (caps = listingCapabilities ∨ caps.reader = none) := by
  obtain ⟨events, guard, rfl⟩ := isState
  rcases isForm with rfl | rfl
  · exact ⟨listingCapabilities, rfl, rfl, .inl rfl⟩
  · obtain ⟨caps, found, isNoScalar, isUnread⟩ := lookup_token events guard
    exact ⟨caps, found, isNoScalar, .inr isUnread⟩

/-- Listings alone are looked into. -/
theorem Finding.IsOfListings.expands
    {a : TypeForm}
    {s reached : Store}
    {caps : Capabilities}
    {reader : Reader}
    (isForm : (Finding.form a).IsOfListings)
    (isState : (Finding.state s).IsOfListings)
    (expands : s.Expands a caps reader reached) :
    caps = listingCapabilities := by
  obtain ⟨found, ran, -, isListing | isUnread⟩ := isForm.lookup isState
  · have same := expands.found.symm.trans ran
    cases same
    exact isListing
  · have same := expands.found.symm.trans ran
    cases same
    rw [expands.reads] at isUnread
    cases isUnread

/-- A listing asks for tokens. -/
theorem forms_of_listing
    {find : Step World (List TypeForm)}
    (member : .forms find ∈ (Reader.program .nothing listingProgram).needs)
    (s : Store) :
    (inWorld find).run s = (.ok [.builtin .uuid], s) := by
  change Need.forms find ∈ [Need.endOfSequence, _] at member
  simp only [List.mem_cons, List.not_mem_nil, or_false] at member
  rcases member with absent | same
  · cases absent
  · cases same
    rfl

/-- Describing listings finds nothing but listings and tokens. -/
theorem isOfListings_of_finds
    {finding : Finding}
    (finds : listingStore.Finds (.cls listingClass) finding) :
    finding.IsOfListings := by
  induction finds with
  | start => exact ⟨[], .empty, rfl⟩
  | root => exact .inl rfl
  | beside _ isState =>
      obtain ⟨_, _, rfl⟩ := isState
      exact ⟨_, _, rfl⟩
  | lookup _ _ isState isForm =>
      obtain ⟨caps, found, -⟩ := isForm.lookup isState
      rwa [found]
  | reader _ _ expands isState isForm =>
      have same := isForm.expands isState expands
      subst same
      exact (Option.some.inj expands.reads).symm
  | key _ _ expands isState isForm =>
      have same := isForm.expands isState expands
      subst same
      rfl
  | search _ _ member isState isReader =>
      cases isReader
      rwa [forms_of_listing member]
  | form _ _ member found among _ isReader =>
      cases isReader
      rw [forms_of_listing member] at found
      cases found
      exact .inr (List.mem_singleton.mp among)
  | delegation _ _ member _ isReader =>
      cases isReader
      change Need.delegate _ ∈ [Need.endOfSequence, Need.forms _] at member
      simp at member
  | delegate _ _ member _ _ isReader =>
      cases isReader
      change Need.delegate _ ∈ [Need.endOfSequence, Need.forms _] at member
      simp at member

/-- Listings ask for a token in each round of their loop. -/
theorem keepsReading_listing
    (reader : Reader)
    (isRead : listingStore.Finds (.cls listingClass) (.reader reader)) :
    listingStore.KeepsReading (.cls listingClass) reader := by
  have isListing : reader = .program .nothing listingProgram := isOfListings_of_finds isRead
  subst isListing
  have tries {σ : Type} {surface : Surface σ} {delegate : Delegate σ}
      {delegated : Reader → Handle → σ × Store → List Inquiry} {refused : Bool}
      (answers : refused = false → ∀ (h : Handle) (s : σ × Store) f, h.role = .unkeyed →
        listingStore.Finds (.cls listingClass) (.state s.2) →
          ((surface.ask h (.decode (.builtin .uuid) none)).run s).1 ≠ .error (.fault f)) :
      Statement.KeepReading surface delegate delegated refused
        (fun s => listingStore.Finds (.cls listingClass) (.state s)) listingProgram := by
    unfold listingProgram
    simp only [Statement.KeepReading, Statement.KeepsReading, and_true, true_and]
    intro s h reply reached isFound isBound isUnkeyed ran
    obtain ⟨e, member, isHere, isDecode, counted⟩ :=
      exists_inquiry_of_attempt delegated isBound (by rw [isUnkeyed]; rfl) rfl ran
    refine ⟨e, member, by rw [isHere]; exact isUnkeyed, by rw [isHere], by rw [isDecode]; rfl, ?_⟩
    intro isRefused
    rcases counted with answered | ⟨f, failed⟩
    · exact answered
    · exact absurd failed (answers isRefused h _ f isUnkeyed isFound)
  refine ⟨fun depth _ => tries fun _ h s f isUnkeyed isFound failed => ?_, fun _ => tries fun isRefused => Bool.noConfusion isRefused⟩
  obtain ⟨a, isForm, missing, -⟩ := lookup_of_refused isUnkeyed rfl failed
  cases isForm
  obtain ⟨caps, found, -⟩ := Finding.IsOfListings.lookup (.inr rfl) (isOfListings_of_finds isFound)
  rw [found] at missing
  cases missing

/-- The sequence of the tokens of a listing. -/
def tokensHandle : Handle :=
  ⟨.unkeyed, [], [], 1⟩

/-- A listing that has opened its tokens. -/
def listingFrame : Frame Recording × Store :=
  (⟨⟨[.decoder (some 1), .unkeyed [] false], false⟩,
    [("d", .handle (Recorder.decoder [])), ("tokens", .handle tokensHandle)], []⟩, listingStore)

/-- A listing tries to read one token, and describing listings comes to an end. -/
theorem reading_stops_listing :
    ((Statement.untilEnd "tokens"
        [.attempt [.request "tokens" (.decode (.known (.builtin .uuid)) none) none] []]).run
          (recorder (nestedProbe (probe 1)))
            (Reader.runTo (recorder (nestedProbe (probe 1))) 0)).run listingFrame =
        (Statement.runAll (recorder (nestedProbe (probe 1)))
          (Reader.runTo (recorder (nestedProbe (probe 1))) 0)
          [.attempt [.request "tokens" (.decode (.known (.builtin .uuid)) none) none] []] >>=
            fun outcome => pure outcome.done).run listingFrame ∧
      ((describeTo 2 (.cls listingClass)).run listingStore).1 ≠ .error .exhausted := by
  have isRead : listingStore.Finds (.cls listingClass) (.reader (.program .nothing listingProgram)) :=
    .reader .start .root ⟨rfl, rfl, rfl, rfl⟩
  have loops := (keepsReading_listing _ isRead).recording 1 0
  obtain ⟨once, -, -, ends⟩ := reading_stops (nestedProbe (probe 1)) placeholderOf listingStore
    (.cls listingClass) [(TypeForm.cls listingClass).identity]
  refine ⟨?_, ?_⟩
  · refine once.once 0 "tokens" _ listingFrame tokensHandle rfl rfl rfl fun reply reached ran => ?_
    exact loops.2.1.1 listingFrame tokensHandle reply reached .start rfl rfl ran
  · exact (ends (fun _ found => List.mem_singleton.mpr (isOfListings_of_finds found))
      keepsReading_listing 2 (by decide)).1

end SchemaProbe

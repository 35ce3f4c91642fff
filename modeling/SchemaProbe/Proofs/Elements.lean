import SchemaProbe.Proofs.Surfaces
import SchemaProbe.Proofs.RequestLog

namespace SchemaProbe

/-!
# How far sequences are read

Both surfaces of a probe count the requests for elements, each sequence by itself.
The recording surface counts a request when it is answered, because it keeps what it
was answered with; the key-checking surface counts it before it is answered.  No
request takes a count back.
-/

open Step

/-- The number of elements of a recorded sequence. -/
def Recording.size? (r : Recording) (slot : Nat) : Option Nat :=
  (r.lengths[slot]?).join

/-- How far a sequence has been read in a check of keys. -/
def KeyCheck.size? (c : KeyCheck) (slot : Nat) : Option Nat :=
  c.cursors[slot]?

/-- Whether a request is one for an element of a sequence. -/
def Request.readsElement (request : Request T K) : Bool :=
  request.isElement && request.fits .unkeyed

/-- Whether a surface counts how far sequences have been read: what requests for
elements there were, and those that it refused only if `refused` says so. -/
structure Surface.Counts
    (surface : Surface σ)
    (size? : σ → Nat → Option Nat)
    (refused : Bool) :
    Prop where
  keeps : ∀ h request s slot n, size? s.1 slot = some n →
    ∃ m, n ≤ m ∧ size? ((surface.answer h request).run s).2.1 slot = some m
  counts : ∀ h request s n, h.role = .unkeyed → request.readsElement = true →
    size? s.1 h.slot = some n →
      (refused = false → ∃ reply, ((surface.ask h request).run s).1 = .ok reply) →
        size? ((surface.ask h request).run s).2.1 h.slot = some (n + 1)
  opens : ∀ h request s opened reached,
    (surface.ask h request).run s = (.ok (.handle opened), reached) →
      opened.role = .unkeyed → ∃ n, size? reached.1 opened.slot = some n
  atEnd : ∀ h s n, h.role = .unkeyed → size? s.1 h.slot = some n →
    (surface.isAtEnd h).run s = (.ok (decide (1 ≤ n)), s)
  one : ∀ h s, h.role = .unkeyed → (surface.count h).run s = (.ok 1, s)

/-! ## The recording surface -/

section Recording

variable {r later : Recording} {slot n : Nat} {change : Node → Node}

/-- A node that is added changes no sequence. -/
theorem Recording.size?_add
    (isSequence : r.size? slot = some n)
    (node : Node) :
    (r.add node).size? slot = some n := by
  have found : r.lengths[slot]? = some (some n) := Option.join_eq_some_iff.mp isSequence
  rw [size?, lengths_add, List.getElem?_append_left (List.getElem?_eq_some_iff.mp found).1, found]
  rfl

/-- A changed node changes its own sequence alone. -/
theorem Recording.size?_change
    (view : Nat → Nat)
    (views : ∀ node, (change node).length? = node.length?.map view)
    (isSequence : r.size? slot = some n)
    (id : Nat) :
    (r.change id change).size? slot = some (if id = slot then view n else n) := by
  have found : r.lengths[slot]? = some (some n) := Option.join_eq_some_iff.mp isSequence
  rw [size?, lengths_change (Option.map view) views, List.getElem?_modify, found]
  by_cases here : id = slot <;> simp [here]

/-- What is left in a node makes a sequence longer if it is an element, and leaves it as
it is otherwise. -/
theorem Mention.length?_leave
    (role : Role)
    (key : String)
    (mention : Mention) :
    ∃ more, ∀ node, (mention.leave role key node).length? = node.length?.map (· + more) := by
  have same {change : Node → Node} (keeps : ∀ node, (change node).length? = node.length?) :
      ∃ more, ∀ node, (change node).length? = node.length?.map (· + more) :=
    ⟨0, fun node => by rw [keeps]; exact Option.map_id_apply.symm⟩
  unfold Mention.leave
  cases role with
  | keyed =>
      cases mention.item? with
      | some item => exact same (Node.length?_put key item)
      | none => exact same (Node.length?_markNull key)
  | unkeyed =>
      cases mention.item? with
      | some item => exact ⟨1, Node.length?_push item⟩
      | none => exact same (Node.length?_markNull "")
  | single =>
      rcases mention.item? with _ | ⟨s⟩ | ⟨id⟩
      · exact same (Node.length?_markNull "")
      · exact same (Node.length?_setValue s)
      · exact same fun _ => rfl
  | decoder =>
      rcases mention.item? with _ | ⟨s⟩ | ⟨id⟩
      · exact same fun _ => rfl
      · exact same fun _ => rfl
      · exact same (Node.length?_setOpened id)

/-- What an answered request leaves takes no element back. -/
theorem Exchange.Leaves.size?
    {e : Exchange}
    (leaves : e.Leaves r later)
    (isSequence : r.size? slot = some n) :
    ∃ m, n ≤ m ∧ later.size? slot = some m := by
  have left {start : Recording} (isStart : start.size? slot = some n) (mention : Mention) :
      ∃ m, n ≤ m ∧
        (start.change e.handle.slot (mention.leave e.handle.role e.key)).size? slot = some m := by
    obtain ⟨more, views⟩ := mention.length?_leave e.handle.role e.key
    exact ⟨_, by split <;> omega, Recording.size?_change _ views isStart _⟩
  cases leaves with
  | nothing _ _ same => exact ⟨n, Nat.le_refl n, same ▸ isSequence⟩
  | noted _ _ _ same =>
      rw [same]
      exact left isSequence _
  | opened _ _ _ same =>
      rw [same]
      exact left (Recording.size?_add isSequence _) _

variable {nested : NestedProbe} {h : Handle} {request : Request TypeForm String} {s : Store}

/-- The recording surface answers as it is asked, or it records nothing. -/
theorem recorder_answer_cases
    (nested : NestedProbe)
    (h : Handle)
    (request : Request TypeForm String) :
    (recorder nested).answer h request = (recorder nested).ask h request ∨
      ∀ s, (((recorder nested).answer h request).run s).2 = s := by
  obtain ⟨role, path, relative, slot⟩ := h
  cases role <;> cases request <;>
    first
    | exact .inl rfl
    | exact .inr fun _ => rfl
    | (rename_i key; cases key <;>
        first
        | exact .inl rfl
        | exact .inr fun _ => rfl)

/-- Nothing that the recording surface is asked takes an element back. -/
theorem recorder_keeps
    (nested : NestedProbe)
    (h : Handle)
    (request : Request TypeForm String)
    (s : Recording × Store)
    (isSequence : s.1.size? slot = some n) :
    ∃ m, n ≤ m ∧ (((recorder nested).answer h request).run s).2.1.size? slot = some m := by
  obtain ⟨r, s⟩ := s
  rcases recorder_answer_cases nested h request with same | stays
  · rw [same]
    cases ran : ((recorder nested).ask h request).run (r, s) with
    | mk outcome reached =>
        cases outcome with
        | ok reply => exact (leaves_of_ask ran).size? isSequence
        | error interrupt =>
            rw [recording_of_refused ran]
            exact ⟨n, Nat.le_refl n, isSequence⟩
  · rw [stays]
    exact ⟨n, Nat.le_refl n, isSequence⟩

/-- An element that the recording surface answered with is kept. -/
theorem recorder_counts
    {reply : Reply}
    (isUnkeyed : h.role = .unkeyed)
    (reads : request.readsElement = true)
    (isSequence : r.size? h.slot = some n)
    (answered : (((recorder nested).ask h request).run (r, s)).1 = .ok reply) :
    (((recorder nested).ask h request).run (r, s)).2.1.size? h.slot = some (n + 1) := by
  have pushed {start : Recording} (isStart : start.size? h.slot = some n) (item : Item) :
      (start.change h.slot (·.push item)).size? h.slot = some (n + 1) := by
    rw [Recording.size?_change _ (Node.length?_push item) isStart, if_pos rfl]
  have probed {a : TypeForm} {path : Path} (item : Shape → Item) (view : Value → Reply)
      {outcome : Except Interrupt Reply × Recording × Store}
      (ran : (do
        let probed ← Step.shared (nested a path)
        Recorder.change h.slot (·.push (item probed.1))
        pure (view probed.2)).run (r, s) = outcome)
      (ended : outcome.1 = .ok reply) :
      outcome.2.1.size? h.slot = some (n + 1) := by
    obtain ⟨_, reached, last⟩ := outcome
    obtain rfl := ended
    obtain ⟨node, v, between, -, continued⟩ := shared_probe_cases ran
    cases continued
    exact pushed isSequence _
  obtain ⟨role, path, relative, slot⟩ := h
  cases isUnkeyed
  cases request with
  | decode a key =>
      cases key with
      | some key => cases reads
      | none => exact probed .shape .value rfl answered
  | decodeIfPresent a key =>
      cases key with
      | some key => cases reads
      | none => exact probed (fun s => .shape (s.optional true)) (fun _ => .null) rfl answered
  | nestedKeyed key | nestedUnkeyed key | parent key =>
      cases key with
      | some key => cases reads
      | none => exact pushed (Recording.size?_add isSequence _) _
  | _ => cases reads

/-- A sequence that the recording surface opens is there. -/
theorem recorder_opens
    {opened : Handle}
    {reached : Recording × Store}
    (ran : ((recorder nested).ask h request).run (r, s) = (.ok (.handle opened), reached))
    (isUnkeyed : opened.role = .unkeyed) :
    ∃ n, reached.1.size? opened.slot = some n := by
  have leaves := leaves_of_ask ran
  cases leaves with
  | nothing _ noRole _ | noted _ _ noRole _ => cases noRole
  | opened opens isLast _ same =>
      cases opens
      have isNew : (r.grow .unkeyed).size? opened.slot = some 0 := by
        rw [isLast, Recording.size?]
        change ((r.add (.unkeyed [] false)).lengths[r.nextId]?).join = some 0
        rw [Recording.lengths_add, Recording.nextId, ← List.length_map (f := Node.length?)]
        rw [← Recording.lengths, List.getElem?_concat_length]
        rfl
      obtain ⟨more, views⟩ :=
        (Mention.opened opened.slot).length?_leave h.role (Exchange.key ⟨h, request, _, _⟩)
      rw [same, isUnkeyed]
      exact ⟨_, Recording.size?_change _ views isNew _⟩

/-- The size of a sequence is what the recording surface goes by. -/
theorem Recording.sizeOf_eq (isSequence : r.size? slot = some n) : r.sizeOf slot = n := by
  have found : r.lengths[slot]? = some (some n) := Option.join_eq_some_iff.mp isSequence
  rw [lengths, List.getElem?_map, Option.map_eq_some_iff] at found
  obtain ⟨node, isNode, length⟩ := found
  rw [Recording.sizeOf, isNode]
  cases node <;> cases length
  rfl

/-- The recording surface counts the elements that it answered with. -/
theorem recorder_countsElements (nested : NestedProbe) :
    (recorder nested).Counts Recording.size? false where
  keeps h request s _ _ isSequence := recorder_keeps nested h request s isSequence
  counts _ _ _ _ isUnkeyed reads isSequence answers := by
    obtain ⟨reply, answered⟩ := answers rfl
    exact recorder_counts isUnkeyed reads isSequence answered
  opens _ _ _ _ _ ran isUnkeyed := recorder_opens ran isUnkeyed
  atEnd _ s _ isUnkeyed isSequence := by
    rw [← Recording.sizeOf_eq isSequence]
    exact isAtEnd_recorder nested isUnkeyed s.1 s.2
  one h _ isUnkeyed := by
    obtain ⟨role, path, relative, slot⟩ := h
    cases isUnkeyed
    rfl

end Recording

/-! ## The key-checking surface -/

section Checking

variable {c later : KeyCheck} {slot n : Nat} {placeholder : Placeholder} {h : Handle}
  {request : Request TypeForm String} {s : Store}

/-- What an answer does to a check of keys: it goes on in a sequence or opens one, or
notes that a container is open. -/
inductive KeyCheck.Becomes (c : KeyCheck) : KeyCheck → Prop
  | same : Becomes c c
  | advanced (slot : Nat) : Becomes c (c.advance slot)
  | added {later : KeyCheck} :
      Becomes c later → Becomes c { later with cursors := later.cursors ++ [0] }
  | opened (p : Path) : Becomes c (c.openAt p)

/-- No sequence goes back. -/
theorem KeyCheck.Becomes.size?
    (becomes : c.Becomes later)
    (isSequence : c.size? slot = some n) :
    ∃ m, n ≤ m ∧ later.size? slot = some m := by
  induction becomes with
  | same => exact ⟨n, Nat.le_refl n, isSequence⟩
  | advanced other =>
      rw [KeyCheck.size?, KeyCheck.advance, List.getElem?_modify, ← KeyCheck.size?, isSequence]
      refine ⟨if other = slot then n + 1 else n, by split <;> omega, ?_⟩
      split <;> rfl
  | added _ inductionHypothesis =>
      obtain ⟨m, least, found⟩ := inductionHypothesis
      refine ⟨m, least, ?_⟩
      rw [KeyCheck.size?, List.getElem?_append_left (List.getElem?_eq_some_iff.mp found).1]
      exact found
  | opened p =>
      rw [KeyCheck.size?, KeyCheck.cursors_openAt]
      exact ⟨n, Nat.le_refl n, isSequence⟩

/-- What an answer does that is found in the shared state. -/
theorem becomes_shared
    (step : Step Store α)
    (reply : α → Reply)
    (start : KeyCheck)
    (s : Store) :
    ((do pure (reply (← Step.shared step)) : KeyChecker.Act Reply).run (start, s)).2.1 = start := by
  rw [run_bind, Step.shared, run_within]
  cases (step.run s).1 <;> rfl

/-- What the key-checking surface answers does no more than that. -/
theorem keyChecker_becomes
    (placeholder : Placeholder)
    (h : Handle)
    (request : Request TypeForm String)
    (c : KeyCheck)
    (s : Store) :
    c.Becomes (((keyChecker placeholder).answer h request).run (c, s)).2.1 := by
  obtain ⟨role, path, relative, slot⟩ := h
  have stands {start : KeyCheck} (becomes : c.Becomes start) (a : TypeForm) :
      c.Becomes ((do pure (.value (← Step.shared (placeholder a))) :
        KeyChecker.Act Reply).run (start, s)).2.1 := by
    rw [becomes_shared]
    exact becomes
  cases role with
  | decoder =>
      cases request with
      | openUnkeyed => exact .added .same
      | _ => exact .same
  | keyed =>
      cases request with
      | decode a key =>
          cases key with
          | none => exact .same
          | some key => exact stands .same a
      | nestedUnkeyed key =>
          cases key with
          | none => exact .same
          | some key => exact .added .same
      | allKeys => exact .opened relative
      | decodeIfPresent a key | decodeNull key | nestedKeyed key | contains key =>
          cases key <;> exact .same
      | _ => exact .same
  | unkeyed =>
      cases request with
      | decode a key =>
          cases key with
          | none => exact stands (.advanced slot) a
          | some key => exact .advanced slot
      | nestedUnkeyed key =>
          cases key with
          | none => exact .added (.advanced slot)
          | some key => exact .advanced slot
      | decodeIfPresent a key | nestedKeyed key | parent key => cases key <;> exact .advanced slot
      | decodeNull key => cases key <;> exact .same
      | _ => exact .same
  | single =>
      cases request with
      | decode a key =>
          cases key with
          | none => exact stands .same a
          | some key => exact .same
      | decodeNull key => cases key <;> exact .same
      | _ => exact .same

/-- A request for an element is counted before it is answered. -/
theorem keyChecker_counts
    (isUnkeyed : h.role = .unkeyed)
    (reads : request.readsElement = true)
    (isSequence : c.size? h.slot = some n) :
    (((keyChecker placeholder).ask h request).run (c, s)).2.1.size? h.slot = some (n + 1) := by
  have advanced : (c.advance h.slot).size? h.slot = some (n + 1) := by
    rw [KeyCheck.size?, KeyCheck.advance, List.getElem?_modify, ← KeyCheck.size?, isSequence]
    simp
  obtain ⟨role, path, relative, slot⟩ := h
  cases isUnkeyed
  cases request with
  | decode a key =>
      cases key with
      | some key => cases reads
      | none =>
          change (((do pure (.value (← Step.shared (placeholder a))) :
            KeyChecker.Act Reply).run (c.advance slot, s)).2.1).size? slot = _
          rw [becomes_shared]
          exact advanced
  | nestedUnkeyed key =>
      cases key with
      | some key => cases reads
      | none =>
          change KeyCheck.size? { c.advance slot with cursors := (c.advance slot).cursors ++ [0] } slot = _
          rw [KeyCheck.size?, List.getElem?_append_left (List.getElem?_eq_some_iff.mp advanced).1]
          exact advanced
  | decodeIfPresent a key | nestedKeyed key | parent key =>
      cases key with
      | some key => cases reads
      | none => exact advanced
  | _ => cases reads

/-- A sequence that the key-checking surface opens is there. -/
theorem keyChecker_opens
    {opened : Handle}
    {reached : KeyCheck × Store}
    (ran : ((keyChecker placeholder).ask h request).run (c, s) = (.ok (.handle opened), reached))
    (isUnkeyed : opened.role = .unkeyed) :
    ∃ n, reached.1.size? opened.slot = some n := by
  have isNew (start : KeyCheck) :
      KeyCheck.size? { start with cursors := start.cursors ++ [0] } start.cursors.length = some 0 :=
    List.getElem?_concat_length
  have stands {start : KeyCheck} {a : TypeForm}
      (ended : (do pure (.value (← Step.shared (placeholder a))) :
        KeyChecker.Act Reply).run (start, s) = (.ok (.handle opened), reached)) :
      ∃ n, reached.1.size? opened.slot = some n := by
    obtain ⟨v, between, -, isReply⟩ := run_bind_eq_ok_iff.mp ended
    cases isReply
  obtain ⟨role, path, relative, slot⟩ := h
  cases role with
  | decoder =>
      cases request with
      | openUnkeyed =>
          cases ran
          exact ⟨0, isNew c⟩
      | openKeyed | openSingle =>
          cases ran
          cases isUnkeyed
      | _ => cases ran
  | keyed =>
      cases request with
      | decode a key =>
          cases key with
          | none => cases ran
          | some key => exact stands ran
      | nestedUnkeyed key =>
          cases key with
          | none => cases ran
          | some key =>
              cases ran
              exact ⟨0, isNew c⟩
      | decodeIfPresent a key | decodeNull key | nestedKeyed key | contains key =>
          cases key <;> cases ran <;> cases isUnkeyed
      | parent key =>
          cases ran
          cases isUnkeyed
      | _ => cases ran
  | unkeyed =>
      cases request with
      | decode a key =>
          cases key with
          | some key => cases ran
          | none => exact stands ran
      | nestedUnkeyed key =>
          cases key with
          | some key => cases ran
          | none =>
              cases ran
              exact ⟨0, isNew (c.advance slot)⟩
      | decodeIfPresent a key | decodeNull key | nestedKeyed key | parent key =>
          cases key <;> cases ran <;> cases isUnkeyed
      | _ => cases ran
  | single =>
      cases request with
      | decode a key =>
          cases key with
          | some key => cases ran
          | none => exact stands ran
      | decodeNull key => cases key <;> cases ran
      | _ => cases ran

/-- The key-checking surface counts all requests for elements. -/
theorem keyChecker_countsElements (placeholder : Placeholder) :
    (keyChecker placeholder).Counts KeyCheck.size? true where
  keeps h request s _ _ isSequence :=
    (keyChecker_becomes placeholder h request s.1 s.2).size? isSequence
  counts _ _ _ _ isUnkeyed reads isSequence _ := keyChecker_counts isUnkeyed reads isSequence
  opens _ _ _ _ _ ran isUnkeyed := keyChecker_opens ran isUnkeyed
  atEnd h s n isUnkeyed isSequence := by
    have read : s.1.cursor h.slot = n := by
      rw [KeyCheck.cursor, ← KeyCheck.size?, isSequence]
      rfl
    rw [← read]
    exact isAtEnd_keyChecker isUnkeyed s.1 s.2
  one h _ isUnkeyed := by
    obtain ⟨role, path, relative, slot⟩ := h
    cases isUnkeyed
    rfl

end Checking

end SchemaProbe

import Mathlib.Data.List.ReduceOption
import SchemaProbe.Proofs.Traces

namespace SchemaProbe

/-!
# The two surfaces of a probe answer in step

The recording surface keeps the elements of each sequence, the key-checking surface
only counts them, in the order in which sequences were opened.  So a sequence is
found by its number among the nodes of a recording.  As long as both surfaces are
asked the same, they know the same sequences to the same length, open the same
things at the same places, and agree on everything but values of types, keys and
paths.
-/

/-! ## The sequences of a recording -/

/-- The number of elements of a node that is a sequence. -/
def Node.length? : Node → Option Nat
  | .unkeyed items _ => some items.length
  | _ => none

/-- The lengths of the sequences among the nodes of a recording. -/
def Recording.lengths (r : Recording) : List (Option Nat) :=
  r.nodes.map Node.length?

/-- How many sequences there are before a node. -/
def sequencesBefore (lengths : List (Option Nat)) (id : Nat) : Nat :=
  ((lengths.map Option.isSome).take id).count true

section

variable {lengths : List (Option Nat)} {id n : Nat}

/-- A sequence is found among all sequences by their number before it. -/
theorem getElem?_sequencesBefore (isSequence : lengths[id]? = some (some n)) :
    lengths.reduceOption[sequencesBefore lengths id]? = some n := by
  induction lengths generalizing id with
  | nil => cases isSequence
  | cons head rest inductionHypothesis =>
      cases id with
      | zero =>
          cases isSequence
          rfl
      | succ id =>
          have later := inductionHypothesis isSequence
          cases head with
          | none => simpa [sequencesBefore, List.reduceOption_cons_of_none] using later
          | some m => simpa [sequencesBefore, List.reduceOption_cons_of_some] using later

/-- A sequence that gets longer does so among all sequences. -/
theorem reduceOption_modify
    (change : Nat → Nat)
    (isSequence : lengths[id]? = some (some n)) :
    (lengths.modify id (Option.map change)).reduceOption =
      lengths.reduceOption.modify (sequencesBefore lengths id) change := by
  induction lengths generalizing id with
  | nil => cases isSequence
  | cons head rest inductionHypothesis =>
      cases id with
      | zero =>
          cases isSequence
          rfl
      | succ id =>
          have later := inductionHypothesis isSequence
          cases head with
          | none => simpa [sequencesBefore, List.reduceOption_cons_of_none] using later
          | some m => simpa [sequencesBefore, List.reduceOption_cons_of_some] using later

/-- A change within a table does not see what comes after it. -/
theorem modify_append_of_lt
    {table more : List α}
    {index : Nat}
    (change : α → α)
    (inside : index < table.length) :
    (table ++ more).modify index change = table.modify index change ++ more := by
  induction table generalizing index with
  | nil => cases inside
  | cons head rest inductionHypothesis =>
      cases index with
      | zero => rfl
      | succ index => simpa using inductionHypothesis (Nat.lt_of_succ_lt_succ inside)

end

section

variable {r : Recording} {id : Nat}

theorem Recording.lengths_add
    (r : Recording)
    (n : Node) :
    (r.add n).lengths = r.lengths ++ [n.length?] := by
  rw [lengths, add, List.map_append]
  rfl

/-- What an element is appended to gets longer by one. -/
theorem Node.length?_push
    (item : Item)
    (n : Node) :
    (n.push item).length? = n.length?.map (· + 1) := by
  cases n <;> simp [push, length?]

theorem Node.length?_put
    (key : String)
    (item : Item)
    (n : Node) :
    (n.put key item).length? = n.length? := by
  cases n <;> rfl

theorem Node.length?_markNull
    (key : String)
    (n : Node) :
    (n.markNull key).length? = n.length? := by
  cases n <;> rfl

theorem Node.length?_setValue
    (s : Shape)
    (n : Node) :
    (n.setValue s).length? = n.length? := by
  cases n <;> rfl

theorem Node.length?_setOpened
    (id : Nat)
    (n : Node) :
    (n.setOpened id).length? = n.length? := by
  cases n <;> rfl

/-- Changing a node changes its length. -/
theorem Recording.lengths_change
    {change : Node → Node}
    (view : Option Nat → Option Nat)
    (views : ∀ n, (change n).length? = view n.length?)
    (r : Recording)
    (id : Nat) :
    (r.change id change).lengths = r.lengths.modify id view := by
  refine List.ext_getElem? fun index => ?_
  simp only [lengths, Recording.change, List.getElem?_map, List.getElem?_modify]
  cases r.nodes[index]? with
  | none => rfl
  | some n => by_cases same : id = index <;> simp [same, views]

/-- Changing a node otherwise leaves all lengths as they are. -/
theorem Recording.lengths_change_eq
    {change : Node → Node}
    (keeps : ∀ n, (change n).length? = n.length?)
    (r : Recording)
    (id : Nat) :
    (r.change id change).lengths = r.lengths := by
  rw [lengths_change (fun length => length) keeps]
  exact List.modify_id id r.lengths

end

/-- Whether a recording goes on from another one: sequences stay where they are, and
keyed containers are not forgotten. -/
structure Recording.GoesOn (r later : Recording) : Prop where
  sequences : r.lengths.map Option.isSome <+: later.lengths.map Option.isSome
  keyed : r.sawKeyed = true → later.sawKeyed = true

section

variable {r later last : Recording} {c : KeyCheck} {id : Nat}

theorem Recording.GoesOn.refl (r : Recording) : r.GoesOn r :=
  ⟨List.prefix_rfl, id⟩

theorem Recording.GoesOn.trans
    (first : r.GoesOn later)
    (second : later.GoesOn last) :
    r.GoesOn last :=
  ⟨first.sequences.trans second.sequences, fun saw => second.keyed (first.keyed saw)⟩

/-- Whether a key check has come as far as a recording. -/
structure KeyCheck.KeepsUp (c : KeyCheck) (r : Recording) : Prop where
  cursors : c.cursors = r.lengths.reduceOption
  opened : ∀ p ∈ c.openPaths, r.sawKeyed = true

/-- Whether two handles stand for the same thing on the two surfaces. -/
structure Handle.Matches (r : Recording) (h other : Handle) : Prop where
  role : other.role = h.role
  relative : other.relative = h.relative
  keyed : h.role = .keyed → r.sawKeyed = true
  sequence : h.role = .unkeyed →
    (∃ n, r.lengths[h.slot]? = some (some n)) ∧ other.slot = sequencesBefore r.lengths h.slot

/-- Whether two replies stand for the same thing on the two surfaces. -/
inductive Reply.Matches (r : Recording) : Reply → Reply → Prop
  | value (v other : Value) : Matches r (.value v) (.value other)
  | handle {h other : Handle} : h.Matches r other → Matches r (.handle h) (.handle other)

/-- What counts before a sequence stays the same while a recording goes on. -/
theorem Recording.GoesOn.sequence
    {n : Nat}
    (goesOn : r.GoesOn later)
    (isSequence : r.lengths[id]? = some (some n)) :
    (∃ m, later.lengths[id]? = some (some m)) ∧
      sequencesBefore later.lengths id = sequencesBefore r.lengths id := by
  obtain ⟨more, same⟩ := goesOn.sequences
  have inside : id < r.lengths.length := (List.getElem?_eq_some_iff.mp isSequence).1
  have isKnown : (later.lengths.map Option.isSome)[id]? = some true := by
    rw [← same, List.getElem?_append_left (by simpa using inside), List.getElem?_map, isSequence]
    rfl
  refine ⟨?_, ?_⟩
  · rw [List.getElem?_map, Option.map_eq_some_iff] at isKnown
    obtain ⟨length, found, isSome⟩ := isKnown
    obtain ⟨m, rfl⟩ := Option.isSome_iff_exists.mp isSome
    exact ⟨m, found⟩
  · rw [sequencesBefore, ← same, List.take_append_of_le_length (by simpa using Nat.le_of_lt inside)]
    rfl

/-- Handles go on standing for the same thing. -/
theorem Handle.Matches.goOn
    {h other : Handle}
    (same : h.Matches r other)
    (goesOn : r.GoesOn later) :
    h.Matches later other where
  role := same.role
  relative := same.relative
  keyed isKeyed := goesOn.keyed (same.keyed isKeyed)
  sequence isSequence := by
    obtain ⟨⟨n, found⟩, slot⟩ := same.sequence isSequence
    obtain ⟨known, before⟩ := goesOn.sequence found
    exact ⟨known, slot.trans before.symm⟩

/-- Replies go on standing for the same thing. -/
theorem Reply.Matches.goOn
    {reply other : Reply}
    (same : reply.Matches r other)
    (goesOn : r.GoesOn later) :
    reply.Matches later other := by
  cases same with
  | value v w => exact .value v w
  | handle same => exact .handle (same.goOn goesOn)

/-- A sequence is as long on both surfaces. -/
theorem Handle.Matches.cursor_eq
    {h other : Handle}
    (same : h.Matches r other)
    (isSequence : h.role = .unkeyed)
    (keepsUp : c.KeepsUp r) :
    c.cursor other.slot = r.sizeOf h.slot := by
  obtain ⟨⟨n, found⟩, slot⟩ := same.sequence isSequence
  have counted : c.cursor other.slot = n := by
    rw [KeyCheck.cursor, keepsUp.cursors, slot, getElem?_sequencesBefore found]
    rfl
  rw [counted, Recording.sizeOf]
  rw [Recording.lengths, List.getElem?_map, Option.map_eq_some_iff] at found
  obtain ⟨node, isNode, length⟩ := found
  rw [isNode]
  cases node with
  | unkeyed items isOptional =>
      cases length
      rfl
  | _ => cases length

/-! ## What requests do -/

/-- What a recording goes on to without a change of any sequence. -/
theorem Recording.goesOn_of_lengths_eq
    (same : later.lengths = r.lengths)
    (keyed : r.sawKeyed = true → later.sawKeyed = true) :
    r.GoesOn later :=
  ⟨same ▸ List.prefix_rfl, keyed⟩

/-- A key check keeps up with a recording that changes no sequence. -/
theorem KeyCheck.KeepsUp.of_lengths_eq
    (keepsUp : c.KeepsUp r)
    (same : later.lengths.reduceOption = r.lengths.reduceOption)
    (keyed : r.sawKeyed = true → later.sawKeyed = true) :
    c.KeepsUp later :=
  ⟨keepsUp.cursors.trans same.symm, fun p isOpen => keyed (keepsUp.opened p isOpen)⟩

/-- Adding a node goes on. -/
theorem Recording.goesOn_add
    (r : Recording)
    (n : Node) :
    r.GoesOn (r.add n) := by
  refine ⟨?_, fun saw => saw⟩
  rw [lengths_add, List.map_append]
  exact List.prefix_append _ _

/-- Appending an element goes on. -/
theorem Recording.goesOn_push
    (r : Recording)
    (id : Nat)
    (item : Item) :
    r.GoesOn (r.change id (·.push item)) := by
  refine ⟨?_, fun saw => saw⟩
  rw [lengths_change _ (Node.length?_push item)]
  have same : (r.lengths.modify id (Option.map (· + 1))).map Option.isSome =
      r.lengths.map Option.isSome := by
    refine List.ext_getElem? fun index => ?_
    simp only [List.getElem?_map, List.getElem?_modify]
    cases r.lengths[index]? with
    | none => rfl
    | some length => by_cases same : id = index <;> simp [same]
  exact same ▸ List.prefix_rfl

/-- A key check that counts an element keeps up with a recording that appends it. -/
theorem KeyCheck.KeepsUp.push
    {h other : Handle}
    (keepsUp : c.KeepsUp r)
    (same : h.Matches r other)
    (isSequence : h.role = .unkeyed)
    (item : Item) :
    (c.advance other.slot).KeepsUp (r.change h.slot (·.push item)) := by
  obtain ⟨⟨n, found⟩, slot⟩ := same.sequence isSequence
  refine ⟨?_, keepsUp.opened⟩
  rw [advance, Recording.lengths_change _ (Node.length?_push item), reduceOption_modify _ found,
    slot, keepsUp.cursors]

/-- A key check keeps up with a recording that adds something else than a sequence. -/
theorem KeyCheck.KeepsUp.add
    {n : Node}
    (keepsUp : c.KeepsUp r)
    (isOther : n.length? = none) :
    c.KeepsUp (r.add n) := by
  refine keepsUp.of_lengths_eq ?_ fun saw => saw
  rw [Recording.lengths_add, isOther, List.reduceOption_append]
  exact List.append_nil _

/-- A key check that adds a sequence keeps up with a recording that does so. -/
theorem KeyCheck.KeepsUp.addSequence (keepsUp : c.KeepsUp r) :
    KeyCheck.KeepsUp { c with cursors := c.cursors ++ [0] } (r.add (.unkeyed [] false)) := by
  refine ⟨?_, keepsUp.opened⟩
  rw [Recording.lengths_add, List.reduceOption_append, keepsUp.cursors]
  rfl

/-- A new sequence is one on both surfaces. -/
theorem KeyCheck.KeepsUp.sequence
    (keepsUp : c.KeepsUp r)
    (goesOn : (r.add (.unkeyed [] false)).GoesOn later) :
    (∃ n, later.lengths[r.nextId]? = some (some n)) ∧
      c.cursors.length = sequencesBefore later.lengths r.nextId := by
  have found : (r.add (.unkeyed [] false)).lengths[r.nextId]? = some (some 0) := by
    rw [Recording.lengths_add, Recording.nextId, Recording.lengths, ← List.length_map (f := Node.length?)]
    exact List.getElem?_concat_length
  obtain ⟨known, before⟩ := goesOn.sequence found
  refine ⟨known, ?_⟩
  rw [before, Recording.lengths_add, keepsUp.cursors, List.reduceOption_length_eq, sequencesBefore,
    List.map_append, Recording.nextId, List.take_left']
  · rw [List.count, List.countP_map, List.countP_eq_length_filter]
    congr 1
    exact List.filter_congr fun length _ => by cases length <;> rfl
  · rw [List.length_map, Recording.lengths, List.length_map]

/-- A recording with one more keyed container. -/
def Recording.addKeyed (r : Recording) : Recording :=
  { r.add (.keyed [] []) with sawKeyed := true }

theorem Recording.goesOn_addKeyed (r : Recording) : r.GoesOn r.addKeyed :=
  ⟨(r.goesOn_add (.keyed [] [])).sequences, fun _ => rfl⟩

theorem KeyCheck.KeepsUp.addKeyed (keepsUp : c.KeepsUp r) : c.KeepsUp r.addKeyed :=
  (keepsUp.add (n := .keyed [] []) rfl).of_lengths_eq rfl fun _ => rfl

/-- Changing a node that stays as long goes on. -/
theorem Recording.goesOn_change
    {change : Node → Node}
    (keeps : ∀ n, (change n).length? = n.length?)
    (r : Recording)
    (id : Nat) :
    r.GoesOn (r.change id change) :=
  goesOn_of_lengths_eq (lengths_change_eq keeps r id) fun saw => saw

/-- A key check keeps up with a recording that changes a node that stays as long. -/
theorem KeyCheck.KeepsUp.change
    {change : Node → Node}
    (keepsUp : c.KeepsUp r)
    (keeps : ∀ n, (change n).length? = n.length?)
    (id : Nat) :
    c.KeepsUp (r.change id change) :=
  keepsUp.of_lengths_eq (by rw [Recording.lengths_change_eq keeps]) fun saw => saw

/-- It does not matter whether an element is counted before or after another sequence
is added. -/
theorem KeyCheck.advance_addSequence
    {slot : Nat}
    (isKnown : slot < c.cursors.length) :
    KeyCheck.advance { c with cursors := c.cursors ++ [0] } slot =
      { c.advance slot with cursors := (c.advance slot).cursors ++ [0] } := by
  rw [advance, advance, modify_append_of_lt _ isKnown]

/-- Asking for all keys counts no element. -/
theorem KeyCheck.cursors_openAt
    (c : KeyCheck)
    (p : Path) :
    (c.openAt p).cursors = c.cursors := by
  unfold openAt
  split <;> rfl

/-- What is open after a container was asked for all its keys. -/
theorem KeyCheck.mem_openAt_iff
    {p q : Path} :
    p ∈ (c.openAt q).openPaths ↔ p ∈ c.openPaths ∨ q = p := by
  rw [openAt]
  split
  · rename_i isOpen
    constructor
    · exact .inl
    · rintro (member | rfl)
      · exact member
      · exact List.contains_iff_mem.mp isOpen
  · rw [List.mem_append, List.mem_singleton, eq_comm]

end

/-! ## Asking both surfaces -/

/-- A request with another type form, if it has one. -/
def Request.withForm (b : T) : Request T K → Request T K
  | .decode _ key => .decode b key
  | .decodeIfPresent _ key => .decodeIfPresent b key
  | other => other

/-- Whether probing a nested type raises nothing, wherever finding out about types
leads, and what stands in for it is found. -/
structure TypeForm.IsQuiet
    (start : World)
    (nested : NestedProbe)
    (placeholder : Placeholder)
    (a : TypeForm) :
    Prop where
  reaches : ∀ path s, start.Reaches s.world → start.Reaches ((nested a path).run s).2.world
  raises : ∀ path s f, start.Reaches s.world → ((nested a path).run s).1 ≠ .error (.fault f)
  stands : ∀ t, start.Reaches t.world → ∃ v after, (placeholder a).run t = (.ok v, after) ∧
    start.Reaches after.world

/-- How a request of a container or a decoder ends on both surfaces: it is refused by
both, or answered by both in the same way. -/
inductive Answered
    (start : World)
    (h : Handle)
    (request : Request TypeForm String)
    (r : Recording)
    (c : KeyCheck)
    (s t : Store)
    (first : Except Interrupt Reply × Recording × Store)
    (second : Except Interrupt Reply × KeyCheck × Store) :
    Prop
  | refused {f g : Fault} :
      first = (.error (.fault f), r, s) → second = (.error (.fault g), c, t) →
        (h.role = .keyed → request ≠ .allKeys) → Answered start h request r c s t first second
  | replied {reply other : Reply} {later : Recording} {check : KeyCheck} {after next : Store} :
      first = (.ok reply, later, after) → second = (.ok other, check, next) →
        r.GoesOn later → check.KeepsUp later → reply.Matches later other →
        (request.isSteady = true → reply = other) →
        (∀ p, p ∈ check.openPaths ↔
          p ∈ c.openPaths ∨ h.role = .keyed ∧ h.relative = p ∧ request = .allKeys) →
        start.Reaches after.world → start.Reaches next.world →
          Answered start h request r c s t first second

section

variable {start : World} {nested : NestedProbe} {placeholder : Placeholder} {h other : Handle}
  {r : Recording} {c : KeyCheck} {s t : Store} {request : Request TypeForm String} {b : TypeForm}

/-- A quiet type that is probed is described, unless the bound is used up. -/
theorem TypeForm.IsQuiet.run_of_bind
    {a : TypeForm}
    {path : Path}
    {next : Shape × Value → Recorder.Act β}
    (quiet : a.IsQuiet start nested placeholder)
    (reaches : start.Reaches s.world)
    (ends : ((Step.shared (nested a path) >>= next).run (r, s)).1 ≠ .error .exhausted) :
    ∃ shape v after, (nested a path).run s = (.ok (shape, v), after) ∧
      start.Reaches after.world := by
  have reached := quiet.reaches path s reaches
  cases ran : (nested a path).run s with
  | mk outcome after =>
      rw [ran] at reached
      cases outcome with
      | ok found => exact ⟨found.1, found.2, after, rfl, reached⟩
      | error interrupt =>
          cases interrupt with
          | fault f => exact absurd (congrArg Prod.fst ran) (quiet.raises path s f reaches)
          | exhausted =>
              have shared : (Step.shared (nested a path)).run (r, s) =
                  (.error .exhausted, r, after) := by
                rw [Step.shared, Step.run_within, ran]
              exact absurd (congrArg Prod.fst (Step.run_bind_of_error shared next)) ends

/-- Nothing is opened by a request other than for all keys. -/
theorem mem_openPaths_iff_of_ne
    (isOther : request ≠ .allKeys)
    (p : Path) :
    p ∈ c.openPaths ↔ p ∈ c.openPaths ∨ h.role = .keyed ∧ h.relative = p ∧ request = .allKeys :=
  ⟨.inl, fun either => either.elim id fun asked => absurd asked.2.2 isOther⟩

section

variable (keepsUp : c.KeepsUp r) (same : h.Matches r other) (reaches : start.Reaches s.world)
  (checks : start.Reaches t.world)

include keepsUp same reaches checks

/-- A decoder answers in step. -/
theorem ask_decoder
    (isDecoder : h.role = .decoder) :
    Answered start h request r c s t (((recorder nested).ask h request).run (r, s))
      (((keyChecker placeholder).ask other (request.withForm b)).run (c, t)) := by
  obtain ⟨role, path, relative, slot⟩ := h
  obtain ⟨otherRole, otherPath, otherRelative, otherSlot⟩ := other
  obtain ⟨rfl, rfl, -, -⟩ := same
  cases isDecoder
  have opened {change : Nat → Node → Node}
      (keeps : ∀ id n, (change id n).length? = n.length?) (later : Recording) :=
    later.goesOn_change (keeps r.nextId) slot
  cases request with
  | openKeyed =>
      have goesOn := r.goesOn_addKeyed.trans (opened Node.length?_setOpened r.addKeyed)
      exact .replied rfl rfl goesOn
        (keepsUp.addKeyed.change (Node.length?_setOpened _) slot)
        (.handle ⟨rfl, rfl, fun _ => rfl, nofun⟩) nofun
        (mem_openPaths_iff_of_ne nofun) reaches checks
  | openUnkeyed =>
      have later := opened Node.length?_setOpened (r.add (.unkeyed [] false))
      exact .replied rfl rfl ((r.goesOn_add _).trans later)
        (keepsUp.addSequence.change (Node.length?_setOpened _) slot)
        (.handle ⟨rfl, rfl, nofun, fun _ => keepsUp.sequence later⟩) nofun
        (mem_openPaths_iff_of_ne nofun) reaches checks
  | openSingle =>
      have goesOn := (r.goesOn_add (.single none false)).trans (opened Node.length?_setOpened _)
      exact .replied rfl rfl goesOn
        ((keepsUp.add rfl).change (Node.length?_setOpened _) slot)
        (.handle ⟨rfl, rfl, nofun, nofun⟩) nofun
        (mem_openPaths_iff_of_ne nofun) reaches checks
  | path =>
      exact .replied rfl rfl (.refl r) keepsUp (.value _ _) nofun
        (mem_openPaths_iff_of_ne nofun) reaches checks
  | _ => exact .refused rfl rfl nofun

/-- A keyed container answers in step. -/
theorem ask_keyed
    (isKeyed : h.role = .keyed)
    (quiet : ∀ a, request.form? = some a →
      a.IsQuiet start nested placeholder ∧ b.IsQuiet start nested placeholder)
    (ends : (((recorder nested).ask h request).run (r, s)).1 ≠ .error .exhausted) :
    Answered start h request r c s t (((recorder nested).ask h request).run (r, s))
      (((keyChecker placeholder).ask other (request.withForm b)).run (c, t)) := by
  obtain ⟨role, path, relative, slot⟩ := h
  obtain ⟨otherRole, otherPath, otherRelative, otherSlot⟩ := other
  obtain ⟨rfl, rfl, keyed, -⟩ := same
  cases isKeyed
  have saw := keyed rfl
  have put (key : String) (item : Item) (later : Recording) :=
    later.goesOn_change (Node.length?_put key item) slot
  have putKeepsUp {check : KeyCheck} {later : Recording} (ahead : check.KeepsUp later)
      (key : String) (item : Item) :=
    ahead.change (Node.length?_put key item) slot
  cases request with
  | decode a key =>
      cases key with
      | none => exact .refused rfl rfl nofun
      | some key =>
          obtain ⟨aQuiet, bQuiet⟩ := quiet a rfl
          obtain ⟨shape, v, after, ran, reached⟩ := aQuiet.run_of_bind reaches ends
          obtain ⟨w, next, stands, checked⟩ := bQuiet.stands t checks
          exact .replied (Step.run_bind_of_ok (run_shared_of_ok ran r) _)
            (Step.run_bind_of_ok (run_shared_of_ok stands c) _)
            (put key _ r) (putKeepsUp keepsUp key _) (.value _ _) nofun
            (mem_openPaths_iff_of_ne nofun) reached checked
  | decodeIfPresent a key =>
      cases key with
      | none => exact .refused rfl rfl nofun
      | some key =>
          obtain ⟨shape, v, after, ran, reached⟩ := (quiet a rfl).1.run_of_bind reaches ends
          exact .replied (Step.run_bind_of_ok (run_shared_of_ok ran r) _) rfl
            (put key _ r) (putKeepsUp keepsUp key _) (.value _ _) (fun _ => rfl)
            (mem_openPaths_iff_of_ne nofun) reached checks
  | decodeNull key =>
      cases key with
      | none => exact .refused rfl rfl nofun
      | some key =>
          exact .replied rfl rfl (r.goesOn_change (Node.length?_markNull key) slot)
            (keepsUp.change (Node.length?_markNull key) slot) (.value _ _) (fun _ => rfl)
            (mem_openPaths_iff_of_ne nofun) reaches checks
  | nestedKeyed key =>
      cases key with
      | none => exact .refused rfl rfl nofun
      | some key =>
          exact .replied rfl rfl (r.goesOn_addKeyed.trans (put key _ _))
            (putKeepsUp keepsUp.addKeyed key _) (.handle ⟨rfl, rfl, fun _ => rfl, nofun⟩) nofun
            (mem_openPaths_iff_of_ne nofun) reaches checks
  | nestedUnkeyed key =>
      cases key with
      | none => exact .refused rfl rfl nofun
      | some key =>
          have later := put key (.node r.nextId) (r.add (.unkeyed [] false))
          exact .replied rfl rfl ((r.goesOn_add _).trans later)
            (putKeepsUp keepsUp.addSequence key _)
            (.handle ⟨rfl, rfl, nofun, fun _ => keepsUp.sequence later⟩) nofun
            (mem_openPaths_iff_of_ne nofun) reaches checks
  | parent key =>
      exact .replied rfl rfl ((r.goesOn_add (.decoder none)).trans (put _ _ _))
        (putKeepsUp (keepsUp.add rfl) _ _) (.handle ⟨rfl, rfl, nofun, nofun⟩) nofun
        (mem_openPaths_iff_of_ne nofun) reaches checks
  | contains key =>
      cases key with
      | none => exact .refused rfl rfl nofun
      | some key =>
          exact .replied rfl rfl (.refl r) keepsUp (.value _ _) (fun _ => rfl)
            (mem_openPaths_iff_of_ne nofun) reaches checks
  | allKeys =>
      refine .replied rfl rfl (.refl r)
        ⟨(c.cursors_openAt otherRelative).trans keepsUp.cursors, fun _ _ => saw⟩ (.value _ _) nofun
        (fun p => KeyCheck.mem_openAt_iff.trans ?_) reaches checks
      exact or_congr_right ⟨fun isPlace => ⟨rfl, isPlace, rfl⟩, fun asked => asked.2.1⟩
  | path =>
      exact .replied rfl rfl (.refl r) keepsUp (.value _ _) nofun
        (mem_openPaths_iff_of_ne nofun) reaches checks
  | _ => exact .refused rfl rfl nofun

/-- A sequence answers in step. -/
theorem ask_unkeyed
    (isSequence : h.role = .unkeyed)
    (quiet : ∀ a, request.form? = some a →
      a.IsQuiet start nested placeholder ∧ b.IsQuiet start nested placeholder)
    (ends : (((recorder nested).ask h request).run (r, s)).1 ≠ .error .exhausted) :
    Answered start h request r c s t (((recorder nested).ask h request).run (r, s))
      (((keyChecker placeholder).ask other (request.withForm b)).run (c, t)) := by
  have length := same.cursor_eq isSequence keepsUp
  have pushed {later : Recording} {check : KeyCheck} (ahead : check.KeepsUp later)
      (goesOn : r.GoesOn later) (item : Item) :=
    ahead.push (same.goOn goesOn) isSequence item
  have isKnown : other.slot < c.cursors.length := by
    obtain ⟨⟨n, found⟩, slot⟩ := same.sequence isSequence
    rw [keepsUp.cursors, slot]
    exact (List.getElem?_eq_some_iff.mp (getElem?_sequencesBefore found)).1
  obtain ⟨role, path, relative, slot⟩ := h
  obtain ⟨otherRole, otherPath, otherRelative, otherSlot⟩ := other
  obtain ⟨rfl, rfl, -, -⟩ := same
  cases isSequence
  have push (later : Recording) := later.goesOn_push slot
  cases request with
  | decode a key =>
      cases key with
      | some key => exact .refused rfl rfl nofun
      | none =>
          obtain ⟨aQuiet, bQuiet⟩ := quiet a rfl
          obtain ⟨shape, v, after, ran, reached⟩ := aQuiet.run_of_bind reaches ends
          obtain ⟨w, next, stands, checked⟩ := bQuiet.stands t checks
          exact .replied (Step.run_bind_of_ok (run_shared_of_ok ran r) _)
            (Step.run_bind_of_ok (run_shared_of_ok stands (c.advance otherSlot)) _)
            (push r _) (pushed keepsUp (.refl r) _) (.value _ _) nofun
            (mem_openPaths_iff_of_ne nofun) reached checked
  | decodeIfPresent a key =>
      cases key with
      | some key => exact .refused rfl rfl nofun
      | none =>
          obtain ⟨shape, v, after, ran, reached⟩ := (quiet a rfl).1.run_of_bind reaches ends
          exact .replied (Step.run_bind_of_ok (run_shared_of_ok ran r) _) rfl
            (push r _) (pushed keepsUp (.refl r) _) (.value _ _) (fun _ => rfl)
            (mem_openPaths_iff_of_ne nofun) reached checks
  | decodeNull key =>
      cases key with
      | some key => exact .refused rfl rfl nofun
      | none =>
          exact .replied rfl rfl (r.goesOn_change (Node.length?_markNull "") slot)
            (keepsUp.change (Node.length?_markNull "") slot) (.value _ _) (fun _ => rfl)
            (mem_openPaths_iff_of_ne nofun) reaches checks
  | nestedKeyed key =>
      cases key with
      | some key => exact .refused rfl rfl nofun
      | none =>
          exact .replied rfl rfl (r.goesOn_addKeyed.trans (push _ _))
            (pushed keepsUp.addKeyed r.goesOn_addKeyed _)
            (.handle ⟨rfl, rfl, fun _ => rfl, nofun⟩) nofun
            (mem_openPaths_iff_of_ne nofun) reaches checks
  | nestedUnkeyed key =>
      cases key with
      | some key => exact .refused rfl rfl nofun
      | none =>
          have later := push (r.add (.unkeyed [] false)) (.node r.nextId)
          have ahead := pushed keepsUp.addSequence (r.goesOn_add _) (.node r.nextId)
          rw [KeyCheck.advance_addSequence isKnown] at ahead
          have opens : (c.advance otherSlot).cursors.length = c.cursors.length :=
            List.length_modify _ _ _
          refine .replied rfl rfl ((r.goesOn_add _).trans later) ahead
            (.handle ⟨rfl, rfl, nofun, fun _ => ?_⟩) nofun
            (mem_openPaths_iff_of_ne nofun) reaches checks
          exact ⟨(keepsUp.sequence later).1, opens.trans (keepsUp.sequence later).2⟩
  | parent key =>
      cases key with
      | some key => exact .refused rfl rfl nofun
      | none =>
          exact .replied rfl rfl ((r.goesOn_add (.decoder none)).trans (push _ _))
            (pushed (keepsUp.add rfl) (r.goesOn_add _) _) (.handle ⟨rfl, rfl, nofun, nofun⟩) nofun
            (mem_openPaths_iff_of_ne nofun) reaches checks
  | count =>
      exact .replied rfl rfl (.refl r) keepsUp (.value _ _) (fun _ => rfl)
        (mem_openPaths_iff_of_ne nofun) reaches checks
  | isAtEnd =>
      refine .replied rfl rfl (.refl r) keepsUp (.value _ _) (fun _ => ?_)
        (mem_openPaths_iff_of_ne nofun) reaches checks
      exact congrArg (fun n => Reply.ofBool (decide (1 ≤ n))) length.symm
  | path =>
      exact .replied rfl rfl (.refl r) keepsUp (.value _ _) nofun
        (mem_openPaths_iff_of_ne nofun) reaches checks
  | _ => exact .refused rfl rfl nofun

/-- A single value answers in step. -/
theorem ask_single
    (isSingle : h.role = .single)
    (quiet : ∀ a, request.form? = some a →
      a.IsQuiet start nested placeholder ∧ b.IsQuiet start nested placeholder)
    (ends : (((recorder nested).ask h request).run (r, s)).1 ≠ .error .exhausted) :
    Answered start h request r c s t (((recorder nested).ask h request).run (r, s))
      (((keyChecker placeholder).ask other (request.withForm b)).run (c, t)) := by
  obtain ⟨role, path, relative, slot⟩ := h
  obtain ⟨otherRole, otherPath, otherRelative, otherSlot⟩ := other
  obtain ⟨rfl, rfl, -, -⟩ := same
  cases isSingle
  cases request with
  | decode a key =>
      cases key with
      | some key => exact .refused rfl rfl nofun
      | none =>
          obtain ⟨aQuiet, bQuiet⟩ := quiet a rfl
          obtain ⟨shape, v, after, ran, reached⟩ := aQuiet.run_of_bind reaches ends
          obtain ⟨w, next, stands, checked⟩ := bQuiet.stands t checks
          exact .replied (Step.run_bind_of_ok (run_shared_of_ok ran r) _)
            (Step.run_bind_of_ok (run_shared_of_ok stands c) _)
            (r.goesOn_change (Node.length?_setValue shape) slot)
            (keepsUp.change (Node.length?_setValue shape) slot) (.value _ _) nofun
            (mem_openPaths_iff_of_ne nofun) reached checked
  | decodeNull key =>
      cases key with
      | some key => exact .refused rfl rfl nofun
      | none =>
          exact .replied rfl rfl (r.goesOn_change (Node.length?_markNull "") slot)
            (keepsUp.change (Node.length?_markNull "") slot) (.value _ _) (fun _ => rfl)
            (mem_openPaths_iff_of_ne nofun) reaches checks
  | path =>
      exact .replied rfl rfl (.refl r) keepsUp (.value _ _) nofun
        (mem_openPaths_iff_of_ne nofun) reaches checks
  | _ => exact .refused rfl rfl nofun

/-- Both surfaces answer in step, whatever they are asked. -/
theorem ask_answered
    (quiet : ∀ a, request.form? = some a →
      a.IsQuiet start nested placeholder ∧ b.IsQuiet start nested placeholder)
    (ends : (((recorder nested).ask h request).run (r, s)).1 ≠ .error .exhausted) :
    Answered start h request r c s t (((recorder nested).ask h request).run (r, s))
      (((keyChecker placeholder).ask other (request.withForm b)).run (c, t)) := by
  cases role : h.role with
  | decoder => exact ask_decoder keepsUp same reaches checks role
  | keyed => exact ask_keyed keepsUp same reaches checks role quiet ends
  | unkeyed => exact ask_unkeyed keepsUp same reaches checks role quiet ends
  | single => exact ask_single keepsUp same reaches checks role quiet ends

end

end

end SchemaProbe

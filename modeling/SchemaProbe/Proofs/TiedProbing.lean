import SchemaProbe.Proofs.TiedReading

namespace SchemaProbe

/-!
# Probing side by side

The recording surfaces of two probes answer in the same way if the probes of nested
types end in the same way, and the surface that checks keys answers like itself if what
stands in for types is found in the same way.  So a type is probed in the same way from
states that are tied, to depths of which the first may be used up before the second.
-/

open Step

/-! ## What is recorded -/

/-- The shape that a request left, if it left one. -/
def Item.shape? : Item → Option Shape
  | .shape s => some s
  | .node _ => none

/-- The shapes that were recorded in a node. -/
def Node.shapes : Node → List Shape
  | .keyed fields _ => fields.filterMap fun e => e.2.bind Item.shape?
  | .unkeyed items _ => items.filterMap Item.shape?
  | .single value _ => value.toList
  | .decoder _ => []

/-- Whether all shapes that were recorded are fine. -/
def Recording.IsFine (fine : Shape → Prop) (r : Recording) : Prop :=
  ∀ n ∈ r.nodes, ∀ s ∈ n.shapes, fine s

/-- Whether a change of a node records nothing but what is fine. -/
def Node.Records (fine : Shape → Prop) (change : Node → Node) : Prop :=
  ∀ n, ∀ s ∈ (change n).shapes, s ∈ n.shapes ∨ fine s

section

variable {fine : Shape → Prop} {r : Recording}

/-- Nothing was recorded yet. -/
theorem Recording.isFine_start : Recording.start.IsFine fine := by
  intro n member s isShape
  rw [List.mem_singleton.mp member] at isShape
  cases isShape

/-- Nothing is asked of what was recorded if anything is fine. -/
theorem Recording.isFine_anything : Recording.IsFine anything = fun _ => True :=
  funext fun _ => propext ⟨fun _ => trivial, fun _ _ _ _ _ => trivial⟩

/-- A node without shapes may be added. -/
theorem Recording.IsFine.add
    {n : Node}
    (isFine : r.IsFine fine)
    (isBlank : n.shapes = []) :
    (r.add n).IsFine fine := by
  intro other member s isShape
  rcases List.mem_append.mp member with old | new
  · exact isFine other old s isShape
  · rw [List.mem_singleton.mp new, isBlank] at isShape
    cases isShape

/-- What is fine may be recorded. -/
theorem Recording.IsFine.change
    {change : Node → Node}
    (isFine : r.IsFine fine)
    (records : Node.Records fine change)
    (id : Nat) :
    (r.change id change).IsFine fine := by
  intro n member s isShape
  obtain ⟨position, found⟩ := List.mem_iff_getElem?.mp member
  rw [Recording.change, List.getElem?_modify, Option.map_eq_map, Option.map_eq_some_iff] at found
  obtain ⟨old, isOld, rfl⟩ := found
  have oldFine := isFine old (List.mem_of_getElem? isOld)
  split at isShape
  · exact (records old s isShape).elim (oldFine s) fun isNew => isNew
  · exact oldFine s isShape

/-- Keeping a node as it is records nothing. -/
theorem Node.records_markNull (key : String) : Node.Records fine (·.markNull key) := by
  intro n s isShape
  refine .inl ?_
  cases n with
  | keyed fields nullKeys =>
      obtain ⟨e, member, isItem⟩ := List.mem_filterMap.mp isShape
      refine List.mem_filterMap.mpr ⟨e, ?_, isItem⟩
      split at member
      · exact member
      · rcases List.mem_append.mp member with old | new
        · exact old
        · rw [List.mem_singleton.mp new] at isItem
          cases isItem
  | _ => exact isShape

/-- Opening a container on a decoder records nothing. -/
theorem Node.records_setOpened (id : Nat) : Node.Records fine (·.setOpened id) := by
  intro n s isShape
  cases n with
  | decoder opened => cases isShape
  | _ => exact .inl isShape

/-- What is put under a key is recorded. -/
theorem Node.records_put
    {item : Item}
    (key : String)
    (isFine : ∀ s, item.shape? = some s → fine s) :
    Node.Records fine (·.put key item) := by
  intro n s isShape
  cases n with
  | keyed fields nullKeys =>
      obtain ⟨e, member, isItem⟩ := List.mem_filterMap.mp isShape
      unfold Table.set at member
      split at member
      · obtain ⟨old, isOld, rfl⟩ := List.mem_map.mp member
        split at isItem
        · exact .inr (isFine s isItem)
        · exact .inl (List.mem_filterMap.mpr ⟨old, isOld, isItem⟩)
      · rcases List.mem_append.mp member with old | new
        · exact .inl (List.mem_filterMap.mpr ⟨e, old, isItem⟩)
        · rw [List.mem_singleton.mp new] at isItem
          exact .inr (isFine s isItem)
  | _ => exact .inl isShape

/-- What is added as an element is recorded. -/
theorem Node.records_push
    {item : Item}
    (isFine : ∀ s, item.shape? = some s → fine s) :
    Node.Records fine (·.push item) := by
  intro n s isShape
  cases n with
  | unkeyed items isOptional =>
      obtain ⟨other, member, isItem⟩ := List.mem_filterMap.mp isShape
      rcases List.mem_append.mp member with old | new
      · exact .inl (List.mem_filterMap.mpr ⟨other, old, isItem⟩)
      · rw [List.mem_singleton.mp new] at isItem
        exact .inr (isFine s isItem)
  | _ => exact .inl isShape

/-- The value of a single-value container is recorded. -/
theorem Node.records_setValue
    {shape : Shape}
    (isFine : fine shape) :
    Node.Records fine (·.setValue shape) := by
  intro n s isShape
  cases n with
  | single value isOptional =>
      rw [List.mem_singleton.mp isShape]
      exact .inr isFine
  | _ => exact .inl isShape

end

/-! ## The recording surface -/

section

variable {B : Bond Store Store} {met : TypeForm → Prop}

/-- Whether two probes of nested types end tied, in the same way and with shapes that
are fine, if they are asked for certain type forms only. -/
def NestedTied
    (B : Bond Store Store)
    (met : TypeForm → Prop)
    (first second : NestedProbe)
    (fine : Shape → Prop := anything) :
    Prop :=
  ∀ a, met a → ∀ path, Tied B (Same fun result => fine result.1) (first a path) (second a path)

section Recording

variable {fine : Shape → Prop} {first second : NestedProbe}

/-- What is recorded ends tied to itself. -/
theorem change_tied
    {change : Node → Node}
    (records : Node.Records fine change)
    (id : Nat) :
    Tied (B.alongside (Recording.IsFine fine)) (Same anything) (Recorder.change id change)
      (Recorder.change id change) :=
  .own_update _ fun _ isFine => isFine.change records id

/-- A node is added in the same way. -/
theorem add_tied
    {n : Node}
    (isBlank : n.shapes = []) :
    Tied (B.alongside (Recording.IsFine fine)) (Same anything) (Recorder.add n)
      (Recorder.add n) := by
  refine .current_bind fun s t ties => ?_
  rw [← ties.1.1]
  exact ((Tied.own_update _ fun _ isFine => isFine.add isBlank).bind_same
    fun _ _ => .pure_same trivial) s t ties

/-- A keyed container is added in the same way. -/
theorem addKeyed_tied :
    Tied (B.alongside (Recording.IsFine fine)) (Same anything) Recorder.addKeyed
      Recorder.addKeyed :=
  (add_tied rfl).bind_same fun _ _ =>
    (Tied.own_update (fun r : Recording => { r with sawKeyed := true })
      fun _ isFine => isFine).bind_same fun _ _ => .pure_same trivial

/-- A change and the reply to it end tied to themselves. -/
theorem recorded_tied
    {change : Node → Node}
    (records : Node.Records fine change)
    (id : Nat)
    (reply : Reply) :
    Tied (B.alongside (Recording.IsFine fine)) (Same anything)
      (do Recorder.change id change; pure reply) (do Recorder.change id change; pure reply) :=
  (change_tied records id).bind_same fun _ _ => .pure_same trivial

/-- What is opened leaves no shape. -/
theorem Item.isFine_node
    {id : Nat}
    {s : Shape}
    (isShape : (Item.node id).shape? = some s) :
    fine s := by
  cases isShape

/-- What is found leaves its shape. -/
theorem Item.isFine_shape
    {shape s : Shape}
    (isFine : fine shape)
    (isShape : (Item.shape shape).shape? = some s) :
    fine s := by
  cases isShape
  exact isFine

/-- Decoders are recorded in the same way. -/
theorem onDecoder_tied
    (faults : B.AllowsFaults)
    (h : Handle)
    (request : Request TypeForm String) :
    Tied (B.alongside (Recording.IsFine fine)) (Same anything) (Recorder.onDecoder h request)
      (Recorder.onDecoder h request) := by
  cases request with
  | openKeyed =>
      exact addKeyed_tied.bind_same fun _ _ => recorded_tied (Node.records_setOpened _) _ _
  | openUnkeyed =>
      exact (add_tied rfl).bind_same fun _ _ => recorded_tied (Node.records_setOpened _) _ _
  | openSingle =>
      exact (add_tied rfl).bind_same fun _ _ => recorded_tied (Node.records_setOpened _) _ _
  | _ => exact .fail (faults _)

/-- Keyed containers record in the same way what is found in the same way. -/
theorem onKeyed_tied
    (faults : B.AllowsFaults)
    (optionals : ∀ s, fine s → fine (s.optional true))
    (nested : NestedTied B met first second fine)
    (h : Handle)
    {request : Request TypeForm String}
    (isMet : ∀ a, request.form? = some a → met a) :
    Tied (B.alongside (Recording.IsFine fine)) (Same anything) (Recorder.onKeyed first h request)
      (Recorder.onKeyed second h request) := by
  have unknown : Tied (B.alongside (Recording.IsFine fine)) (Same anything)
      (Step.fail .missingOperation : Recorder.Act Reply) (Step.fail .missingOperation) :=
    .fail (faults _)
  have opens {key : String} {id : Nat} : Node.Records fine (·.put key (.node id)) :=
    Node.records_put key fun _ => Item.isFine_node
  cases request with
  | decode a key =>
      cases key with
      | none => exact unknown
      | some key =>
          exact (nested a (isMet a rfl) _).shared.bind_same fun _ isFine =>
            recorded_tied (Node.records_put key fun _ => Item.isFine_shape isFine) _ _
  | decodeIfPresent a key =>
      cases key with
      | none => exact unknown
      | some key =>
          exact (nested a (isMet a rfl) _).shared.bind_same fun _ isFine =>
            recorded_tied (Node.records_put key fun _ => Item.isFine_shape (optionals _ isFine)) _ _
  | decodeNull key =>
      cases key with
      | none => exact unknown
      | some key => exact recorded_tied (Node.records_markNull key) _ _
  | nestedKeyed key =>
      cases key with
      | none => exact unknown
      | some key => exact addKeyed_tied.bind_same fun _ _ => recorded_tied opens _ _
  | nestedUnkeyed key =>
      cases key with
      | none => exact unknown
      | some key => exact (add_tied rfl).bind_same fun _ _ => recorded_tied opens _ _
  | parent key => exact (add_tied rfl).bind_same fun _ _ => recorded_tied opens _ _
  | contains key => exact .pure_same trivial
  | allKeys => exact .pure_same trivial
  | _ => exact unknown

/-- Sequences record in the same way what is found in the same way. -/
theorem onUnkeyed_tied
    (faults : B.AllowsFaults)
    (optionals : ∀ s, fine s → fine (s.optional true))
    (nested : NestedTied B met first second fine)
    (h : Handle)
    {request : Request TypeForm String}
    (isMet : ∀ a, request.form? = some a → met a) :
    Tied (B.alongside (Recording.IsFine fine)) (Same anything) (Recorder.onUnkeyed first h request)
      (Recorder.onUnkeyed second h request) := by
  refine .current_bind fun s t ties => ?_
  dsimp only
  rw [← ties.1.1]
  have unknown : TiedAt (B.alongside (Recording.IsFine fine)) (Same anything)
      (Step.fail .missingOperation : Recorder.Act Reply) (Step.fail .missingOperation) s t :=
    .fail ties (faults _)
  have found (a : TypeForm) (isMet : met a) (path : Path) (change : Shape → Node → Node)
      (records : ∀ s, fine s → Node.Records fine (change s)) (reply : Value → Reply) :
      TiedAt (B.alongside (Recording.IsFine fine)) (Same anything)
        (do
          let probed ← Step.shared (first a path)
          Recorder.change h.slot (change probed.1)
          pure (reply probed.2))
        (do
          let probed ← Step.shared (second a path)
          Recorder.change h.slot (change probed.1)
          pure (reply probed.2)) s t :=
    ((nested a isMet path).shared.bind_same fun _ isFine =>
      recorded_tied (records _ isFine) _ _) s t ties
  have opens {id : Nat} : Node.Records fine (·.push (.node id)) :=
    Node.records_push fun _ => Item.isFine_node
  cases request with
  | decode a key =>
      cases key with
      | none =>
          exact found a (isMet a rfl) _ (fun shape => (·.push (.shape shape)))
            (fun _ isFine => Node.records_push fun _ => Item.isFine_shape isFine) .value
      | some key => exact unknown
  | decodeIfPresent a key =>
      cases key with
      | none =>
          exact found a (isMet a rfl) _ (fun shape => (·.push (.shape (shape.optional true))))
            (fun s isFine => Node.records_push fun _ => Item.isFine_shape (optionals s isFine))
            fun _ => .null
      | some key => exact unknown
  | decodeNull key =>
      cases key with
      | none => exact recorded_tied (Node.records_markNull "") _ _ s t ties
      | some key => exact unknown
  | nestedKeyed key =>
      cases key with
      | none => exact (addKeyed_tied.bind_same fun _ _ => recorded_tied opens _ _) s t ties
      | some key => exact unknown
  | nestedUnkeyed key =>
      cases key with
      | none => exact ((add_tied rfl).bind_same fun _ _ => recorded_tied opens _ _) s t ties
      | some key => exact unknown
  | parent key =>
      cases key with
      | none => exact ((add_tied rfl).bind_same fun _ _ => recorded_tied opens _ _) s t ties
      | some key => exact unknown
  | count => exact .pure ties ⟨rfl, trivial⟩
  | isAtEnd => exact .pure ties ⟨rfl, trivial⟩
  | _ => exact unknown

/-- Single values are recorded in the same way if they are found in the same way. -/
theorem onSingle_tied
    (faults : B.AllowsFaults)
    (nested : NestedTied B met first second fine)
    (h : Handle)
    {request : Request TypeForm String}
    (isMet : ∀ a, request.form? = some a → met a) :
    Tied (B.alongside (Recording.IsFine fine)) (Same anything) (Recorder.onSingle first h request)
      (Recorder.onSingle second h request) := by
  have unknown : Tied (B.alongside (Recording.IsFine fine)) (Same anything)
      (Step.fail .missingOperation : Recorder.Act Reply) (Step.fail .missingOperation) :=
    .fail (faults _)
  cases request with
  | decode a key =>
      cases key with
      | none =>
          exact (nested a (isMet a rfl) _).shared.bind_same fun _ isFine =>
            recorded_tied (Node.records_setValue isFine) _ _
      | some key => exact unknown
  | decodeNull key =>
      cases key with
      | none => exact recorded_tied (Node.records_markNull "") _ _
      | some key => exact unknown
  | _ => exact unknown

/-- A sequence that is opened is new and has no elements. -/
theorem getElem?_opened
    (r : Recording)
    (id : Nat) :
    ((r.add (.unkeyed [] false)).change id (·.setOpened r.nextId)).nodes[r.nextId]? =
      some (.unkeyed [] false) := by
  simp only [Recording.change, Recording.add, Recording.nextId, List.getElem?_modify,
    List.getElem?_concat_length]
  split <;> rfl

/-- A sequence is at its end if it has an element. -/
theorem isAtEnd_recorder
    (nested : NestedProbe)
    {h : Handle}
    (isSequence : h.role = .unkeyed)
    (r : Recording)
    (s : Store) :
    ((recorder nested).isAtEnd h).run (r, s) = (.ok (decide (1 ≤ r.sizeOf h.slot)), r, s) := by
  obtain ⟨role, path, relative, slot⟩ := h
  cases isSequence
  rfl

/-- A new sequence is at its end when an element was read. -/
theorem isAtEnd_of_decode
    {nested : NestedProbe}
    (other : NestedProbe)
    {h : Handle}
    {a : TypeForm}
    {r : Recording}
    {s : Store}
    {v : Value}
    {reached : Recording × Store}
    (isSequence : h.role = .unkeyed)
    (isEmpty : r.nodes[h.slot]? = some (.unkeyed [] false))
    (decoded : ((recorder nested).value h (.decode a none)).run (r, s) = (.ok v, reached)) :
    ((recorder other).isAtEnd h).run reached = (.ok true, reached) := by
  obtain ⟨reply, answered, asked, isValue⟩ := run_bind_eq_ok_iff.mp decoded
  cases isValue
  have asks : (recorder nested).ask h (.decode a none) =
      Recorder.onUnkeyed nested h (.decode a none) := by
    obtain ⟨role, path, relative, slot⟩ := h
    cases isSequence
    rfl
  rw [asks, Recorder.onUnkeyed, run_bind_of_ok (run_current _)] at asked
  obtain ⟨⟨shape, value⟩, between, found, recorded⟩ := run_bind_eq_ok_iff.mp asked
  rw [Step.shared, run_within] at found
  obtain ⟨-, rfl⟩ := Prod.mk.inj found
  cases recorded
  rw [isAtEnd_recorder other isSequence]
  simp [Recording.sizeOf, Recording.change, isEmpty, Node.push, Node.size]

/-- The elements of a sequence are recorded in the same way if they are found in the
same way. -/
theorem sequence_recorder
    (faults : B.AllowsFaults)
    (optionals : ∀ s, fine s → fine (s.optional true))
    (nested : NestedTied B met first second fine)
    (decoder : Handle)
    {item : TypeForm}
    (isMet : met item) :
    Tied (B.alongside (Recording.IsFine fine)) (Same anything) (readSequence (recorder first) decoder item)
      (readSequence (recorder second) decoder item) := by
  rintro ⟨r, s⟩ ⟨other, t⟩ ⟨⟨rfl, isFine⟩, ties⟩
  obtain ⟨role, path, relative, slot⟩ := decoder
  cases role with
  | decoder =>
      let container : Handle := ⟨.unkeyed, path, relative, r.nextId⟩
      let opened : Recording := (r.add (.unkeyed [] false)).change slot (·.setOpened r.nextId)
      have isEmpty : opened.nodes[container.slot]? = some (.unkeyed [] false) := getElem?_opened r slot
      have opens (nested : NestedProbe) (u : Store) :
          ((recorder nested).openHandle ⟨.decoder, path, relative, slot⟩ .openUnkeyed).run (r, u) =
            (.ok container, opened, u) :=
        rfl
      have begins (nested : NestedProbe) (u : Store) :
          ((recorder nested).isAtEnd container).run (opened, u) = (.ok false, opened, u) := by
        rw [isAtEnd_recorder nested rfl, Recording.sizeOf, isEmpty]
        rfl
      have decodes : Tied (B.alongside (Recording.IsFine fine)) (Same anything)
          ((recorder first).value container (.decode item none))
          ((recorder second).value container (.decode item none)) := by
        have answers := onUnkeyed_tied faults optionals nested container (Request.form?_decode isMet none)
        exact answers.bind_same fun _ _ => .pure_same trivial
      have openedFine : opened.IsFine fine :=
        (isFine.add rfl).change (Node.records_setOpened _) slot
      exact readSequence_tiedAt ⟨opens first s, opens second t⟩ ⟨rfl, rfl⟩
        ⟨begins first s, begins second t⟩
        (decodes (opened, s) (opened, t) ⟨⟨rfl, openedFine⟩, ties⟩)
        (fun v reached ran => isAtEnd_of_decode first rfl isEmpty ran)
        fun v reached ran => isAtEnd_of_decode second rfl isEmpty ran
  | _ => exact .error rfl rfl ⟨⟨rfl, isFine⟩, ties⟩ (faults _)

/-- The recording surfaces of probes that end in the same way answer in the same way, and
record what is fine if that is what the probes end with. -/
theorem recorder_answersTied_fine
    (faults : B.AllowsFaults)
    (optionals : ∀ s, fine s → fine (s.optional true))
    (nested : NestedTied B met first second fine) :
    (recorder first).AnswersTied B met (recorder second) (Recording.IsFine fine) where
  answer h request isMet := by
    obtain ⟨role, path, relative, slot⟩ := h
    cases role with
    | decoder => exact onDecoder_tied faults _ request
    | keyed => exact onKeyed_tied faults optionals nested _ isMet
    | unkeyed => exact onUnkeyed_tied faults optionals nested _ isMet
    | single => exact onSingle_tied faults nested _ isMet
  sequence decoder _ isMet := sequence_recorder faults optionals nested decoder isMet

/-- The recording surfaces of probes that end in the same way answer in the same
way. -/
theorem recorder_answersTied
    (faults : B.AllowsFaults)
    (nested : NestedTied B met first second) :
    (recorder first).AnswersTied B met (recorder second) := by
  have answers := recorder_answersTied_fine faults (fun _ _ => trivial) nested
  rwa [Recording.isFine_anything] at answers

end Recording

/-! ## The key-checking surface -/

section Checking

variable {placeholder : Placeholder}

/-- What is done to a check of keys alone ends tied to itself. -/
theorem check_tied
    (change : KeyCheck → KeyCheck) :
    Tied (B.beside KeyCheck) (Same anything) (Step.own (Step.update change))
      (Step.own (Step.update change)) :=
  .own_update change fun _ _ => trivial

/-- A sequence is added to a check of keys in the same way. -/
theorem addSequence_tied (h : Handle) :
    Tied (B.beside KeyCheck) (Same anything) (KeyChecker.addSequence h)
      (KeyChecker.addSequence h) := by
  refine .current_bind fun s t ties => ?_
  dsimp only
  rw [← ties.1.1]
  exact ((check_tied _).bind_same fun _ _ => .pure_same trivial) s t ties

/-- A decoder answers a check of keys like itself. -/
theorem check_onDecoder_tied
    (faults : B.AllowsFaults)
    (h : Handle)
    (request : Request TypeForm String) :
    Tied (B.beside KeyCheck) (Same anything) (KeyChecker.onDecoder h request)
      (KeyChecker.onDecoder h request) := by
  cases request with
  | openKeyed => exact .pure_same trivial
  | openUnkeyed => exact (addSequence_tied h).bind_same fun _ _ => .pure_same trivial
  | openSingle => exact .pure_same trivial
  | _ => exact .fail (faults _)

/-- A keyed container answers a check of keys like itself. -/
theorem check_onKeyed_tied
    (faults : B.AllowsFaults)
    (placeholders : ∀ a, met a → Tied B (Same anything) (placeholder a) (placeholder a))
    (h : Handle)
    {request : Request TypeForm String}
    (isMet : ∀ a, request.form? = some a → met a) :
    Tied (B.beside KeyCheck) (Same anything) (KeyChecker.onKeyed placeholder h request)
      (KeyChecker.onKeyed placeholder h request) := by
  have unknown : Tied (B.beside KeyCheck) (Same anything)
      (Step.fail .missingOperation : KeyChecker.Act Reply) (Step.fail .missingOperation) :=
    .fail (faults _)
  cases request with
  | decode a key =>
      cases key with
      | none => exact unknown
      | some key =>
          exact (placeholders a (isMet a rfl)).shared.bind_same fun _ _ => .pure_same trivial
  | decodeIfPresent a key =>
      cases key with
      | none => exact unknown
      | some key => exact .pure_same trivial
  | decodeNull key =>
      cases key with
      | none => exact unknown
      | some key => exact .pure_same trivial
  | nestedKeyed key =>
      cases key with
      | none => exact unknown
      | some key => exact .pure_same trivial
  | nestedUnkeyed key =>
      cases key with
      | none => exact unknown
      | some key => exact (addSequence_tied _).bind_same fun _ _ => .pure_same trivial
  | parent key => exact .pure_same trivial
  | contains key => exact .pure_same trivial
  | allKeys => exact (check_tied _).bind_same fun _ _ => .pure_same trivial
  | _ => exact unknown

/-- A sequence answers a check of keys like itself. -/
theorem check_onUnkeyed_tied
    (faults : B.AllowsFaults)
    (placeholders : ∀ a, met a → Tied B (Same anything) (placeholder a) (placeholder a))
    (h : Handle)
    {request : Request TypeForm String}
    (isMet : ∀ a, request.form? = some a → met a) :
    Tied (B.beside KeyCheck) (Same anything) (KeyChecker.onUnkeyed placeholder h request)
      (KeyChecker.onUnkeyed placeholder h request) := by
  refine .current_bind fun s t ties => ?_
  dsimp only
  rw [← ties.1.1]
  have unknown : Tied (B.beside KeyCheck) (Same anything)
      (Step.fail .missingOperation : KeyChecker.Act Reply) (Step.fail .missingOperation) :=
    .fail (faults _)
  have advances {step : KeyChecker.Act Reply}
      (tied : Tied (B.beside KeyCheck) (Same anything) step step) :
      TiedAt (B.beside KeyCheck) (Same anything)
        (do Step.own (Step.update fun c => c.advance h.slot); step)
        (do Step.own (Step.update fun c => c.advance h.slot); step) s t :=
    ((check_tied _).bind_same fun _ _ => tied) s t ties
  cases request with
  | decode a key =>
      cases key with
      | none =>
          exact advances
            ((placeholders a (isMet a rfl)).shared.bind_same fun _ _ => .pure_same trivial)
      | some key => exact advances unknown
  | decodeIfPresent a key =>
      cases key with
      | none => exact advances (.pure_same trivial)
      | some key => exact advances unknown
  | decodeNull key =>
      cases key with
      | none => exact .pure ties ⟨rfl, trivial⟩
      | some key => exact unknown s t ties
  | nestedKeyed key =>
      cases key with
      | none => exact advances (.pure_same trivial)
      | some key => exact advances unknown
  | nestedUnkeyed key =>
      cases key with
      | none => exact advances ((addSequence_tied _).bind_same fun _ _ => .pure_same trivial)
      | some key => exact advances unknown
  | parent key =>
      cases key with
      | none => exact advances (.pure_same trivial)
      | some key => exact advances unknown
  | count => exact .pure ties ⟨rfl, trivial⟩
  | isAtEnd => exact .pure ties ⟨rfl, trivial⟩
  | _ => exact unknown s t ties

/-- A single value answers a check of keys like itself. -/
theorem check_onSingle_tied
    (faults : B.AllowsFaults)
    (placeholders : ∀ a, met a → Tied B (Same anything) (placeholder a) (placeholder a))
    {request : Request TypeForm String}
    (isMet : ∀ a, request.form? = some a → met a) :
    Tied (B.beside KeyCheck) (Same anything) (KeyChecker.onSingle placeholder request)
      (KeyChecker.onSingle placeholder request) := by
  have unknown : Tied (B.beside KeyCheck) (Same anything)
      (Step.fail .missingOperation : KeyChecker.Act Reply) (Step.fail .missingOperation) :=
    .fail (faults _)
  cases request with
  | decode a key =>
      cases key with
      | none =>
          exact (placeholders a (isMet a rfl)).shared.bind_same fun _ _ => .pure_same trivial
      | some key => exact unknown
  | decodeNull key =>
      cases key with
      | none => exact .pure_same trivial
      | some key => exact unknown
  | _ => exact unknown

/-- A sequence that was opened last was not read. -/
theorem cursor_added (c : KeyCheck) : ({ c with cursors := c.cursors ++ [0] } : KeyCheck).cursor c.cursors.length = 0 := by
  simp [KeyCheck.cursor]

/-- A sequence is at its end if an element was read. -/
theorem isAtEnd_keyChecker
    {h : Handle}
    (isSequence : h.role = .unkeyed)
    (c : KeyCheck)
    (s : Store) :
    ((keyChecker placeholder).isAtEnd h).run (c, s) =
      (.ok (decide (1 ≤ c.cursor h.slot)), c, s) := by
  obtain ⟨role, path, relative, slot⟩ := h
  cases isSequence
  rfl

/-- A sequence that is known is at its end when an element was read. -/
theorem check_isAtEnd_of_decode
    {h : Handle}
    {a : TypeForm}
    {c : KeyCheck}
    {s : Store}
    {v : Value}
    {reached : KeyCheck × Store}
    (isSequence : h.role = .unkeyed)
    (isKnown : h.slot < c.cursors.length)
    (decoded : ((keyChecker placeholder).value h (.decode a none)).run (c, s) = (.ok v, reached)) :
    ((keyChecker placeholder).isAtEnd h).run reached = (.ok true, reached) := by
  obtain ⟨reply, answered, asked, isValue⟩ := run_bind_eq_ok_iff.mp decoded
  cases isValue
  have asks : ((keyChecker placeholder).ask h (.decode a none)).run (c, s) =
      (do pure (.value (← Step.shared (placeholder a))) : KeyChecker.Act Reply).run
        (c.advance h.slot, s) := by
    obtain ⟨role, path, relative, slot⟩ := h
    cases isSequence
    rfl
  rw [asks] at asked
  obtain ⟨value, between, found, isReply⟩ := run_bind_eq_ok_iff.mp asked
  rw [Step.shared, run_within] at found
  obtain ⟨-, rfl⟩ := Prod.mk.inj found
  cases isReply
  rw [isAtEnd_keyChecker isSequence]
  simp [KeyCheck.cursor, KeyCheck.advance, isKnown]

/-- The elements of a sequence are read for a check of keys like themselves. -/
theorem sequence_keyChecker
    (faults : B.AllowsFaults)
    (placeholders : ∀ a, met a → Tied B (Same anything) (placeholder a) (placeholder a))
    (decoder : Handle)
    {item : TypeForm}
    (isMet : met item) :
    Tied (B.beside KeyCheck) (Same anything) (readSequence (keyChecker placeholder) decoder item)
      (readSequence (keyChecker placeholder) decoder item) := by
  rintro ⟨c, s⟩ ⟨other, t⟩ ⟨⟨rfl, -⟩, ties⟩
  obtain ⟨role, path, relative, slot⟩ := decoder
  cases role with
  | decoder =>
      let container : Handle := ⟨.unkeyed, path, relative, c.cursors.length⟩
      let opened : KeyCheck := { c with cursors := c.cursors ++ [0] }
      have opens (u : Store) :
          ((keyChecker placeholder).openHandle ⟨.decoder, path, relative, slot⟩ .openUnkeyed).run
              (c, u) =
            (.ok container, opened, u) :=
        rfl
      have isNew : opened.cursor container.slot = 0 := cursor_added c
      have begins (u : Store) :
          ((keyChecker placeholder).isAtEnd container).run (opened, u) =
            (.ok false, opened, u) := by
        rw [isAtEnd_keyChecker rfl, isNew]
        rfl
      have isKnown : container.slot < opened.cursors.length := by
        simp [container, opened]
      have decodes : Tied (B.beside KeyCheck) (Same anything)
          ((keyChecker placeholder).value container (.decode item none))
          ((keyChecker placeholder).value container (.decode item none)) := by
        have answers := check_onUnkeyed_tied faults placeholders container
          (Request.form?_decode isMet none)
        exact answers.bind_same fun _ _ => .pure_same trivial
      exact readSequence_tiedAt ⟨opens s, opens t⟩ ⟨rfl, rfl⟩ ⟨begins s, begins t⟩
        (decodes (opened, s) (opened, t) ⟨⟨rfl, trivial⟩, ties⟩)
        (fun v reached ran => check_isAtEnd_of_decode rfl isKnown ran)
        fun v reached ran => check_isAtEnd_of_decode rfl isKnown ran
  | _ => exact .error rfl rfl ⟨⟨rfl, trivial⟩, ties⟩ (faults _)

/-- The surface that checks keys answers like itself if what stands in for types is
found in the same way. -/
theorem keyChecker_answersTied
    (faults : B.AllowsFaults)
    (placeholders : ∀ a, met a → Tied B (Same anything) (placeholder a) (placeholder a)) :
    (keyChecker placeholder).AnswersTied B met (keyChecker placeholder) where
  answer h request isMet := by
    obtain ⟨role, path, relative, slot⟩ := h
    cases role with
    | decoder => exact check_onDecoder_tied faults _ request
    | keyed => exact check_onKeyed_tied faults placeholders _ isMet
    | unkeyed => exact check_onUnkeyed_tied faults placeholders _ isMet
    | single => exact check_onSingle_tied faults placeholders isMet
  sequence decoder _ isMet := sequence_keyChecker faults placeholders decoder isMet

end Checking

/-! ## Types -/

/-- Whether the same is known of two types but for how they are read. -/
def Capabilities.SameButReader (caps other : Capabilities) : Prop :=
  other = { caps with reader := other.reader }

/-- What stands in for a type is the same if the same is found out about the type, and
the guards know the same of it. -/
theorem placeholderOf_tied
    {good : Capabilities → Capabilities → Prop}
    {a : TypeForm}
    (faults : B.AllowsFaults)
    (looks : Tied B good (lookup .current a) (lookup .current a))
    (same : ∀ caps other, good caps other → caps.SameButReader other)
    (guards : ∀ caps other s t, good caps other → B.ties s t →
      t.guard.get? caps.type = s.guard.get? caps.type) :
    Tied B (Same anything) (placeholderOf a) (placeholderOf a) := by
  refine looks.attempt_bind (fun caps other isGood => ?_) fun f => ?_
  · rw [same caps other isGood]
    refine .current_bind fun s t ties => ?_
    dsimp only
    rw [guards caps other s t isGood ties]
    split <;> exact .pure ties ⟨rfl, trivial⟩
  · dsimp only
    split
    · exact .pure_same trivial
    · exact .fail (faults f)

/-! ## The passes of a probe -/

/-- The open keyed containers of a type, by reading it from a surface. -/
def checkKeysOn
    (checker : Surface KeyCheck)
    (name : String)
    (reader : Reader) :
    Step Store (List Path) := do
  let (outcome, check) ← Step.beside KeyCheck.start (reader.run checker (Recorder.decoder []))
  match outcome with
  | .ok _ => pure ()
  | .error (.fault f) => Step.note (.checkFailed name f)
  | .error .exhausted => Step.exhausted
  if !check.openPaths.isEmpty then Step.note (.openKeys name check.openPaths)
  pure check.openPaths

/-- What a probe makes of a recording if the type is read a second time from a
surface. -/
def concludeOn
    (checker : Surface KeyCheck)
    (caps : Capabilities)
    (reader : Reader)
    (recording : Recording)
    (value : Value) :
    Step Store (Shape × Value) := do
  let openPaths ←
    (if recording.sawKeyed then checkKeysOn checker caps.name reader else pure [] :
      Step Store (List Path))
  let shape := recording.finish (some caps.type) openPaths
  match caps.cases with
  | some cases => pure (shape.withCases caps.type cases, value)
  | none => pure (shape, value)

/-- Reads a type from two surfaces and turns the recording into its shape and the value
that stands in for it. -/
def probeReadingOn
    (first : Surface Recording)
    (checker : Surface KeyCheck)
    (caps : Capabilities)
    (reader : Reader)
    (path : Path) :
    Step Store (Shape × Value) := do
  let found ← Step.beside Recording.start (reader.run first (Recorder.decoder path))
  match found.1 with
  | .ok value => concludeOn checker caps reader found.2 value
  | .error (.fault f) => do
    Step.note (.failed caps.name path f)
    concludeOn checker caps reader found.2 caps.placeholder
  | .error .exhausted => Step.exhausted

/-- A probe reads a type from the recording surface and from the one that checks
keys. -/
theorem probeReading_eq_on
    (nested : NestedProbe)
    (caps : Capabilities)
    (reader : Reader)
    (path : Path) :
    probeReading nested caps reader path =
      probeReadingOn (recorder nested) (keyChecker placeholderOf) caps reader path :=
  probeReading_eq caps reader path

/-- Whether what is finished from recordings of what is fine is fine, as the node of a
type. -/
structure Capabilities.FinishesFine (caps : Capabilities) (fine : Shape → Prop) : Prop where
  finish : ∀ (recording : Recording) openPaths, recording.IsFine fine →
    fine (recording.finish (some caps.type) openPaths)
  cases : ∀ shape labels, caps.cases = some labels → fine shape →
    fine (shape.withCases caps.type labels)

/-- Nothing is asked of what is finished if anything is fine. -/
theorem Capabilities.finishesFine_anything (caps : Capabilities) : caps.FinishesFine anything :=
  ⟨fun _ _ _ => trivial, fun _ _ _ _ => trivial⟩

section

variable {recordingOn otherRecordingOn : Surface Recording} {checker otherChecker : Surface KeyCheck}
  {first second : NestedProbe} {caps : Capabilities} {reader : Reader} {path : Path}
  {fine : Shape → Prop}

/-- Keys are checked in the same way, and without a fault. -/
theorem checkKeysOn_tied
    (notes : B.Notes)
    (checking : ∀ s t, B.ties s t →
      TiedAt (B.beside KeyCheck) (Same anything) (reader.run checker (Recorder.decoder []))
        (reader.run otherChecker (Recorder.decoder [])) (.start, s) (.start, t))
    (name : String) :
    Tied B.faultless (Same anything) (checkKeysOn checker name reader)
      (checkKeysOn otherChecker name reader) := by
  have noted (e : Event) : Tied B.faultless (Same anything) (Step.note e) (Step.note e) :=
    note_tied (B := B.faultless) notes e
  have finishes (check : KeyCheck) : Tied B.faultless (Same anything)
      (do
        if !check.openPaths.isEmpty then Step.note (.openKeys name check.openPaths)
        pure check.openPaths : Step Store (List Path))
      (do
        if !check.openPaths.isEmpty then Step.note (.openKeys name check.openPaths)
        pure check.openPaths) := by
    split
    · exact (noted _).bind_same fun _ _ => .pure_same trivial
    · exact .pure_same trivial
  intro s t ties
  refine (checking s t ties).beside_bind ?_ ?_ ?_ fun lapses => lapses
  · exact fun v check reached other _ reachedTies _ => finishes check reached other reachedTies
  · intro interrupt check reached other _ reachedTies allowed
    cases interrupt with
    | fault f =>
        exact ((noted _).bind_same fun _ _ => finishes check) reached other reachedTies
    | exhausted => exact .error rfl rfl reachedTies ⟨rfl, allowed⟩
  · exact fun check reached => ⟨reached, rfl⟩

/-- A recording is concluded in the same way. -/
theorem concludeOn_tied
    (finishes : caps.FinishesFine fine)
    (notes : B.Notes)
    (checking : ∀ s t, B.ties s t →
      TiedAt (B.beside KeyCheck) (Same anything) (reader.run checker (Recorder.decoder []))
        (reader.run otherChecker (Recorder.decoder [])) (.start, s) (.start, t))
    {recording : Recording}
    (isFine : recording.IsFine fine)
    (value : Value) :
    Tied B.faultless (Same fun result => fine result.1)
      (concludeOn checker caps reader recording value)
      (concludeOn otherChecker caps reader recording value) := by
  have checks : Tied B.faultless (Same anything)
      (if recording.sawKeyed then checkKeysOn checker caps.name reader else pure [] :
        Step Store (List Path))
      (if recording.sawKeyed then checkKeysOn otherChecker caps.name reader else pure []) := by
    split
    · exact checkKeysOn_tied notes checking caps.name
    · exact .pure_same trivial
  refine checks.bind_same fun openPaths _ => ?_
  have finished := finishes.finish recording openPaths isFine
  dsimp only
  split
  · rename_i labels isCases
    exact .pure_same (finishes.cases _ labels isCases finished)
  · exact .pure_same finished

/-- A type is read in the same way, and without a fault, and its shape is fine if what is
recorded is. -/
theorem probeReadingOn_tied
    (finishes : caps.FinishesFine fine)
    (notes : B.Notes)
    (recording : ∀ s t, B.ties s t →
      TiedAt (B.alongside (Recording.IsFine fine)) (Same anything)
        (reader.run recordingOn (Recorder.decoder path))
        (reader.run otherRecordingOn (Recorder.decoder path)) (.start, s) (.start, t))
    (checking : ∀ s t, B.ties s t →
      TiedAt (B.beside KeyCheck) (Same anything) (reader.run checker (Recorder.decoder []))
        (reader.run otherChecker (Recorder.decoder [])) (.start, s) (.start, t)) :
    Tied B.faultless (Same fun result => fine result.1)
      (probeReadingOn recordingOn checker caps reader path)
      (probeReadingOn otherRecordingOn otherChecker caps reader path) := by
  intro s t ties
  refine (recording s t ties).beside_bind ?_ ?_ ?_ fun lapses => lapses
  · exact fun v left reached other isFine reachedTies _ =>
      concludeOn_tied finishes notes checking isFine v reached other reachedTies
  · intro interrupt left reached other isFine reachedTies allowed
    cases interrupt with
    | fault f =>
        exact ((note_tied (B := B.faultless) notes _).bind_same fun _ _ =>
          concludeOn_tied finishes notes checking isFine _) reached other reachedTies
    | exhausted => exact .error rfl rfl reachedTies ⟨rfl, allowed⟩
  · exact fun left reached => ⟨reached, rfl⟩

/-- A type is probed by the same reading, and its shape is fine if what is recorded
is. -/
theorem probeReading_tied_fine
    (finishes : caps.FinishesFine fine)
    (notes : B.Notes)
    (recording : ∀ s t, B.ties s t →
      TiedAt (B.alongside (Recording.IsFine fine)) (Same anything)
        (reader.run (recorder first) (Recorder.decoder path))
        (reader.run (recorder second) (Recorder.decoder path)) (.start, s) (.start, t))
    (checking : ∀ s t, B.ties s t →
      TiedAt (B.beside KeyCheck) (Same anything)
        (reader.run (keyChecker placeholderOf) (Recorder.decoder []))
        (reader.run (keyChecker placeholderOf) (Recorder.decoder [])) (.start, s) (.start, t)) :
    Tied B.faultless (Same fun result => fine result.1) (probeReading first caps reader path)
      (probeReading second caps reader path) := by
  rw [probeReading_eq_on, probeReading_eq_on]
  exact probeReadingOn_tied finishes notes recording checking

/-- A type is read in the same way, and without a fault. -/
theorem probeReading_tied
    (notes : B.Notes)
    (recording : ∀ s t, B.ties s t →
      TiedAt (B.beside Recording) (Same anything)
        (reader.run (recorder first) (Recorder.decoder path))
        (reader.run (recorder second) (Recorder.decoder path)) (.start, s) (.start, t))
    (checking : ∀ s t, B.ties s t →
      TiedAt (B.beside KeyCheck) (Same anything)
        (reader.run (keyChecker placeholderOf) (Recorder.decoder []))
        (reader.run (keyChecker placeholderOf) (Recorder.decoder [])) (.start, s) (.start, t)) :
    Tied B.faultless (Same anything) (probeReading first caps reader path)
      (probeReading second caps reader path) := by
  refine probeReading_tied_fine caps.finishesFine_anything notes ?_ checking
  rw [Recording.isFine_anything]
  exact recording

/-- A nested type is probed in the same way if the type is. -/
theorem nestedProbe_tied
    {a : TypeForm}
    (unknown : fine (.any none))
    (faults : B.AllowsFaults)
    (notes : B.Notes)
    (probes : Tied B (Same fun result => fine result.1) (first a path) (second a path)) :
    Tied B (Same fun result => fine result.1) (nestedProbe first a path)
      (nestedProbe second a path) := by
  refine probes.recover fun f => ?_
  split
  · exact (note_tied notes _).bind_same fun _ _ => .pure_same unknown
  · exact .fail (faults f)

/-- A state with another guard. -/
def Store.withGuard (s : Store) (guard : CycleGuard) : Store :=
  { s with guard := guard }

/-- A type is read in the same way between entering and leaving the guard. -/
theorem probeGuarded_tiedAt
    {inner outer : Bond Store Store}
    {fine : Shape × Value → Shape × Value → Prop}
    {other : Capabilities}
    {otherReader : Reader}
    {s t : Store}
    (reads : TiedAt inner fine (probeReading first caps reader path)
      (probeReading second other otherReader path)
      (s.withGuard (s.guard.enter caps.type)) (t.withGuard (t.guard.enter other.type)))
    (leaves : ∀ reached later a b, inner.ties reached later → fine a b →
      outer.ties (reached.withGuard (reached.guard.complete caps.type a.1 a.2))
        (later.withGuard (later.guard.complete other.type b.1 b.2)))
    (breaks : ∀ interrupt reached later, inner.ties reached later → inner.allows interrupt →
      outer.ties reached later ∧ outer.allows interrupt)
    (lapsesToo : inner.lapses → outer.lapses) :
    TiedAt outer fine (probeGuarded first caps reader path)
      (probeGuarded second other otherReader path) s t := by
  refine .bind_of_run ?_ (run_update _ s) (run_update _ t)
  cases reads with
  | ok firstRun secondRun ties isFine =>
      refine .bind_of_run ?_ firstRun secondRun
      exact .ok rfl rfl (leaves _ _ _ _ ties isFine) isFine
  | error firstRun secondRun ties allowed =>
      obtain ⟨outerTies, outerAllows⟩ := breaks _ _ _ ties allowed
      exact .error (run_bind_of_error firstRun _) (run_bind_of_error secondRun _) outerTies
        outerAllows
  | lapsed firstRun lapses => exact .lapsed (run_bind_of_error firstRun _) (lapsesToo lapses)

end

/-- What is found out about a type that is looked into. -/
structure Store.Expands
    (s : Store)
    (a : TypeForm)
    (caps : Capabilities)
    (reader : Reader)
    (reached : Store) :
    Prop where
  found : (lookup .current a).run s = (.ok caps, reached)
  isNoScalar : caps.kind = none
  isProbed : caps.bypassesProbe = false
  reads : caps.reader = some reader

/-- What a type ends with that is not looked into: what is known of the type, or what came
out of it before. -/
inductive Capabilities.Ends (caps : Capabilities) (g : CycleGuard) : Shape × Value → Prop
  | scalar (kind : PrimitiveKind) (v : Value) : Ends caps g (.single (.of (some caps.type)) kind, v)
  | unread (v : Value) : Ends caps g (.any (some caps.type), v)
  | referred (v : Value) :
      g.get? caps.type = some .inProgress →
        Ends caps g (.recursive (.of (some caps.type)) caps.type, v)
  | done {shape : Shape} {v : Value} :
      g.get? caps.type = some (.completed shape v) → shape.hasRecursive = false →
        Ends caps g (shape, v)

/-- The shape of a type and the value that stands in for it, by a way of probing types
that are entered into the guard. -/
def probeBy
    (guarded : Capabilities → Reader → Step Store (Shape × Value))
    (a : TypeForm)
    (path : Path) :
    Step Store (Shape × Value) := do
  let caps ← lookup .current a
  match caps.kind with
  | some kind => pure (.single (.of (some caps.type)) kind, caps.placeholder)
  | none =>
    match caps.bypassesProbe, caps.reader with
    | false, some reader =>
      match (← Step.current).guard.get? caps.type with
      | some .inProgress =>
        Step.note (.recursion path caps.name)
        pure (.recursive (.of (some caps.type)) caps.type, caps.placeholder)
      | some (.completed shape placeholder) =>
        if shape.hasRecursive then do
          Step.note (.probedAgain caps.name path)
          guarded caps reader
        else pure (shape, placeholder)
      | none => guarded caps reader
    | _, _ => pure (.any (some caps.type), caps.placeholder)

/-- A type is probed by entering it and probing what is nested in it less deep. -/
theorem probe_eq_probeBy
    (depth : Nat)
    (a : TypeForm)
    (path : Path) :
    probe (depth + 1) a path =
      probeBy (fun caps reader => probeGuarded (nestedProbe (probe depth)) caps reader path) a path :=
  rfl

/-- A type is probed in the same way if the same is found out about it, and it is entered
in the same way when it is not in progress. -/
theorem probeBy_tiedAt
    {C : Bond Store Store}
    {good : Capabilities → Capabilities → Prop}
    {fine : Shape × Value → Shape × Value → Prop}
    {entering otherEntering : Capabilities → Reader → Step Store (Shape × Value)}
    {a : TypeForm}
    {s t : Store}
    {path : Path}
    (notes : B.Notes)
    (looks : TiedAt B good (lookup .current a) (lookup .current a) s t)
    (same : ∀ caps other, good caps other →
      caps.SameButReader other ∧ (caps.reader = none ↔ other.reader = none))
    (guards : ∀ caps other reached later, good caps other → B.ties reached later →
      later.guard.get? caps.type = reached.guard.get? caps.type)
    (isFine : ∀ caps other reached later result, good caps other → B.ties reached later →
      caps.Ends reached.guard result → fine result result)
    (implies : B.Implies C)
    (guarded : ∀ caps other reader otherReader reached later events others,
      s.Expands a caps reader reached → t.Expands a other otherReader later → good caps other →
        B.ties (reached.withEvents events) (later.withEvents others) →
          reached.guard.entries.lookup caps.type.identity ≠ some .inProgress →
            TiedAt C fine (entering caps reader) (otherEntering other otherReader)
              (reached.withEvents events) (later.withEvents others)) :
    TiedAt C fine (probeBy entering a path) (probeBy otherEntering a path) s t := by
  cases looks with
  | error found otherFound ties allowed =>
      exact .error (run_bind_of_error found _) (run_bind_of_error otherFound _)
        (implies.ties _ _ ties) (implies.allows _ allowed)
  | lapsed found lapses => exact .lapsed (run_bind_of_error found _) (implies.lapses lapses)
  | @ok caps other reached later found otherFound ties isGood =>
      refine .bind_of_run ?_ found otherFound
      have known := guards caps other reached later isGood ties
      obtain ⟨isSame, unread⟩ := same caps other isGood
      have ends {result : Shape × Value} (isEnd : caps.Ends reached.guard result)
          {last otherLast : Store} (lastTies : B.ties last otherLast) :
          TiedAt C fine (pure result) (pure result) last otherLast :=
        .pure (implies.ties _ _ lastTies) (isFine caps other reached later _ isGood ties isEnd)
      have scalars : other.kind = caps.kind := by rw [isSame]
      have types : other.type = caps.type := by rw [isSame]
      have names : other.name = caps.name := by rw [isSame]
      have placeholders : other.placeholder = caps.placeholder := by rw [isSame]
      have bypasses : other.bypassesProbe = caps.bypassesProbe := by rw [isSame]; rfl
      rw [scalars, types, names, placeholders, bypasses]
      cases isScalar : caps.kind with
      | some kind => exact ends (.scalar kind _) ties
      | none =>
          cases isBypassed : caps.bypassesProbe with
          | true => exact ends (.unread _) ties
          | false =>
              cases isRead : caps.reader with
              | none =>
                  rw [unread.mp isRead]
                  exact ends (.unread _) ties
              | some reader =>
                  obtain ⟨otherReader, otherRead⟩ : ∃ otherReader, other.reader = some otherReader :=
                    Option.ne_none_iff_exists'.mp fun absent => by
                      rw [unread.mpr absent] at isRead
                      cases isRead
                  rw [otherRead]
                  have expands : s.Expands a caps reader reached :=
                    ⟨found, isScalar, isBypassed, isRead⟩
                  have otherExpands : t.Expands a other otherReader later :=
                    ⟨otherFound, scalars.trans isScalar, bypasses.trans isBypassed, otherRead⟩
                  refine .current_bind ?_
                  rw [known]
                  cases progress : reached.guard.get? caps.type with
                  | none =>
                      refine guarded caps other reader otherReader reached later reached.events
                        later.events expands otherExpands isGood ties ?_
                      change reached.guard.get? caps.type ≠ _
                      rw [progress]
                      exact nofun
                  | some entry =>
                      cases entry with
                      | inProgress =>
                          refine .bind_of_run ?_ (run_update _ reached) (run_update _ later)
                          exact ends (.referred _ progress) (notes reached later _ ties)
                      | completed shape placeholder =>
                          dsimp only
                          split
                          · refine .bind_of_run ?_ (run_update _ reached) (run_update _ later)
                            refine guarded caps other reader otherReader reached later _ _ expands
                              otherExpands isGood (notes reached later _ ties) ?_
                            change reached.guard.get? caps.type ≠ _
                            rw [progress]
                            exact nofun
                          · rename_i hasNoMarker
                            exact ends (.done progress (Bool.eq_false_iff.mpr hasNoMarker)) ties

/-- A type is probed in the same way if the same is found out about it, and it is read
in the same way when it is not in progress. -/
theorem probe_tiedAt
    {C : Bond Store Store}
    {good : Capabilities → Capabilities → Prop}
    {fine : Shape × Value → Shape × Value → Prop}
    {a : TypeForm}
    {s t : Store}
    {depth more : Nat}
    {path : Path}
    (notes : B.Notes)
    (looks : TiedAt B good (lookup .current a) (lookup .current a) s t)
    (same : ∀ caps other, good caps other →
      caps.SameButReader other ∧ (caps.reader = none ↔ other.reader = none))
    (guards : ∀ caps other reached later, good caps other → B.ties reached later →
      later.guard.get? caps.type = reached.guard.get? caps.type)
    (isFine : ∀ caps other reached later result, good caps other → B.ties reached later →
      caps.Ends reached.guard result → fine result result)
    (implies : B.Implies C)
    (guarded : ∀ caps other reader otherReader reached later events others,
      s.Expands a caps reader reached → t.Expands a other otherReader later → good caps other →
        B.ties (reached.withEvents events) (later.withEvents others) →
          reached.guard.entries.lookup caps.type.identity ≠ some .inProgress →
            TiedAt C fine (probeGuarded (nestedProbe (probe depth)) caps reader path)
              (probeGuarded (nestedProbe (probe more)) other otherReader path)
              (reached.withEvents events) (later.withEvents others)) :
    TiedAt C fine (probe (depth + 1) a path) (probe (more + 1) a path) s t :=
  probeBy_tiedAt notes looks same guards isFine implies guarded

end

end SchemaProbe

import SchemaProbe.Proofs.Tables
import SchemaProbe.Proofs.Requesting

namespace SchemaProbe

/-!
# What is recorded is a function of the requests

A type makes requests of the decoder that it is given, of the containers that it
opens there, and of what it opens in those, in any order.  The log of a run keeps
the requests that were answered.  Each of them leaves a mark in one node of the
recording and opens at most one more.  So every node is a function of what the log
says of it, and finishing it depends on the log alone.
-/

open Step

/-! ## Logs -/

/-- What a request leaves where it is made: what the type that it asks for looks
like, what was opened, or that null was asked for. -/
inductive Mention
  | node (s : Shape)
  | optionalNode (s : Shape)
  | opened (id : Nat)
  | null

/-- A request that was answered.  If it asked for a type, `node` is what that one
looks like. -/
structure Exchange where
  handle : Handle
  request : Request TypeForm String
  reply : Reply
  node : Option Shape

namespace Mention

/-- Whether null was asked for. -/
def isNull : Mention → Bool
  | .null => true
  | _ => false

/-- Whether a request was for something that may be missing. -/
def isOptional : Mention → Bool
  | .optionalNode _ => true
  | _ => false

/-- The node that is opened. -/
def opened? : Mention → Option Nat
  | .opened id => some id
  | _ => none

/-- What is kept in a container. -/
def item? : Mention → Option Item
  | .node s => some (.shape s)
  | .optionalNode s => some (.shape (s.optional true))
  | .opened id => some (.node id)
  | .null => none

/-- What is kept in a single-value container. -/
def shape? : Mention → Option Shape
  | .node s => some s
  | .optionalNode s => some (s.optional true)
  | _ => none

/-- Only null is null. -/
theorem eq_null_of_isNull {mention : Mention} (isNull : mention.isNull = true) : mention = .null := by
  cases mention <;> cases isNull
  rfl

/-- Only null leaves no item. -/
theorem item?_cases (mention : Mention) :
    mention = .null ∨ ∃ item, mention.item? = some item ∧ mention.isNull = false := by
  cases mention with
  | null => exact .inl rfl
  | _ => exact .inr ⟨_, rfl, rfl⟩

end Mention

namespace Exchange

/-- What a request leaves, if anything. -/
def mention? (e : Exchange) : Option Mention :=
  match e.request with
  | .decode _ _ => e.node.map .node
  | .decodeIfPresent _ _ => e.node.map .optionalNode
  | .decodeNull _ => some .null
  | _ =>
    match e.reply with
    | .handle opened => some (.opened opened.slot)
    | .value _ => none

/-- The key under which a request leaves something. -/
def key (e : Exchange) : String :=
  match e.request with
  | .parent key => Recorder.parentKey key
  | request => request.key?.getD ""

/-- What a request opens. -/
def role? (e : Exchange) : Option Role :=
  match e.reply with
  | .handle opened => some opened.role
  | .value _ => none

end Exchange

/-- What the requests of a log leave in a node, in order, each with its key. -/
def mentions (log : List Exchange) (id : Nat) : List (String × Mention) :=
  log.filterMap fun e =>
    if e.handle.slot = id then e.mention?.map fun mention => (e.key, mention) else none

/-- What there is after a log: the decoder, and what was opened. -/
def rolesAfter (log : List Exchange) : List Role :=
  .decoder :: log.filterMap Exchange.role?

/-- Whether a handle is that of the decoder or was opened in a log. -/
def Handle.IsKnownTo (log : List Exchange) (h : Handle) : Prop :=
  (h.role = .decoder ∧ h.slot = 0) ∨ ∃ e ∈ log, e.reply = .handle h

/-- Where the type that a request asks for is found. -/
def Handle.nested (h : Handle) (r : Recording) (key : Option String) : Path :=
  match h.role with
  | .keyed => h.path ++ [.key (key.getD "")]
  | .unkeyed => h.path ++ [.index (r.sizeOf h.slot)]
  | _ => h.path

/-- What the type that a request asks for looks like. -/
def NestedProbe.node?
    (probe : NestedProbe)
    (r : Recording)
    (s : Store)
    (h : Handle)
    (request : Request TypeForm String) :
    Option Shape :=
  request.form?.bind fun a =>
    match ((probe a (h.nested r request.key?)).run s).1 with
    | .ok (node, _) => some node
    | .error _ => none

/-- Whether requests with some log lead to a recording.  Between requests anything may
happen to the state, and a request that is refused is not logged. -/
inductive Served (probe : NestedProbe) : List Exchange → Recording → Prop
  | start : Served probe [] .start
  | answered {log : List Exchange} {r reached : Recording} {s last : Store} {h : Handle}
      {request : Request TypeForm String} {reply : Reply} :
      Served probe log r →
      h.IsKnownTo log →
      ((recorder probe).ask h request).run (r, s) = (.ok reply, reached, last) →
      Served probe (log ++ [⟨h, request, reply, probe.node? r s h request⟩]) reached
  | refused {log : List Exchange} {r reached : Recording} {s last : Store} {h : Handle}
      {request : Request TypeForm String} {interrupt : Interrupt} :
      Served probe log r →
      ((recorder probe).ask h request).run (r, s) = (.error interrupt, reached, last) →
      Served probe log reached

/-! ## What one request does -/

/-- A new decoder or container. -/
def Node.blank : Role → Node
  | .decoder => .decoder none
  | .keyed => .keyed [] []
  | .unkeyed => .unkeyed [] false
  | .single => .single none false

/-- Leaves something in a node as what a role stands for does. -/
def Mention.leave (role : Role) (key : String) (mention : Mention) : Node → Node :=
  match role, mention.item? with
  | .keyed, some item => Node.put key item
  | .keyed, none => Node.markNull key
  | .unkeyed, some item => Node.push item
  | .single, some (.shape s) => Node.setValue s
  | .unkeyed, none | .single, none => Node.markNull ""
  | .decoder, some (.node id) => Node.setOpened id
  | _, _ => id

/-- A recording with one more decoder or container. -/
def Recording.grow (r : Recording) (role : Role) : Recording :=
  { r.add (.blank role) with sawKeyed := if role = .keyed then true else r.sawKeyed }

/-- What an answered request does to a recording: nothing, or it leaves something, or it
opens something that comes last. -/
inductive Exchange.Leaves (e : Exchange) (r reached : Recording) : Prop
  | nothing : e.mention? = none → e.role? = none → reached = r → Leaves e r reached
  | noted {mention : Mention} :
      e.mention? = some mention → mention.opened? = none → e.role? = none →
      reached = r.change e.handle.slot (mention.leave e.handle.role e.key) → Leaves e r reached
  | opened {opened : Handle} :
      e.reply = .handle opened → opened.slot = r.nextId →
      e.mention? = some (.opened opened.slot) →
      reached = (r.grow opened.role).change e.handle.slot
        (Mention.leave e.handle.role e.key (.opened opened.slot)) →
      Leaves e r reached

/-- What is opened comes last. -/
theorem Exchange.Leaves.slot_eq
    {e : Exchange}
    {r reached : Recording}
    {opened : Handle}
    (leaves : e.Leaves r reached)
    (opens : e.reply = .handle opened) :
    opened.slot = r.nodes.length := by
  cases leaves with
  | nothing _ noRole _ | noted _ _ noRole _ =>
      rw [Exchange.role?, opens] at noRole
      cases noRole
  | opened same isLast _ _ =>
      rw [opens] at same
      cases same
      exact isLast

/-- What is opened is left as what comes last. -/
theorem Exchange.Leaves.opened_eq
    {e : Exchange}
    {r reached : Recording}
    {id : Nat}
    (leaves : e.Leaves r reached)
    (isMention : e.mention? = some (.opened id)) :
    id = r.nodes.length := by
  cases leaves with
  | nothing noMention _ _ =>
      rw [noMention] at isMention
      cases isMention
  | noted same isOther _ _ =>
      rw [same] at isMention
      cases isMention
      cases isOther
  | opened _ isLast same _ =>
      rw [same] at isMention
      cases isMention
      exact isLast

section

variable {probe : NestedProbe} {h : Handle} {request : Request TypeForm String} {r reached : Recording}
  {s last : Store} {reply : Reply}

/-- A request that is answered asked for the path, or was answered by the surface. -/
theorem ask_cases
    {σ : Type}
    {surface : Surface σ}
    {whole after : σ × Store}
    (ran : (surface.ask h request).run whole = (.ok reply, after)) :
    (request = .path ∧ (∃ v, reply = .value v) ∧ after = whole) ∨
      (surface.answer h request).run whole = (.ok reply, after) := by
  unfold Surface.ask at ran
  split at ran
  · cases ran
  · split at ran
    · cases ran
    · split at ran
      · cases ran
        exact .inl ⟨rfl, ⟨_, rfl⟩, rfl⟩
      · exact .inr ran

/-- A nested probe that is followed by something was answered, and changes nothing that
was recorded. -/
theorem shared_probe_cases
    {a : TypeForm}
    {path : Path}
    {next : Shape × Value → Recorder.Act β}
    {b : β}
    (ran : (Step.shared (probe a path) >>= next).run (r, s) = (.ok b, reached, last)) :
    ∃ node v between, ((probe a path).run s).1 = .ok (node, v) ∧
      (next (node, v)).run (r, between) = (.ok b, reached, last) := by
  obtain ⟨⟨node, v⟩, ⟨same, between⟩, probed, continued⟩ := Step.run_bind_eq_ok_iff.mp ran
  rw [Step.shared, Step.run_within] at probed
  cases probed_eq : (probe a path).run s with
  | mk outcome after =>
      rw [probed_eq] at probed
      cases probed
      exact ⟨node, v, _, rfl, continued⟩

/-- What a type looks like that was probed where it is found. -/
theorem NestedProbe.node?_of_probed
    {a : TypeForm}
    {node : Shape}
    {v : Value}
    (isForm : request.form? = some a)
    (probed : ((probe a (h.nested r request.key?)).run s).1 = .ok (node, v)) :
    probe.node? r s h request = some node := by
  unfold NestedProbe.node?
  rw [isForm, Option.bind_some, probed]

/-- What a decoder answers opens something. -/
theorem leaves_onDecoder
    (isDecoder : h.role = .decoder)
    (ran : (Recorder.onDecoder h request).run (r, s) = (.ok reply, reached, last)) :
    Exchange.Leaves ⟨h, request, reply, probe.node? r s h request⟩ r reached := by
  obtain ⟨role, path, relative, slot⟩ := h
  cases isDecoder
  cases request with
  | openKeyed | openUnkeyed | openSingle =>
      cases ran
      exact .opened rfl rfl rfl rfl
  | _ => cases ran

/-- What a keyed container answers leaves something under a key. -/
theorem leaves_onKeyed
    (isKeyed : h.role = .keyed)
    (ran : (Recorder.onKeyed probe h request).run (r, s) = (.ok reply, reached, last)) :
    Exchange.Leaves ⟨h, request, reply, probe.node? r s h request⟩ r reached := by
  obtain ⟨role, path, relative, slot⟩ := h
  cases isKeyed
  cases request with
  | decode a key | decodeIfPresent a key =>
      cases key with
      | none => cases ran
      | some key =>
          obtain ⟨node, v, between, probed, continued⟩ := shared_probe_cases ran
          cases continued
          rw [NestedProbe.node?_of_probed rfl probed]
          exact .noted rfl rfl rfl rfl
  | decodeNull key =>
      cases key with
      | none => cases ran
      | some key =>
          cases ran
          exact .noted rfl rfl rfl rfl
  | nestedKeyed key | nestedUnkeyed key =>
      cases key with
      | none => cases ran
      | some key =>
          cases ran
          exact .opened rfl rfl rfl rfl
  | parent key =>
      cases ran
      exact .opened rfl rfl rfl rfl
  | contains key | allKeys =>
      cases ran
      exact .nothing rfl rfl rfl
  | _ => cases ran

/-- What a sequence answers leaves an element. -/
theorem leaves_onUnkeyed
    (isUnkeyed : h.role = .unkeyed)
    (ran : (Recorder.onUnkeyed probe h request).run (r, s) = (.ok reply, reached, last)) :
    Exchange.Leaves ⟨h, request, reply, probe.node? r s h request⟩ r reached := by
  obtain ⟨role, path, relative, slot⟩ := h
  cases isUnkeyed
  unfold Recorder.onUnkeyed at ran
  rw [Step.run_bind_of_ok (Step.run_current _)] at ran
  cases request with
  | decode a key | decodeIfPresent a key =>
      cases key with
      | some key => cases ran
      | none =>
          obtain ⟨node, v, between, probed, continued⟩ := shared_probe_cases ran
          cases continued
          rw [NestedProbe.node?_of_probed rfl probed]
          exact .noted rfl rfl rfl rfl
  | decodeNull key =>
      cases key with
      | some key => cases ran
      | none =>
          cases ran
          exact .noted rfl rfl rfl rfl
  | nestedKeyed key | nestedUnkeyed key | parent key =>
      cases key with
      | some key => cases ran
      | none =>
          cases ran
          exact .opened rfl rfl rfl rfl
  | count | isAtEnd =>
      cases ran
      exact .nothing rfl rfl rfl
  | _ => cases ran

/-- What a single-value container answers leaves its value. -/
theorem leaves_onSingle
    (isSingle : h.role = .single)
    (ran : (Recorder.onSingle probe h request).run (r, s) = (.ok reply, reached, last)) :
    Exchange.Leaves ⟨h, request, reply, probe.node? r s h request⟩ r reached := by
  obtain ⟨role, path, relative, slot⟩ := h
  cases isSingle
  cases request with
  | decode a key =>
      cases key with
      | some key => cases ran
      | none =>
          obtain ⟨node, v, between, probed, continued⟩ := shared_probe_cases ran
          cases continued
          rw [NestedProbe.node?_of_probed rfl probed]
          exact .noted rfl rfl rfl rfl
  | decodeNull key =>
      cases key with
      | some key => cases ran
      | none =>
          cases ran
          exact .noted rfl rfl rfl rfl
  | _ => cases ran

/-- What is answered leaves something, opens something, or does nothing. -/
theorem leaves_of_ask
    (ran : ((recorder probe).ask h request).run (r, s) = (.ok reply, reached, last)) :
    Exchange.Leaves ⟨h, request, reply, probe.node? r s h request⟩ r reached := by
  rcases ask_cases ran with ⟨rfl, ⟨v, rfl⟩, same⟩ | answered
  · cases same
    exact .nothing rfl rfl rfl
  · unfold recorder at answered
    cases role : h.role with
    | decoder =>
        simp only [role] at answered
        exact leaves_onDecoder role answered
    | keyed =>
        simp only [role] at answered
        exact leaves_onKeyed role answered
    | unkeyed =>
        simp only [role] at answered
        exact leaves_onUnkeyed role answered
    | single =>
        simp only [role] at answered
        exact leaves_onSingle role answered

variable {interrupt : Interrupt}

/-- A nested probe that is interrupted records nothing, and nothing that follows it is. -/
theorem shared_probe_refused
    {a : TypeForm}
    {path : Path}
    {next : Shape × Value → Recorder.Act β}
    (ran : (Step.shared (probe a path) >>= next).run (r, s) = (.error interrupt, reached, last))
    (ends : ∀ found between, ∃ b after, (next found).run (r, between) = (.ok b, after)) :
    reached = r := by
  rcases Step.run_bind_eq_error_iff.mp ran with refused | ⟨found, ⟨same, between⟩, probed, continued⟩
  · exact (congrArg (·.2.1) refused).symm
  · have unchanged : same = r := (congrArg (·.2.1) probed).symm
    obtain ⟨b, after, ended⟩ := ends found between
    rw [unchanged, ended] at continued
    cases continued

/-- What is refused records nothing. -/
theorem recording_of_refused
    (ran : ((recorder probe).ask h request).run (r, s) = (.error interrupt, reached, last)) :
    reached = r := by
  obtain ⟨role, path, relative, slot⟩ := h
  unfold Surface.ask at ran
  split at ran
  · cases ran
    rfl
  · split at ran
    · cases ran
      rfl
    · rename_i known fits
      cases role with
      | decoder => cases request <;> cases ran <;> rfl
      | keyed =>
          cases request with
          | decode a key | decodeIfPresent a key =>
              cases key with
              | none => cases fits rfl
              | some key => exact shared_probe_refused ran fun _ _ => ⟨_, _, rfl⟩
          | decodeNull key | nestedKeyed key | nestedUnkeyed key =>
              cases key with
              | none => cases fits rfl
              | some key => cases ran
          | _ => cases ran <;> rfl
      | unkeyed =>
          cases request with
          | decode a key | decodeIfPresent a key =>
              cases key with
              | some key => cases fits rfl
              | none => exact shared_probe_refused ran fun _ _ => ⟨_, _, rfl⟩
          | decodeNull key | nestedKeyed key | nestedUnkeyed key | parent key =>
              cases key with
              | some key => cases fits rfl
              | none => cases ran
          | _ => cases ran <;> rfl
      | single =>
          cases request with
          | decode a key =>
              cases key with
              | some key => cases fits rfl
              | none => exact shared_probe_refused ran fun _ _ => ⟨_, _, rfl⟩
          | decodeNull key =>
              cases key with
              | some key => cases fits rfl
              | none => cases ran
          | _ => cases ran <;> rfl

end

/-! ## Nodes by what was left in them -/

/-- The keys under which something was left, in order of their first mention. -/
def keysOf (ms : List (String × Mention)) : List String :=
  (ms.map Prod.fst).eraseDups

/-- What the last request but for null left under a key. -/
def lastUnder (key : String) (ms : List (String × Mention)) : Option Mention :=
  ((ms.filter fun m => m.1 == key && !m.2.isNull).map Prod.snd).getLast?

/-- Whether null was ever asked for under a key. -/
def isNulled (key : String) (ms : List (String × Mention)) : Bool :=
  ms.any fun m => m.1 == key && m.2.isNull

/-- The decoder or container in which something was left. -/
def Node.holding (ms : List (String × Mention)) : Role → Node
  | .keyed =>
    .keyed ((keysOf ms).map fun key => (key, (lastUnder key ms).bind Mention.item?))
      ((ms.filter (·.2.isNull)).map Prod.fst).reverse
  | .unkeyed => .unkeyed (ms.filterMap (·.2.item?)) (ms.any (·.2.isNull))
  | .single => .single (ms.filterMap (·.2.shape?)).getLast? (ms.any (·.2.isNull))
  | .decoder => .decoder (ms.filterMap (·.2.opened?)).getLast?

/-- A known key stays where it is, a new one comes last. -/
theorem keysOf_concat (ms : List (String × Mention)) (key : String) (mention : Mention) :
    keysOf (ms ++ [(key, mention)]) =
      if key ∈ keysOf ms then keysOf ms else keysOf ms ++ [key] := by
  unfold keysOf
  rw [List.map_append, List.map_singleton, Table.eraseDups_concat]
  simp only [List.mem_eraseDups]

/-- What was left last under a key, after one more request. -/
theorem lastUnder_concat
    (ms : List (String × Mention))
    (key other : String)
    (mention : Mention) :
    lastUnder other (ms ++ [(key, mention)]) =
      if key = other ∧ mention.isNull = false then some mention else lastUnder other ms := by
  unfold lastUnder
  rw [List.filter_append, List.map_append, List.getLast?_append]
  by_cases isLast : key = other ∧ mention.isNull = false
  · obtain ⟨rfl, notNull⟩ := isLast
    simp [notNull]
  · rw [if_neg isLast]
    have nothing : ([(key, mention)].filter fun m => m.1 == other && !m.2.isNull) = [] := by
      rw [List.filter_eq_nil_iff]
      intro m member selected
      rw [List.mem_singleton.mp member, Bool.and_eq_true, beq_iff_eq, Bool.not_eq_true'] at selected
      exact isLast selected
    rw [nothing]
    rfl

/-- What a known key has is replaced where it is, and a new key comes last. -/
theorem Table.set_map_keys
    (keys : List String)
    (value : String → α)
    (key : String)
    (a : α) :
    Table.set (keys.map fun k => (k, value k)) key a =
      (if key ∈ keys then keys else keys ++ [key]).map fun k =>
        (k, if key = k then a else value k) := by
  have isKnown :
      ((keys.map fun k => (k, value k)).any fun e => e.1 == key) = decide (key ∈ keys) := by
    rw [Bool.eq_iff_iff, Table.any_key_iff]
    simp
  unfold Table.set
  rw [isKnown]
  by_cases known : key ∈ keys
  · simp only [known, decide_true, if_true, List.map_map]
    apply List.map_congr_left
    intro k member
    by_cases same : k = key
    · simp [same]
    · simp [same, Ne.symm same]
  · simp only [known, decide_false, if_false, List.map_append, List.map_cons, List.map_nil, if_true]
    rw [if_neg Bool.false_ne_true]
    congr 1
    apply List.map_congr_left
    intro k member
    rw [if_neg]
    rintro rfl
    exact known member

/-- Nothing was left under a key that was not mentioned. -/
theorem lastUnder_of_unknown
    {ms : List (String × Mention)}
    {key : String}
    (unknown : key ∉ keysOf ms) :
    lastUnder key ms = none := by
  have nothing : (ms.filter fun m => m.1 == key && !m.2.isNull) = [] := by
    rw [List.filter_eq_nil_iff]
    intro m member selected
    rw [Bool.and_eq_true, beq_iff_eq] at selected
    apply unknown
    rw [← selected.1]
    exact List.mem_eraseDups.mpr (List.mem_map_of_mem member)
  rw [lastUnder, nothing]
  rfl

/-- What the last request under a key left is among what was left. -/
theorem mem_of_lastUnder
    {ms : List (String × Mention)}
    {key : String}
    {mention : Mention}
    (isLast : lastUnder key ms = some mention) :
    (key, mention) ∈ ms := by
  obtain ⟨m, isKept, rfl⟩ := List.mem_map.mp (List.mem_of_getLast? isLast)
  obtain ⟨member, selected⟩ := List.mem_filter.mp isKept
  rw [Bool.and_eq_true, beq_iff_eq] at selected
  rw [← selected.1]
  exact member

/-- A key is marked if null was asked for under it. -/
theorem isNulled_iff {ms : List (String × Mention)} {key : String} : isNulled key ms = true ↔ (key, .null) ∈ ms := by
  rw [isNulled, List.any_eq_true]
  constructor
  · rintro ⟨⟨other, mention⟩, member, selected⟩
    rw [Bool.and_eq_true, beq_iff_eq] at selected
    obtain ⟨rfl, isNull⟩ := selected
    rw [← Mention.eq_null_of_isNull isNull]
    exact member
  · intro member
    exact ⟨(key, .null), member, by simp [Mention.isNull]⟩

/-- The keys that were asked for null are those that the container keeps as such. -/
theorem contains_nullKeys (ms : List (String × Mention)) (key : String) :
    ((ms.filter (·.2.isNull)).map Prod.fst).reverse.contains key = isNulled key ms := by
  rw [Bool.eq_iff_iff, List.contains_iff_mem, List.mem_reverse, isNulled, List.any_eq_true]
  constructor
  · intro member
    obtain ⟨m, isKept, rfl⟩ := List.mem_map.mp member
    obtain ⟨isMember, isNull⟩ := List.mem_filter.mp isKept
    exact ⟨m, isMember, by simpa using isNull⟩
  · rintro ⟨m, isMember, selected⟩
    rw [Bool.and_eq_true, beq_iff_eq] at selected
    rw [← selected.1]
    exact List.mem_map_of_mem (List.mem_filter.mpr ⟨isMember, selected.2⟩)

/-- What one more request leaves in a keyed container: an item replaces what its key
has, null only marks the key. -/
theorem Node.holding_keyed_concat
    (ms : List (String × Mention))
    (key : String)
    (mention : Mention) :
    Node.holding (ms ++ [(key, mention)]) .keyed =
      mention.leave .keyed key (Node.holding ms .keyed) := by
  rcases mention.item?_cases with rfl | ⟨item, isItem, notNull⟩
  · have fields :
        ((keysOf (ms ++ [(key, .null)])).map fun k =>
            (k, (lastUnder k (ms ++ [(key, .null)])).bind Mention.item?)) =
          if ((keysOf ms).map fun k => (k, (lastUnder k ms).bind Mention.item?)).any
              fun e => e.1 == key then
            (keysOf ms).map fun k => (k, (lastUnder k ms).bind Mention.item?)
          else ((keysOf ms).map fun k => (k, (lastUnder k ms).bind Mention.item?)) ++
            [(key, none)] := by
      have unchanged (k : String) : lastUnder k (ms ++ [(key, .null)]) = lastUnder k ms := by
        rw [lastUnder_concat, if_neg]
        exact fun isLast => Bool.noConfusion isLast.2
      simp only [unchanged]
      rw [keysOf_concat]
      by_cases known : key ∈ keysOf ms
      · rw [if_pos known, if_pos]
        rw [Table.any_key_iff]
        simpa using known
      · rw [if_neg known, if_neg]
        · rw [List.map_append, List.map_cons, List.map_nil, lastUnder_of_unknown known]
          rfl
        · rw [Table.any_key_iff]
          simpa using known
    change Node.keyed _ _ = Node.keyed _ _
    rw [fields]
    simp [List.filter_append, Mention.isNull]
  · have leaves :
        mention.leave .keyed key (Node.holding ms .keyed) =
          (Node.holding ms .keyed).put key item := by
      unfold Mention.leave
      rw [isItem]
    rw [leaves]
    change Node.keyed _ _ = Node.keyed (Table.set _ key (some item)) _
    rw [Table.set_map_keys, keysOf_concat]
    congr 1
    · apply List.map_congr_left
      intro k _
      rw [lastUnder_concat]
      by_cases same : key = k
      · rw [if_pos ⟨same, notNull⟩, if_pos same, Option.bind_some, isItem]
      · rw [if_neg (fun isLast => same isLast.1), if_neg same]
    · simp [List.filter_append, notNull]

/-- What one more request leaves. -/
theorem Node.holding_concat
    (ms : List (String × Mention))
    (role : Role)
    (key : String)
    (mention : Mention) :
    Node.holding (ms ++ [(key, mention)]) role =
      mention.leave role key (Node.holding ms role) := by
  cases role with
  | keyed => exact Node.holding_keyed_concat ms key mention
  | unkeyed => cases mention <;> simp [holding, Mention.leave, Mention.item?, Mention.isNull, push, markNull]
  | single =>
      cases mention <;>
        simp [holding, Mention.leave, Mention.item?, Mention.shape?, Mention.isNull, setValue, markNull]
  | decoder =>
      cases mention <;>
        simp [holding, Mention.leave, Mention.item?, Mention.opened?, setOpened]

/-! ## Recordings by their logs -/

/-- Whether a recording is what a log says: each node holds what the requests left in
it, and what was opened comes after that in which it was opened. -/
structure Recording.Reflects (r : Recording) (log : List Exchange) : Prop where
  keyed : r.sawKeyed = (rolesAfter log).contains .keyed
  nodes : ∀ id, r.nodes[id]? = (rolesAfter log)[id]?.map (Node.holding (mentions log id))
  inside : ∀ e ∈ log, e.handle.slot < (rolesAfter log).length
  slots : ∀ e ∈ log, ∀ opened, e.reply = .handle opened →
    (rolesAfter log)[opened.slot]? = some opened.role
  later : ∀ e ∈ log, ∀ id, e.mention? = some (.opened id) → e.handle.slot < id

section

variable {log : List Exchange} {e : Exchange} {r reached : Recording} {h : Handle}

/-- What a log says of a node, after one more request. -/
theorem mentions_concat (log : List Exchange) (e : Exchange) (id : Nat) :
    mentions (log ++ [e]) id =
      mentions log id ++
        if e.handle.slot = id then (e.mention?.map fun m => (e.key, m)).toList else [] := by
  unfold mentions
  rw [List.filterMap_append]
  congr 1
  by_cases here : e.handle.slot = id
  · rw [if_pos here, List.filterMap_cons, if_pos here]
    cases e.mention? <;> rfl
  · rw [if_neg here, List.filterMap_cons, if_neg here, List.filterMap_nil]

/-- What there is after one more request. -/
theorem rolesAfter_concat (log : List Exchange) (e : Exchange) :
    rolesAfter (log ++ [e]) = rolesAfter log ++ e.role?.toList := by
  unfold rolesAfter
  rw [List.filterMap_append, ← List.cons_append]
  congr 1

/-- There are as many nodes as were opened. -/
theorem Recording.Reflects.length_nodes (reflects : r.Reflects log) :
    r.nodes.length = (rolesAfter log).length := by
  apply Nat.le_antisymm
  · rw [← List.getElem?_eq_none_iff, reflects.nodes, List.getElem?_eq_none (Nat.le_refl _)]
    rfl
  · rw [← List.getElem?_eq_none_iff]
    have beyond := reflects.nodes r.nodes.length
    rw [List.getElem?_eq_none (Nat.le_refl _)] at beyond
    exact Option.map_eq_none_iff.mp beyond.symm

/-- What a known handle stands for is there. -/
theorem Recording.Reflects.role_of_known
    (reflects : r.Reflects log)
    (known : h.IsKnownTo log) :
    (rolesAfter log)[h.slot]? = some h.role := by
  rcases known with ⟨isDecoder, isRoot⟩ | ⟨e, member, opens⟩
  · rw [isDecoder, isRoot]
    rfl
  · exact reflects.slots e member h opens

/-- Before any request there is the decoder alone. -/
theorem Recording.reflects_start : Recording.start.Reflects [] where
  keyed := rfl
  nodes id := by
    cases id with
    | zero => rfl
    | succ id => rfl
  inside := fun _ absent => nomatch absent
  slots := fun _ absent => nomatch absent
  later := fun _ absent => nomatch absent

/-- What a node holds after one more request: what the request left, if it was made
there. -/
theorem holding_mentions_concat
    {mention : Mention}
    (isMention : e.mention? = some mention)
    {id : Nat}
    {role : Role}
    (isRole : e.handle.slot = id → role = e.handle.role) :
    Node.holding (mentions (log ++ [e]) id) role =
      if e.handle.slot = id then
        mention.leave e.handle.role e.key (Node.holding (mentions log id) role)
      else Node.holding (mentions log id) role := by
  rw [mentions_concat]
  by_cases here : e.handle.slot = id
  · rw [if_pos here, if_pos here, isMention, isRole here]
    exact Node.holding_concat _ _ _ _
  · rw [if_neg here, if_neg here, List.append_nil]

/-- A node in which nothing was left is blank. -/
theorem holding_nil (role : Role) : Node.holding [] role = .blank role := by
  cases role <;> rfl

/-- Nothing is said of a node that is not there yet. -/
theorem Recording.Reflects.mentions_beyond
    (reflects : r.Reflects log)
    {id : Nat}
    (beyond : (rolesAfter log).length ≤ id) :
    mentions log id = [] := by
  apply List.filterMap_eq_nil_iff.mpr
  intro e member
  rw [if_neg]
  have inside := reflects.inside e member
  omega

/-- Nodes that hold what a log says go on to do so when a request leaves something in
one of them. -/
theorem holding_modify
    {nodes : List Node}
    {roles : List Role}
    {mention : Mention}
    (holding : ∀ id, nodes[id]? = roles[id]?.map (Node.holding (mentions log id)))
    (isThere : roles[e.handle.slot]? = some e.handle.role)
    (isMention : e.mention? = some mention)
    (id : Nat) :
    (nodes.modify e.handle.slot (mention.leave e.handle.role e.key))[id]? =
      roles[id]?.map (Node.holding (mentions (log ++ [e]) id)) := by
  rw [List.getElem?_modify, holding]
  cases old : roles[id]? with
  | none => rfl
  | some role =>
      have isRole : e.handle.slot = id → role = e.handle.role := by
        rintro rfl
        rw [old] at isThere
        exact Option.some.inj isThere
      rw [Option.map_some, Option.map_some, holding_mentions_concat isMention isRole]
      rfl

/-- A new node is blank, and that is what the log says of it. -/
theorem Recording.Reflects.holding_added
    (reflects : r.Reflects log)
    (role : Role)
    (id : Nat) :
    (r.nodes ++ [Node.blank role])[id]? =
      (rolesAfter log ++ [role])[id]?.map (Node.holding (mentions log id)) := by
  rcases Nat.lt_trichotomy id (rolesAfter log).length with old | rfl | beyond
  · rw [List.getElem?_append_left old, List.getElem?_append_left, reflects.nodes]
    rw [reflects.length_nodes]
    exact old
  · rw [List.getElem?_concat_length, ← reflects.length_nodes, List.getElem?_concat_length,
      reflects.length_nodes, reflects.mentions_beyond (Nat.le_refl _), Option.map_some, holding_nil]
  · rw [List.getElem?_eq_none, List.getElem?_eq_none]
    · rfl
    · rw [List.length_append]
      exact beyond
    · rw [List.length_append, reflects.length_nodes]
      exact beyond

/-- A recording goes on reflecting the log when a request of a known handle is
answered. -/
theorem Recording.Reflects.answered
    (reflects : r.Reflects log)
    (known : e.handle.IsKnownTo log)
    (leaves : e.Leaves r reached) :
    reached.Reflects (log ++ [e]) := by
  have isThere := reflects.role_of_known known
  have inside : e.handle.slot < (rolesAfter log).length :=
    (List.getElem?_eq_some_iff.mp isThere).1
  have isKept (id : Nat) (old : id < (rolesAfter log).length) :
      (rolesAfter (log ++ [e]))[id]? = (rolesAfter log)[id]? := by
    rw [rolesAfter_concat, List.getElem?_append_left old]
  have grows : (rolesAfter log).length ≤ (rolesAfter (log ++ [e])).length := by
    rw [rolesAfter_concat, List.length_append]
    exact Nat.le_add_right _ _
  constructor
  · rw [rolesAfter_concat, List.contains_append, ← reflects.keyed]
    cases leaves with
    | nothing _ noRole same | noted _ _ noRole same =>
        rw [same, noRole]
        exact (Bool.or_false _).symm
    | @opened opened opens _ _ same =>
        rw [same, Exchange.role?, opens]
        change (if opened.role = .keyed then true else r.sawKeyed) = _
        cases isRole : opened.role <;> simp [isRole]
  · intro id
    cases leaves with
    | nothing noMention noRole same =>
        rw [same, reflects.nodes, mentions_concat, rolesAfter_concat, noMention, noRole]
        simp
    | noted isMention _ noRole same =>
        have roles : rolesAfter (log ++ [e]) = rolesAfter log := by
          rw [rolesAfter_concat, noRole]
          exact List.append_nil _
        rw [same, roles]
        exact holding_modify reflects.nodes isThere isMention id
    | @opened opened opens _ isMention same =>
        have roles : rolesAfter (log ++ [e]) = rolesAfter log ++ [opened.role] := by
          rw [rolesAfter_concat, Exchange.role?, opens]
          rfl
        rw [same, roles]
        apply holding_modify (reflects.holding_added opened.role) _ isMention
        rw [List.getElem?_append_left inside]
        exact isThere
  · intro other member
    rcases List.mem_append.mp member with old | new
    · exact Nat.lt_of_lt_of_le (reflects.inside other old) grows
    · rw [List.mem_singleton.mp new]
      exact Nat.lt_of_lt_of_le inside grows
  · intro other member opened opens
    rcases List.mem_append.mp member with old | new
    · have before := reflects.slots other old opened opens
      rw [isKept _ (List.getElem?_eq_some_iff.mp before).1]
      exact before
    · rw [List.mem_singleton.mp new] at opens
      have isRole : e.role? = some opened.role := by
        rw [Exchange.role?, opens]
      rw [leaves.slot_eq opens, reflects.length_nodes, rolesAfter_concat, isRole]
      exact List.getElem?_concat_length
  · intro other member id isMention
    rcases List.mem_append.mp member with old | new
    · exact reflects.later other old id isMention
    · rw [List.mem_singleton.mp new] at isMention ⊢
      rw [leaves.opened_eq isMention, reflects.length_nodes]
      exact inside

end

/-- A recording reflects the log of the requests that led to it. -/
theorem Served.reflects
    {probe : NestedProbe}
    {log : List Exchange}
    {r : Recording}
    (served : Served probe log r) :
    r.Reflects log := by
  induction served with
  | start => exact Recording.reflects_start
  | answered _ known ran inductionHypothesis =>
      exact inductionHypothesis.answered known (leaves_of_ask ran)
  | refused _ ran inductionHypothesis =>
      rw [recording_of_refused ran]
      exact inductionHypothesis

end SchemaProbe

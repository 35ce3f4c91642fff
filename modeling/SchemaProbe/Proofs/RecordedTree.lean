import SchemaProbe.Proofs.RequestLog

namespace SchemaProbe

/-!
# The tree of a request log

Finishing follows what was opened, with a bound that is used up by one for each node and
one for each item.  As what was opened comes after that in which it was opened, twice the
number of nodes is enough, and each decoder or container is finished into what the log
says of it.
-/

/-- A node that may be missing for one more reason. -/
theorem Shape.optional_of_isNull (s : Shape) (isNull isOptional : Bool) :
    (if isNull then (s.optional isOptional).optional true else s.optional isOptional) =
      s.optional (isNull || isOptional) := by
  cases isNull with
  | false => rfl
  | true => cases s <;> rfl

/-! ## Finishing -/

namespace Recording

/-- The node that an item stands for. -/
def node? : Item → Option Nat
  | .shape _ => none
  | .node id => some id

/-- What was opened in a node. -/
def children : Node → List Nat
  | .keyed fields _ => fields.filterMap fun e => e.2.bind node?
  | .unkeyed items _ => items.filterMap node?
  | .single _ _ => []
  | .decoder opened => opened.toList

/-- Whether everything comes after that in which it was opened. -/
def IsOrdered (r : Recording) : Prop :=
  ∀ id n, r.nodes[id]? = some n → ∀ child ∈ children n, id < child

section

variable {r : Recording} {isOpen : Path → Bool}

/-- An item is finished alike with any bound that is enough for what it stands for. -/
theorem finishItem_congr
    {item : Option Item}
    {depth other : Nat}
    (relative : Path)
    (enough : ∀ child, item.bind node? = some child →
      depth ≠ 0 ∧ other ≠ 0 ∧ r.finishNode isOpen none (depth - 1) child relative =
        r.finishNode isOpen none (other - 1) child relative) :
    r.finishItem isOpen depth item relative = r.finishItem isOpen other item relative := by
  cases item with
  | none => rw [finishItem, finishItem]
  | some item =>
      cases item with
      | shape s => rw [finishItem, finishItem]
      | node child =>
          obtain ⟨depthPositive, otherPositive, same⟩ := enough child rfl
          obtain ⟨depth, rfl⟩ := Nat.exists_eq_succ_of_ne_zero depthPositive
          obtain ⟨other, rfl⟩ := Nat.exists_eq_succ_of_ne_zero otherPositive
          rw [finishItem, finishItem]
          exact same

/-- In an ordered recording a node is finished alike with any bound that is enough for
what comes after it. -/
theorem finishNode_congr
    (ordered : r.IsOrdered)
    (isOpen : Path → Bool)
    (left : Nat)
    {id depth other : Nat}
    (inside : r.nodes.length ≤ id + left)
    (enough : 2 * left ≤ depth)
    (otherEnough : 2 * left ≤ other)
    (type : Option TypeForm)
    (relative : Path) :
    r.finishNode isOpen type depth id relative = r.finishNode isOpen type other id relative := by
  induction left generalizing id depth other type relative with
  | zero =>
      have absent : r.nodes[id]? = none := List.getElem?_eq_none inside
      cases depth <;> cases other <;> simp [finishNode, absent]
  | succ left inductionHypothesis =>
      obtain ⟨depth, rfl⟩ := Nat.exists_eq_succ_of_ne_zero (n := depth) (by omega)
      obtain ⟨other, rfl⟩ := Nat.exists_eq_succ_of_ne_zero (n := other) (by omega)
      rw [finishNode, finishNode]
      have items {n : Node} (isNode : r.nodes[id]? = some n) {item : Option Item}
          (isChild : ∀ child, item.bind node? = some child → child ∈ children n) (p : Path) :
          r.finishItem isOpen depth item p = r.finishItem isOpen other item p := by
        apply finishItem_congr
        intro child opened
        have after := ordered id n isNode child (isChild child opened)
        exact ⟨by omega, by omega,
          inductionHypothesis (by omega) (by omega) (by omega) none p⟩
      cases isNode : r.nodes[id]? with
      | none => rfl
      | some n =>
          cases n with
          | keyed fields nullKeys =>
              have same : ∀ e ∈ fields,
                  r.finishItem isOpen depth e.2 (relative ++ [.key e.1]) =
                    r.finishItem isOpen other e.2 (relative ++ [.key e.1]) := by
                intro e member
                apply items isNode
                intro child opened
                exact List.mem_filterMap.mpr ⟨e, member, opened⟩
              simp only
              congr 1
              apply List.map_congr_left
              intro e member
              rw [same e member]
          | unkeyed elements isOptional =>
              have same :
                  (elements.map fun item =>
                      r.finishItem isOpen depth (some item) (relative ++ [.index 0])) =
                    elements.map fun item =>
                      r.finishItem isOpen other (some item) (relative ++ [.index 0]) := by
                apply List.map_congr_left
                intro item member
                apply items isNode
                intro child opened
                exact List.mem_filterMap.mpr ⟨item, member, opened⟩
              simp only [same]
          | single value isOptional => rfl
          | decoder opened =>
              cases opened with
              | none => rfl
              | some next =>
                  have after := ordered id _ isNode next (List.mem_singleton_self next)
                  exact inductionHypothesis (by omega) (by omega) (by omega) type relative

end

/-- What a decoder or a container is finished into. -/
def finished
    (r : Recording)
    (isOpen : Path → Bool)
    (type : Option TypeForm)
    (id : Nat)
    (relative : Path) :
    Shape :=
  r.finishNode isOpen type (2 * r.nodes.length) id relative

/-- What a request shows: the node that it found, or what it opened. -/
def shown
    (r : Recording)
    (isOpen : Path → Bool)
    (relative : Path) :
    Option Mention → Shape
  | some (.node s) | some (.optionalNode s) => s
  | some (.opened id) => r.finished isOpen none id relative
  | some .null | none => .any none

section

variable {probe : NestedProbe} {log : List Exchange} {r : Recording} {id : Nat}

/-- What was opened in a node was left there by a request. -/
theorem mem_children_holding
    {ms : List (String × Mention)}
    {role : Role}
    {child : Nat}
    (member : child ∈ children (Node.holding ms role)) :
    ∃ m ∈ ms, m.2 = .opened child := by
  have isOpened (m : Mention) (isItem : m.item?.bind node? = some child) : m = .opened child := by
    cases m <;> cases isItem
    rfl
  cases role with
  | keyed =>
      obtain ⟨e, isField, opened⟩ := List.mem_filterMap.mp member
      obtain ⟨key, -, rfl⟩ := List.mem_map.mp isField
      obtain ⟨item, isItem, isNode⟩ := Option.bind_eq_some_iff.mp opened
      obtain ⟨m, isLast, isOfMention⟩ := Option.bind_eq_some_iff.mp isItem
      obtain ⟨pair, isKept, rfl⟩ := List.mem_map.mp (List.mem_of_getLast? isLast)
      refine ⟨pair, (List.mem_filter.mp isKept).1, isOpened _ ?_⟩
      rw [isOfMention, Option.bind_some, isNode]
  | unkeyed =>
      obtain ⟨item, isElement, isNode⟩ := List.mem_filterMap.mp member
      obtain ⟨m, isMember, isItem⟩ := List.mem_filterMap.mp isElement
      refine ⟨m, isMember, isOpened _ ?_⟩
      rw [isItem, Option.bind_some, isNode]
  | single => cases member
  | decoder =>
      obtain ⟨m, isMember, opened⟩ :=
        List.mem_filterMap.mp (List.mem_of_getLast? (Option.mem_toList.mp member))
      refine ⟨m, isMember, ?_⟩
      cases same : m.2 <;> rw [same] at opened <;> cases opened
      rfl

/-- A recording that reflects a log is ordered. -/
theorem Reflects.isOrdered (reflects : r.Reflects log) : r.IsOrdered := by
  intro id n isNode child member
  rw [reflects.nodes] at isNode
  obtain ⟨role, -, rfl⟩ := Option.map_eq_some_iff.mp isNode
  obtain ⟨m, isMention, opened⟩ := mem_children_holding member
  obtain ⟨e, isLogged, leaves⟩ := List.mem_filterMap.mp isMention
  split at leaves
  · rename_i here
    obtain ⟨mention, isLeft, rfl⟩ := Option.map_eq_some_iff.mp leaves
    rw [← here]
    exact reflects.later e isLogged child (isLeft.trans (congrArg some opened))
  · cases leaves

/-- What an item of a node that comes before is finished into is what the request
shows, which may be missing if the request said so. -/
theorem Reflects.finishItem_eq
    (reflects : r.Reflects log)
    (isOpen : Path → Bool)
    (relative : Path)
    {m : Option Mention}
    {depth : Nat}
    (enough : 2 * r.nodes.length ≤ depth + 1)
    (later : ∀ child, m = some (.opened child) → 0 < child) :
    r.finishItem isOpen depth (m.bind Mention.item?) relative =
      (r.shown isOpen relative m).optional
        (m.any Mention.isOptional || (r.shown isOpen relative m).isOptional) := by
  cases m with
  | none => cases depth <;> rfl
  | some mention =>
      cases mention with
      | node s => cases depth <;> exact s.optional_isOptional.symm
      | optionalNode s => cases depth <;> rfl
      | null => cases depth <;> rfl
      | opened child =>
          have after := later child rfl
          change r.finishItem isOpen depth (some (.node child)) relative =
            (r.finished isOpen none child relative).optional
              (r.finished isOpen none child relative).isOptional
          rw [Shape.optional_isOptional, finished]
          cases depth with
          | zero =>
              have empty : r.nodes.length = 0 := by omega
              rw [empty]
              rfl
          | succ depth =>
              rw [finishItem]
              exact finishNode_congr reflects.isOrdered isOpen (r.nodes.length - 1) (by omega)
                (by omega) (by omega) none relative

/-- What was opened in a node comes after it. -/
theorem Reflects.lt_of_opened
    (reflects : r.Reflects log)
    {key : String}
    {child : Nat}
    (opened : (key, Mention.opened child) ∈ mentions log id) :
    id < child := by
  obtain ⟨e, isLogged, leaves⟩ := List.mem_filterMap.mp opened
  split at leaves
  · rename_i here
    obtain ⟨mention, isLeft, same⟩ := Option.map_eq_some_iff.mp leaves
    cases same
    rw [← here]
    exact reflects.later e isLogged child isLeft
  · cases leaves

/-- A field of a keyed container: what the last request for its key shows. -/
def fieldOf
    (r : Recording)
    (isOpen : Path → Bool)
    (relative : Path)
    (ms : List (String × Mention))
    (key : String) :
    Shape :=
  let last := lastUnder key ms
  let node := r.shown isOpen (relative ++ [.key key]) last
  node.optional (isNulled key ms || last.any Mention.isOptional || node.isOptional)

/-- An element of a sequence: what its request shows. -/
def elementOf
    (r : Recording)
    (isOpen : Path → Bool)
    (relative : Path)
    (mention : Mention) :
    Shape :=
  let node := r.shown isOpen (relative ++ [.index 0]) (some mention)
  node.optional (mention.isOptional || node.isOptional)

/-- A node is there with what the log says of it, and there is a bound left after
it. -/
theorem Reflects.exists_depth
    {role : Role}
    (reflects : r.Reflects log)
    (isRole : (rolesAfter log)[id]? = some role) :
    r.nodes[id]? = some (Node.holding (mentions log id) role) ∧
      ∃ depth, 2 * r.nodes.length = depth + 1 := by
  have isNode : r.nodes[id]? = some (Node.holding (mentions log id) role) := by
    rw [reflects.nodes, isRole, Option.map_some]
  have inside := (List.getElem?_eq_some_iff.mp isNode).1
  exact ⟨isNode, Nat.exists_eq_succ_of_ne_zero (by omega)⟩

/-- A keyed container is finished into a field for each key that was mentioned. -/
theorem Reflects.finished_keyed
    (reflects : r.Reflects log)
    (isKeyed : (rolesAfter log)[id]? = some .keyed)
    (isOpen : Path → Bool)
    (type : Option TypeForm)
    (relative : Path) :
    r.finished isOpen type id relative =
      .keyed (.of type) (!isOpen relative)
        ((keysOf (mentions log id)).map fun key =>
          (key, r.fieldOf isOpen relative (mentions log id) key)) := by
  obtain ⟨isNode, depth, isDepth⟩ := reflects.exists_depth isKeyed
  rw [finished, isDepth, finishNode, isNode, Node.holding]
  simp only [List.map_map]
  congr 1
  apply List.map_congr_left
  intro key _
  have item := reflects.finishItem_eq isOpen (relative ++ [.key key]) (Nat.le_of_eq isDepth)
    fun child (isLast : lastUnder key (mentions log id) = some (.opened child)) =>
      Nat.zero_lt_of_lt (reflects.lt_of_opened (mem_of_lastUnder isLast))
  rw [Function.comp_apply, contains_nullKeys, item, Shape.optional_of_isNull, fieldOf, Bool.or_assoc]

/-- The elements of a sequence are finished one by one. -/
theorem Reflects.finished_elements
    (reflects : r.Reflects log)
    (isOpen : Path → Bool)
    (relative : Path)
    {depth : Nat}
    (enough : 2 * r.nodes.length ≤ depth + 1)
    {ms : List (String × Mention)}
    (among : ms ⊆ mentions log id) :
    ((ms.filterMap (·.2.item?)).map fun item =>
        r.finishItem isOpen depth (some item) (relative ++ [.index 0])) =
      (ms.filter (!·.2.isNull)).map fun m => r.elementOf isOpen relative m.2 := by
  induction ms with
  | nil => rfl
  | cons m rest inductionHypothesis =>
      obtain ⟨key, mention⟩ := m
      have others := inductionHypothesis fun _ member => among (List.mem_cons_of_mem _ member)
      rcases mention.item?_cases with rfl | ⟨item, isItem, notNull⟩
      · exact others
      · have first := reflects.finishItem_eq isOpen (relative ++ [.index 0]) enough
          fun child (isLast : some mention = some (.opened child)) => by
            cases isLast
            exact Nat.zero_lt_of_lt (reflects.lt_of_opened (among (List.mem_cons_self ..)))
        rw [Option.bind_some, isItem] at first
        rw [List.filterMap_cons, isItem, List.filter_cons, notNull]
        simp only [Bool.not_false, if_true, List.map_cons]
        rw [others, first]
        rfl

/-- A sequence is finished into the common shape of its elements. -/
theorem Reflects.finished_unkeyed
    (reflects : r.Reflects log)
    (isUnkeyed : (rolesAfter log)[id]? = some .unkeyed)
    (isOpen : Path → Bool)
    (type : Option TypeForm)
    (relative : Path) :
    r.finished isOpen type id relative =
      let common := commonElement (((mentions log id).filter (!·.2.isNull)).map fun m =>
        r.elementOf isOpen relative m.2)
      .unkeyed (.of type)
        (common.optional ((mentions log id).any (·.2.isNull) || common.isOptional)) := by
  obtain ⟨isNode, depth, isDepth⟩ := reflects.exists_depth isUnkeyed
  rw [finished, isDepth, finishNode, isNode, Node.holding]
  simp only
  rw [reflects.finished_elements isOpen relative (Nat.le_of_eq isDepth) (List.Subset.refl _),
    ← Shape.optional_of_isNull, Shape.optional_isOptional]

/-- A single value is finished into what was read last. -/
theorem Reflects.finished_single
    (reflects : r.Reflects log)
    (isSingle : (rolesAfter log)[id]? = some .single)
    (isOpen : Path → Bool)
    (type : Option TypeForm)
    (relative : Path) :
    r.finished isOpen type id relative =
      wrapped type ((mentions log id).filterMap (·.2.shape?)).getLast?
        ((mentions log id).any (·.2.isNull)) := by
  obtain ⟨isNode, depth, isDepth⟩ := reflects.exists_depth isSingle
  rw [finished, isDepth, finishNode, isNode, Node.holding]

/-- A decoder is finished into what was opened on it last, or nothing is known of
it. -/
theorem Reflects.finished_decoder
    (reflects : r.Reflects log)
    (isDecoder : (rolesAfter log)[id]? = some .decoder)
    (isOpen : Path → Bool)
    (type : Option TypeForm)
    (relative : Path) :
    r.finished isOpen type id relative =
      match ((mentions log id).filterMap (·.2.opened?)).getLast? with
      | some next => r.finished isOpen type next relative
      | none => .any type := by
  obtain ⟨isNode, depth, isDepth⟩ := reflects.exists_depth isDecoder
  rw [finished, isDepth, finishNode, isNode, Node.holding]
  cases isLast : ((mentions log id).filterMap (·.2.opened?)).getLast? with
  | none => rfl
  | some next =>
      have after : id < next := by
        apply reflects.isOrdered id _ isNode next
        rw [Node.holding, isLast]
        exact List.mem_singleton_self next
      change r.finishNode isOpen type depth next relative = r.finished isOpen type next relative
      exact finishNode_congr reflects.isOrdered isOpen (r.nodes.length - 1) (by omega) (by omega)
        (by omega) type relative

end

end Recording

/-! ## The recorded tree -/

namespace Recording

/-- Whether the fields of a keyed container are what the requests for their keys left:
there is one for each key, in the order of their first mention, also by asking for
null.  It is what the last other request for the key shows.  It may be missing if the
key was ever asked for null, if that request said so, or if what it shows may be
missing. -/
structure ShowsFields
    (r : Recording)
    (isOpen : Path → Bool)
    (relative : Path)
    (ms : List (String × Mention))
    (fields : List (String × Shape)) :
    Prop where
  keys : fields.map Prod.fst = (ms.map Prod.fst).eraseDups
  nodes : ∀ key s, (key, s) ∈ fields →
    s = (r.shown isOpen (relative ++ [.key key]) (lastUnder key ms)).optional s.isOptional
  missing : ∀ key s, (key, s) ∈ fields →
    (s.isOptional = true ↔ (key, .null) ∈ ms ∨
      (∃ node, lastUnder key ms = some (.optionalNode node)) ∨
      (r.shown isOpen (relative ++ [.key key]) (lastUnder key ms)).isOptional = true)

/-- Whether the element of a sequence is what its requests left: the first that was
shown, if there is one and all others equal it.  It may be missing if null was ever
asked for, or if what was shown may be missing. -/
structure ShowsElement
    (r : Recording)
    (isOpen : Path → Bool)
    (relative : Path)
    (ms : List (String × Mention))
    (element common : Shape) :
    Prop where
  agreed : ∀ first rest,
    ((ms.filter (!·.2.isNull)).map fun m => r.elementOf isOpen relative m.2) = first :: rest →
      (∀ s ∈ rest, s.agrees first = true) → common = first
  otherwise : (∀ first rest,
    ((ms.filter (!·.2.isNull)).map fun m => r.elementOf isOpen relative m.2) = first :: rest →
      ∃ s ∈ rest, s.agrees first = false) → common = .any none
  node : element = common.optional element.isOptional
  missing : element.isOptional = true ↔ (∃ key, (key, .null) ∈ ms) ∨ common.isOptional = true

/-- The fields that a container is finished into are what the requests left. -/
theorem showsFields_fieldOf
    (r : Recording)
    (isOpen : Path → Bool)
    (relative : Path)
    (ms : List (String × Mention)) :
    r.ShowsFields isOpen relative ms
      ((keysOf ms).map fun key => (key, r.fieldOf isOpen relative ms key)) := by
  have isField (key : String) (s : Shape)
      (member : (key, s) ∈ (keysOf ms).map fun key => (key, r.fieldOf isOpen relative ms key)) :
      s = r.fieldOf isOpen relative ms key := by
    obtain ⟨other, -, same⟩ := List.mem_map.mp member
    cases same
    rfl
  constructor
  · rw [List.map_map]
    exact List.map_id _
  · intro key s member
    rw [isField key s member, fieldOf, Shape.isOptional_optional]
  · intro key s member
    rw [isField key s member, fieldOf, Shape.isOptional_optional, Bool.or_eq_true,
      Bool.or_eq_true, isNulled_iff, or_assoc]
    have saysSo : (lastUnder key ms).any Mention.isOptional = true ↔
        ∃ node, lastUnder key ms = some (.optionalNode node) := by
      rw [Option.any_eq_true]
      constructor
      · rintro ⟨mention, isLast, isOptional⟩
        cases mention <;> cases isOptional
        exact ⟨_, isLast⟩
      · rintro ⟨node, isLast⟩
        exact ⟨_, isLast, rfl⟩
    rw [saysSo]

/-- The element that a sequence is finished into is what the requests left. -/
theorem showsElement_commonElement
    (r : Recording)
    (isOpen : Path → Bool)
    (relative : Path)
    (ms : List (String × Mention)) :
    let common := commonElement ((ms.filter (!·.2.isNull)).map fun m =>
      r.elementOf isOpen relative m.2)
    r.ShowsElement isOpen relative ms
      (common.optional (ms.any (·.2.isNull) || common.isOptional)) common := by
  intro common
  constructor
  · intro first rest elements allAgree
    change commonElement _ = first
    rw [elements]
    exact if_pos (List.all_eq_true.mpr allAgree)
  · intro disagree
    change commonElement _ = .any none
    cases elements : (ms.filter (!·.2.isNull)).map fun m => r.elementOf isOpen relative m.2 with
    | nil => rfl
    | cons first rest =>
        obtain ⟨s, member, differs⟩ := disagree first rest elements
        apply if_neg
        intro allAgree
        rw [List.all_eq_true.mp allAgree s member] at differs
        cases differs
  · rw [Shape.isOptional_optional]
  · rw [Shape.isOptional_optional, Bool.or_eq_true, List.any_eq_true]
    apply or_congr_left
    constructor
    · rintro ⟨⟨key, mention⟩, member, isNull⟩
      exact ⟨key, Mention.eq_null_of_isNull isNull ▸ member⟩
    · rintro ⟨key, member⟩
      exact ⟨(key, .null), member, rfl⟩

/-- Recordings of one log are the same. -/
theorem Reflects.eq
    {log : List Exchange}
    {r later : Recording}
    (reflects : r.Reflects log)
    (others : later.Reflects log) :
    later = r := by
  have sameNodes : later.nodes = r.nodes := by
    apply List.ext_getElem?
    intro id
    rw [others.nodes, reflects.nodes]
  have sameFlag : later.sawKeyed = r.sawKeyed := others.keyed.trans reflects.keyed.symm
  cases r
  cases later
  cases sameNodes
  cases sameFlag
  rfl

end Recording

/-- The recorded tree is a function of the log of requests, in whatever order they were
made of the containers: the whole is what the decoder is finished into, a decoder is
what was opened on it last, and a keyed container or a sequence shows the requests that
were made of it. -/
theorem finish_of_log
    {probe : NestedProbe}
    {log : List Exchange}
    {r : Recording}
    (served : Served probe log r) :
    (∀ other later, Served other log later → later = r) ∧
    (∀ type openPaths, r.finish type openPaths = r.finished openPaths.contains type 0 []) ∧
    ∀ h : Handle, h.IsKnownTo log → ∀ isOpen type relative,
      (h.role = .keyed → ∃ fields,
        r.finished isOpen type h.slot relative = .keyed (.of type) (!isOpen relative) fields ∧
          r.ShowsFields isOpen relative (mentions log h.slot) fields) ∧
      (h.role = .unkeyed → ∃ element common,
        r.finished isOpen type h.slot relative = .unkeyed (.of type) element ∧
          r.ShowsElement isOpen relative (mentions log h.slot) element common) ∧
      (h.role = .single →
        r.finished isOpen type h.slot relative =
          Recording.wrapped type ((mentions log h.slot).filterMap (·.2.shape?)).getLast?
            ((mentions log h.slot).any (·.2.isNull))) ∧
      (h.role = .decoder →
        r.finished isOpen type h.slot relative =
          match ((mentions log h.slot).filterMap (·.2.opened?)).getLast? with
          | some next => r.finished isOpen type next relative
          | none => .any type) := by
  have reflects := served.reflects
  refine ⟨fun other later otherServed => reflects.eq otherServed.reflects, fun _ _ => rfl, ?_⟩
  · intro h known isOpen type relative
    have isThere := reflects.role_of_known known
    refine ⟨fun isKeyed => ?_, fun isUnkeyed => ?_, fun isSingle => ?_, fun isDecoder => ?_⟩
    · rw [isKeyed] at isThere
      exact ⟨_, reflects.finished_keyed isThere isOpen type relative,
        r.showsFields_fieldOf isOpen relative _⟩
    · rw [isUnkeyed] at isThere
      exact ⟨_, _, reflects.finished_unkeyed isThere isOpen type relative,
        r.showsElement_commonElement isOpen relative _⟩
    · rw [isSingle] at isThere
      exact reflects.finished_single isThere isOpen type relative
    · rw [isDecoder] at isThere
      exact reflects.finished_decoder isThere isOpen type relative

/-- Every type looks like a whole number. -/
def numberProbe : NestedProbe :=
  fun _ _ => pure (.single (.of none) .int, .int 0)

/-- The keyed container that is opened first, and the sequence that is opened in it
under a key. -/
def orderHandle : Handle :=
  ⟨.keyed, [], [], 1⟩

def itemsHandle : Handle :=
  ⟨.unkeyed, [.key "items"], [.key "items"], 2⟩

/-- Asks for a number under two keys, one of them twice, and meanwhile reads an element
of a sequence that was opened under a third one. -/
def orderLog : List Exchange :=
  [⟨Recorder.decoder [], .openKeyed, .handle orderHandle, none⟩,
    ⟨orderHandle, .decodeNull (some "note"), .ofBool false, none⟩,
    ⟨orderHandle, .decode (.builtin .int) (some "id"), .value (.int 0),
      some (.single (.of none) .int)⟩,
    ⟨orderHandle, .nestedUnkeyed (some "items"), .handle itemsHandle, none⟩,
    ⟨orderHandle, .decodeIfPresent (.builtin .int) (some "id"), .null,
      some (.single (.of none) .int)⟩,
    ⟨itemsHandle, .decode (.builtin .int) none, .value (.int 0),
      some (.single (.of none) .int)⟩]

/-- An exchange of a known handle is logged. -/
theorem Served.next
    {probe : NestedProbe}
    {log : List Exchange}
    {r reached : Recording}
    {s last : Store}
    (served : Served probe log r)
    (e : Exchange)
    (known : e.handle.IsKnownTo log)
    (ran : ((recorder probe).ask e.handle e.request).run (r, s) = (.ok e.reply, reached, last))
    (found : probe.node? r s e.handle e.request = e.node) :
    Served probe (log ++ [e]) reached := by
  obtain ⟨h, request, reply, node⟩ := e
  have isNode : probe.node? r s h request = node := found
  rw [← isNode]
  exact .answered served known ran

/-- What these requests record. -/
def orderRecording : Recording :=
  ⟨[.decoder (some 1),
      .keyed [("note", none), ("id", some (.shape (.optional true (.single (.of none) .int)))),
        ("items", some (.node 2))] ["note"],
      .unkeyed [.shape (.single (.of none) .int)] false], true⟩

/-- The requests of the log are answered and record this. -/
theorem served_orderLog : Served numberProbe orderLog orderRecording := by
  have empty : Served numberProbe [] .start := .start
  have opened := empty.next (s := .initial) orderLog[0] (.inl ⟨rfl, rfl⟩) rfl rfl
  have noted := opened.next (s := .initial) orderLog[1]
    (.inr ⟨_, List.mem_of_getElem? (i := 0) rfl, rfl⟩) rfl rfl
  have read := noted.next (s := .initial) orderLog[2]
    (.inr ⟨_, List.mem_of_getElem? (i := 0) rfl, rfl⟩) rfl rfl
  have nested := read.next (s := .initial) orderLog[3]
    (.inr ⟨_, List.mem_of_getElem? (i := 0) rfl, rfl⟩) rfl rfl
  have again := nested.next (s := .initial) orderLog[4]
    (.inr ⟨_, List.mem_of_getElem? (i := 0) rfl, rfl⟩) rfl rfl
  have element := again.next (s := .initial) orderLog[5]
    (.inr ⟨_, List.mem_of_getElem? (i := 3) rfl, rfl⟩) rfl rfl
  exact element

/-- The keys come in the order of their first mention; the key that was asked for null,
and the one that was last read as something that may be missing, may be missing. -/
theorem finish_of_log_order :
    ∃ fields, orderRecording.finish none [] = .keyed (.of none) true fields ∧
      orderRecording.ShowsFields [].contains [] (mentions orderLog 1) fields ∧
      fields =
        [("note", .optional true (.any none)), ("id", .optional true (.single (.of none) .int)),
          ("items", .unkeyed (.of none) (.single (.of none) .int))] := by
  obtain ⟨-, whole, parts⟩ := finish_of_log served_orderLog
  have opensDecoder := (parts (Recorder.decoder []) (.inl ⟨rfl, rfl⟩) [].contains none []).2.2.2 rfl
  have known : orderHandle.IsKnownTo orderLog := .inr ⟨_, List.mem_of_getElem? (i := 0) rfl, rfl⟩
  obtain ⟨fields, isKeyed, shows⟩ := (parts orderHandle known [].contains none []).1 rfl
  refine ⟨fields, ?_, shows, ?_⟩
  · rw [whole]
    exact opensDecoder.trans isKeyed
  · cases isKeyed
    rfl

end SchemaProbe

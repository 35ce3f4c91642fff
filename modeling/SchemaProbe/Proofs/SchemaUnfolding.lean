import SchemaProbe.Proofs.Describing
import SchemaProbe.Proofs.SchemaWriting

namespace SchemaProbe

/-!
# Schemas unfold to plain schemas

The schema that is derived for a type is the plain schema of the type once its
references are followed, however often a type was expanded, cut to a reference
or shared under its name on the way.  Every node of a description is written in
a way that shows its type, and so is everything that is shared.
-/

open List

/-! ## Kinds of types with cases -/

/-- The kind of a tree that is a scalar. -/
def Shape.scalarKind? : Shape → Option PrimitiveKind
  | .single _ kind => some kind
  | _ => none

/-- Whether kinds are those that types with cases unfold to by themselves, where some
are known beforehand. -/
def Store.HasKinds
    (s : Store)
    (among : TypeForm → Prop)
    (known : Key → Option PrimitiveKind)
    (kinds : Key → PrimitiveKind) :
    Prop :=
  ∀ a, among a → ∀ type value cases, s.entry a = .inner type (.scalar value cases) →
    ∃ header, Unfolds s.entry known [] a (.single header (kinds type.identity))

/-- Whether no type with cases is being expanded. -/
def CaseFree (entry : TypeForm → Entry) (forms : List TypeForm) (above : List Key) : Prop :=
  ∀ a ∈ forms, ∀ type value cases, entry a = .inner type (.scalar value cases) →
    type.identity ∉ above

section

variable {entry : TypeForm → Entry} {known : Key → Option PrimitiveKind} {forms : List TypeForm}
  {above chain : List Key} {a type : TypeForm} {layout : Layout} {shape other : Shape}

/-- The kind of the node of a type with cases depends on its value's node by the
kind of that. -/
theorem Layout.scalarKind_eq
    (cases : List Value)
    (shapes : List Shape) :
    scalarKind cases shapes =
      (shapes.head?.bind Shape.scalarKind?).getD ((cases.head?.map labelKind).getD .string) := by
  cases shapes with
  | nil => rfl
  | cons first rest => cases first <;> rfl

/-- Other types than those with cases are no scalars. -/
theorem Layout.scalarKind?_node
    {known : Option PrimitiveKind}
    {shapes : List Shape}
    (required : ∀ x, layout ≠ .nullable x)
    (caseless : ∀ value cases, layout ≠ .scalar value cases) :
    (layout.node type known shapes).scalarKind? = none := by
  cases layout with
  | nullable x => exact absurd rfl (required x)
  | scalar value cases => exact absurd rfl (caseless value cases)
  | _ => rfl

/-- Entering a type without cases keeps types with cases out. -/
theorem CaseFree.enter
    (free : CaseFree entry forms above)
    (lawful : Lawful entry forms)
    (member : a ∈ forms)
    (isInner : entry a = .inner type layout)
    (caseless : ∀ value cases, layout ≠ .scalar value cases) :
    CaseFree entry forms (type.identity :: above) := by
  intro b otherMember otherType value cases otherInner met
  rcases List.mem_cons.mp met with same | further
  · have entries := lawful.same a member b otherMember type.identity (by rw [isInner]; rfl)
      (by rw [otherInner, ← same]; rfl)
    rw [isInner, otherInner] at entries
    cases entries
    exact caseless value cases rfl
  · exact free b otherMember otherType value cases otherInner further

/-- Types without cases that are being expanded further up do not matter for the
kinds of scalars. -/
theorem Unfolds.scalarKind?_eq
    (lawful : Lawful entry forms)
    (free : CaseFree entry forms above)
    (member : a ∈ forms)
    (required : ¬ (entry a).IsNullable)
    (unfolds : Unfolds entry known (chain ++ above) a shape)
    (alone : Unfolds entry known chain a other) :
    shape.scalarKind? = other.scalarKind? := by
  have notWrapping {a type : TypeForm} {layout : Layout} (required : ¬ (entry a).IsNullable)
      (isInner : entry a = .inner type layout) (x : TypeForm) : layout ≠ .nullable x := by
    rintro rfl
    exact required (by rw [isInner]; trivial)
  -- The chain is that of types with cases, each of them the value of the one before; it is
  -- the same on both sides.
  refine unfolds.tree_induction (motive := fun met a shape => ∀ chain other, met = chain ++ above →
    a ∈ forms → ¬ (entry a).IsNullable → Unfolds entry known chain a other →
    shape.scalarKind? = other.scalarKind?) ?_ ?_ ?_ chain other rfl member required alone
  · intro met a shape isLeaf chain other _ _ _ alone
    rw [alone.eq_of_leaf isLeaf]
  · intro met a type layout isInner isMet chain other isAbove member required alone
    by_cases inChain : type.identity ∈ chain
    · rw [alone.eq_of_back isInner inChain]
    · obtain ⟨shapes, _, rfl⟩ := alone.exists_requests isInner inChain
      rw [isAbove, List.mem_append] at isMet
      refine (Layout.scalarKind?_node (notWrapping required isInner) ?_).symm
      rintro value cases rfl
      exact free a member type value cases isInner (isMet.resolve_left inChain)
  · intro met a type layout shapes isInner notMet _ inductionHypothesis chain other isAbove member
      required alone
    have notInChain : type.identity ∉ chain := fun inChain =>
      notMet (isAbove ▸ List.mem_append_left above inChain)
    obtain ⟨others, othersUnfold, rfl⟩ := alone.exists_requests isInner notInChain
    by_cases hasCases : ∃ value cases, layout = .scalar value cases
    · obtain ⟨value, cases, rfl⟩ := hasCases
      obtain ⟨first, rest, ofFirst, _, rfl⟩ := forall₂_cons_left_iff.mp inductionHypothesis
      obtain ⟨second, more, secondUnfolds, _, rfl⟩ := forall₂_cons_left_iff.mp othersUnfold
      have same := ofFirst (type.identity :: chain) second (by rw [isAbove]; rfl)
        (lawful.closed a member type _ isInner value mem_cons_self)
        (lawful.scalar a member type value cases isInner).1 secondUnfolds
      rw [Layout.node_scalar, Layout.node_scalar, Layout.scalarKind_eq, Layout.scalarKind_eq]
      simp only [head?_cons, Option.bind_some, same]
    · have caseless (value : TypeForm) (cases : List Value) : layout ≠ .scalar value cases :=
        fun isScalar => hasCases ⟨value, cases, isScalar⟩
      rw [Layout.scalarKind?_node (notWrapping required isInner) caseless,
        Layout.scalarKind?_node (notWrapping required isInner) caseless]

end

/-- In a universe types with cases have kinds. -/
theorem Store.Ready.exists_kinds
    {s : Store}
    {forms : List TypeForm}
    {allowed : Allowance}
    {among : TypeForm → Prop}
    (ready : s.Ready forms allowed)
    (covered : ∀ a, among a → a ∈ forms)
    (known : Key → Option PrimitiveKind) :
    ∃ kinds, s.HasKinds among known kinds := by
  have lawful := ready.lawful
  have each (key : Key) : ∃ kind, ∀ a ∈ forms, ∀ type value cases,
      s.entry a = .inner type (.scalar value cases) → type.identity = key →
      ∃ header, Unfolds s.entry known [] a (.single header kind) := by
    by_cases existsCase : ∃ a ∈ forms, ∃ type value cases,
        s.entry a = .inner type (.scalar value cases) ∧ type.identity = key
    · obtain ⟨a, member, type, value, cases, isInner, rfl⟩ := existsCase
      obtain ⟨shape, unfolds⟩ := exists_unfolds lawful.closed known member []
      obtain ⟨shapes, _, rfl⟩ := unfolds.exists_requests isInner (not_mem_nil)
      refine ⟨(known type.identity).getD (Layout.scalarKind cases shapes), ?_⟩
      intro b otherMember otherType otherValue otherCases otherInner same
      have entries := lawful.same a member b otherMember type.identity (by rw [isInner]; rfl)
        (by rw [otherInner, ← same]; rfl)
      exact ⟨_, unfolds.congr entries⟩
    · refine ⟨.string, fun a member type value cases isInner same => ?_⟩
      exact absurd ⟨a, member, type, value, cases, isInner, same⟩ existsCase
  choose kinds hasKinds using each
  exact ⟨kinds, fun a isAmong type value cases isInner =>
    hasKinds type.identity a (covered a isAmong) type value cases isInner rfl⟩

/-! ## Trees that types unfold to -/

section

variable {plain : PlainSynthesis} {s : Store} {forms : List TypeForm} {allowed : Allowance}
  {among : TypeForm → Prop} {root a : TypeForm} {above : List Key}
  {known : Key → Option PrimitiveKind} {shape : Shape}

/-- What is known about a type that wraps nothing is what it is read by. -/
theorem Store.bareRecord_of_not_nullable
    (required : ¬ (s.entry a).IsNullable) :
    s.bareRecord (some a) = (s.registry .current).find? a := by
  rw [bareRecord, Option.bind_some, bare_of_not_nullable required]

/-- The elements of a tuple have a common tree where they have a common form: what
holds of the items' trees holds of the one, and of anything at all where there is
none. -/
theorem Store.commonForm_commonElement
    {items : List TypeForm}
    {shapes : List Shape}
    (holds : Option TypeForm → Shape → Prop)
    (ready : s.Ready forms allowed)
    (member : root ∈ forms)
    (visits : ∀ item ∈ items, Visits s.entry [] root above item)
    (unfold : Forall₂ (Unfolds s.entry known above) items shapes)
    (each : Forall₂ (fun item shape => holds (some item) shape) items shapes)
    (any : holds none (.any none)) :
    holds (s.commonForm items) (Recording.commonElement shapes) := by
  have proper : Proper s.entry forms [] := fun _ _ _ _ _ _ met => by cases met
  cases unfold with
  | nil => exact any
  | @cons first shape rest shapes firstUnfolds restUnfold =>
      have agree := all_agrees_eq_all_face (visits first mem_cons_self)
        (fun item isItem => visits item (mem_cons_of_mem _ isItem)) ready.lawful member proper
        firstUnfolds restUnfold
      rw [commonForm, Recording.commonElement, agree]
      split
      · exact (forall₂_cons.mp each).1
      · exact any

/-- A type that is not looked into is written by what is known about it. -/
theorem Store.Ready.leaf_writes
    (ready : plain.known.Ready forms .declaringPlainly)
    (grows : s.GrowsTo plain.known)
    (sameWorld : plain.known.world = s.world)
    (member : a ∈ forms)
    (isAmong : among a)
    (isLeaf : plain.known.entry a = .leaf shape) :
    shape.Writes plain among s (plain.known.bareRecord (some a)) := by
  intro isKnown
  have isRecord : plain.known.bareRecord (some a) = (plain.known.registry .current).find? a :=
    Store.bareRecord_of_not_nullable (by rw [isLeaf]; exact id)
  cases found : (plain.known.registry .current).find? a with
  | none =>
      rw [Store.entry, found] at isLeaf
      cases isLeaf
      rw [isRecord, found]
      exact Shape.Writes.any isKnown
  | some caps =>
      have sound := ready.known a member caps found
      have noParts : plain.known.entryOf caps = .leaf shape := by
        rw [Store.entry, found] at isLeaf
        exact isLeaf
      have isOwn : shape = caps.leaf := by
        simp only [Store.entryOf] at noParts
        split at noParts <;> cases noParts
        rfl
      subst isOwn
      have typeKnown : ((s.registry .current).find? caps.type).isSome := by
        cases isKnown with
        | node types _ _ => exact types caps.type caps.type_leaf
      have typeFound := grows.find?_eq typeKnown
        (by rw [Store.find?_congr _ sound.identity, found])
      rw [isRecord, found]
      exact Shape.Writes.leaf sameWorld typeFound ⟨a, isAmong, isRecord.trans found⟩ sound.schema
        noParts isKnown

/-- A type that is being expanded is written as a reference by the name of what it
is read as. -/
theorem Store.Ready.back_writes
    {type : TypeForm}
    {layout : Layout}
    (ready : plain.known.Ready forms .declaringPlainly)
    (grows : s.GrowsTo plain.known)
    (wraps : plain.known.WrapsNamed among)
    (member : root ∈ forms)
    (visits : Visits plain.known.entry [] root above a)
    (isAmong : among a)
    (isInner : plain.known.entry a = .inner type layout)
    (met : type.identity ∈ above) :
    (Shape.back type).Writes plain among s (plain.known.bareRecord (some a)) := by
  intro isKnown
  have isForm := visits.mem ready.lawful member
  obtain ⟨caps, found, typeFound, _, _, notDate, undeclared⟩ := ready.known_of_inner isForm isInner
  have typeKnown : ((s.registry .current).find? type).isSome := by
    cases isKnown with
    | node types _ _ => exact types type rfl
  obtain ⟨own, isOwn, sameName⟩ : ∃ own,
      plain.known.bareRecord (some a) = some own ∧ caps.name = own.name := by
    by_cases isWrapper : ∃ x, layout = .nullable x
    · -- What only wraps a leaf is never met below itself, so the wrapped type is known.
      obtain ⟨x, rfl⟩ := isWrapper
      obtain ⟨other, layout, inside⟩ := visits.wrapped_inner ready.lawful member
        (fun _ _ _ _ _ _ met => by cases met) isInner met
      have record : plain.known.bareRecord (some a) = (plain.known.registry .current).find? x := by
        rw [Store.bareRecord, Option.bind_some, Store.bare_of_nullable isInner]
      obtain ⟨own, ownFound, _⟩ :=
        ready.known_of_inner (ready.lawful.nullable_mem isForm isInner) inside
      exact ⟨own, record.trans ownFound,
        wraps a isAmong type x other layout caps own isInner inside found ownFound⟩
    · refine ⟨caps, ?_, rfl⟩
      rw [Store.bareRecord_of_not_nullable, found]
      rw [isInner]
      cases layout with
      | nullable x => exact absurd ⟨x, rfl⟩ isWrapper
      | _ => exact id
  rw [isOwn]
  exact Shape.Writes.back (grows.find?_eq typeKnown typeFound) notDate undeclared sameName isKnown

/-- A type that is expanded is written by its layout if what it asks for is written.
Nothing is asked of the value of a type with cases but its kind. -/
theorem Store.Ready.inner_writes
    {type : TypeForm}
    {layout : Layout}
    {shapes : List Shape}
    (ready : plain.known.Ready forms .declaringPlainly)
    (grows : s.GrowsTo plain.known)
    (hasKinds : plain.known.HasKinds among known plain.kinds)
    (member : root ∈ forms)
    (visits : Visits plain.known.entry [] root above a)
    (isAmong : among a)
    (free : CaseFree plain.known.entry forms above)
    (isInner : plain.known.entry a = .inner type layout)
    (notMet : type.identity ∉ above)
    (unfold : Forall₂ (Unfolds plain.known.entry known (type.identity :: above)) layout.requests
      shapes)
    (each : (∀ value cases, layout ≠ .scalar value cases) →
      Forall₂ (fun request shape => shape.Writes plain among s
        (plain.known.bareRecord (some request))) layout.requests shapes) :
    (layout.node type (known type.identity) shapes).Writes plain among s
      (plain.known.bareRecord (some a)) := by
  have isForm := visits.mem ready.lawful member
  by_cases wraps : ∃ x, layout = .nullable x
  · obtain ⟨x, rfl⟩ := wraps
    obtain ⟨inside, rest, insideWrites, _, rfl⟩ :=
      forall₂_cons_left_iff.mp (each fun _ _ isScalar => by cases isScalar)
    have record : plain.known.bareRecord (some a) = plain.known.bareRecord (some x) := by
      rw [Store.bareRecord_of_not_nullable (ready.lawful.nullable a isForm type x isInner),
        Store.bareRecord, Option.bind_some, Store.bare_of_nullable isInner]
    rw [record]
    exact insideWrites.optional true
  · intro isKnown
    have required (x : TypeForm) : layout ≠ .nullable x := fun isNullable => wraps ⟨x, isNullable⟩
    obtain ⟨caps, found, typeFound, isType, _, notDate, undeclared⟩ :=
      ready.known_of_inner isForm isInner
    have notNullable : ¬ (plain.known.entry a).IsNullable := by
      rw [isInner]
      cases layout with
      | nullable x => exact absurd rfl (required x)
      | _ => exact id
    have isRecord := (Store.bareRecord_of_not_nullable notNullable).trans found
    have isReached : ∃ a, among a ∧ plain.known.bareRecord (some a) = some caps :=
      ⟨a, isAmong, isRecord⟩
    have typeKnown : ((s.registry .current).find? type).isSome := by
      cases isKnown with
      | node types _ _ =>
          exact types type (layout.node_root type (known type.identity) shapes required).1
    have isFound := grows.find?_eq typeKnown typeFound
    have layer : plain.undescribed caps =
        layout.layer plain.config (plain.kinds type.identity) plain.known.commonForm := by
      rw [Store.entry, found] at isInner
      have isInner : plain.known.entryOf caps = .inner type layout := isInner
      rw [PlainSynthesis.undescribed, notDate, if_neg Bool.false_ne_true, undeclared, isInner]
    rw [isRecord]
    cases layout with
    | unknown => exact Shape.Writes.unconstrained isFound notDate undeclared isReached layer isKnown
    | record plans =>
        have asked : (plans.map FieldPlan.requested).Forall₂ _ shapes := 
          each fun _ _ isScalar => by cases isScalar
        rw [forall₂_map_left_iff] at asked
        exact Shape.Writes.fixed isFound notDate undeclared isReached layer (.ofPlans asked) isKnown
    | sequence item =>
        obtain ⟨element, rest, writes, _, rfl⟩ :=
          forall₂_cons_left_iff.mp (each fun _ _ isScalar => by cases isScalar)
        exact Shape.Writes.unkeyed isFound notDate undeclared isReached layer writes isKnown
    | tuple items =>
        refine Shape.Writes.unkeyed isFound notDate undeclared isReached layer ?_ isKnown
        exact Store.commonForm_commonElement
          (fun item shape => shape.Writes plain among s (plain.known.bareRecord item))
          ready member (fun item isItem => visits.request isInner notMet isItem) unfold
          (each fun _ _ isScalar => by cases isScalar) Shape.Writes.any
    | mapping value =>
        obtain ⟨values, rest, writes, _, rfl⟩ :=
          forall₂_cons_left_iff.mp (each fun _ _ isScalar => by cases isScalar)
        exact Shape.Writes.keyed isFound notDate undeclared isReached layer writes isKnown
    | nullable x => exact absurd rfl (required x)
    | scalar value cases =>
        obtain ⟨header, alone⟩ := hasKinds a isAmong type value cases isInner
        have met : Unfolds plain.known.entry known ([] ++ above) a _ :=
          .inner isInner notMet unfold
        have sameKind : some ((known type.identity).getD (Layout.scalarKind cases shapes)) =
            some (plain.kinds type.identity) :=
          met.scalarKind?_eq ready.lawful free isForm notNullable alone
        rw [Layout.node_scalar, Option.some.inj sameKind] at isKnown ⊢
        exact Shape.Writes.single isFound notDate undeclared isReached layer isKnown

/-- The tree that a type form unfolds to is written in a way that shows what the
type form is read as. -/
theorem Unfolds.writes
    (ready : plain.known.Ready forms .declaringPlainly)
    (grows : s.GrowsTo plain.known)
    (sameWorld : plain.known.world = s.world)
    (wraps : plain.known.WrapsNamed among)
    (hasKinds : plain.known.HasKinds among known plain.kinds)
    (within : ∀ b, plain.known.Reaches root b → among b)
    (member : root ∈ forms)
    (visits : Visits plain.known.entry [] root above a)
    (free : CaseFree plain.known.entry forms above)
    (unfolds : Unfolds plain.known.entry known above a shape) :
    shape.Writes plain among s (plain.known.bareRecord (some a)) := by
  -- By induction on the tree.  Types with cases are not entered, as their nodes have no
  -- parts, so none is being expanded on the way and kinds are those of the types alone.
  refine unfolds.tree_induction (motive := fun above a shape =>
    Visits plain.known.entry [] root above a → CaseFree plain.known.entry forms above →
      shape.Writes plain among s (plain.known.bareRecord (some a)))
    ?_ ?_ ?_ visits free
  · intro above a shape isLeaf visits _
    exact ready.leaf_writes grows sameWorld (visits.mem ready.lawful member)
      (within a visits.reaches) isLeaf
  · intro above a type layout isInner met visits _
    exact ready.back_writes grows wraps member visits (within a visits.reaches) isInner met
  · intro above a type layout shapes isInner notMet unfold inductionHypothesis visits free
    refine ready.inner_writes grows hasKinds member visits (within a visits.reaches) free isInner
      notMet unfold fun caseless => ?_
    have freeBelow := free.enter ready.lawful (visits.mem ready.lawful member) isInner caseless
    have asked : ∀ request ∈ layout.requests,
        Visits plain.known.entry [] root (type.identity :: above) request :=
      fun request isRequest => visits.request isInner notMet isRequest
    exact ((forall₂_and_left _ _).mpr ⟨asked, inductionHypothesis⟩).imp fun request shape both =>
      both.2 both.1 freeBelow

/-- A schema that cannot be referred to, of a type without a description, stays as it is and
is not shared. -/
theorem Synthesis.finish_unshared
    {caps : Capabilities}
    {schema : Schema}
    (σ : Synthesis)
    (undescribed : caps.description = none)
    (unshared : schema.isReferenceable = false)
    (config : SchemaConfig) :
    σ.finish config (some caps) schema = (schema, σ) := by
  have described : caps.describe schema = schema := by
    unfold Capabilities.describe
    rw [undescribed]
  unfold Synthesis.finish
  dsimp only
  rw [described, SchemaRegistry.register, unshared]
  split <;> rfl

/-- A root that is read as no type at all is unconstrained, whatever its own type is
called. -/
theorem KnownShape.Writes.ofUndescribed
    {among : TypeForm → Prop}
    {caps : Capabilities}
    (undescribed : caps.description = none) :
    (KnownShape.plain (some caps) .empty).Writes plain among none := by
  have finishes (σ : Synthesis) :
      σ.finish plain.config (some caps) (.inline .empty none none none) =
        (.inline .empty none none none, σ) :=
    σ.finish_unshared undescribed rfl plain.config
  refine ⟨fun σ _ => ?_, fun σ shared => ?_, fun _ absent => by cases absent⟩
  · rw [KnownShape.build, finishes]
    exact ⟨rfl, rfl, rfl, rfl⟩
  · rw [KnownShape.build, finishes]
    exact shared

/-- What is not looked into has a type if anything is known about it. -/
theorem Store.type_of_leaf
    {b : TypeForm}
    (isLeaf : s.entry b = .leaf shape) :
    shape.type.isSome ∨ (s.registry .current).find? b = none ∧ shape = .any none := by
  unfold entry at isLeaf
  cases found : (s.registry .current).find? b with
  | none =>
      rw [found] at isLeaf
      cases isLeaf
      exact .inr ⟨rfl, rfl⟩
  | some caps =>
      rw [found] at isLeaf
      simp only [entryOf] at isLeaf
      split at isLeaf <;> cases isLeaf
      rw [caps.type_leaf]
      exact .inl rfl

/-- The tree of a known root has a type, unless the root may be null and wraps no
type at all. -/
theorem Store.Ready.type_of_root
    (ready : s.Ready forms allowed)
    (member : a ∈ forms)
    (isKnown : ((s.registry .current).find? a).isSome)
    (unfolds : Unfolds s.entry known [] a shape) :
    shape.type.isSome ∨ ∃ type x, s.entry a = .inner type (.nullable x) ∧
      (s.registry .current).find? x = none ∧ shape = (Shape.any none).optional true := by
  cases entryCase : s.entry a with
  | leaf leaf =>
      rw [unfolds.eq_of_leaf entryCase]
      refine .inl ((Store.type_of_leaf entryCase).resolve_right fun unknown => ?_)
      rw [unknown.1] at isKnown
      cases isKnown
  | inner type layout =>
      by_cases wraps : ∃ x, layout = .nullable x
      · obtain ⟨x, rfl⟩ := wraps
        obtain ⟨wrapped, inside, rfl⟩ := unfolds.eq_optional_of_nullable entryCase not_mem_nil
        rw [Shape.type_optional]
        cases insideCase : s.entry x with
        | leaf leaf =>
            obtain rfl := inside.eq_of_leaf insideCase
            rcases Store.type_of_leaf insideCase with typed | ⟨unknown, rfl⟩
            · exact .inl typed
            · exact .inr ⟨type, x, rfl, unknown, rfl⟩
        | inner other layout =>
            have sameType := (inside.root_of_not_nullable ready.lawful
              (ready.lawful.nullable_mem member entryCase)
              (ready.lawful.nullable a member type x entryCase)).1
            rw [insideCase, Entry.key?] at sameType
            obtain ⟨own, isOwn, _⟩ := Option.map_eq_some_iff.mp sameType
            rw [isOwn]
            exact .inl rfl
      · obtain ⟨shapes, _, rfl⟩ := unfolds.exists_requests entryCase not_mem_nil
        have rootType := (layout.node_root type (known type.identity) shapes
          fun x isNullable => wraps ⟨x, isNullable⟩).1
        rw [rootType]
        exact .inl rfl

/-- A type that is given does not matter for a tree with one. -/
theorem Shape.know_of_typed
    (config : SchemaConfig)
    (given : Option TypeForm)
    (typed : shape.type.isSome) :
    shape.know config given = shape.know config none := by
  have same (h : ShapeHeader) (typed : h.type.isSome) : h.type.or given = h.type.or none := by
    obtain ⟨type, isType⟩ := Option.isSome_iff_exists.mp typed
    rw [isType]
    rfl
  cases shape with
  | keyed h isFixed fields =>
      cases isFixed with
      | true => rw [Shape.know, Shape.know, same h typed]
      | false =>
          cases fields with
          | nil => rw [Shape.know, Shape.know, same h typed]
          | cons field rest => rw [Shape.know, Shape.know, same h typed]
  | single h kind => rw [Shape.know, Shape.know, same h typed]
  | unkeyed h element => rw [Shape.know, Shape.know, same h typed]
  | recursive h marker => rw [Shape.know, Shape.know, same h typed]
  | unconstrained h => rw [Shape.know, Shape.know, same h typed]

end

/-! ## Schemas of types -/

/-- Whether different types go by different names, and types that may be null by the
name of what they are read as, without a description of their own. -/
structure Store.NamesSuit (s : Store) (among : TypeForm → Prop) : Prop where
  apart : s.NamesApart among
  nullables : s.NullablesNamed among
  undescribed : ∀ a, among a → ∀ type x caps, s.entry a = .inner type (.nullable x) →
    (s.registry .current).find? a = some caps → caps.description = none

section

variable {plain : PlainSynthesis} {s : Store} {forms : List TypeForm} {allowed : Allowance}
  {among : TypeForm → Prop} {a : TypeForm} {known kinds : Key → Option PrimitiveKind}
  {shape : Shape}

/-- Types that may be null are known under the names of what they are read as in
earlier states too. -/
theorem Store.GrowsTo.wrapsNamed
    {last : Store}
    (grows : s.GrowsTo last)
    (named : last.WrapsNamed (last.Reaches a)) :
    s.WrapsNamed (s.Reaches a) := by
  have sameEntry {b type : TypeForm} {layout : Layout} (isInner : s.entry b = .inner type layout) :
      last.entry b = .inner type layout := by
    cases found : (s.registry .current).find? b with
    | none =>
        rw [entry, found] at isInner
        cases isInner
    | some caps =>
        rw [entry, found] at isInner
        have isInner : s.entryOf caps = .inner type layout := isInner
        rw [entry_of_found found grows, ← isInner]
        simp only [entryOf, layout_congr grows.reading]
  have reaches {b : TypeForm} (reached : s.Reaches a b) : last.Reaches a b := by
    induction reached with
    | root => exact .root
    | request _ isInner asked inductionHypothesis =>
        exact inductionHypothesis.request (sameEntry isInner) asked
  intro b isReached type x inside layout caps wrapped isInner wrappedInner found wrappedFound
  exact named b (reaches isReached) type x inside layout caps wrapped (sameEntry isInner)
    (sameEntry wrappedInner) (grows.found b caps found) (grows.found x wrapped wrappedFound)

/-- What a root unfolds to in a state is known there if the root is known later. -/
theorem Unfolds.root_known
    {last : Store}
    (ready : last.Ready forms allowed)
    (member : a ∈ forms)
    (isKnown : ((last.registry .current).find? a).isSome)
    (unfolds : Unfolds last.entry known [] a shape)
    (ownUnfolds : Unfolds s.entry kinds [] a shape) :
    ((s.registry .current).find? a).isSome := by
  cases unknown : (s.registry .current).find? a with
  | some own => rfl
  | none =>
      obtain rfl : shape = .any none := ownUnfolds.eq_of_leaf (by rw [Store.entry, unknown])
      rcases ready.type_of_root member isKnown unfolds with typed | ⟨_, _, _, _, isOptional⟩
      · cases typed
      · cases isOptional

/-- Looking up the types of the tree of a root finds what is written in a way that
shows the root, and explains it. -/
theorem Unfolds.root_writes
    (ready : plain.known.Ready forms .declaringPlainly)
    (ownReady : s.Ready forms allowed)
    (grows : s.GrowsTo plain.known)
    (sameWorld : plain.known.world = s.world)
    (within : ∀ b, plain.known.Reaches a b → among b)
    (wraps : plain.known.WrapsNamed among)
    (undescribed : ∀ type x caps, plain.known.entry a = .inner type (.nullable x) →
      (plain.known.registry .current).find? a = some caps → caps.description = none)
    (hasKinds : plain.known.HasKinds among known plain.kinds)
    (member : a ∈ forms)
    (isKnown : ((plain.known.registry .current).find? a).isSome)
    (unfolds : Unfolds plain.known.entry known [] a shape)
    (ownUnfolds : Unfolds s.entry kinds [] a shape) :
    ∃ found, (shape.know plain.config (some a)).run s = (.ok found, s) ∧ found.Explained s [] ∧
      found.Writes plain among (plain.known.bareRecord (some a)) := by
  have ownKnown := Unfolds.root_known ready member isKnown unfolds ownUnfolds
  have treeKnown := ownUnfolds.isKnown ownReady member
  have named : s.Named forms [] [] a := fun _ _ met => by cases met
  have proper : Proper s.entry forms [] := fun _ _ _ _ _ _ met => by cases met
  have ownWraps := grows.wrapsNamed fun b reaches => wraps b (within b reaches)
  have bound := ownUnfolds.markersBound ownReady ownWraps member proper .root named
  obtain ⟨found, knows, writes⟩ : ∃ found,
      (shape.know plain.config (some a)).run s = (.ok found, s) ∧
        found.Writes plain among (plain.known.bareRecord (some a)) := by
    rcases ready.type_of_root member isKnown unfolds with
      typed | ⟨type, x, isInner, unknown, rfl⟩
    · rw [Shape.know_of_typed plain.config (some a) typed]
      have free : CaseFree plain.known.entry forms [] := fun _ _ _ _ _ _ met => by cases met
      exact unfolds.writes ready grows sameWorld wraps hasKinds within member .root free treeKnown
    · obtain ⟨caps, found, _, _, _, notDate, undeclared⟩ := ready.known_of_inner member isInner
      have record : plain.known.bareRecord (some a) = none := by
        rw [Store.bareRecord, Option.bind_some, Store.bare_of_nullable isInner, unknown]
      rw [record]
      refine ⟨.plain (some caps) .empty, ?_,
        .ofUndescribed (undescribed type x caps isInner found)⟩
      change (knowNode plain.config (some a) fun record => pure (.plain record .empty)).run s = _
      rw [knowNode_of_inner (grows.find?_eq ownKnown found) notDate undeclared]
      rfl
  obtain ⟨_, explained⟩ := shape.explained_of_know plain.config (some a) treeKnown
    (by rintro b ⟨rfl⟩; exact ownKnown) bound knows
  exact ⟨found, knows, explained, writes⟩

end

/-- The schema that is built from a tree that a type form unfolds to becomes the plain
schema of the type form when references are followed. -/
theorem KnownShape.Writes.cutTo_eq
    {plain : PlainSynthesis}
    {s : Store}
    {a : TypeForm}
    {found : KnownShape}
    (writes : found.Writes plain (plain.known.Reaches a) (plain.known.bareRecord (some a)))
    (apart : plain.known.NamesApart (plain.known.Reaches a))
    (explained : found.Explained s [])
    (depth : Nat) :
    (found.shares plain.config).cutTo depth (found.schema plain.config) =
      plain.schemaTo depth (some a) := by
  have nothing : SchemaRegistry.empty.Shows plain (plain.known.Reaches a) := by
    intro e absent
    cases absent
  have nowhere : SchemaRegistry.empty.Resolves sharedName found.declaredSchemas := by
    intro e absent
    cases absent
  obtain ⟨schemaResolves, registryResolves, _⟩ :=
    KnownShape.build_resolves plain.config explained.bound
      (fun record _ => sharedName_sharedHome record.name) (fun _ declares => declares) nowhere
  exact SchemaRegistry.cutTo_eq_schemaTo apart (Store.Reaches.isClosed _ a) writes.declares
    (writes.registry _ nothing) registryResolves depth (by rintro form ⟨rfl⟩; exact .root) (writes.schema _ nothing)
    schemaResolves

/-- The schema of a conventional type that lookup accepts is its plain schema once
references are followed, to every depth and for every configuration, where types go
by names that suit.  Types with cases are of the kinds that were recorded, or of
those that they have by themselves where kinds do not depend on the place. -/
theorem schemaFor_unfolds
    {s : Store}
    {a : TypeForm}
    (conventional : s.Conventional .declaringPlainly a)
    (accepted : ∃ caps later, (lookup .current a).run s = (.ok caps, later)) :
    ∃ shape reached, (describe a).run s = (.ok shape, reached) ∧
      ∃ last, reached.GrowsTo last ∧ s.Explores last a ∧
        ∀ known, known = reached.recordedKinds ∨
            known = (fun _ => none) ∧ KindsAgree last.entry [] a →
          last.NamesSuit (last.Reaches a) →
          ∃ kinds, last.HasKinds (last.Reaches a) known kinds ∧
            ∀ config, ∃ schema registry final,
              (schemaFor config a).run (.empty, s) = (.ok schema, registry, final) ∧
                ∀ depth, registry.cutTo depth schema =
                  (⟨last, config, kinds⟩ : PlainSynthesis).schemaTo depth (some a) := by
  obtain ⟨forms, ready, universal, size⟩ := conventional.exists_universe (.refl s)
  have member : a ∈ forms := (universal a).mpr .root
  obtain ⟨caps, later, lookedUp⟩ := accepted
  obtain ⟨depth, isDepth, enough⟩ := s.exists_depthFor size
  obtain ⟨shape, reached, ran, reachedReady, grows, probed⟩ :=
    describeTo_probed ready rfl member (hasCapabilities_of_lookup ready member lookedUp) enough
  have described : (describe a).run s = (.ok shape, reached) := by
    rw [describe, Step.run_bind_of_ok (Step.run_current s), isDepth, ran]
  obtain ⟨explored, exploredReady, growsExplored, explores⟩ :=
    ready.exists_explores universal reachedReady grows
  -- Dates are told apart by the world that synthesis starts from.
  let last : Store := { explored with world := reached.world }
  have learns : explored.Learns last forms .declaringPlainly :=
    .of_registry exploredReady growsExplored.reading.symm rfl rfl
  have growsLast := growsExplored.trans learns.grows
  refine ⟨shape, reached, described, last, growsLast,
    ⟨grows.trans growsLast, explores.known⟩, fun known isKnown suit => ?_⟩
  have proper (s : Store) : Proper s.entry forms [] := fun _ _ _ _ _ _ met => by cases met
  have mirrored := probed last learns.ready growsLast
  have unfolds : Unfolds last.entry known [] a shape := by
    rcases isKnown with rfl | ⟨rfl, agree⟩
    · exact probeWith_unfolds_kinds learns.ready.lawful member (proper last) mirrored
    · exact probeWith_unfolds learns.ready.lawful member (proper last) agree mirrored
  have ownUnfolds := probeWith_unfolds_kinds reachedReady.lawful member (proper reached)
    (probed reached reachedReady (.refl reached))
  obtain ⟨kinds, hasKinds⟩ :=
    learns.ready.exists_kinds (fun _ reaches => Store.Reaches.mem reaches learns.ready member) known
  refine ⟨kinds, hasKinds, fun config => ?_⟩
  let plain : PlainSynthesis := ⟨last, config, kinds⟩
  obtain ⟨found, knows, explained, writes⟩ : ∃ found,
      (shape.know plain.config (some a)).run reached = (.ok found, reached) ∧
        found.Explained reached [] ∧
        found.Writes plain (plain.known.Reaches a) (plain.known.bareRecord (some a)) :=
    Unfolds.root_writes learns.ready reachedReady growsLast rfl (fun _ reaches => reaches)
      suit.nullables.wraps (suit.undescribed a .root) hasKinds member
      ((explores.known a .root).mpr ⟨caps, later, lookedUp⟩) unfolds ownUnfolds
  obtain ⟨final, synthesised⟩ := synthesize_of_know knows .empty reached.events
  have begun : (Step.shared (describe a)).run (SchemaRegistry.empty, s) =
      (.ok shape, SchemaRegistry.empty, reached) := by
    rw [Step.shared, Step.run_within, described]
  refine ⟨found.schema plain.config, found.shares plain.config, reached.withEvents final, ?_,
    writes.cutTo_eq suit.apart explained⟩
  have unchanged : reached.withEvents reached.events = reached := rfl
  rw [unchanged, ← (found.build_into plain.config .empty).2] at synthesised
  rw [schemaFor, Step.run_bind_of_ok begun]
  exact synthesised

/-- The type of the children of nodes. -/
def childrenForm : TypeForm :=
  .generic (.cls (.builtin .list)) [.cls nodeClass]

/-- The state in which nodes were described. -/
def nodesDescribed : Store :=
  ((describe (.cls nodeClass)).run (nodeStore [])).2

/-- What nodes and their children are once nodes were described. -/
structure KnowsNodes (s : Store) : Prop where
  node : ∃ caps, (s.registry .current).find? (.cls nodeClass) = some caps ∧ caps.name = "Node"
  nodeEntry : ∃ plans, s.entry (.cls nodeClass) = .inner (.cls nodeClass) (.record plans) ∧
    (Layout.record plans).requests = [childrenForm]
  children : ∃ caps, (s.registry .current).find? childrenForm = some caps ∧
    caps.name = "list_Node"
  childrenEntry : s.entry childrenForm = .inner childrenForm (.sequence (.cls nodeClass))

/-- Nodes and their children stay what they are once nodes were described. -/
theorem knowsNodes_of_described
    {last : Store}
    (grows : nodesDescribed.GrowsTo last) :
    KnowsNodes last := by
  obtain ⟨caps, found, name, looksInto⟩ : ∃ caps,
      (nodesDescribed.registry .current).find? (.cls nodeClass) = some caps ∧ caps.name = "Node" ∧
        ∀ s : Store, s.entryOf caps =
          .inner (.cls nodeClass) (s.layout caps (.fields nodeClass)) :=
    ⟨_, rfl, rfl, fun _ => rfl⟩
  obtain ⟨others, othersFound, othersName, othersLooksInto⟩ : ∃ caps,
      (nodesDescribed.registry .current).find? childrenForm = some caps ∧
        caps.name = "list_Node" ∧
        ∀ s : Store, s.entryOf caps = .inner childrenForm (.sequence (.cls nodeClass)) :=
    ⟨_, rfl, rfl, fun _ => rfl⟩
  obtain ⟨plans, isPlans, requests⟩ : ∃ plans,
      nodesDescribed.world.plansOf? nodeClass = some plans ∧
        (Layout.record plans).requests = [childrenForm] :=
    ⟨_, rfl, rfl⟩
  refine ⟨⟨caps, grows.found _ _ found, name⟩, ⟨plans, ?_, requests⟩,
    ⟨others, grows.found _ _ othersFound, othersName⟩, ?_⟩
  · rw [entry_of_found found grows, looksInto, Store.layout, grows.reading.plansOf?, isPlans]
  · rw [entry_of_found othersFound grows, othersLooksInto]

/-- Nodes and their children lead to nothing else. -/
theorem KnowsNodes.reaches
    {s : Store}
    {root a : TypeForm}
    (knows : KnowsNodes s)
    (isRoot : root = .cls nodeClass ∨ root = childrenForm)
    (reaches : s.Reaches root a) :
    a = .cls nodeClass ∨ a = childrenForm := by
  induction reaches with
  | root => exact isRoot
  | request _ isInner asked inductionHypothesis =>
      rcases inductionHypothesis with rfl | rfl
      · obtain ⟨plans, isRecord, requests⟩ := knows.nodeEntry
        rw [isRecord] at isInner
        cases isInner
        rw [requests] at asked
        exact .inr (List.mem_singleton.mp asked)
      · rw [knows.childrenEntry] at isInner
        cases isInner
        exact .inl (List.mem_singleton.mp asked)

/-- Nodes and their children go by names that suit. -/
theorem KnowsNodes.namesSuit
    {s : Store}
    {among : TypeForm → Prop}
    (knows : KnowsNodes s)
    (within : ∀ a, among a → a = .cls nodeClass ∨ a = childrenForm) :
    s.NamesSuit among := by
  have required {a type x : TypeForm} (isAmong : among a)
      (isInner : s.entry a = .inner type (.nullable x)) : False := by
    rcases within a isAmong with rfl | rfl
    · obtain ⟨plans, isRecord, _⟩ := knows.nodeEntry
      rw [isRecord] at isInner
      cases isInner
    · rw [knows.childrenEntry] at isInner
      cases isInner
  have bare {a : TypeForm} (isAmong : among a) : s.bare a = a := by
    unfold Store.bare
    split
    · rename_i isInner
      exact (required isAmong isInner).elim
    · rfl
  obtain ⟨node, nodeFound, nodeName⟩ := knows.node
  obtain ⟨children, childrenFound, childrenName⟩ := knows.children
  refine ⟨?_, fun a isAmong type x _ _ isInner _ _ => (required isAmong isInner).elim,
    fun a isAmong type x _ isInner _ => (required isAmong isInner).elim⟩
  intro a b isAmong otherAmong caps others found otherFound sameName
  rw [Store.bareRecord, Option.bind_some, bare isAmong] at found
  rw [Store.bareRecord, Option.bind_some, bare otherAmong] at otherFound
  rw [bare isAmong, bare otherAmong]
  rcases within a isAmong with rfl | rfl <;> rcases within b otherAmong with rfl | rfl
  · rfl
  · rw [nodeFound] at found
    rw [childrenFound] at otherFound
    cases found
    cases otherFound
    rw [nodeName, childrenName] at sameName
    exact absurd sameName (by decide)
  · rw [childrenFound] at found
    rw [nodeFound] at otherFound
    cases found
    cases otherFound
    rw [nodeName, childrenName] at sameName
    exact absurd sameName (by decide)
  · rfl

/-- The schema of nodes is their plain schema. -/
theorem schemaFor_unfolds_node :
    ∃ last kinds, (nodeStore []).Explores last (.cls nodeClass) ∧
      ∀ config, ∃ schema registry final,
        (schemaFor config (.cls nodeClass)).run (.empty, nodeStore []) =
            (.ok schema, registry, final) ∧
          ∀ depth, registry.cutTo depth schema =
            (⟨last, config, kinds⟩ : PlainSynthesis).schemaTo depth (some (.cls nodeClass)) := by
  obtain ⟨shape, reached, ran, last, grows, explores, follows⟩ :=
    schemaFor_unfolds
      (.of_unknown (covers_nodeForms [] rfl) (unknown_nodeForms []) (by simp [nodeForms]) :
        (nodeStore []).Conventional .declaringPlainly (.cls nodeClass))
      ⟨_, _, rfl⟩
  have isReached : nodesDescribed = reached := by
    rw [nodesDescribed, ran]
  rw [← isReached] at grows
  have knows := knowsNodes_of_described grows
  obtain ⟨kinds, _, schemas⟩ :=
    follows _ (.inl rfl) (knows.namesSuit fun _ => knows.reaches (.inl rfl))
  exact ⟨last, kinds, explores, schemas⟩

end SchemaProbe

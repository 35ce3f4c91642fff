import SchemaProbe.Proofs.ShapeAgreement

namespace SchemaProbe

/-!
# Types in context

What a type unfolds to depends on the types that are being expanded around it.
Whether the trees of two types agree does not: wherever the two are met, their
trees agree exactly if the types have the same face, which is the type itself
or, for a type that only wraps what is not looked into, the wrapped node.
-/

/-- Whether a type is read as another one or null. -/
def Entry.IsNullable : Entry → Prop
  | .inner _ (.nullable _) => True
  | _ => False

/-- A type that is read as another one or null wraps it. -/
theorem Entry.IsNullable.exists_eq
    {e : Entry}
    (isNullable : e.IsNullable) :
    ∃ type x, e = .inner type (.nullable x) := by
  cases e with
  | leaf shape => exact isNullable.elim
  | inner type layout =>
      cases layout with
      | nullable x => exact ⟨type, x, rfl⟩
      | _ => exact isNullable.elim

/-- A node without parts that stands for a type or, unconstrained, for none. -/
inductive IsLeafNode : Shape → Prop
  | foreign : IsLeafNode (.any none)
  | any {type : TypeForm} : type.isHashable = true → IsLeafNode (.any (some type))
  | scalar {type : TypeForm} {kind : PrimitiveKind} :
      type.isHashable = true → IsLeafNode (.single (.of (some type)) kind)

/-- What is assumed of a universe of type forms: it contains everything that it
asks for, equal types stand for the same thing, a type that may be null wraps
one that may not, and wraps it alone. -/
structure Lawful (entry : TypeForm → Entry) (forms : List TypeForm) : Prop where
  closed : ClosedUnder entry forms
  same : ∀ a ∈ forms, ∀ b ∈ forms, ∀ key, (entry a).key? = some key →
    (entry b).key? = some key → entry a = entry b
  leaves : ∀ a ∈ forms, ∀ shape, entry a = .leaf shape → IsLeafNode shape
  hashable : ∀ a ∈ forms, ∀ type layout, entry a = .inner type layout → type.isHashable = true
  nullable : ∀ a ∈ forms, ∀ type x, entry a = .inner type (.nullable x) →
    ¬ (entry x).IsNullable
  wrapped : ∀ a ∈ forms, ∀ b ∈ forms, ∀ type other x y key,
    entry a = .inner type (.nullable x) → entry b = .inner other (.nullable y) →
    (entry x).key? = some key → (entry y).key? = some key → type.identity = other.identity
  required : ∀ a ∈ forms, ∀ type plans, entry a = .inner type (.record plans) →
    ∀ p ∈ plans, p.isOptional = false → ¬ (entry p.form).IsNullable
  scalar : ∀ a ∈ forms, ∀ type value cases, entry a = .inner type (.scalar value cases) →
    ¬ (entry value).IsNullable ∧ Value.allContent cases = true

/-- Where plain unfolding meets a type form: the types that are being expanded,
innermost first, and the form. -/
inductive Visits (entry : TypeForm → Entry) (start : List Key) (root : TypeForm) :
    List Key → TypeForm → Prop
  | root : Visits entry start root start root
  | request {above : List Key} {a type request : TypeForm} {layout : Layout} :
      Visits entry start root above a → entry a = .inner type layout →
      type.identity ∉ above → request ∈ layout.requests →
      Visits entry start root (type.identity :: above) request

/-- Whether no type that is being expanded only wraps what is not looked
into. -/
def Proper (entry : TypeForm → Entry) (forms : List TypeForm) (above : List Key) : Prop :=
  ∀ a ∈ forms, ∀ type x shape, entry a = .inner type (.nullable x) →
    type.identity ∈ above → entry x ≠ .leaf shape

section

variable {entry : TypeForm → Entry} {forms : List TypeForm} {start above : List Key}
  {root a : TypeForm}

/-- Everything that is met belongs to the universe. -/
theorem Visits.mem
    (visits : Visits entry start root above a)
    (lawful : Lawful entry forms)
    (rootMember : root ∈ forms) :
    a ∈ forms := by
  induction visits with
  | root => exact rootMember
  | request _ isInner _ asked member => exact lawful.closed _ member _ _ isInner _ asked

/-- Below a type that only wraps what is not looked into, nothing is looked
into. -/
theorem Visits.leaf_or_proper
    (visits : Visits entry start root above a)
    (lawful : Lawful entry forms)
    (rootMember : root ∈ forms)
    (startProper : Proper entry forms start) :
    (∃ shape, entry a = .leaf shape) ∨ Proper entry forms above := by
  induction visits with
  | root => exact .inr startProper
  | @request above a type request layout visits isInner notMet asked inductionHypothesis =>
      have aboveProper : Proper entry forms above := by
        rcases inductionHypothesis with ⟨shape, isLeaf⟩ | proper
        · rw [isInner] at isLeaf
          cases isLeaf
        · exact proper
      by_cases wraps : ∃ x shape, layout = .nullable x ∧ entry x = .leaf shape
      · obtain ⟨x, shape, rfl, isLeaf⟩ := wraps
        obtain rfl := List.mem_singleton.mp asked
        exact .inl ⟨shape, isLeaf⟩
      · refine .inr fun b member other x shape otherInner met isLeaf => ?_
        rcases List.mem_cons.mp met with same | further
        · have keys : (entry a).key? = some type.identity := by rw [isInner]; rfl
          have otherKeys : (entry b).key? = some type.identity := by rw [otherInner, ← same]; rfl
          have entries :=
            lawful.same a (visits.mem lawful rootMember) b member _ keys otherKeys
          rw [isInner, otherInner] at entries
          cases entries
          exact wraps ⟨x, shape, rfl, isLeaf⟩
        · exact aboveProper b member other x shape otherInner further isLeaf

/-- What only wraps a leaf is never met below itself. -/
theorem Visits.wrapped_inner
    {type x : TypeForm}
    (visits : Visits entry start root above a)
    (lawful : Lawful entry forms)
    (rootMember : root ∈ forms)
    (startProper : Proper entry forms start)
    (isInner : entry a = .inner type (.nullable x))
    (met : type.identity ∈ above) :
    ∃ inside layout, entry x = .inner inside layout := by
  rcases visits.leaf_or_proper lawful rootMember startProper with ⟨shape, isLeaf⟩ | proper
  · rw [isInner] at isLeaf
    cases isLeaf
  · cases wrappedCase : entry x with
    | leaf shape =>
        exact absurd wrappedCase
          (proper a (visits.mem lawful rootMember) type x shape isInner met)
    | inner inside layout => exact ⟨inside, layout, rfl⟩

end

/-! ## What trees say at their roots -/

section

variable {entry : TypeForm → Entry} {kinds : Key → Option PrimitiveKind}
  {forms : List TypeForm} {above : List Key} {a b : TypeForm} {s t : Shape}

/-- The root of the node of a type that is no other one or null. -/
theorem Layout.node_root
    {layout : Layout}
    (type : TypeForm)
    (known : Option PrimitiveKind)
    (shapes : List Shape)
    (required : ∀ x, layout ≠ .nullable x) :
    (layout.node type known shapes).type = some type ∧
      (layout.node type known shapes).isOptional = false := by
  cases layout with
  | nullable x => exact absurd rfl (required x)
  | _ => exact ⟨rfl, rfl⟩

/-- A type that is no other one or null stands at the root of its own tree. -/
theorem Unfolds.root_of_not_nullable
    (unfolds : Unfolds entry kinds above a s)
    (lawful : Lawful entry forms)
    (member : a ∈ forms)
    (required : ¬ (entry a).IsNullable) :
    s.type.map (·.identity) = (entry a).key? ∧ s.isOptional = false := by
  cases entryCase : entry a with
  | leaf shape =>
      obtain rfl := unfolds.eq_of_leaf entryCase
      refine ⟨rfl, ?_⟩
      cases lawful.leaves a member s entryCase <;> rfl
  | inner type layout =>
      by_cases met : type.identity ∈ above
      · obtain rfl := unfolds.eq_of_back entryCase met
        exact ⟨rfl, rfl⟩
      · obtain ⟨shapes, _, rfl⟩ := unfolds.exists_requests entryCase met
        have notNullable : ∀ x, layout ≠ .nullable x := by
          rintro x rfl
          exact required (by rw [entryCase]; trivial)
        obtain ⟨rootType, rootOptional⟩ :=
          layout.node_root type (kinds type.identity) shapes notNullable
        exact ⟨by rw [rootType]; rfl, rootOptional⟩

/-- A type that is expanded as another one or null has the tree of that type,
which may be missing. -/
theorem Unfolds.eq_optional_of_nullable
    {type x : TypeForm}
    (unfolds : Unfolds entry kinds above a s)
    (isInner : entry a = .inner type (.nullable x))
    (notMet : type.identity ∉ above) :
    ∃ wrapped, Unfolds entry kinds (type.identity :: above) x wrapped ∧
      s = wrapped.optional true := by
  obtain ⟨shapes, requests, rfl⟩ := unfolds.exists_requests isInner notMet
  obtain ⟨wrapped, rest, first, last, rfl⟩ := List.forall₂_cons_left_iff.mp requests
  exact ⟨wrapped, first, rfl⟩

/-- The types at the roots of trees can be compared by their keys. -/
theorem Unfolds.root_hashable
    (unfolds : Unfolds entry kinds above a s)
    (lawful : Lawful entry forms)
    (member : a ∈ forms) :
    ∀ type, s.type = some type → type.isHashable = true := by
  obtain ⟨depth, reached⟩ := unfolds
  induction depth generalizing above a s with
  | zero => simp [unfoldWith] at reached
  | succ depth inductionHypothesis =>
      cases entryCase : entry a with
      | leaf shape =>
          obtain rfl := Unfolds.eq_of_leaf ⟨_, reached⟩ entryCase
          intro type isType
          cases lawful.leaves a member s entryCase with
          | foreign => cases isType
          | any hashable =>
              cases isType
              exact hashable
          | scalar hashable =>
              cases isType
              exact hashable
      | inner type layout =>
          have hashable := lawful.hashable a member type layout entryCase
          by_cases met : type.identity ∈ above
          · obtain rfl := Unfolds.eq_of_back ⟨_, reached⟩ entryCase met
            rintro other ⟨rfl⟩
            exact hashable
          · by_cases wraps : ∃ x, layout = .nullable x
            · obtain ⟨x, rfl⟩ := wraps
              simp only [unfoldWith, entryCase, List.contains_iff_mem, met, if_false,
                Option.map_eq_some_iff] at reached
              obtain ⟨shapes, collected, rfl⟩ := reached
              obtain ⟨wrapped, rest, first, last, rfl⟩ :=
                List.forall₂_cons_left_iff.mp (mapM_eq_some_iff.mp collected)
              intro other isType
              have wrappedMember : x ∈ forms :=
                lawful.closed a member type _ entryCase x (by simp [Layout.requests])
              refine inductionHypothesis wrappedMember first other ?_
              simpa [Layout.node] using isType
            · obtain ⟨shapes, _, rfl⟩ := Unfolds.exists_requests ⟨_, reached⟩ entryCase met
              obtain ⟨rootType, _⟩ :=
                layout.node_root type (kinds type.identity) shapes
                  fun x isNullable => wraps ⟨x, isNullable⟩
              intro other isType
              rw [rootType] at isType
              cases isType
              exact hashable

/-- Trees that agree stand for types of the same identity. -/
theorem Unfolds.identity_eq_of_agrees
    (first : Unfolds entry kinds above a s)
    (second : Unfolds entry kinds above b t)
    (lawful : Lawful entry forms)
    (firstMember : a ∈ forms)
    (secondMember : b ∈ forms)
    (agree : s.agrees t = true) :
    s.type.map (·.identity) = t.type.map (·.identity) := by
  have sameTypes := Shape.sameType_of_agrees agree
  have firstHashable := first.root_hashable lawful firstMember
  have secondHashable := second.root_hashable lawful secondMember
  unfold sameType at sameTypes
  cases firstType : s.type with
  | none =>
      cases secondType : t.type with
      | none => rfl
      | some other => simp [firstType, secondType] at sameTypes
  | some type =>
      cases secondType : t.type with
      | none => simp [firstType, secondType] at sameTypes
      | some other =>
          simp only [firstType, secondType, beq_iff_eq] at sameTypes
          simp [TypeForm.identity, firstHashable type firstType,
            secondHashable other secondType, sameTypes]

/-- Trees of a lawful universe are comparable. -/
theorem Unfolds.isComparable
    (unfolds : Unfolds entry kinds above a s)
    (lawful : Lawful entry forms)
    (member : a ∈ forms) :
    s.IsComparable := by
  obtain ⟨depth, reached⟩ := unfolds
  induction depth generalizing above a s with
  | zero => simp [unfoldWith] at reached
  | succ depth inductionHypothesis =>
      cases entryCase : entry a with
      | leaf shape =>
          obtain rfl := Unfolds.eq_of_leaf ⟨_, reached⟩ entryCase
          cases lawful.leaves a member s entryCase <;> exact ShapeHeader.isComparable_of _
      | inner type layout =>
          by_cases met : type.identity ∈ above
          · obtain rfl := Unfolds.eq_of_back ⟨_, reached⟩ entryCase met
            exact ShapeHeader.isComparable_of _
          · simp only [unfoldWith, entryCase, List.contains_iff_mem, met, if_false,
              Option.map_eq_some_iff] at reached
            obtain ⟨shapes, collected, rfl⟩ := reached
            have requests := mapM_eq_some_iff.mp collected
            refine Layout.node_comparable ?_ fun value cases isScalar => ?_
            · intro shape shapeMember
              obtain ⟨request, asked, found⟩ :=
                exists_mem_of_forall₂ requests shapeMember
              exact inductionHypothesis (lawful.closed a member type layout entryCase _ asked) found
            · subst isScalar
              exact (lawful.scalar a member type value cases entryCase).2

end

/-! ## Faces -/

/-- What a tree says at its root about its type. -/
def Shape.shown (s : Shape) : Option Key × Bool :=
  (s.type.map (·.identity), s.isOptional)

/-- What a type is read as belongs to the universe. -/
theorem Lawful.nullable_mem
    {entry : TypeForm → Entry}
    {forms : List TypeForm}
    (lawful : Lawful entry forms)
    {a type x : TypeForm}
    (member : a ∈ forms)
    (isInner : entry a = .inner type (.nullable x)) :
    x ∈ forms :=
  lawful.closed a member type _ isInner x (by simp [Layout.requests])

/-- What the trees of a type have in common wherever it is met: the type, or the
node that it wraps if that is not looked into. -/
def face (entry : TypeForm → Entry) (a : TypeForm) : Option Key × Bool :=
  match entry a with
  | .inner type (.nullable x) =>
    match entry x with
    | .leaf shape => (shape.type.map (·.identity), true)
    | .inner _ _ => (some type.identity, false)
  | other => (other.key?, false)

/-- The face of a type that is no other one or null is the type. -/
theorem face_of_not_nullable
    {entry : TypeForm → Entry}
    {a : TypeForm}
    (required : ¬ (entry a).IsNullable) :
    face entry a = ((entry a).key?, false) := by
  unfold face
  split
  · rename_i isInner
    exact absurd (by rw [isInner]; trivial) required
  · rfl

/-- A leaf without a type is the unconstrained node. -/
theorem IsLeafNode.eq_of_type
    {s t : Shape}
    (first : IsLeafNode s)
    (second : IsLeafNode t)
    (firstType : s.type = none)
    (secondType : t.type = none) :
    s = t := by
  cases first with
  | any _ => cases firstType
  | scalar _ => cases firstType
  | foreign =>
      cases second with
      | foreign => rfl
      | any _ => cases secondType
      | scalar _ => cases secondType

/-- Leaves of one identity are the same entry. -/
theorem Lawful.leaf_eq
    {entry : TypeForm → Entry}
    {forms : List TypeForm}
    (lawful : Lawful entry forms)
    {a b : TypeForm}
    (first : a ∈ forms)
    (second : b ∈ forms)
    {s t : Shape}
    (firstLeaf : entry a = .leaf s)
    (secondLeaf : entry b = .leaf t)
    (sameKey : s.type.map (·.identity) = t.type.map (·.identity)) :
    s = t := by
  cases firstType : s.type with
  | none =>
      have secondType : t.type = none := by
        simpa [firstType] using sameKey.symm
      exact (lawful.leaves a first s firstLeaf).eq_of_type (lawful.leaves b second t secondLeaf)
        firstType secondType
  | some type =>
      have firstKey : (entry a).key? = some type.identity := by
        rw [firstLeaf]
        simp [Entry.key?, firstType]
      have secondKey : (entry b).key? = some type.identity := by
        rw [secondLeaf]
        simp [Entry.key?, ← sameKey, firstType]
      have entries := lawful.same a first b second _ firstKey secondKey
      rw [firstLeaf, secondLeaf] at entries
      exact Entry.leaf.inj entries

section

variable {entry : TypeForm → Entry} {kinds : Key → Option PrimitiveKind}
  {forms : List TypeForm} {start above : List Key} {root a b : TypeForm} {s t : Shape}

/-- How the tree of a type looks at its root where the type is met: it shows the
type's face, or it shows what the type wraps. -/
inductive Showing (entry : TypeForm → Entry) (a : TypeForm) (s : Shape) : Prop
  | type : face entry a = ((entry a).key?, false) → s.shown = face entry a → Showing entry a s
  | leaf {type x : TypeForm} {shape : Shape} :
      entry a = .inner type (.nullable x) → entry x = .leaf shape → s = shape.optional true →
      Showing entry a s
  | wrapped {type x inside : TypeForm} {layout : Layout} :
      entry a = .inner type (.nullable x) → entry x = .inner inside layout →
      s.shown = (some inside.identity, true) → Showing entry a s

/-- A tree shows its type in one of three ways. -/
theorem Visits.showing
    (visits : Visits entry start root above a)
    (lawful : Lawful entry forms)
    (rootMember : root ∈ forms)
    (startProper : Proper entry forms start)
    (unfolds : Unfolds entry kinds above a s) :
    Showing entry a s := by
  have member := visits.mem lawful rootMember
  by_cases isNullable : (entry a).IsNullable
  · obtain ⟨type, x, isInner⟩ := isNullable.exists_eq
    have wrappedMember := lawful.nullable_mem member isInner
    by_cases met : type.identity ∈ above
    · obtain rfl := unfolds.eq_of_back isInner met
      obtain ⟨inside, layout, wrappedCase⟩ :=
        visits.wrapped_inner lawful rootMember startProper isInner met
      have shows : face entry a = (some type.identity, false) := by
        simp [face, isInner, wrappedCase]
      refine .type ?_ ?_
      · rw [shows, isInner]
        rfl
      · rw [shows]
        rfl
    · obtain ⟨wrapped, wrappedUnfolds, rfl⟩ := unfolds.eq_optional_of_nullable isInner met
      cases wrappedCase : entry x with
      | leaf shape =>
          obtain rfl := wrappedUnfolds.eq_of_leaf wrappedCase
          exact .leaf isInner wrappedCase rfl
      | inner inside layout =>
          obtain ⟨wrappedRoot, _⟩ := wrappedUnfolds.root_of_not_nullable lawful wrappedMember
            (lawful.nullable a member type x isInner)
          refine .wrapped isInner wrappedCase ?_
          rw [wrappedCase] at wrappedRoot
          simp [Shape.shown, wrappedRoot, Entry.key?]
  · obtain ⟨rootType, rootOptional⟩ := unfolds.root_of_not_nullable lawful member isNullable
    have shows := face_of_not_nullable isNullable
    refine .type shows ?_
    rw [shows, Shape.shown, rootType, rootOptional]

/-- Types whose trees say the same at their roots have the same face. -/
theorem Showing.face_eq
    (first : Showing entry a s)
    (second : Showing entry b t)
    (lawful : Lawful entry forms)
    (firstMember : a ∈ forms)
    (secondMember : b ∈ forms)
    (roots : s.shown = t.shown) :
    face entry a = face entry b := by
  have faceOfLeaf {a type x : TypeForm} {shape : Shape}
      (isInner : entry a = .inner type (.nullable x)) (isLeaf : entry x = .leaf shape) :
      face entry a = (shape.optional true).shown := by
    simp [face, isInner, isLeaf, Shape.shown]
  have notWrapped {a b type other x y inside : TypeForm} {shape : Shape} {layout : Layout}
      (firstMember : a ∈ forms) (secondMember : b ∈ forms)
      (isInner : entry a = .inner type (.nullable x)) (isLeaf : entry x = .leaf shape)
      (otherInner : entry b = .inner other (.nullable y))
      (otherWrapped : entry y = .inner inside layout)
      (roots : (shape.optional true).shown = (some inside.identity, true)) : False := by
    have keys : (entry x).key? = some inside.identity := by
      rw [isLeaf]
      simpa [Shape.shown, Entry.key?] using roots
    have otherKeys : (entry y).key? = some inside.identity := by rw [otherWrapped]; rfl
    have entries := lawful.same x (lawful.nullable_mem firstMember isInner) y
      (lawful.nullable_mem secondMember otherInner) _ keys otherKeys
    rw [isLeaf, otherWrapped] at entries
    cases entries
  cases first with
  | type shows isRoot =>
      cases second with
      | type otherShows otherRoot => rw [← isRoot, roots, otherRoot]
      | leaf otherInner otherLeaf otherTree =>
          rw [← isRoot, roots, faceOfLeaf otherInner otherLeaf, otherTree]
      | wrapped otherInner otherWrapped otherRoot =>
          rw [shows, roots, otherRoot] at isRoot
          simp at isRoot
  | leaf isInner isLeaf tree =>
      cases second with
      | type otherShows otherRoot => rw [← otherRoot, ← roots, faceOfLeaf isInner isLeaf, tree]
      | leaf otherInner otherLeaf otherTree =>
          rw [faceOfLeaf isInner isLeaf, faceOfLeaf otherInner otherLeaf, ← tree, roots, otherTree]
      | wrapped otherInner otherWrapped otherRoot =>
          rw [tree, otherRoot] at roots
          exact (notWrapped firstMember secondMember isInner isLeaf otherInner otherWrapped
            roots).elim
  | wrapped isInner isWrapped isRoot =>
      cases second with
      | type otherShows otherRoot =>
          rw [otherShows, ← roots, isRoot] at otherRoot
          simp at otherRoot
      | leaf otherInner otherLeaf otherTree =>
          rw [otherTree, isRoot] at roots
          exact (notWrapped secondMember firstMember otherInner otherLeaf isInner isWrapped
            roots.symm).elim
      | wrapped otherInner otherWrapped otherRoot =>
          rw [isRoot, otherRoot] at roots
          have sameInside := (Prod.mk.inj roots).1
          have identities := lawful.wrapped a firstMember b secondMember _ _ _ _ _ isInner otherInner
            (by rw [isWrapped]; rfl) (by rw [otherWrapped, sameInside]; rfl)
          simp [face, isInner, isWrapped, otherInner, otherWrapped, identities]

/-- Types with the same face have the same tree where they are met together. -/
theorem Showing.eq_of_face
    (first : Showing entry a s)
    (second : Showing entry b t)
    (lawful : Lawful entry forms)
    (firstMember : a ∈ forms)
    (secondMember : b ∈ forms)
    (firstUnfolds : Unfolds entry kinds above a s)
    (secondUnfolds : Unfolds entry kinds above b t)
    (faces : face entry a = face entry b) :
    s = t := by
  have ofType {a b : TypeForm} {s t : Shape} (firstMember : a ∈ forms) (secondMember : b ∈ forms)
      (firstUnfolds : Unfolds entry kinds above a s)
      (secondUnfolds : Unfolds entry kinds above b t)
      (keys : (entry a).key? = (entry b).key?) : s = t := by
    cases keyCase : (entry b).key? with
    | some key =>
        have entries := lawful.same a firstMember b secondMember key (by rw [keys, keyCase]) keyCase
        exact (firstUnfolds.congr entries).unique secondUnfolds
    | none =>
        rw [keyCase] at keys
        cases firstCase : entry a with
        | inner type layout => simp [firstCase, Entry.key?] at keys
        | leaf shape =>
            cases secondCase : entry b with
            | inner type layout => simp [secondCase, Entry.key?] at keyCase
            | leaf other =>
                obtain rfl := firstUnfolds.eq_of_leaf firstCase
                obtain rfl := secondUnfolds.eq_of_leaf secondCase
                rw [firstCase] at keys
                rw [secondCase] at keyCase
                refine lawful.leaf_eq firstMember secondMember firstCase secondCase ?_
                exact keys.trans keyCase.symm
  have typeHasNoLeafFace {a b type x : TypeForm} {shape : Shape}
      (shows : face entry a = ((entry a).key?, false))
      (isInner : entry b = .inner type (.nullable x)) (isLeaf : entry x = .leaf shape)
      (faces : face entry a = face entry b) : False := by
    have other : face entry b = (shape.type.map (·.identity), true) := by
      simp [face, isInner, isLeaf]
    rw [shows, other] at faces
    simp at faces
  have wrappedFace {a type x inside : TypeForm} {layout : Layout}
      (isInner : entry a = .inner type (.nullable x))
      (isWrapped : entry x = .inner inside layout) :
      face entry a = ((entry a).key?, false) := by
    simp [face, isInner, isWrapped, Entry.key?]
  cases first with
  | type shows _ =>
      cases second with
      | type otherShows _ =>
          rw [shows, otherShows] at faces
          exact ofType firstMember secondMember firstUnfolds secondUnfolds (Prod.mk.inj faces).1
      | leaf otherInner otherLeaf _ => exact (typeHasNoLeafFace shows otherInner otherLeaf faces).elim
      | wrapped otherInner otherWrapped _ =>
          rw [shows, wrappedFace otherInner otherWrapped] at faces
          exact ofType firstMember secondMember firstUnfolds secondUnfolds (Prod.mk.inj faces).1
  | leaf isInner isLeaf tree =>
      cases second with
      | type otherShows _ =>
          exact (typeHasNoLeafFace otherShows isInner isLeaf faces.symm).elim
      | leaf otherInner otherLeaf otherTree =>
          simp only [face, isInner, isLeaf, otherInner, otherLeaf, Prod.mk.injEq] at faces
          rw [tree, otherTree,
            lawful.leaf_eq (lawful.nullable_mem firstMember isInner)
              (lawful.nullable_mem secondMember otherInner) isLeaf otherLeaf faces.1]
      | wrapped otherInner otherWrapped _ =>
          exact (typeHasNoLeafFace (wrappedFace otherInner otherWrapped) isInner isLeaf
            faces.symm).elim
  | wrapped isInner isWrapped _ =>
      have shows := wrappedFace isInner isWrapped
      cases second with
      | type otherShows _ =>
          rw [shows, otherShows] at faces
          exact ofType firstMember secondMember firstUnfolds secondUnfolds (Prod.mk.inj faces).1
      | leaf otherInner otherLeaf _ => exact (typeHasNoLeafFace shows otherInner otherLeaf faces).elim
      | wrapped otherInner otherWrapped _ =>
          rw [shows, wrappedFace otherInner otherWrapped] at faces
          exact ofType firstMember secondMember firstUnfolds secondUnfolds (Prod.mk.inj faces).1

/-- Where two types are met together, their trees agree exactly if they have the
same face. -/
theorem agrees_iff_face_eq
    (firstVisits : Visits entry start root above a)
    (secondVisits : Visits entry start root above b)
    (lawful : Lawful entry forms)
    (rootMember : root ∈ forms)
    (startProper : Proper entry forms start)
    (first : Unfolds entry kinds above a s)
    (second : Unfolds entry kinds above b t) :
    s.agrees t = true ↔ face entry a = face entry b := by
  have firstMember := firstVisits.mem lawful rootMember
  have secondMember := secondVisits.mem lawful rootMember
  have firstShowing := firstVisits.showing lawful rootMember startProper first
  have secondShowing := secondVisits.showing lawful rootMember startProper second
  constructor
  · intro agree
    refine firstShowing.face_eq secondShowing lawful firstMember secondMember ?_
    exact Prod.ext (first.identity_eq_of_agrees second lawful firstMember secondMember agree)
      (Shape.isOptional_eq_of_agrees agree)
  · intro faces
    obtain rfl :=
      firstShowing.eq_of_face secondShowing lawful firstMember secondMember first second faces
    exact s.agrees_self (first.isComparable lawful firstMember)

/-- The trees of some types agree with that of one that is met together with them
exactly if all have its face. -/
theorem all_agrees_eq_all_face
    {shapes : List Shape}
    {rest : List TypeForm}
    (firstVisits : Visits entry start root above a)
    (visits : ∀ item ∈ rest, Visits entry start root above item)
    (lawful : Lawful entry forms)
    (rootMember : root ∈ forms)
    (startProper : Proper entry forms start)
    (first : Unfolds entry kinds above a s)
    (unfold : List.Forall₂ (Unfolds entry kinds above) rest shapes) :
    (shapes.all fun other => other.agrees s) =
      rest.all fun item => face entry item == face entry a := by
  induction unfold with
  | nil => rfl
  | @cons item other more others itemUnfolds _ inductionHypothesis =>
      have same := agrees_iff_face_eq (visits item List.mem_cons_self) firstVisits lawful
        rootMember startProper itemUnfolds first
      rw [List.all_cons, List.all_cons, inductionHypothesis fun further isItem =>
        visits further (List.mem_cons_of_mem _ isItem)]
      congr 1
      rw [Bool.eq_iff_iff, same, beq_iff_eq]

end

end SchemaProbe

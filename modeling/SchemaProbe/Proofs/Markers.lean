import SchemaProbe.Proofs.Universe
import SchemaProbe.Proofs.References

namespace SchemaProbe

/-!
# Nodes that refer back

A node that refers back to a type is bound if a node above it is of the name of
that type.  In a tree that a type unfolds to, every such node is bound by a type
that is being expanded: the invariant is that the names of the nodes above are
those of the types that are being expanded, where a type that is read as another
one or null goes by the name of that one.
-/

namespace Shape

/-- The nodes right below a node. -/
def parts : Shape → List Shape
  | .keyed _ _ fields => fields.map Prod.snd
  | .unkeyed _ element => [element]
  | _ => []

/-- Whether every node that refers back to a type lies below a node of that
type's name. -/
inductive MarkersBound (name? : TypeForm → Option String) : List String → Shape → Prop
  | back {above : List String} {h : ShapeHeader} {marker : TypeForm} {name : String} :
      name? marker = some name → name ∈ above → MarkersBound name? above (.recursive h marker)
  | node {above : List String} {s : Shape} :
      s.isRecursive = false →
      (∀ part ∈ s.parts, MarkersBound name? ((s.type.bind name?).toList ++ above) part) →
      MarkersBound name? above s

/-- Whether a state knows the types of all nodes and what they refer back to. -/
inductive IsKnown (store : Store) : Shape → Prop
  | node {s : Shape} :
      (∀ a, s.type = some a → ((store.registry .current).find? a).isSome) →
      (∀ h a, s = .recursive h a → ((store.registry .current).find? a).isSome) →
      (∀ part ∈ s.parts, IsKnown store part) →
      IsKnown store s

/-- Whether the types of all nodes, and what they refer back to, are such as asked. -/
inductive Types (holds : TypeForm → Prop) : Shape → Prop
  | node {s : Shape} :
      (∀ a, s.type = some a → holds a) →
      (∀ h a, s = .recursive h a → holds a) →
      (∀ part ∈ s.parts, Types holds part) →
      Types holds s

/-- The types of a tree are those of its root and of its parts. -/
theorem types_iff {holds : TypeForm → Prop} {s : Shape} :
    s.Types holds ↔ (∀ a, s.type = some a → holds a) ∧ (∀ h a, s = .recursive h a → holds a) ∧
      ∀ part ∈ s.parts, part.Types holds := by
  refine ⟨fun types => ?_, fun ⟨type, marker, parts⟩ => .node type marker parts⟩
  cases types with
  | node type marker parts => exact ⟨type, marker, parts⟩

@[simp]
theorem parts_optional (s : Shape) (isOptional : Bool) : (s.optional isOptional).parts = s.parts := by
  cases s <;> rfl

@[simp]
theorem isRecursive_optional (s : Shape) (isOptional : Bool) :
    (s.optional isOptional).isRecursive = s.isRecursive := by
  cases s <;> rfl

section

variable {name? : TypeForm → Option String} {above more : List String} {s : Shape} {store : Store}

/-- Nodes that are bound stay bound below more nodes. -/
theorem MarkersBound.mono
    (bound : s.MarkersBound name? above)
    (subset : above ⊆ more) :
    s.MarkersBound name? more := by
  induction bound generalizing more with
  | back named member => exact .back named (subset member)
  | node notBack _ inductionHypothesis =>
      refine .node notBack fun part isPart => inductionHypothesis part isPart ?_
      intro name member
      rcases List.mem_append.mp member with isOwn | isAbove
      · exact List.mem_append_left _ isOwn
      · exact List.mem_append_right _ (subset isAbove)

/-- Whether a node may be missing does not matter for what is bound. -/
theorem MarkersBound.optional
    (bound : s.MarkersBound name? above)
    (isOptional : Bool) :
    (s.optional isOptional).MarkersBound name? above := by
  cases bound with
  | back named member => exact .back named member
  | node notBack parts =>
      refine .node (by rw [isRecursive_optional, notBack]) ?_
      rw [parts_optional, type_optional]
      exact parts

/-- Whether a node may be missing does not matter for its types. -/
theorem Types.optional
    {holds : TypeForm → Prop}
    (types : s.Types holds)
    (isOptional : Bool) :
    (s.optional isOptional).Types holds := by
  cases types with
  | node types markers parts =>
      refine .node ?_ ?_ ?_
      · rw [type_optional]
        exact types
      · intro h a isBack
        cases s with
        | recursive h' marker =>
            cases isBack
            exact markers h' a rfl
        | _ => cases isBack
      · rw [parts_optional]
        exact parts

/-- A state knows all nodes whose types it knows. -/
theorem Types.isKnown
    (types : s.Types fun a => ((store.registry .current).find? a).isSome) :
    s.IsKnown store := by
  induction types with
  | node types markers _ inductionHypothesis => exact .node types markers inductionHypothesis

/-- The types of nodes that a state knows are known. -/
theorem IsKnown.types
    (known : s.IsKnown store) :
    s.Types fun a => ((store.registry .current).find? a).isSome := by
  induction known with
  | node types markers _ inductionHypothesis => exact .node types markers inductionHypothesis

/-- Types that are such as asked are also as anything less asks. -/
theorem Types.imp
    {holds less : TypeForm → Prop}
    (types : s.Types holds)
    (weaker : ∀ a, holds a → less a) :
    s.Types less := by
  induction types with
  | node types markers _ inductionHypothesis =>
      exact .node (fun a isType => weaker a (types a isType))
        (fun h a isBack => weaker a (markers h a isBack)) inductionHypothesis

/-- Whether a node may be missing does not matter for what is known. -/
theorem IsKnown.optional
    (known : s.IsKnown store)
    (isOptional : Bool) :
    (s.optional isOptional).IsKnown store :=
  (known.types.optional isOptional).isKnown

end

end Shape

/-- The nodes right below a record are those of its fields. -/
theorem mem_record_parts
    {entries : List (FieldPlan × Shape)}
    {fields : List (String × Shape)}
    {part : Shape}
    (isPart : part ∈ (entries.foldl
      (fun fields e => Table.set fields e.1.key (e.2.optional e.1.isOptional)) fields).map
        Prod.snd) :
    part ∈ fields.map Prod.snd ∨
      ∃ e ∈ entries, part = e.2.optional e.1.isOptional := by
  induction entries generalizing fields with
  | nil => exact .inl isPart
  | cons e rest inductionHypothesis =>
      rcases inductionHypothesis isPart with set | ⟨other, later, rfl⟩
      · obtain ⟨field, member, rfl⟩ := List.mem_map.mp set
        rcases Table.mem_or_eq_of_mem_set member with old | rfl
        · exact .inl (List.mem_map_of_mem old)
        · exact .inr ⟨e, List.mem_cons_self, rfl⟩
      · exact .inr ⟨other, List.mem_cons_of_mem _ later, rfl⟩

/-- The nodes right below the node of a type come from what the type asks for. -/
theorem Layout.mem_parts_node
    {layout : Layout}
    {type : TypeForm}
    {known : Option PrimitiveKind}
    {shapes : List Shape}
    {part : Shape}
    (required : ∀ x, layout ≠ .nullable x)
    (isPart : part ∈ (layout.node type known shapes).parts) :
    (∃ s ∈ shapes, ∃ isOptional, part = s.optional isOptional) ∨ part = .any none := by
  have ofFirst (isFirst : part = shapes.head?.getD (.any none)) :
      (∃ s ∈ shapes, ∃ isOptional, part = s.optional isOptional) ∨ part = .any none := by
    cases shapes with
    | nil => exact .inr isFirst
    | cons s rest =>
        refine .inl ⟨s, List.mem_cons_self, s.isOptional, ?_⟩
        rw [s.optional_isOptional]
        exact isFirst
  cases layout with
  | unknown => cases isPart
  | record plans =>
      rcases mem_record_parts isPart with absent | ⟨e, member, rfl⟩
      · cases absent
      · exact .inl ⟨e.2, (List.of_mem_zip member).2, e.1.isOptional, rfl⟩
  | sequence item => exact ofFirst (List.mem_singleton.mp isPart)
  | tuple items =>
      obtain rfl := List.mem_singleton.mp isPart
      rcases commonElement_mem_or_any shapes with member | isAny
      · exact .inl ⟨_, member, _, (Shape.optional_isOptional _).symm⟩
      · exact .inr isAny
  | mapping value => exact ofFirst (List.mem_singleton.mp isPart)
  | nullable x => exact absurd rfl (required x)
  | scalar value cases => cases isPart

/-! ## Names -/

namespace Store

/-- The name under which a state knows a type. -/
def name? (s : Store) (a : TypeForm) : Option String :=
  ((s.registry .current).find? a).map (·.name)

/-- What a type form is read as: the type that it wraps if it may be null. -/
def bare (s : Store) (a : TypeForm) : TypeForm :=
  match s.entry a with
  | .inner _ (.nullable x) => x
  | _ => a

/-- What a type form leads to by plain unfolding: itself, and whatever a type that
is looked into asks for. -/
inductive Reaches (s : Store) (root : TypeForm) : TypeForm → Prop
  | root : Reaches s root root
  | request {a type request : TypeForm} {layout : Layout} : Reaches s root a →
      s.entry a = .inner type layout → request ∈ layout.requests → Reaches s root request

/-- Whether types that may be null are known under the names of what they are
read as. -/
def NullablesNamed (s : Store) (among : TypeForm → Prop) : Prop :=
  ∀ a, among a → ∀ type x caps wrapped, s.entry a = .inner type (.nullable x) →
    (s.registry .current).find? a = some caps →
    (s.registry .current).find? x = some wrapped →
    caps.name = wrapped.name

/-- Whether types that may be null are known under the names of what they are read as
where that is looked into. -/
def WrapsNamed (s : Store) (among : TypeForm → Prop) : Prop :=
  ∀ a, among a → ∀ type x inside layout caps wrapped, s.entry a = .inner type (.nullable x) →
    s.entry x = .inner inside layout →
    (s.registry .current).find? a = some caps →
    (s.registry .current).find? x = some wrapped →
    caps.name = wrapped.name

theorem NullablesNamed.wraps
    {s : Store}
    {among : TypeForm → Prop}
    (named : s.NullablesNamed among) :
    s.WrapsNamed among :=
  fun a isAmong type x _ _ caps wrapped isInner _ found wrappedFound =>
    named a isAmong type x caps wrapped isInner found wrappedFound

/-- The invariant: every type that is being expanded goes by one of the names,
unless it only wraps the type form at hand. -/
def Named
    (s : Store)
    (forms : List TypeForm)
    (above : List Key)
    (names : List String)
    (a : TypeForm) :
    Prop :=
  ∀ b ∈ forms, b.identity ∈ above →
    (∃ name ∈ names, s.name? (s.bare b) = some name) ∨
      ((s.entry b).IsNullable ∧ (s.bare b).identity = a.identity)

section

variable {s : Store} {forms : List TypeForm} {allowed : Allowance} {a b root type x : TypeForm}
  {layout : Layout} {start above : List Key} {names : List String} {shape : Shape}
  {kinds : Key → Option PrimitiveKind} {among : TypeForm → Prop}

theorem entry_congr (s : Store) (same : b.identity = a.identity) : s.entry b = s.entry a := by
  rw [entry, entry, find?_congr _ same]

theorem name?_congr (s : Store) (same : b.identity = a.identity) : s.name? b = s.name? a := by
  rw [name?, name?, find?_congr _ same]

/-- A type form that wraps nothing is read as itself. -/
theorem bare_of_not_nullable (required : ¬ (s.entry a).IsNullable) : s.bare a = a := by
  unfold bare
  split
  · rename_i isInner
    exact absurd (by rw [isInner]; trivial) required
  · rfl

theorem bare_of_nullable (isInner : s.entry a = .inner type (.nullable x)) : s.bare a = x := by
  rw [bare, isInner]

/-- A type that is looked into is known, and its type is of its own identity. -/
theorem Ready.known_of_inner
    (ready : s.Ready forms allowed)
    (member : a ∈ forms)
    (isInner : s.entry a = .inner type layout) :
    ∃ caps, (s.registry .current).find? a = some caps ∧
      (s.registry .current).find? type = some caps ∧ caps.type = type ∧
      type.identity = a.identity ∧ caps.isDate = false ∧ caps.schema = none := by
  have identity : a.identity = type.identity :=
    ready.key?_entry member (by rw [isInner]; rfl)
  unfold entry at isInner
  cases found : (s.registry .current).find? a with
  | none =>
      rw [found] at isInner
      cases isInner
  | some caps =>
      rw [found] at isInner
      simp only [entryOf] at isInner
      split at isInner
      · rename_i reader isNone probed reads
        cases isInner
        have notBypassed : caps.isDate = false ∧ caps.schema.isSome = false := by
          simpa [Capabilities.bypassesProbe] using probed
        refine ⟨caps, rfl, ?_, rfl, identity.symm, notBypassed.1, ?_⟩
        · rw [find?_congr _ identity.symm, found]
        · simpa using notBypassed.2
      · cases isInner

/-- What a type is read as wraps nothing. -/
theorem Ready.bare_not_nullable
    (ready : s.Ready forms allowed)
    (member : a ∈ forms) :
    ¬ (s.entry (s.bare a)).IsNullable := by
  by_cases isNullable : (s.entry a).IsNullable
  · cases entry : s.entry a with
    | leaf shape =>
        rw [entry] at isNullable
        cases isNullable
    | inner type layout =>
        rw [entry] at isNullable
        cases layout with
        | nullable x =>
            rw [bare_of_nullable entry]
            exact ready.lawful.nullable a member type x entry
        | _ => cases isNullable
  · rw [bare_of_not_nullable isNullable]
    exact isNullable

/-- What a type form of a universe leads to is of the universe. -/
theorem Reaches.mem
    (reaches : s.Reaches b a)
    (ready : s.Ready forms allowed)
    (member : b ∈ forms) :
    a ∈ forms := by
  induction reaches with
  | root => exact member
  | request _ isInner asked inductionHypothesis =>
      exact ready.closedUnder _ inductionHypothesis _ _ isInner _ asked

/-- The name of a type that is being expanded is one of the names. -/
theorem Named.name_mem
    (named : s.Named forms above names a)
    (ready : s.Ready forms allowed)
    (wraps : s.WrapsNamed among)
    (isAmong : among a)
    (rootMember : root ∈ forms)
    (startProper : Proper s.entry forms start)
    (visits : Visits s.entry start root above a)
    (isInner : s.entry a = .inner type layout)
    (met : type.identity ∈ above) :
    ∃ name ∈ names, s.name? type = some name := by
  have member := visits.mem ready.lawful rootMember
  obtain ⟨caps, found, typeFound, _, identity, _⟩ := ready.known_of_inner member isInner
  have metOwn := met
  rw [identity] at metOwn
  rcases named a member metOwn with ⟨name, isName, isNamed⟩ | ⟨isNullable, wrapsOwn⟩
  · refine ⟨name, isName, ?_⟩
    by_cases isNullable : (s.entry a).IsNullable
    · rw [isInner] at isNullable
      cases layout with
      | nullable x =>
          obtain ⟨inside, layout, wrappedInner⟩ :=
            visits.wrapped_inner ready.lawful rootMember startProper isInner met
          rw [bare_of_nullable isInner] at isNamed
          obtain ⟨wrapped, wrappedFound, rfl⟩ := Option.map_eq_some_iff.mp isNamed
          rw [name?, typeFound, Option.map_some, wraps a isAmong type x inside layout caps wrapped
            isInner wrappedInner found wrappedFound]
      | _ => cases isNullable
    · rw [bare_of_not_nullable isNullable] at isNamed
      rw [s.name?_congr identity, isNamed]
  · exact absurd (by rw [s.entry_congr wrapsOwn]; exact isNullable) (ready.bare_not_nullable member)

/-- Entering a type under its name keeps the types that are being expanded
named. -/
theorem Named.enter
    (named : s.Named forms above names a)
    (ready : s.Ready forms allowed)
    (member : a ∈ forms)
    (isInner : s.entry a = .inner type layout)
    (required : ∀ x, layout ≠ .nullable x)
    (request : TypeForm) :
    s.Named forms (type.identity :: above) ((s.name? type).toList ++ names) request := by
  obtain ⟨caps, found, typeFound, _, identity, _⟩ := ready.known_of_inner member isInner
  have notNullable : ¬ (s.entry a).IsNullable := by
    rw [isInner]
    cases layout with
    | nullable x => exact fun _ => required x rfl
    | _ => exact fun isNullable => isNullable
  have own : s.name? a = some caps.name := by rw [name?, found, Option.map_some]
  have named' (b : TypeForm) (same : b.identity = a.identity) :
      ∃ name ∈ (s.name? type).toList ++ names, s.name? b = some name := by
    refine ⟨caps.name, List.mem_append_left _ ?_, ?_⟩
    · rw [name?, typeFound]
      exact List.mem_singleton_self _
    · rw [s.name?_congr same, own]
  intro b otherMember met
  refine .inl ?_
  rcases List.mem_cons.mp met with same | further
  · rw [identity] at same
    rw [bare_of_not_nullable (by rw [s.entry_congr same]; exact notNullable)]
    exact named' b same
  · rcases named b otherMember further with ⟨name, isName, isNamed⟩ | ⟨_, wraps⟩
    · exact ⟨name, List.mem_append_right _ isName, isNamed⟩
    · exact named' (s.bare b) wraps

/-- Entering a type that only wraps another one keeps the types that are being
expanded named. -/
theorem Named.wrap
    (named : s.Named forms above names a)
    (ready : s.Ready forms allowed)
    (member : a ∈ forms)
    (isInner : s.entry a = .inner type (.nullable x)) :
    s.Named forms (type.identity :: above) names x := by
  obtain ⟨caps, found, typeFound, _, identity, _⟩ := ready.known_of_inner member isInner
  have isNullable : (s.entry a).IsNullable := by rw [isInner]; trivial
  intro b otherMember met
  rcases List.mem_cons.mp met with same | further
  · rw [identity] at same
    have otherInner : s.entry b = .inner type (.nullable x) := by rw [s.entry_congr same, isInner]
    refine .inr ⟨by rw [otherInner]; trivial, ?_⟩
    rw [bare_of_nullable otherInner]
  · rcases named b otherMember further with isNamed | ⟨_, wraps⟩
    · exact .inl isNamed
    · exact absurd (by rw [s.entry_congr wraps]; exact isNullable)
        (ready.bare_not_nullable otherMember)

end

end Store

/-! ## Trees that types unfold to -/

section

open List

variable {s : Store} {forms : List TypeForm} {allowed : Allowance} {a root : TypeForm}
  {start above : List Key} {names : List String} {shape : Shape}
  {kinds : Key → Option PrimitiveKind}

theorem Shape.MarkersBound.any
    (name? : TypeForm → Option String)
    (names : List String)
    (type : Option TypeForm) :
    (Shape.any type).MarkersBound name? names :=
  .node rfl fun _ isPart => nomatch isPart

/-- Plain unfolding meets what a type form leads to. -/
theorem Visits.reaches
    (visits : Visits s.entry start root above a) :
    s.Reaches root a := by
  induction visits with
  | root => exact .root
  | request _ isInner _ asked inductionHypothesis => exact inductionHypothesis.request isInner asked

/-- Every node that refers back is bound in a tree that a type unfolds to below
types that are named. -/
theorem Unfolds.markersBound
    (ready : s.Ready forms allowed)
    (wraps : s.WrapsNamed (s.Reaches root))
    (member : root ∈ forms)
    (startProper : Proper s.entry forms start)
    (visits : Visits s.entry start root above a)
    (named : s.Named forms above names a)
    (unfolds : Unfolds s.entry kinds above a shape) :
    shape.MarkersBound s.name? names := by
  refine unfolds.tree_induction (motive := fun above a shape => ∀ names,
    Visits s.entry start root above a → s.Named forms above names a →
      shape.MarkersBound s.name? names) ?_ ?_ ?_ names visits named
  · intro above a shape isLeaf names visits _
    cases ready.lawful.leaves a (visits.mem ready.lawful member) shape isLeaf with
    | _ => exact .node rfl fun _ isPart => nomatch isPart
  · intro above a type layout isInner met names visits named
    obtain ⟨name, isName, isNamed⟩ :=
      named.name_mem ready wraps visits.reaches member startProper visits isInner met
    exact .back isNamed isName
  · intro above a type layout shapes isInner notMet _ bound names visits named
    have isForm := visits.mem ready.lawful member
    by_cases isWrapper : ∃ x, layout = .nullable x
    · obtain ⟨x, rfl⟩ := isWrapper
      obtain ⟨inside, rest, insideBound, restBound, rfl⟩ := forall₂_cons_left_iff.mp bound
      exact (insideBound names (visits.request isInner notMet mem_cons_self)
        (named.wrap ready isForm isInner)).optional true
    · have required (x : TypeForm) (isNullable : layout = .nullable x) : False :=
        isWrapper ⟨x, isNullable⟩
      have root : (layout.node type (kinds type.identity) shapes).type = some type ∧
          (layout.node type (kinds type.identity) shapes).isRecursive = false := by
        cases layout with
        | nullable x => exact (required x rfl).elim
        | _ => exact ⟨rfl, rfl⟩
      refine .node root.2 fun part isPart => ?_
      rw [root.1, Option.bind_some]
      rcases Layout.mem_parts_node required isPart with ⟨inside, isInside, isOptional, rfl⟩ | rfl
      · obtain ⟨request, asked, insideBound⟩ := exists_mem_of_forall₂ bound isInside
        exact (insideBound _ (visits.request isInner notMet asked)
          (named.enter ready isForm isInner required request)).optional isOptional
      · exact .any _ _ _

/-- Whether a type is known and what is known about it is sound. -/
def Store.FindsSound
    (s : Store)
    (forms : List TypeForm)
    (allowed : Allowance)
    (type : TypeForm) :
    Prop :=
  ∃ caps, (s.registry .current).find? type = some caps ∧ caps.Sound s forms allowed type.identity

/-- What is known about a type form is found for the type that it is known as. -/
theorem Store.Ready.findsSound
    {caps : Capabilities}
    (ready : s.Ready forms allowed)
    (member : a ∈ forms)
    (found : (s.registry .current).find? a = some caps) :
    s.FindsSound forms allowed caps.type := by
  have sound := ready.known a member caps found
  refine ⟨caps, ?_, ?_⟩
  · rw [Store.find?_congr _ sound.identity, found]
  · rw [sound.identity]
    exact sound

/-- Something sound is known about all types in a tree that a type unfolds to. -/
theorem Unfolds.types
    (ready : s.Ready forms allowed)
    (member : a ∈ forms)
    (unfolds : Unfolds s.entry kinds above a shape) :
    shape.Types (s.FindsSound forms allowed) := by
  refine unfolds.tree_induction
    (motive := fun _ a shape => a ∈ forms → shape.Types (s.FindsSound forms allowed)) ?_ ?_ ?_ member
  · intro above a shape isLeaf member
    have ofType (type : TypeForm) (isType : shape.type = some type) :
        s.FindsSound forms allowed type := by
      unfold Store.entry at isLeaf
      cases found : (s.registry .current).find? a with
      | some caps =>
          rw [found] at isLeaf
          simp only [Store.entryOf] at isLeaf
          split at isLeaf <;> cases isLeaf
          rw [caps.type_leaf] at isType
          cases isType
          exact ready.findsSound member found
      | none =>
          rw [found] at isLeaf
          cases isLeaf
          cases isType
    cases ready.lawful.leaves a member shape isLeaf with
    | _ => exact .node ofType (fun _ _ isBack => by cases isBack) fun _ isPart => by cases isPart
  · intro above a type layout isInner _ member
    obtain ⟨caps, found, _, rfl, _⟩ := ready.known_of_inner member isInner
    refine .node ?_ ?_ fun _ isPart => by cases isPart
    · rintro other ⟨rfl⟩
      exact ready.findsSound member found
    · rintro h other ⟨rfl⟩
      exact ready.findsSound member found
  · intro above a type layout shapes isInner notMet _ types member
    have covered := ready.closedUnder a member type layout isInner
    obtain ⟨caps, found, _, rfl, _⟩ := ready.known_of_inner member isInner
    by_cases wraps : ∃ x, layout = .nullable x
    · obtain ⟨x, rfl⟩ := wraps
      obtain ⟨inside, rest, insideTypes, _, rfl⟩ := forall₂_cons_left_iff.mp types
      exact (insideTypes (covered x mem_cons_self)).optional true
    · have required (x : TypeForm) (isNullable : layout = .nullable x) : False :=
        wraps ⟨x, isNullable⟩
      have root : (layout.node caps.type (kinds caps.type.identity) shapes).type = some caps.type ∧
          (layout.node caps.type (kinds caps.type.identity) shapes).isRecursive = false := by
        cases layout with
        | nullable x => exact (required x rfl).elim
        | _ => exact ⟨rfl, rfl⟩
      refine .node ?_ ?_ fun part isPart => ?_
      · rw [root.1]
        rintro other ⟨rfl⟩
        exact ready.findsSound member found
      · intro h other isBack
        have notBack := root.2
        rw [isBack] at notBack
        cases notBack
      · rcases Layout.mem_parts_node required isPart with ⟨inside, isInside, isOptional, rfl⟩ | rfl
        · obtain ⟨request, asked, insideTypes⟩ := exists_mem_of_forall₂ types isInside
          exact (insideTypes (covered request asked)).optional isOptional
        · exact .node (fun _ isType => by cases isType) (fun _ _ isBack => by cases isBack)
            fun _ isPart => by cases isPart

/-- All types are known in a tree that a type unfolds to. -/
theorem Unfolds.isKnown
    (ready : s.Ready forms allowed)
    (member : a ∈ forms)
    (unfolds : Unfolds s.entry kinds above a shape) :
    shape.IsKnown s := by
  refine Shape.Types.isKnown ((unfolds.types ready member).imp ?_)
  rintro type ⟨caps, found, _⟩
  rw [found]
  rfl

end

/-! ## Looking up what is known -/

section

variable {s found : Store} {a : TypeForm} {type given : Option TypeForm} {config : SchemaConfig}
  {structural : Option Capabilities → Step Store KnownShape} {known : KnownShape}

/-- Looking up a type that is known finds what is known and changes nothing. -/
theorem lookup?_of_known
    {caps : Capabilities}
    (isKnown : (s.registry .current).find? a = some caps) :
    (lookup? a).run s = (.ok (some caps), s) := by
  have rememberedRun (resolve : Step Store Capabilities) :
      (remembered .current a resolve).run s = (.ok caps, s) := by
    rw [remembered, Step.run_bind_of_ok (Step.run_current s), isKnown]
    rfl
  have lookupRun : (lookup .current a).run s = (.ok caps, s) := by
    unfold lookup
    split <;> exact rememberedRun _
  have attempted : (Step.attempt (lookup .current a)).run s = (.ok (.ok caps), s) := by
    rw [Step.run_attempt, lookupRun]
  rw [lookup?, Step.run_bind_of_ok attempted]
  rfl

/-- What is known about the type of a node. -/
def Store.recordOf (s : Store) (type : Option TypeForm) : Option Capabilities :=
  type.bind (s.registry .current).find?

theorem lookupOptional_of_known
    (isKnown : ∀ a, type = some a → ((s.registry .current).find? a).isSome) :
    (lookupOptional type).run s = (.ok (s.recordOf type), s) := by
  cases type with
  | none => rfl
  | some a =>
      obtain ⟨caps, isSome⟩ := Option.isSome_iff_exists.mp (isKnown a rfl)
      rw [Store.recordOf, Option.bind_some, isSome]
      exact lookup?_of_known isSome

/-- A node of a known type is a date, declares its own schema, or is looked
into. -/
theorem knowNode_of_known
    (isKnown : ∀ a, type = some a → ((s.registry .current).find? a).isSome) :
    (knowNode config type structural).run s =
      match s.recordOf type with
      | none => (structural none).run s
      | some caps =>
        if caps.isDate then
          (.ok (.plain (some caps) (config.dateSchema s.world (some caps.type)).header), s)
        else
          match caps.schema with
          | some hook =>
            (do pure (.declared caps (← Step.inWorld (hook.evaluate caps.name))) :
              Step Store KnownShape).run s
          | none => (structural (some caps)).run s := by
  rw [knowNode, Step.run_bind_of_ok (lookupOptional_of_known isKnown)]
  cases s.recordOf type with
  | none => rfl
  | some caps =>
      simp only
      split
      · rw [Step.run_bind_of_ok (Step.run_current s)]
        rfl
      · cases caps.schema <;> rfl

/-- Finding the schema that a type declares for itself changes nothing. -/
theorem SchemaHook.eq_of_evaluate
    {hook : SchemaHook}
    {name : String}
    {w reached : World}
    {schema : Schema}
    (ran : (hook.evaluate name).run w = (.ok schema, reached)) :
    reached = w ∧ hook = .declared schema := by
  cases hook with
  | declared own =>
      cases ran
      exact ⟨rfl, rfl⟩
  | other value =>
      obtain ⟨_, _, _, failed⟩ := Step.run_bind_eq_ok_iff.mp ran
      cases failed
  | refused message => cases ran

/-- Whether what a known tree says of types is what a state knows, and every node
that refers back is bound. -/
structure KnownShape.Explained (s : Store) (above : List String) (known : KnownShape) : Prop where
  bound : known.MarkersBound above
  records : ∀ caps ∈ known.records, ∃ a, (s.registry .current).find? a = some caps
  declares : ∀ schema ∈ known.declaredSchemas, ∃ a caps own,
    (s.registry .current).find? a = some caps ∧ caps.schema = some (.declared own) ∧
      schema = caps.describe own

/-- Whether what the known trees of fields say of types is what a state knows, and
every node that refers back is bound. -/
structure KnownShape.ExplainedAll
    (s : Store)
    (above : List String)
    (fields : List (String × Bool × KnownShape)) :
    Prop where
  bound : KnownShape.MarkersBoundAll above fields
  records : ∀ caps ∈ KnownShape.recordsAll fields, ∃ a, (s.registry .current).find? a = some caps
  declares : ∀ schema ∈ KnownShape.declaredSchemasAll fields, ∃ a caps own,
    (s.registry .current).find? a = some caps ∧ caps.schema = some (.declared own) ∧
      schema = caps.describe own

/-- What is known about the type of a node is known of some type. -/
theorem Store.exists_of_recordOf
    {caps : Capabilities}
    (member : caps ∈ (s.recordOf type).toList) :
    ∃ a, (s.registry .current).find? a = some caps := by
  obtain ⟨a, _, found⟩ := Option.bind_eq_some_iff.mp (Option.mem_toList.mp member)
  exact ⟨a, found⟩

/-- A node of known type without parts is explained. -/
theorem KnownShape.Explained.plain
    (above : List String)
    (header : SchemaHeader) :
    (KnownShape.plain (s.recordOf type) header).Explained s above :=
  ⟨trivial, fun _ member => s.exists_of_recordOf member, fun _ absent => nomatch absent⟩

/-- A node of known type is explained with the node below it. -/
theorem KnownShape.Explained.around
    {above : List String}
    (below : known.Explained s (((s.recordOf type).map (·.name)).toList ++ above)) :
    (KnownShape.dictionary (s.recordOf type) known).Explained s above ∧
      (KnownShape.array (s.recordOf type) known).Explained s above := by
  have records : ∀ caps ∈ (s.recordOf type).toList ++ known.records,
      ∃ a, (s.registry .current).find? a = some caps := by
    intro caps member
    rcases List.mem_append.mp member with own | further
    · exact s.exists_of_recordOf own
    · exact below.records caps further
  exact ⟨⟨below.bound, records, below.declares⟩, below.bound, records, below.declares⟩

/-- A node of known type that is looked up changes nothing and is a date or declares
its own schema, or it is looked into. -/
theorem knowNode_cases
    (isKnown : ∀ a, type = some a → ((s.registry .current).find? a).isSome)
    (ran : (knowNode config type structural).run s = (.ok known, found)) :
    (found = s ∧ ∃ caps, s.recordOf type = some caps ∧
        ((∃ header, known = .plain (some caps) header) ∨
          ∃ own, caps.schema = some (.declared own) ∧ known = .declared caps own)) ∨
      (structural (s.recordOf type)).run s = (.ok known, found) := by
  rw [knowNode_of_known isKnown] at ran
  cases record : s.recordOf type with
  | none =>
      rw [record] at ran
      exact .inr ran
  | some caps =>
      rw [record] at ran
      simp only at ran
      split at ran
      · cases ran
        exact .inl ⟨rfl, caps, rfl, .inl ⟨_, rfl⟩⟩
      · split at ran
        · rename_i hook isHook
          obtain ⟨schema, between, evaluated, result⟩ := Step.run_bind_eq_ok_iff.mp ran
          cases result
          have inWorld := Step.run_within Store.world (fun world s => { s with world := world })
            (hook.evaluate caps.name) s
          cases ended : (hook.evaluate caps.name).run s.world with
          | mk outcome reached =>
              rw [ended] at inWorld
              rw [Step.inWorld, inWorld] at evaluated
              cases evaluated
              obtain ⟨rfl, rfl⟩ := SchemaHook.eq_of_evaluate ended
              exact .inl ⟨rfl, caps, rfl, .inr ⟨schema, isHook, rfl⟩⟩
        · exact .inr ran

/-- What is found out about a node of known type follows from what another state finds out
about it, as far as that is so for its parts. -/
theorem knowNode_follows
    {t : Store}
    {others : Option Capabilities → Step Store KnownShape}
    (follows : KnownShape → KnownShape → Prop)
    (itself : ∀ k, follows k k)
    (isKnown : ∀ a, type = some a → ((s.registry .current).find? a).isSome)
    (records : t.recordOf type = s.recordOf type)
    (dates : config.dateSchema t.world = config.dateSchema s.world)
    (ofParts : ∀ record, (structural record).run s = (.ok known, found) →
      found = s ∧ ∃ other, (others record).run t = (.ok other, t) ∧ follows other known)
    (ran : (knowNode config type structural).run s = (.ok known, found)) :
    found = s ∧
      ∃ other, (knowNode config type others).run t = (.ok other, t) ∧ follows other known := by
  have alsoKnown (a : TypeForm) (isType : type = some a) :
      ((t.registry .current).find? a).isSome := by
    have same := records
    subst isType
    change (t.registry .current).find? a = (s.registry .current).find? a at same
    rw [same]
    exact isKnown a rfl
  rw [knowNode_of_known isKnown] at ran
  rw [knowNode_of_known alsoKnown, records]
  cases record : s.recordOf type with
  | none =>
      rw [record] at ran
      exact ofParts none ran
  | some caps =>
      rw [record] at ran
      simp only at ran ⊢
      split at ran
      · rename_i isDate
        cases ran
        rw [if_pos isDate, dates]
        exact ⟨rfl, _, rfl, itself _⟩
      · rename_i notDate
        rw [if_neg notDate]
        cases declares : caps.schema with
        | none =>
            rw [declares] at ran
            exact ofParts (some caps) ran
        | some hook =>
            rw [declares] at ran
            obtain ⟨schema, between, evaluated, result⟩ := Step.run_bind_eq_ok_iff.mp ran
            cases result
            have inWorld := Step.run_within Store.world (fun world s => { s with world := world })
              (hook.evaluate caps.name) s
            cases ended : (hook.evaluate caps.name).run s.world with
            | mk outcome reached =>
                rw [ended] at inWorld
                rw [Step.inWorld, inWorld] at evaluated
                cases evaluated
                obtain ⟨rfl, rfl⟩ := SchemaHook.eq_of_evaluate ended
                exact ⟨rfl, _, rfl, itself _⟩

/-- A node of known type that is looked up changes nothing and is explained anywhere,
or it is looked into. -/
theorem eq_of_knowNode
    (isKnown : ∀ a, type = some a → ((s.registry .current).find? a).isSome)
    (ran : (knowNode config type structural).run s = (.ok known, found)) :
    (found = s ∧ ∀ above, known.Explained s above) ∨
      (structural (s.recordOf type)).run s = (.ok known, found) := by
  refine (knowNode_cases isKnown ran).imp_left ?_
  rintro ⟨same, caps, record, isLeaf⟩
  refine ⟨same, fun above => ?_⟩
  rcases isLeaf with ⟨header, rfl⟩ | ⟨own, declares, rfl⟩
  · rw [← record]
    exact .plain above header
  · obtain ⟨a, isFound⟩ : ∃ a, (s.registry .current).find? a = some caps :=
      s.exists_of_recordOf (by rw [record]; exact List.mem_singleton_self _)
    refine ⟨trivial, fun other member => ?_, fun schema member => ?_⟩
    · obtain rfl := List.mem_singleton.mp member
      exact ⟨a, isFound⟩
    · obtain rfl := List.mem_singleton.mp member
      exact ⟨a, caps, own, isFound, declares, rfl⟩

end

/-- The type of a node of a known tree is known, also where it is given. -/
theorem Shape.IsKnown.type_known
    {s : Store}
    {shape : Shape}
    {given : Option TypeForm}
    (isKnown : shape.IsKnown s)
    (givenKnown : ∀ a, given = some a → ((s.registry .current).find? a).isSome)
    (a : TypeForm)
    (isType : shape.type.or given = some a) :
    ((s.registry .current).find? a).isSome := by
  cases isKnown with
  | node types _ _ =>
      rcases Option.or_eq_some_iff.mp isType with own | ⟨_, isGiven⟩
      · exact types a own
      · exact givenKnown a isGiven

/-- The parts of a node that is bound are bound below what is known about it. -/
theorem Shape.MarkersBound.part
    {s : Store}
    {shape part : Shape}
    {above : List String}
    (bound : shape.MarkersBound s.name? above)
    (given : Option TypeForm)
    (isPart : part ∈ shape.parts) :
    part.MarkersBound s.name?
      (((s.recordOf (shape.type.or given)).map (·.name)).toList ++ above) := by
  cases bound with
  | back _ _ => cases isPart
  | node _ parts =>
      refine (parts part isPart).mono ?_
      intro name member
      rcases List.mem_append.mp member with isOwn | isAbove
      · refine List.mem_append_left _ ?_
        cases isType : shape.type with
        | none =>
            rw [isType] at isOwn
            cases isOwn
        | some type =>
            rw [isType] at isOwn
            exact isOwn
      · exact List.mem_append_right _ isAbove

mutual

/-- Where all types are known, looking up a tree changes nothing and explains
it. -/
theorem Shape.explained_of_know
    {s found : Store}
    {above : List String}
    {known : KnownShape}
    (config : SchemaConfig)
    (given : Option TypeForm)
    (shape : Shape)
    (isKnown : shape.IsKnown s)
    (givenKnown : ∀ a, given = some a → ((s.registry .current).find? a).isSome)
    (bound : shape.MarkersBound s.name? above)
    (ran : (shape.know config given).run s = (.ok known, found)) :
    found = s ∧ known.Explained s above := by
  have typeKnown := isKnown.type_known givenKnown
  have partsBound (part : Shape) (isPart : part ∈ shape.parts) := bound.part given isPart
  have partsKnown : ∀ part ∈ shape.parts, part.IsKnown s := by
    cases isKnown with
    | node _ _ parts => exact parts
  cases shape with
  | single h kind =>
      rw [Shape.know] at ran
      rcases eq_of_knowNode typeKnown ran with ⟨same, anywhere⟩ | ended
      · exact ⟨same, anywhere above⟩
      · cases ended
        exact ⟨rfl, .plain above _⟩
  | keyed h isFixed fields =>
      cases isFixed with
      | true =>
          rw [Shape.know] at ran
          rcases eq_of_knowNode typeKnown ran with ⟨same, anywhere⟩ | ended
          · exact ⟨same, anywhere above⟩
          · obtain ⟨knownFields, between, fieldsRan, result⟩ := Step.run_bind_eq_ok_iff.mp ended
            cases result
            obtain ⟨same, below⟩ :=
              Shape.explained_of_knowFields config fields partsKnown partsBound fieldsRan
            refine ⟨same, below.bound, fun caps member => ?_, below.declares⟩
            rcases List.mem_append.mp member with own | further
            · exact s.exists_of_recordOf own
            · exact below.records caps further
      | false =>
          cases fields with
          | nil =>
              rw [Shape.know] at ran
              rcases eq_of_knowNode typeKnown ran with ⟨same, anywhere⟩ | ended
              · exact ⟨same, anywhere above⟩
              · cases ended
                refine ⟨rfl, (KnownShape.Explained.around ?_).1⟩
                exact ⟨trivial, (fun _ absent => nomatch absent), (fun _ absent => nomatch absent)⟩
          | cons field rest =>
              obtain ⟨name, first⟩ := field
              rw [Shape.know] at ran
              rcases eq_of_knowNode typeKnown ran with ⟨same, anywhere⟩ | ended
              · exact ⟨same, anywhere above⟩
              · obtain ⟨values, between, valuesRan, result⟩ := Step.run_bind_eq_ok_iff.mp ended
                cases result
                obtain ⟨same, below⟩ :=
                  Shape.explained_of_know config none first
                    (partsKnown first List.mem_cons_self) (fun _ isGiven => nomatch isGiven)
                    (partsBound first List.mem_cons_self) valuesRan
                exact ⟨same, below.around.1⟩
  | unkeyed h element =>
      rw [Shape.know] at ran
      rcases eq_of_knowNode typeKnown ran with ⟨same, anywhere⟩ | ended
      · exact ⟨same, anywhere above⟩
      · obtain ⟨items, between, itemsRan, result⟩ := Step.run_bind_eq_ok_iff.mp ended
        cases result
        obtain ⟨same, below⟩ :=
          Shape.explained_of_know config none element
            (partsKnown element List.mem_cons_self) (fun _ isGiven => nomatch isGiven)
            (partsBound element List.mem_cons_self) itemsRan
        exact ⟨same, below.around.2⟩
  | recursive h marker =>
      rw [Shape.know] at ran
      rcases eq_of_knowNode typeKnown ran with ⟨same, anywhere⟩ | ended
      · exact ⟨same, anywhere above⟩
      · obtain ⟨caps, between, lookedUp, result⟩ := Step.run_bind_eq_ok_iff.mp ended
        cases bound with
        | node notBack _ => cases notBack
        | back isNamed member =>
            obtain ⟨record, isRecord, rfl⟩ := Option.map_eq_some_iff.mp isNamed
            rw [lookup?_of_known isRecord] at lookedUp
            cases lookedUp
            cases result
            exact ⟨rfl, member, (fun _ member => s.exists_of_recordOf member),
              (fun _ absent => nomatch absent)⟩
  | unconstrained h =>
      rw [Shape.know] at ran
      rcases eq_of_knowNode typeKnown ran with ⟨same, anywhere⟩ | ended
      · exact ⟨same, anywhere above⟩
      · cases ended
        exact ⟨rfl, .plain above _⟩
termination_by structural shape

/-- Where all types are known, looking up fields changes nothing and explains
them. -/
theorem Shape.explained_of_knowFields
    {s found : Store}
    {above : List String}
    {known : List (String × Bool × KnownShape)}
    (config : SchemaConfig)
    (fields : List (String × Shape))
    (isKnown : ∀ part ∈ fields.map Prod.snd, part.IsKnown s)
    (bound : ∀ part ∈ fields.map Prod.snd, part.MarkersBound s.name? above)
    (ran : (Shape.knowFields config fields).run s = (.ok known, found)) :
    found = s ∧ KnownShape.ExplainedAll s above known := by
  cases fields with
  | nil =>
      cases ran
      exact ⟨rfl, trivial, (fun _ absent => nomatch absent), (fun _ absent => nomatch absent)⟩
  | cons field rest =>
      obtain ⟨name, shape⟩ := field
      rw [Shape.knowFields] at ran
      obtain ⟨first, between, firstRan, later⟩ := Step.run_bind_eq_ok_iff.mp ran
      obtain ⟨others, last, othersRan, result⟩ := Step.run_bind_eq_ok_iff.mp later
      cases result
      obtain ⟨rfl, firstExplained⟩ :=
        Shape.explained_of_know config none shape (isKnown shape List.mem_cons_self)
          (fun _ isGiven => nomatch isGiven) (bound shape List.mem_cons_self) firstRan
      obtain ⟨rfl, othersExplained⟩ :=
        Shape.explained_of_knowFields config rest
          (fun part isPart => isKnown part (List.mem_cons_of_mem _ isPart))
          (fun part isPart => bound part (List.mem_cons_of_mem _ isPart)) othersRan
      refine ⟨rfl, ⟨firstExplained.bound, othersExplained.bound⟩, ?_, ?_⟩
      · intro caps member
        rcases List.mem_append.mp member with own | further
        · exact firstExplained.records caps own
        · exact othersExplained.records caps further
      · intro schema member
        rcases List.mem_append.mp member with own | further
        · exact firstExplained.declares schema own
        · exact othersExplained.declares schema further
termination_by structural fields

end

end SchemaProbe

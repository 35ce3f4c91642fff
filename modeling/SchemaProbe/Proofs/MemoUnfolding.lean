import SchemaProbe.Proofs.Memo
import SchemaProbe.Proofs.Tables

namespace SchemaProbe

/-!
# The memo gives the plain tree

The invariant of unfolding with a memo is that every tree without references
back is what its type unfolds to in every place where none of the types that
are done without references back is being expanded.  The place at hand is such
a place, so that the tree can be used again there.
-/

open List

/-! ## Nodes whose hidden parts change -/

/-- A list of fields has no reference back exactly if no field has one. -/
theorem anyRecursive_eq_false_iff {fields : List (String × Shape)} :
    Shape.anyRecursive fields = false ↔ ∀ e ∈ fields, e.2.hasRecursive = false := by
  induction fields with
  | nil => simp [Shape.anyRecursive]
  | cons field rest inductionHypothesis =>
      obtain ⟨name, s⟩ := field
      simp [Shape.anyRecursive, inductionHypothesis]

/-- Two trees of which the second may differ only where the first refers
back. -/
def SameUnlessRecursive (s t : Shape) : Prop :=
  s.hasRecursive = false → s = t

/-- Records of related trees are related field by field. -/
theorem forall₂_record
    (plans : List FieldPlan)
    {shapes others : List Shape}
    (each : Forall₂ SameUnlessRecursive shapes others)
    {fields more : List (String × Shape)}
    (related : Forall₂ (fun e f => e.1 = f.1 ∧ SameUnlessRecursive e.2 f.2) fields more) :
    Forall₂ (fun e f => e.1 = f.1 ∧ SameUnlessRecursive e.2 f.2)
      ((plans.zip shapes).foldl
        (fun fields e => Table.set fields e.1.key (e.2.optional e.1.isOptional)) fields)
      ((plans.zip others).foldl
        (fun fields e => Table.set fields e.1.key (e.2.optional e.1.isOptional)) more) := by
  induction plans generalizing shapes others fields more with
  | nil => exact related
  | cons plan rest inductionHypothesis =>
      cases each with
      | nil => exact related
      | cons first later =>
          refine inductionHypothesis later (Table.forall₂_set related plan.key fun markerFree => ?_)
          rw [Shape.hasRecursive_optional] at markerFree
          rw [first markerFree]

/-- Whether two lists of trees have agreeing items in the same places. -/
def AgreeAlike : List Shape → List Shape → Prop
  | first :: rest, other :: others =>
    Forall₂ (fun s t => s.agrees first = t.agrees other) rest others
  | _, _ => True

/-- A node without references back does not change with parts that do not
show in it. -/
theorem Layout.node_eq_of_hidden
    {type : TypeForm}
    {known : Option PrimitiveKind}
    {layout : Layout}
    {shapes others : List Shape}
    (each : Forall₂ SameUnlessRecursive shapes others)
    (alike : ∀ items, layout = .tuple items → AgreeAlike shapes others)
    (unscaled : ∀ value cases, layout ≠ .scalar value cases)
    (markerFree : (layout.node type known shapes).hasRecursive = false) :
    layout.node type known shapes = layout.node type known others := by
  have first (shown : (shapes.head?.getD (.any none)).hasRecursive = false) :
      shapes.head?.getD (.any none) = others.head?.getD (.any none) := by
    cases each with
    | nil => rfl
    | cons same _ => exact same shown
  cases layout with
  | unknown => rfl
  | record plans =>
      have related := forall₂_record plans each .nil
      have allFree := anyRecursive_eq_false_iff.mp markerFree
      have equal :=
        ((forall₂_and_left _ _).mpr ⟨allFree, related⟩).imp fun e f relates =>
          Prod.ext relates.2.1 (relates.2.2 relates.1)
      rw [forall₂_eq_eq_eq] at equal
      simp only [Layout.node, equal]
  | sequence item =>
      simp only [Layout.node] at markerFree ⊢
      rw [first markerFree]
  | tuple items =>
      have sameAgreement := alike items rfl
      simp only [Layout.node] at markerFree ⊢
      cases each with
      | nil => rfl
      | @cons s t rest more same later =>
          have allAlike : (rest.all fun r => r.agrees s) = (more.all fun r => r.agrees t) := by
            clear later same markerFree first alike
            induction sameAgreement with
            | nil => rfl
            | cons head _ inductionHypothesis =>
                rw [List.all_cons, List.all_cons, inductionHypothesis, head]
          simp only [Recording.commonElement] at markerFree ⊢
          rw [← allAlike]
          split
          · rename_i agreed
            rw [if_pos agreed] at markerFree
            rw [same markerFree]
          · rfl
  | mapping value =>
      have shown : (shapes.head?.getD (.any none)).hasRecursive = false := by
        simpa [Layout.node, Shape.hasRecursive, Shape.anyRecursive] using markerFree
      simp only [Layout.node]
      rw [first shown]
  | nullable inner =>
      simp only [Layout.node] at markerFree ⊢
      rw [Shape.hasRecursive_optional] at markerFree
      rw [first markerFree]
  | scalar value cases => exact absurd rfl (unscaled value cases)

/-! ## Recorded nodes -/

section

variable {entry : TypeForm → Entry} {kinds : Key → Option PrimitiveKind}
  {forms : List TypeForm} {start above : List Key} {root a type : TypeForm} {layout : Layout}
  {shapes : List Shape}

/-- Fields are recorded as they are made: the tree of a field that has to be
there is not one that may be missing. -/
theorem recorded_fields_eq
    {plans : List FieldPlan}
    (required : ∀ e ∈ plans.zip shapes, e.1.isOptional = false → e.2.isOptional = false)
    (fields : List (String × Shape)) :
    (plans.zip shapes).foldl
        (fun fields e =>
          Table.set fields e.1.key (if e.1.isOptional then e.2.optional true else e.2)) fields =
      (plans.zip shapes).foldl
        (fun fields e => Table.set fields e.1.key (e.2.optional e.1.isOptional)) fields := by
  generalize plans.zip shapes = entries at required
  induction entries generalizing fields with
  | nil => rfl
  | cons e rest inductionHypothesis =>
      have same :
          (if e.1.isOptional then e.2.optional true else e.2) = e.2.optional e.1.isOptional := by
        cases optionalCase : e.1.isOptional with
        | true => simp
        | false =>
            have missing := required e (by simp) optionalCase
            simp only [Bool.false_eq_true, if_false]
            rw [← missing, Shape.optional_isOptional]
      rw [List.foldl_cons, List.foldl_cons, same]
      exact inductionHypothesis _ fun other later => required other (List.mem_cons_of_mem _ later)

/-- What is recorded for a type is the node that plain unfolding makes. -/
theorem Layout.recorded_eq_node
    (lawful : Lawful entry forms)
    (member : a ∈ forms)
    (isInner : entry a = .inner type layout)
    (unfold : Forall₂ (Unfolds entry kinds above) layout.requests shapes) :
    layout.recorded type shapes = layout.node type none shapes := by
  have requested := lawful.closed a member type layout isInner
  cases layout with
  | record plans =>
      refine congrArg (Shape.keyed (.of (some type)) true) (recorded_fields_eq ?_ [])
      intro e entryMember isRequired
      have paired :
          Forall₂ (fun p s => Unfolds entry kinds above (if p.isOptional then p.inner else p.form) s)
            plans shapes := by
        simpa [Layout.requests, forall₂_map_left_iff] using unfold
      have planUnfolds := forall₂_zip paired entryMember
      rw [if_neg (by simp [isRequired])] at planUnfolds
      have planMember := (List.of_mem_zip entryMember).1
      have formMember : e.1.form ∈ forms :=
        requested e.1.form (List.mem_map.mpr ⟨e.1, planMember, by simp [isRequired]⟩)
      exact (planUnfolds.root_of_not_nullable lawful formMember
        (lawful.required a member type plans isInner e.1 planMember isRequired)).2
  | scalar value cases =>
      obtain ⟨shape, rest, first, last, rfl⟩ := forall₂_cons_left_iff.mp unfold
      have missing := (first.root_of_not_nullable lawful (requested value (by simp [Layout.requests]))
        (lawful.scalar a member type value cases isInner).1).2
      simp [recorded, node, missing]
  | _ => rfl

end

/-! ## The invariant -/

/-- Whether no type that is done without references back is being expanded. -/
def Free (μ : Progress) (above : List Key) : Prop :=
  ∀ key ∈ above, ∀ shape, μ key = some (some shape) → shape.hasRecursive = true

section

variable (entry : TypeForm → Entry) (kinds : Key → Option PrimitiveKind) (start : List Key)
  (root : TypeForm)

/-- Whether a tree is what a type form unfolds to wherever it is met and nothing
that is done is being expanded. -/
def Stable (μ : Progress) (a : TypeForm) (shape : Shape) : Prop :=
  ∀ above, Visits entry start root above a → Free μ above → Unfolds entry kinds above a shape

/-- The invariant: the types that are being expanded are known as such, and the
trees without references back can be used again. -/
structure Consistent (above : List Key) (μ : Progress) : Prop where
  busy : ∀ key, μ key = some none ↔ key ∈ above
  stable : ∀ a type layout shape, entry a = .inner type layout →
    μ type.identity = some (some shape) → shape.hasRecursive = false →
    Stable entry kinds start root μ a shape

/-- What is assumed of the kinds of types with cases: they are the recorded
ones where they are known at all, and a recorded tree is right everywhere if it
is right in one place. -/
structure Settled (final : Progress) : Prop where
  recorded : ∀ key h kind, final key = some (some (.single h kind)) →
    kinds key = none ∨ kinds key = some kind
  everywhere : ∀ a b above further type value cases shape,
    Visits entry start root above a → Visits entry start root further b →
    entry a = .inner type (.scalar value cases) → entry b = .inner type (.scalar value cases) →
    type.identity ∉ above → type.identity ∉ further →
    final type.identity = some (some shape) →
    Unfolds entry kinds above a shape → Unfolds entry kinds further b shape

end

section

variable {entry : TypeForm → Entry} {kinds : Key → Option PrimitiveKind}
  {forms : List TypeForm} {start above : List Key} {root a type : TypeForm} {layout : Layout}
  {shapes : List Shape} {shape : Shape} {μ reached later final : Progress}

/-- When more types are done, no more types can be expanded. -/
theorem Free.of_kept
    (free : Free later above)
    (kept : μ.KeptIn later) :
    Free μ above := by
  intro key isAbove known isKnown
  cases markerFree : known.hasRecursive with
  | true => rfl
  | false =>
      have recursive := free key isAbove known (kept key known isKnown markerFree)
      rw [markerFree] at recursive
      cases recursive

/-- A tree that can be used again still can when more types are done. -/
theorem Stable.mono
    (stable : Stable entry kinds start root μ a shape)
    (kept : μ.KeptIn later) :
    Stable entry kinds start root later a shape :=
  fun above visits free => stable above visits (free.of_kept kept)

/-- In a consistent state nothing that is done is being expanded. -/
theorem Consistent.free (consistent : Consistent entry kinds start root above μ) :
    Free μ above := by
  intro key isAbove known isKnown
  rw [(consistent.busy key).mpr isAbove] at isKnown
  cases isKnown

/-- A type without an answer is not among those that are being expanded. -/
theorem Consistent.not_mem_of_unanswered
    (consistent : Consistent entry kinds start root above μ)
    (unanswered : μ.answer? type = none) :
    type.identity ∉ above :=
  fun isAbove => Progress.not_busy_of_answer_none unanswered
    ((consistent.busy type.identity).mpr isAbove)

/-- Nothing is lost by entering a type without an answer. -/
theorem keptIn_set_none (unanswered : μ.answer? type = none) :
    μ.KeptIn (μ.set type.identity none) := by
  intro key known isKnown markerFree
  by_cases same : key = type.identity
  · subst same
    rw [Progress.hasRecursive_of_answer_none unanswered isKnown] at markerFree
    cases markerFree
  · rw [Progress.set_of_ne _ _ same, isKnown]

/-- Entering a type without an answer keeps the state consistent. -/
theorem Consistent.enter
    (consistent : Consistent entry kinds start root above μ)
    (unanswered : μ.answer? type = none) :
    Consistent entry kinds start root (type.identity :: above)
      (μ.set type.identity none) := by
  constructor
  · intro key
    by_cases same : key = type.identity
    · simp [same]
    · rw [Progress.set_of_ne _ _ same, consistent.busy]
      simp [same]
  · intro b other layout known isInner isKnown markerFree
    by_cases same : other.identity = type.identity
    · rw [same, Progress.set_self] at isKnown
      cases isKnown
    · rw [Progress.set_of_ne _ _ same] at isKnown
      exact (consistent.stable b other layout known isInner isKnown markerFree).mono
        (keptIn_set_none unanswered)

/-- What visiting requests one after the other finds: what they unfold to, and
which of it can be used again. -/
structure Found
    (entry : TypeForm → Entry)
    (kinds : Key → Option PrimitiveKind)
    (start : List Key)
    (root : TypeForm)
    (above : List Key)
    (requests : List TypeForm)
    (shapes : List Shape)
    (later : Progress) :
    Prop where
  unfold : Forall₂ (Unfolds entry kinds above) requests shapes
  consistent : Consistent entry kinds start root above later
  stable : Forall₂
    (fun a s => s.hasRecursive = false → Stable entry kinds start root later a s) requests shapes

/-- Visiting requests one after the other finds what they unfold to if each
visit does. -/
theorem visitAll_found
    {visit : TypeForm → Progress → Option (Shape × Progress)}
    {requests : List TypeForm}
    (extends_ : ∀ a μ shape later, visit a μ = some (shape, later) → μ.ExtendsTo later)
    (each : ∀ a ∈ requests, ∀ μ shape later, Consistent entry kinds start root above μ →
      visit a μ = some (shape, later) → later.KeptIn final →
      Unfolds entry kinds above a shape ∧ Consistent entry kinds start root above later ∧
        (shape.hasRecursive = false → Stable entry kinds start root later a shape))
    (consistent : Consistent entry kinds start root above μ)
    (visited : visitAll visit requests μ = some (shapes, later))
    (kept : later.KeptIn final) :
    Found entry kinds start root above requests shapes later := by
  induction requests generalizing μ shapes with
  | nil =>
      cases visited
      exact ⟨.nil, consistent, .nil⟩
  | cons request rest inductionHypothesis =>
      obtain ⟨⟨shape, between⟩, first, others⟩ := Option.bind_eq_some_iff.mp visited
      obtain ⟨⟨more, last⟩, restVisited, shapesOf⟩ := Option.map_eq_some_iff.mp others
      cases shapesOf
      have keptBetween := (visitAll_extendsTo extends_ restVisited).kept
      obtain ⟨unfolds, consistentBetween, stable⟩ :=
        each request (by simp) μ shape between consistent first (keptBetween.trans kept)
      obtain ⟨restUnfold, consistentLast, restStable⟩ :=
        inductionHypothesis (fun a member => each a (List.mem_cons_of_mem _ member))
          consistentBetween restVisited
      exact ⟨.cons unfolds restUnfold, consistentLast,
        .cons (fun markerFree => (stable markerFree).mono keptBetween) restStable⟩

/-- The node of a type with cases, whatever its value unfolds to. -/
theorem Layout.node_scalar
    {value : TypeForm}
    {cases : List Value}
    {known : Option PrimitiveKind}
    (shapes : List Shape) :
    (Layout.scalar value cases).node type known shapes =
      .single ⟨some type, false, some cases⟩ (known.getD (scalarKind cases shapes)) :=
  rfl

/-- The recorded node of a type is its node with the kind that is known of
it. -/
theorem recorded_eq_known
    (lawful : Lawful entry forms)
    (settled : Settled entry kinds start root final)
    (member : a ∈ forms)
    (isInner : entry a = .inner type layout)
    (unfold : Forall₂ (Unfolds entry kinds above) layout.requests shapes)
    (isKnown : (layout.recorded type shapes).hasRecursive = false →
      final type.identity = some (some (layout.recorded type shapes))) :
    layout.recorded type shapes = layout.node type (kinds type.identity) shapes := by
  have recorded := Layout.recorded_eq_node lawful member isInner unfold
  rw [recorded] at isKnown ⊢
  cases layout with
  | scalar value cases =>
      simp only [Layout.node_scalar, Option.getD_none] at isKnown ⊢
      rcases settled.recorded _ _ _ (isKnown rfl) with unknown | known
      · rw [unknown]
        rfl
      · rw [known]
        rfl
  | _ => rfl

/-- Places where two types are met together give trees that agree alike. -/
theorem agreeAlike_of_unfold
    {further : List Key}
    {requests : List TypeForm}
    {others : List Shape}
    (lawful : Lawful entry forms)
    (rootMember : root ∈ forms)
    (startProper : Proper entry forms start)
    (visits : ∀ request ∈ requests, Visits entry start root above request)
    (furtherVisits : ∀ request ∈ requests, Visits entry start root further request)
    (unfold : Forall₂ (Unfolds entry kinds above) requests shapes)
    (furtherUnfold : Forall₂ (Unfolds entry kinds further) requests others) :
    AgreeAlike shapes others := by
  cases unfold with
  | nil => trivial
  | @cons request s rest ss first later =>
      cases furtherUnfold with
      | @cons _ t _ ts otherFirst otherLater =>
          have restVisits : ∀ other ∈ rest, Visits entry start root above other :=
            fun other member => visits other (List.mem_cons_of_mem _ member)
          have restFurther : ∀ other ∈ rest, Visits entry start root further other :=
            fun other member => furtherVisits other (List.mem_cons_of_mem _ member)
          have firstVisits := visits request (by simp)
          have firstFurther := furtherVisits request (by simp)
          clear visits furtherVisits
          induction later generalizing ts with
          | nil =>
              cases otherLater
              exact .nil
          | @cons other r _ _ head _ inductionHypothesis =>
              cases otherLater with
              | @cons _ q _ qs otherHead otherRest =>
                  refine .cons ?_ (inductionHypothesis otherRest
                    (fun a member => restVisits a (List.mem_cons_of_mem _ member))
                    fun a member => restFurther a (List.mem_cons_of_mem _ member))
                  have atAbove := agrees_iff_face_eq (restVisits other (by simp)) firstVisits lawful
                    rootMember startProper head first
                  have atFurther := agrees_iff_face_eq (restFurther other (by simp)) firstFurther
                    lawful rootMember startProper otherHead otherFirst
                  rw [Bool.eq_iff_iff, atAbove, atFurther]

/-- What is found for the requests of a type is found for them wherever else the
type is met, as far as it has no references back. -/
theorem sameUnlessRecursive_of_found
    {further : List Key}
    {requests : List TypeForm}
    {others : List Shape}
    (stable : Forall₂
      (fun a s => s.hasRecursive = false → Stable entry kinds start root later a s)
      requests shapes)
    (free : Free later further)
    (visits : ∀ request ∈ requests, Visits entry start root further request)
    (unfold : Forall₂ (Unfolds entry kinds further) requests others) :
    Forall₂ SameUnlessRecursive shapes others := by
  induction stable generalizing others with
  | nil =>
      cases unfold
      exact .nil
  | @cons request s rest ss first _ inductionHypothesis =>
      cases unfold with
      | @cons _ t _ ts head restUnfold =>
          refine .cons (fun markerFree => ?_) (inductionHypothesis
            (fun a member => visits a (List.mem_cons_of_mem _ member)) restUnfold)
          exact (first markerFree further (visits request (by simp)) free).unique head

/-- The tree that is recorded for a type without references back is what the
type unfolds to wherever it is met. -/
theorem stable_of_found
    {b : TypeForm}
    (lawful : Lawful entry forms)
    (rootMember : root ∈ forms)
    (startProper : Proper entry forms start)
    (settled : Settled entry kinds start root final)
    (visits : Visits entry start root above a)
    (isInner : entry a = .inner type layout)
    (otherInner : entry b = .inner type layout)
    (notMet : type.identity ∉ above)
    (found : Found entry kinds start root (type.identity :: above) layout.requests shapes reached)
    (node : shape = layout.node type (kinds type.identity) shapes)
    (isKnown : final type.identity = some (some shape))
    (markerFree : shape.hasRecursive = false) :
    Stable entry kinds start root (reached.set type.identity (some shape)) b shape := by
  intro further furtherVisits free
  have notFurther : type.identity ∉ further := by
    intro isFurther
    have recursive := free _ isFurther shape (Progress.set_self _ _ _)
    rw [markerFree] at recursive
    cases recursive
  by_cases isScalar : ∃ value cases, layout = .scalar value cases
  · obtain ⟨value, cases, rfl⟩ := isScalar
    refine settled.everywhere a b above further type value cases shape visits furtherVisits isInner
      otherInner notMet notFurther isKnown ?_
    rw [node]
    exact .inner isInner notMet found.unfold
  · have bMember := furtherVisits.mem lawful rootMember
    have requestVisits : ∀ request ∈ layout.requests,
        Visits entry start root (type.identity :: above) request :=
      fun request asked => .request visits isInner notMet asked
    have requestFurther : ∀ request ∈ layout.requests,
        Visits entry start root (type.identity :: further) request :=
      fun request asked => .request furtherVisits otherInner notFurther asked
    obtain ⟨other, otherUnfolds⟩ := exists_unfolds lawful.closed kinds bMember further
    obtain ⟨others, othersUnfold, rfl⟩ := otherUnfolds.exists_requests otherInner notFurther
    have enteredFree : Free reached (type.identity :: further) := by
      intro key isAbove known isKnown
      by_cases same : key = type.identity
      · subst same
        rw [(found.consistent.busy _).mpr (by simp)] at isKnown
        cases isKnown
      · have isFurther : key ∈ further := by simpa [same] using isAbove
        exact free key isFurther known (by rw [Progress.set_of_ne _ _ same, isKnown])
    have related :=
      sameUnlessRecursive_of_found found.stable enteredFree requestFurther othersUnfold
    have nodes : layout.node type (kinds type.identity) shapes =
        layout.node type (kinds type.identity) others := by
      refine Layout.node_eq_of_hidden related (fun items isTuple => ?_)
        (fun value cases same => isScalar ⟨value, cases, same⟩) (node ▸ markerFree)
      exact agreeAlike_of_unfold lawful rootMember startProper requestVisits requestFurther
        found.unfold othersUnfold
    rw [node, nodes]
    exact otherUnfolds

/-- Being done with a type keeps the state consistent. -/
theorem Consistent.leave
    (consistent : Consistent entry kinds start root (type.identity :: above) reached)
    (notMet : type.identity ∉ above)
    (stable : shape.hasRecursive = false → ∀ b, entry b = .inner type layout →
      Stable entry kinds start root (reached.set type.identity (some shape)) b shape)
    (same : ∀ b other layout', entry b = .inner other layout' →
      other.identity = type.identity → ∀ further, Visits entry start root further b →
      entry b = .inner type layout) :
    Consistent entry kinds start root above (reached.set type.identity (some shape)) := by
  have kept : reached.KeptIn (reached.set type.identity (some shape)) := by
    intro key known isKnown _
    by_cases sameKey : key = type.identity
    · subst sameKey
      rw [(consistent.busy _).mpr (by simp)] at isKnown
      cases isKnown
    · rw [Progress.set_of_ne _ _ sameKey, isKnown]
  constructor
  · intro key
    by_cases sameKey : key = type.identity
    · subst sameKey
      simp [notMet]
    · rw [Progress.set_of_ne _ _ sameKey, consistent.busy]
      simp [sameKey]
  · intro b other layout' known isInner isKnown markerFree
    by_cases sameKey : other.identity = type.identity
    · rw [sameKey, Progress.set_self] at isKnown
      cases isKnown
      intro further visits free
      exact stable markerFree b (same b other layout' isInner sameKey further visits) further
        visits free
    · rw [Progress.set_of_ne _ _ sameKey] at isKnown
      exact (consistent.stable b other layout' known isInner isKnown markerFree).mono kept

/-- What is found with a memo is what plain unfolding gives at the same place;
the state stays consistent, and a tree without references back can be used
again. -/
theorem probeWith_found
    {depth : Nat}
    (lawful : Lawful entry forms)
    (rootMember : root ∈ forms)
    (startProper : Proper entry forms start)
    (settled : Settled entry kinds start root final)
    (visits : Visits entry start root above a)
    (consistent : Consistent entry kinds start root above μ)
    (probed : probeWith entry depth a μ = some (shape, later))
    (kept : later.KeptIn final) :
    Unfolds entry kinds above a shape ∧ Consistent entry kinds start root above later ∧
      (shape.hasRecursive = false → Stable entry kinds start root later a shape) := by
  induction depth generalizing a above μ shape later with
  | zero => simp [probeWith] at probed
  | succ depth inductionHypothesis =>
      unfold probeWith at probed
      split at probed
      · -- what is not looked into
        rename_i node isLeaf
        cases probed
        exact ⟨.leaf isLeaf above, consistent, fun _ further _ _ => .leaf isLeaf further⟩
      · rename_i type layout isInner
        split at probed
        · -- a type that is being expanded, or is done without references back
          rename_i node answered
          cases probed
          unfold Progress.answer? at answered
          split at answered
          · rename_i isBusy
            cases answered
            exact ⟨.back isInner ((consistent.busy _).mp isBusy), consistent,
              fun markerFree => by cases markerFree⟩
          · rename_i known isKnown
            split at answered
            · cases answered
            · rename_i markerFree
              cases answered
              have stable := consistent.stable a type layout shape isInner isKnown
                (Bool.eq_false_iff.mpr markerFree)
              exact ⟨stable above visits consistent.free, consistent, fun _ => stable⟩
          · cases answered
        · -- a type that is expanded
          rename_i unanswered
          obtain ⟨⟨shapes, reached⟩, visited, result⟩ := Option.map_eq_some_iff.mp probed
          cases result
          dsimp only at kept
          have notMet := consistent.not_mem_of_unanswered unanswered
          have member := visits.mem lawful rootMember
          have entered := consistent.enter unanswered
          have keptReached : reached.KeptIn final := by
            intro key known isKnown markerFree
            refine kept key known ?_ markerFree
            by_cases same : key = type.identity
            · subst same
              have stillBusy := ((visitAll_extendsTo
                (fun _ _ _ _ found => probeWith_extendsTo found) visited).busy type.identity).mpr
                (Progress.set_self _ _ _)
              rw [stillBusy] at isKnown
              cases isKnown
            · rw [Progress.set_of_ne _ _ same, isKnown]
          have found : Found entry kinds start root (type.identity :: above) layout.requests shapes
              reached :=
            visitAll_found (fun _ _ _ _ found => probeWith_extendsTo found)
              (fun request asked μ shape later requestConsistent requestProbed requestKept =>
                inductionHypothesis (.request visits isInner notMet asked) requestConsistent
                  requestProbed requestKept)
              entered visited keptReached
          have isKnown (markerFree : (layout.recorded type shapes).hasRecursive = false) :
              final type.identity = some (some (layout.recorded type shapes)) :=
            kept _ _ (Progress.set_self _ _ _) markerFree
          have node := recorded_eq_known lawful settled member isInner found.unfold isKnown
          have stable (markerFree : (layout.recorded type shapes).hasRecursive = false) (b : TypeForm)
              (otherInner : entry b = .inner type layout) :
              Stable entry kinds start root
                (reached.set type.identity (some (layout.recorded type shapes))) b
                (layout.recorded type shapes) :=
            stable_of_found lawful rootMember startProper settled visits isInner otherInner notMet
              found node (isKnown markerFree) markerFree
          refine ⟨?_, ?_, fun markerFree => stable markerFree a isInner⟩
          · rw [node]
            exact .inner isInner notMet found.unfold
          · refine found.consistent.leave notMet stable ?_
            intro b other layout' otherInner sameKey further otherVisits
            have otherMember := otherVisits.mem lawful rootMember
            have keys : (entry b).key? = some type.identity := by
              rw [otherInner, ← sameKey]
              rfl
            have entries := lawful.same b otherMember a member _ keys (by rw [isInner]; rfl)
            rw [entries, isInner]

end

/-! ## Kinds of types with cases -/

/-- The kinds that were recorded for types that turned out to be scalars. -/
def Progress.kinds (final : Progress) (key : Key) : Option PrimitiveKind :=
  match final key with
  | some (some (.single _ kind)) => some kind
  | _ => none

/-- Whether plain unfolding gives a type with cases the same node wherever it
meets the type. -/
def KindsAgree
    (entry : TypeForm → Entry)
    (start : List Key)
    (root : TypeForm) :
    Prop :=
  ∀ a b above further type value cases shape other,
    Visits entry start root above a → Visits entry start root further b →
    entry a = .inner type (.scalar value cases) → entry b = .inner type (.scalar value cases) →
    type.identity ∉ above → type.identity ∉ further →
    Unfolds entry (fun _ => none) above a shape → Unfolds entry (fun _ => none) further b other →
    shape = other

section

variable {entry : TypeForm → Entry} {forms : List TypeForm} {start : List Key} {root : TypeForm}

/-- The recorded kinds are settled. -/
theorem settled_kinds
    (lawful : Lawful entry forms)
    (rootMember : root ∈ forms)
    (final : Progress) :
    Settled entry final.kinds start root final := by
  constructor
  · intro key h kind isKnown
    exact .inr (by simp [Progress.kinds, isKnown])
  · intro a b above further type value cases shape visits furtherVisits isInner otherInner notMet
      notFurther isKnown unfolds
    obtain ⟨shapes, _, rfl⟩ := unfolds.exists_requests isInner notMet
    obtain ⟨other, otherUnfolds⟩ :=
      exists_unfolds lawful.closed final.kinds (furtherVisits.mem lawful rootMember) further
    obtain ⟨others, _, rfl⟩ := otherUnfolds.exists_requests otherInner notFurther
    have known : ∃ kind, final.kinds type.identity = some kind := by
      rw [Layout.node_scalar] at isKnown
      exact ⟨_, by rw [Progress.kinds, isKnown]⟩
    obtain ⟨kind, known⟩ := known
    rw [known, Layout.node_scalar] at otherUnfolds ⊢
    exact otherUnfolds

/-- Where kinds agree, nothing has to be known of them. -/
theorem settled_of_kindsAgree
    (lawful : Lawful entry forms)
    (rootMember : root ∈ forms)
    (agree : KindsAgree entry start root)
    (final : Progress) :
    Settled entry (fun _ => none) start root final := by
  constructor
  · exact fun _ _ _ _ => .inl rfl
  · intro a b above further type value cases shape visits furtherVisits isInner otherInner notMet
      notFurther _ unfolds
    obtain ⟨other, otherUnfolds⟩ :=
      exists_unfolds lawful.closed (fun _ => none) (furtherVisits.mem lawful rootMember) further
    rw [agree a b above further type value cases shape other visits furtherVisits isInner otherInner
      notMet notFurther unfolds otherUnfolds]
    exact otherUnfolds

/-- At the start, with nothing done, the state is consistent. -/
theorem consistent_busy (kinds : Key → Option PrimitiveKind) :
    Consistent entry kinds start root start (.busy start) := by
  constructor
  · intro key
    by_cases isBusy : key ∈ start <;> simp [Progress.busy, isBusy]
  · intro a type layout shape _ isKnown
    by_cases isBusy : type.identity ∈ start <;> simp [Progress.busy, isBusy] at isKnown

/-- The tree that is found with a memo is the plain tree in which every type with
cases is of the kind that it was recorded with. -/
theorem probeWith_unfolds_kinds
    {depth : Nat}
    {shape : Shape}
    {final : Progress}
    (lawful : Lawful entry forms)
    (rootMember : root ∈ forms)
    (startProper : Proper entry forms start)
    (probed : probeWith entry depth root (.busy start) = some (shape, final)) :
    Unfolds entry final.kinds start root shape :=
  (probeWith_found lawful rootMember startProper (settled_kinds lawful rootMember final) .root
    (consistent_busy _) probed (Progress.ExtendsTo.refl final).kept).1

/-- Where plain unfolding gives types with cases the same node everywhere, the
tree that is found with a memo is the plain tree. -/
theorem probeWith_unfolds
    {depth : Nat}
    {shape : Shape}
    {final : Progress}
    (lawful : Lawful entry forms)
    (rootMember : root ∈ forms)
    (startProper : Proper entry forms start)
    (agree : KindsAgree entry start root)
    (probed : probeWith entry depth root (.busy start) = some (shape, final)) :
    Unfolds entry (fun _ => none) start root shape :=
  (probeWith_found lawful rootMember startProper
    (settled_of_kindsAgree lawful rootMember agree final) .root
    (consistent_busy _) probed (Progress.ExtendsTo.refl final).kept).1

end

end SchemaProbe

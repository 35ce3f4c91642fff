import SchemaProbe.Proofs.Contexts

namespace SchemaProbe

/-!
# Unfolding with a memo

Probing keeps what came out for each type.  A tree without references back is
used again wherever its type is asked for; a tree with one is made anew.  What
is used again is what plain unfolding gives in the new place, because none of
the types that are being expanded there shows in the tree, and what does not
show does not matter.  Only the kinds of types with cases are different: they
are settled where such a type is met first.
-/

open List

/-- What is known about types on the way: those that are being expanded, and the
trees of those that are done. -/
abbrev Progress := Key → Option (Option Shape)

namespace Progress

/-- Some types are being expanded and none is done. -/
def busy (above : List Key) : Progress :=
  fun key => if key ∈ above then some none else none

/-- Another thing is known about a type. -/
def set (μ : Progress) (key : Key) (state : Option Shape) : Progress :=
  fun other => if other = key then some state else μ other

@[simp]
theorem set_self (μ : Progress) (key : Key) (state : Option Shape) :
    μ.set key state key = some state := by
  simp [set]

theorem set_of_ne (μ : Progress) {key other : Key} (state : Option Shape) (different : other ≠ key) :
    μ.set key state other = μ other := by
  simp [set, different]

/-- What a type is at once: a reference back, or a tree without one. -/
def answer? (μ : Progress) (type : TypeForm) : Option Shape :=
  match μ type.identity with
  | some none => some (.back type)
  | some (some shape) => if shape.hasRecursive then none else some shape
  | none => none

end Progress

/-- The node of a type as it is recorded: a field that has to be there, and a
type with cases, may be missing if the tree that was found says so. -/
def Layout.recorded (type : TypeForm) : Layout → List Shape → Shape
  | .record plans, shapes =>
    .keyed (.of (some type)) true
      ((plans.zip shapes).foldl
        (fun fields e =>
          Table.set fields e.1.key (if e.1.isOptional then e.2.optional true else e.2)) [])
  | .scalar _ cases, shapes =>
    .single ⟨some type, (shapes.head?.map (·.isOptional)).getD false, some cases⟩
      (scalarKind cases shapes)
  | layout, shapes => layout.node type none shapes

/-- The trees of type forms, one after the other. -/
def visitAll
    (visit : TypeForm → Progress → Option (Shape × Progress)) :
    List TypeForm → Progress → Option (List Shape × Progress)
  | [], μ => some ([], μ)
  | a :: rest, μ =>
    (visit a μ).bind fun first =>
      (visitAll visit rest first.2).map fun others => (first.1 :: others.1, others.2)

/-- The tree of a type that is expanded. -/
def expandWith
    (visit : TypeForm → Progress → Option (Shape × Progress))
    (type : TypeForm)
    (layout : Layout)
    (μ : Progress) :
    Option (Shape × Progress) :=
  (visitAll visit layout.requests (μ.set type.identity none)).map fun found =>
    (layout.recorded type found.1,
      found.2.set type.identity (some (layout.recorded type found.1)))

/-- The tree of a type form with a memo.  The number bounds the depth. -/
def probeWith
    (entry : TypeForm → Entry) :
    Nat → TypeForm → Progress → Option (Shape × Progress)
  | 0, _, _ => none
  | depth + 1, a, μ =>
    match entry a with
    | .leaf shape => some (shape, μ)
    | .inner type layout =>
      match μ.answer? type with
      | some shape => some (shape, μ)
      | none => expandWith (probeWith entry depth) type layout μ

/-! ## What stays known -/

namespace Progress

/-- Whether the trees without references back of one state are those of
another one. -/
def KeptIn (μ later : Progress) : Prop :=
  ∀ key shape, μ key = some (some shape) → shape.hasRecursive = false →
    later key = some (some shape)

/-- Whether the same types are being expanded and no tree without references
back got lost. -/
structure ExtendsTo (μ later : Progress) : Prop where
  busy : ∀ key, later key = some none ↔ μ key = some none
  kept : μ.KeptIn later

theorem ExtendsTo.refl (μ : Progress) : μ.ExtendsTo μ :=
  ⟨fun _ => .rfl, fun _ _ known _ => known⟩

theorem KeptIn.trans
    {μ later last : Progress}
    (first : μ.KeptIn later)
    (second : later.KeptIn last) :
    μ.KeptIn last :=
  fun key shape known markerFree =>
    second key shape (first key shape known markerFree) markerFree

theorem ExtendsTo.trans
    {μ later last : Progress}
    (first : μ.ExtendsTo later)
    (second : later.ExtendsTo last) :
    μ.ExtendsTo last :=
  ⟨fun key => (second.busy key).trans (first.busy key), first.kept.trans second.kept⟩

/-- A type without an answer is not being expanded. -/
theorem not_busy_of_answer_none
    {μ : Progress}
    {type : TypeForm}
    (unanswered : μ.answer? type = none) :
    μ type.identity ≠ some none := by
  intro isBusy
  simp [answer?, isBusy] at unanswered

/-- A type without an answer has no tree without references back. -/
theorem hasRecursive_of_answer_none
    {μ : Progress}
    {type : TypeForm}
    {shape : Shape}
    (unanswered : μ.answer? type = none)
    (known : μ type.identity = some (some shape)) :
    shape.hasRecursive = true := by
  simpa [answer?, known] using unanswered

/-- Expanding a type without an answer and being done with it loses nothing. -/
theorem ExtendsTo.around
    {μ reached : Progress}
    {type : TypeForm}
    (unanswered : μ.answer? type = none)
    (between : (μ.set type.identity none).ExtendsTo reached)
    (shape : Shape) :
    μ.ExtendsTo (reached.set type.identity (some shape)) := by
  constructor
  · intro key
    by_cases same : key = type.identity
    · subst same
      simp [not_busy_of_answer_none unanswered]
    · rw [set_of_ne _ _ same, between.busy, set_of_ne _ _ same]
  · intro key known isKnown markerFree
    by_cases same : key = type.identity
    · subst same
      rw [hasRecursive_of_answer_none unanswered isKnown] at markerFree
      cases markerFree
    · rw [set_of_ne _ _ same]
      exact between.kept key known (by rw [set_of_ne _ _ same, isKnown]) markerFree

end Progress

/-- Visiting type forms one after the other loses nothing if no visit does. -/
theorem visitAll_extendsTo
    {visit : TypeForm → Progress → Option (Shape × Progress)}
    (each : ∀ a μ shape later, visit a μ = some (shape, later) → μ.ExtendsTo later)
    {as : List TypeForm}
    {μ later : Progress}
    {shapes : List Shape}
    (visited : visitAll visit as μ = some (shapes, later)) :
    μ.ExtendsTo later := by
  induction as generalizing μ shapes with
  | nil =>
      cases visited
      exact .refl _
  | cons a rest inductionHypothesis =>
      obtain ⟨⟨shape, between⟩, first, others⟩ := Option.bind_eq_some_iff.mp visited
      obtain ⟨⟨more, last⟩, restVisited, shapesOf⟩ := Option.map_eq_some_iff.mp others
      cases shapesOf
      exact (each a μ shape between first).trans (inductionHypothesis restVisited)

/-- Unfolding with a memo loses nothing. -/
theorem probeWith_extendsTo
    {entry : TypeForm → Entry}
    {depth : Nat}
    {a : TypeForm}
    {μ later : Progress}
    {shape : Shape}
    (probed : probeWith entry depth a μ = some (shape, later)) :
    μ.ExtendsTo later := by
  induction depth generalizing a μ shape later with
  | zero => simp [probeWith] at probed
  | succ depth inductionHypothesis =>
      unfold probeWith at probed
      split at probed
      · cases probed
        exact .refl _
      · split at probed
        · cases probed
          exact .refl _
        · rename_i unanswered
          obtain ⟨⟨shapes, reached⟩, visited, result⟩ := Option.map_eq_some_iff.mp probed
          cases result
          exact .around unanswered
            (visitAll_extendsTo (fun _ _ _ _ found => inductionHypothesis found) visited) _

end SchemaProbe

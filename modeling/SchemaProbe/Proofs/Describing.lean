import SchemaProbe.Proofs.Probing
import SchemaProbe.Proofs.Universe
import SchemaProbe.Proofs.References
import SchemaProbe.Description

namespace SchemaProbe

/-!
# Descriptions are plain unfoldings

A description of a conventional type always ends, and its tree is the one that
plain unfolding gives by what is known afterwards, but for one thing: a type with
cases keeps the kind that it had where it was met first.  Where its kind does not
depend on the place, as when its values are not looked into, the description is
the plain unfolding itself.
-/

section

variable {s : Store} {forms : List TypeForm} {allowed : Allowance} {a : TypeForm} {depth : Nat}

/-- With nothing in progress a probe needs to go as deep as there are type
forms. -/
theorem bounded_empty
    (ready : s.Ready forms allowed)
    (programFree : allowed.programs = [])
    (enough : forms.length < depth) :
    Bounded forms allowed depth { s with guard := .empty } where
  ready := ready.withGuard .empty
  exempted key isExempt := by
    rw [programFree] at isExempt
    cases isExempt
  idle := Nat.lt_of_le_of_lt (List.countP_le_length) enough

/-- What lookup accepts has capabilities. -/
theorem hasCapabilities_of_lookup
    {caps : Capabilities}
    {later : Store}
    (ready : s.Ready forms allowed)
    (member : a ∈ forms)
    (accepted : (lookup .current a).run s = (.ok caps, later)) :
    a.hasCapabilities = true := by
  cases has : a.hasCapabilities with
  | true => rfl
  | false =>
      obtain ⟨f, failed, _⟩ := lookup_fails ready member has
      rw [failed] at accepted
      cases accepted

/-- A description notes that it starts, clears the guard, and notes that it ended. -/
theorem run_describeTo
    {reached : Store}
    {shape : Shape}
    {value : Value}
    (ran : (probe depth a []).run { s with events := s.events ++ [.probeStarted], guard := .empty } =
      (.ok (shape, value), reached)) :
    (describeTo depth a).run s =
      (.ok shape, { reached with events := reached.events ++ [.probeEnded shape.kindName] }) := by
  have started : (Step.note .probeStarted).run s =
      (.ok (), { s with events := s.events ++ [.probeStarted] }) :=
    rfl
  have cleared :
      (Step.changeGuard fun _ => .empty).run { s with events := s.events ++ [.probeStarted] } =
        (.ok (), { s with events := s.events ++ [.probeStarted], guard := .empty }) :=
    rfl
  rw [describeTo, Step.run_bind_of_ok started, Step.run_bind_of_ok cleared,
    Step.run_bind_of_ok ran]
  rfl

/-- A description of a type of a universe is found by unfolding with a memo, by
what is known afterwards and from then on. -/
theorem describeTo_probed
    (ready : s.Ready forms allowed)
    (programFree : allowed.programs = [])
    (member : a ∈ forms)
    (accepted : a.hasCapabilities = true)
    (enough : forms.length < depth + 1) :
    ∃ shape reached, (describeTo (depth + 1) a).run s = (.ok shape, reached) ∧
      reached.Ready forms allowed ∧
      s.GrowsTo reached ∧
      ∀ last : Store, last.Ready forms allowed → reached.GrowsTo last →
        probeWith last.entry (depth + 1) a (.busy []) = some (shape, reached.guard.progress) := by
  let start : Store := { s with events := s.events ++ [.probeStarted], guard := .empty }
  have startReady : ({ s with events := s.events ++ [.probeStarted] } : Store).Ready forms allowed :=
    (Store.learns_note ready _).ready
  have bounded : Bounded forms allowed (depth + 1) start :=
    bounded_empty startReady programFree enough
  obtain ⟨shape, value, last, ran, probed⟩ :=
    probe_probed (nestedProbe_answers depth) bounded member accepted []
  have noted := Store.learns_note probed.ready (last.events ++ [.probeEnded shape.kindName])
  have started : s.GrowsTo start := ⟨.refl s.world, fun _ _ found => found⟩
  refine ⟨shape, _, run_describeTo ran, noted.ready,
    started.trans (probed.grows.trans noted.grows), ?_⟩
  intro final finalReady grows
  have mirrored := probed.mirrors final finalReady (noted.grows.trans grows)
  rw [← CycleGuard.progress_empty]
  exact mirrored

/-- A type that was described is known. -/
theorem describeTo_knows
    {shape : Shape}
    {reached : Store}
    (ready : s.Ready forms allowed)
    (programFree : allowed.programs = [])
    (member : a ∈ forms)
    (accepted : a.hasCapabilities = true)
    (enough : forms.length < depth + 1)
    (ran : (describeTo (depth + 1) a).run s = (.ok shape, reached)) :
    reached.Knows a := by
  have startReady : ({ s with events := s.events ++ [.probeStarted] } : Store).Ready forms allowed :=
    (Store.learns_note ready _).ready
  obtain ⟨_, _, last, probeRan, probed⟩ :=
    probe_probed (nestedProbe_answers depth) (bounded_empty startReady programFree enough) member
      accepted []
  have again := (run_describeTo probeRan).symm.trans ran
  cases again
  exact probed.known

/-- Looking up some types of a universe in turn makes all of them known. -/
theorem Store.Ready.exists_known
    (ready : s.Ready forms allowed)
    {asked : List TypeForm}
    (among : ∀ b ∈ asked, b ∈ forms) :
    ∃ last, s.Learns last forms allowed ∧
      ∀ b ∈ asked, b.hasCapabilities = true → ((last.registry .current).find? b).isSome := by
  induction asked with
  | nil => exact ⟨s, .refl ready, fun _ member => nomatch member⟩
  | cons b rest inductionHypothesis =>
      obtain ⟨between, learns, known⟩ :=
        inductionHypothesis fun c member => among c (List.mem_cons_of_mem b member)
      cases accepted : b.hasCapabilities with
      | false =>
          refine ⟨between, learns, ?_⟩
          intro c member has
          rcases List.mem_cons.mp member with rfl | further
          · rw [accepted] at has
            cases has
          · exact known c further has
      | true =>
          obtain ⟨caps, last, _, later, found⟩ :=
            lookup_learns learns.ready (among b List.mem_cons_self) accepted
          refine ⟨last, learns.trans later, ?_⟩
          intro c member has
          rcases List.mem_cons.mp member with rfl | further
          · rw [found]
            rfl
          · obtain ⟨other, otherFound⟩ := Option.isSome_iff_exists.mp (known c further has)
            rw [later.grows.found c other otherFound]
            rfl

end

/-- Whether a later state knows just those types among all that a type form leads
to that lookup accepts. -/
structure Store.Explores (s last : Store) (root : TypeForm) : Prop where
  grows : s.GrowsTo last
  known : ∀ a, s.LeadsTo root a →
    (((last.registry .current).find? a).isSome ↔
      ∃ caps later, (lookup .current a).run s = (.ok caps, later))

/-- Every state that knows a universe leads to one that knows all its types. -/
theorem Store.Ready.exists_explores
    {s reached : Store}
    {forms : List TypeForm}
    {allowed : Allowance}
    {root : TypeForm}
    (ready : s.Ready forms allowed)
    (universal : ∀ a, a ∈ forms ↔ s.LeadsTo root a)
    (reachedReady : reached.Ready forms allowed)
    (grows : s.GrowsTo reached) :
    ∃ last, last.Ready forms allowed ∧ reached.GrowsTo last ∧ s.Explores last root := by
  obtain ⟨last, learns, known⟩ := reachedReady.exists_known fun b member => member
  refine ⟨last, learns.ready, learns.grows, grows.trans learns.grows, ?_⟩
  intro a leads
  have member := (universal a).mpr leads
  constructor
  · intro isKnown
    obtain ⟨caps, found⟩ := Option.isSome_iff_exists.mp isKnown
    cases accepted : a.hasCapabilities with
    | true =>
        obtain ⟨caps, later, lookedUp, _⟩ := lookup_learns ready member accepted
        exact ⟨caps, later, lookedUp⟩
    | false =>
        rw [learns.ready.find?_eq_none member accepted] at found
        cases found
  · rintro ⟨caps, later, lookedUp⟩
    exact known a member (hasCapabilities_of_lookup ready member lookedUp)

/-- The kinds that the guard of a description recorded for types with cases. -/
def Store.recordedKinds (s : Store) : Key → Option PrimitiveKind :=
  s.guard.progress.kinds

/-- A type with cases whose values are not looked into has the same node wherever
it is met. -/
theorem KindsAgree.of_leaves
    {entry : TypeForm → Entry}
    {start : List Key}
    {root : TypeForm}
    (leaves : ∀ above a type value cases, Visits entry start root above a →
      entry a = .inner type (.scalar value cases) → ∃ shape, entry value = .leaf shape) :
    KindsAgree entry start root := by
  intro a b above further type value cases shape other visits _ isInner otherInner notMet notFurther
    unfolds otherUnfolds
  obtain ⟨leaf, isLeaf⟩ := leaves above a type value cases visits isInner
  obtain ⟨shapes, found, rfl⟩ := unfolds.exists_requests isInner notMet
  obtain ⟨others, otherFound, rfl⟩ := otherUnfolds.exists_requests otherInner notFurther
  obtain ⟨first, rest, firstFound, restFound, rfl⟩ := List.forall₂_cons_left_iff.mp found
  obtain ⟨second, more, secondFound, moreFound, rfl⟩ := List.forall₂_cons_left_iff.mp otherFound
  rw [firstFound.eq_of_leaf isLeaf, secondFound.eq_of_leaf isLeaf]
  cases restFound
  cases moreFound
  rfl

/-- The description of a conventional type that lookup accepts is its plain
unfolding with the kinds that were recorded, and the plain unfolding itself
wherever kinds do not depend on the place. -/
theorem describe_unfolds
    {s : Store}
    {a : TypeForm}
    (conventional : s.Conventional .programFree a)
    (accepted : ∃ caps later, (lookup .current a).run s = (.ok caps, later)) :
    ∃ shape reached, (describe a).run s = (.ok shape, reached) ∧
      ∃ last, reached.GrowsTo last ∧ s.Explores last a ∧
        Unfolds last.entry reached.recordedKinds [] a shape ∧
        (∃ plain, Unfolds last.entry (fun _ => none) [] a plain) ∧
        (KindsAgree last.entry [] a → Unfolds last.entry (fun _ => none) [] a shape) := by
  obtain ⟨forms, ready, universal, size⟩ := conventional.exists_universe (.refl s)
  have member : a ∈ forms := (universal a).mpr .root
  obtain ⟨caps, later, lookedUp⟩ := accepted
  obtain ⟨depth, isDepth, enough⟩ := s.exists_depthFor size
  obtain ⟨shape, reached, ran, reachedReady, grows, probed⟩ :=
    describeTo_probed ready rfl member (hasCapabilities_of_lookup ready member lookedUp) enough
  obtain ⟨last, lastReady, growsLast, explores⟩ :=
    ready.exists_explores universal reachedReady grows
  have lawful := lastReady.lawful
  have proper : Proper last.entry forms [] := fun _ _ _ _ _ _ met => by cases met
  have mirrored := probed last lastReady growsLast
  refine ⟨shape, reached, ?_, last, growsLast, explores,
    probeWith_unfolds_kinds lawful member proper mirrored,
    exists_unfolds lawful.closed _ member [],
    fun agree => probeWith_unfolds lawful member proper agree mirrored⟩
  rw [describe, Step.run_bind_of_ok (Step.run_current s), isDepth, ran]

/-- Nodes are structs with a list of nodes. -/
def nodeRecord : ClassRecord where
  cls := ⟨1, "Node", "shapes"⟩
  lineage := [nodeClass, .builtin .struct]
  base := none
  params := []
  hooks := .none
  body := .model
    [{ name := "children"
       written := .generic (.cls (.builtin .list)) [.cls nodeClass]
       form := .generic (.cls (.builtin .list)) [.cls nodeClass]
       isResolved := true
       default := none
       factory := none
       key := none
       aliasName := none
       isExcluded := false
       isArgument := true }]

/-- The state in which nodes and some other classes were declared. -/
def nodeStore (others : List ClassRecord) : Store :=
  { Store.initial with
    world :=
      { World.empty with
        classes := nodeRecord :: others
        names := [("Node", .cls nodeClass)] } }

/-- The type forms that nodes lead to. -/
def nodeForms : List TypeForm :=
  [.cls nodeClass, .generic (.cls (.builtin .list)) [.cls nodeClass], .builtin .list, .any,
    .builtin .str]

/-- Nodes keep to the type forms that they lead to. -/
theorem covers_nodeForms
    {allowed : Allowance}
    (others : List ClassRecord)
    (isProgramFree : allowed.programs = []) :
    (nodeStore others).world.Covers nodeForms allowed := by
  refine .of_unhooked isProgramFree (by simp [nodeForms]) (by simp [nodeForms]) rfl ?_ ?_
  · intro a member b asked
    simp only [nodeForms, List.mem_cons, List.not_mem_nil, or_false] at member
    rcases member with rfl | rfl | rfl | rfl | rfl
    · cases asked
    · have among : b = .cls (.builtin .list) ∨ b = .cls nodeClass := by
        simpa [TypeForm.asks, TypeForm.originForms] using asked
      rcases among with rfl | rfl <;> simp [nodeForms, TypeForm.builtin]
    · cases asked
    · cases asked
    · cases asked
  · intro c member
    have text : TypeForm.cls (.builtin .str) ∈ nodeForms := by simp [nodeForms, TypeForm.builtin]
    have among : c = nodeClass ∨ c = .builtin .list ∨ c = .builtin .str := by
      simpa [nodeForms, TypeForm.builtin] using member
    rcases among with rfl | rfl | rfl
    · refine ⟨rfl, fun _ => rfl, text, fun plans found p isPlan => ?_⟩
      cases found
      obtain rfl := List.mem_singleton.mp isPlan
      simp [nodeForms, Field.structPlan, FieldPlan.of]
    · exact ⟨rfl, fun _ => rfl, text, fun _ found => by cases found⟩
    · exact ⟨rfl, fun _ => rfl, text, fun _ found => by cases found⟩

/-- Nothing is known about what nodes lead to. -/
theorem unknown_nodeForms (others : List ClassRecord) :
    ∀ b ∈ nodeForms, ((nodeStore others).registry .current).find? b = none :=
  Store.unknown_of_all rfl

/-- Nodes are described by their plain unfolding. -/
theorem describe_unfolds_node :
    ∃ shape reached, (describe (.cls nodeClass)).run (nodeStore []) = (.ok shape, reached) ∧
      ∃ last, reached.GrowsTo last ∧ (nodeStore []).Explores last (.cls nodeClass) ∧
        Unfolds last.entry reached.recordedKinds [] (.cls nodeClass) shape := by
  obtain ⟨shape, reached, ran, last, grows, explores, unfolds, _⟩ :=
    describe_unfolds
      (.of_unknown (covers_nodeForms [] rfl) (unknown_nodeForms []) (by simp [nodeForms]) :
        (nodeStore []).Conventional .programFree (.cls nodeClass))
      ⟨_, _, rfl⟩
  exact ⟨shape, reached, ran, last, grows, explores, unfolds⟩

end SchemaProbe

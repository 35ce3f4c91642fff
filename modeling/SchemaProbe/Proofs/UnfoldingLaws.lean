import Mathlib.Data.List.Forall2
import SchemaProbe.Proofs.Unfolding

namespace SchemaProbe

/-!
# Laws of plain unfolding

A tree that was reached at some depth is reached at every greater depth, so that
what a type form unfolds to is a relation without a bound.  In a finite
universe everything unfolds: each type that is expanded is one less to meet.
-/

open List

/-- A list of results is there exactly if each of them is. -/
theorem mapM_eq_some_iff
    {f : α → Option β}
    {as : List α}
    {bs : List β} :
    as.mapM f = some bs ↔ Forall₂ (fun a b => f a = some b) as bs := by
  induction as generalizing bs with
  | nil =>
      cases bs with
      | nil => simp
      | cons b rest => simp
  | cons a rest inductionHypothesis =>
      rw [List.mapM_cons, forall₂_cons_left_iff]
      constructor
      · intro collected
        obtain ⟨b, first, restCollected⟩ := Option.bind_eq_some_iff.mp collected
        obtain ⟨others, later, shape⟩ := Option.bind_eq_some_iff.mp restCollected
        cases shape
        exact ⟨b, others, first, inductionHypothesis.mp later, rfl⟩
      · rintro ⟨b, others, first, later, rfl⟩
        rw [inductionHypothesis.mpr later, first]
        rfl

/-- What is related to the elements of a list one by one is related to one of
them. -/
theorem exists_mem_of_forall₂
    {related : α → β → Prop}
    {as : List α}
    {bs : List β}
    {b : β}
    (each : Forall₂ related as bs)
    (member : b ∈ bs) :
    ∃ a ∈ as, related a b := by
  induction each with
  | nil => simp at member
  | cons first _ inductionHypothesis =>
      rcases List.mem_cons.mp member with rfl | later
      · exact ⟨_, by simp, first⟩
      · obtain ⟨a, isLater, relates⟩ := inductionHypothesis later
        exact ⟨a, List.mem_cons_of_mem _ isLater, relates⟩

section

variable {entry : TypeForm → Entry} {kinds : Key → Option PrimitiveKind}

/-- A greater depth reaches the same tree. -/
theorem unfoldWith_mono
    {depth more : Nat}
    {above : List Key}
    {a : TypeForm}
    {shape : Shape}
    (reached : unfoldWith entry kinds depth above a = some shape)
    (deeper : depth ≤ more) :
    unfoldWith entry kinds more above a = some shape := by
  induction depth generalizing more above a shape with
  | zero => simp [unfoldWith] at reached
  | succ depth inductionHypothesis =>
      obtain ⟨more, rfl⟩ : ∃ rest, more = rest + 1 := ⟨more - 1, by omega⟩
      unfold unfoldWith at reached ⊢
      split at reached
      · exact reached
      · split at reached
        · rename_i met
          rw [if_pos met]
          exact reached
        · rename_i notMet
          rw [if_neg notMet]
          obtain ⟨shapes, collected, shapeOf⟩ := Option.map_eq_some_iff.mp reached
          refine Option.map_eq_some_iff.mpr ⟨shapes, ?_, shapeOf⟩
          rw [mapM_eq_some_iff] at collected ⊢
          exact collected.imp fun _ _ found => inductionHypothesis found (by omega)

/-- Type forms that stand for the same thing unfold alike. -/
theorem unfoldWith_congr
    {a b : TypeForm}
    (same : entry a = entry b)
    (depth : Nat)
    (above : List Key) :
    unfoldWith entry kinds depth above a = unfoldWith entry kinds depth above b := by
  cases depth with
  | zero => rfl
  | succ depth =>
      unfold unfoldWith
      rw [same]

/-- What a type form unfolds to below the types that are being expanded. -/
def Unfolds
    (entry : TypeForm → Entry)
    (kinds : Key → Option PrimitiveKind)
    (above : List Key)
    (a : TypeForm)
    (shape : Shape) :
    Prop :=
  ∃ depth, unfoldWith entry kinds depth above a = some shape

namespace Unfolds

/-- A type form unfolds to one tree only. -/
theorem unique
    {above : List Key}
    {a : TypeForm}
    {first second : Shape}
    (firstReached : Unfolds entry kinds above a first)
    (secondReached : Unfolds entry kinds above a second) :
    first = second := by
  obtain ⟨depth, firstFound⟩ := firstReached
  obtain ⟨other, secondFound⟩ := secondReached
  have atBoth := unfoldWith_mono firstFound (Nat.le_max_left depth other)
  rw [unfoldWith_mono secondFound (Nat.le_max_right depth other)] at atBoth
  exact (Option.some.inj atBoth).symm

/-- Type forms that stand for the same thing unfold to the same trees. -/
theorem congr
    {above : List Key}
    {a b : TypeForm}
    {shape : Shape}
    (unfolds : Unfolds entry kinds above a shape)
    (same : entry a = entry b) :
    Unfolds entry kinds above b shape := by
  obtain ⟨depth, found⟩ := unfolds
  exact ⟨depth, by rw [← unfoldWith_congr same, found]⟩

/-- What is not looked into unfolds to its node. -/
theorem leaf
    {a : TypeForm}
    {shape : Shape}
    (isLeaf : entry a = .leaf shape)
    (above : List Key) :
    Unfolds entry kinds above a shape :=
  ⟨1, by simp [unfoldWith, isLeaf]⟩

/-- A type that is met below itself is referred back to. -/
theorem back
    {a type : TypeForm}
    {layout : Layout}
    {above : List Key}
    (isInner : entry a = .inner type layout)
    (met : type.identity ∈ above) :
    Unfolds entry kinds above a (.back type) :=
  ⟨1, by simp [unfoldWith, isInner, met]⟩

/-- What the requests of a type unfold to, all at one depth. -/
private theorem common_depth
    {above : List Key}
    {requests : List TypeForm}
    {shapes : List Shape}
    (unfold : Forall₂ (Unfolds entry kinds above) requests shapes) :
    ∃ depth, Forall₂ (fun a s => unfoldWith entry kinds depth above a = some s)
      requests shapes := by
  induction unfold with
  | nil => exact ⟨0, .nil⟩
  | cons first _ inductionHypothesis =>
      obtain ⟨depth, firstFound⟩ := first
      obtain ⟨other, restFound⟩ := inductionHypothesis
      refine ⟨max depth other, .cons (unfoldWith_mono firstFound (Nat.le_max_left _ _)) ?_⟩
      exact restFound.imp fun _ _ found => unfoldWith_mono found (Nat.le_max_right _ _)

/-- A type that is looked into unfolds to the node that its layout makes of what
its requests unfold to. -/
theorem inner
    {a type : TypeForm}
    {layout : Layout}
    {above : List Key}
    {shapes : List Shape}
    (isInner : entry a = .inner type layout)
    (notMet : type.identity ∉ above)
    (requests : Forall₂ (Unfolds entry kinds (type.identity :: above)) layout.requests shapes) :
    Unfolds entry kinds above a (layout.node type (kinds type.identity) shapes) := by
  obtain ⟨depth, found⟩ := common_depth requests
  refine ⟨depth + 1, ?_⟩
  have collected := mapM_eq_some_iff.mpr found
  simp [unfoldWith, isInner, notMet, collected]

/-- The node of what is not looked into. -/
theorem eq_of_leaf
    {a : TypeForm}
    {above : List Key}
    {shape found : Shape}
    (unfolds : Unfolds entry kinds above a found)
    (isLeaf : entry a = .leaf shape) :
    found = shape :=
  unfolds.unique (leaf isLeaf above)

/-- The node of a type that is met below itself. -/
theorem eq_of_back
    {a type : TypeForm}
    {layout : Layout}
    {above : List Key}
    {found : Shape}
    (unfolds : Unfolds entry kinds above a found)
    (isInner : entry a = .inner type layout)
    (met : type.identity ∈ above) :
    found = .back type :=
  unfolds.unique (back isInner met)

/-- The node of a type that is looked into comes from what its requests unfold
to. -/
theorem exists_requests
    {a type : TypeForm}
    {layout : Layout}
    {above : List Key}
    {found : Shape}
    (unfolds : Unfolds entry kinds above a found)
    (isInner : entry a = .inner type layout)
    (notMet : type.identity ∉ above) :
    ∃ shapes, Forall₂ (Unfolds entry kinds (type.identity :: above)) layout.requests shapes ∧
      found = layout.node type (kinds type.identity) shapes := by
  obtain ⟨depth, reached⟩ := unfolds
  cases depth with
  | zero => simp [unfoldWith] at reached
  | succ depth =>
      simp only [unfoldWith, isInner, List.contains_iff_mem, notMet, if_false,
        Option.map_eq_some_iff] at reached
      obtain ⟨shapes, collected, shapeOf⟩ := reached
      refine ⟨shapes, ?_, shapeOf.symm⟩
      exact (mapM_eq_some_iff.mp collected).imp fun _ _ reached => ⟨depth, reached⟩

/-- Trees are made from the leaves and the nodes that refer back upwards. -/
theorem tree_induction
    {motive : List Key → TypeForm → Shape → Prop}
    {above : List Key}
    {a : TypeForm}
    {shape : Shape}
    (leaf : ∀ above a shape, entry a = .leaf shape → motive above a shape)
    (back : ∀ above a type layout, entry a = .inner type layout → type.identity ∈ above →
      motive above a (.back type))
    (inner : ∀ above a type layout shapes, entry a = .inner type layout →
      type.identity ∉ above →
      Forall₂ (Unfolds entry kinds (type.identity :: above)) layout.requests shapes →
      Forall₂ (motive (type.identity :: above)) layout.requests shapes →
      motive above a (layout.node type (kinds type.identity) shapes))
    (unfolds : Unfolds entry kinds above a shape) :
    motive above a shape := by
  obtain ⟨depth, reached⟩ := unfolds
  induction depth generalizing above a shape with
  | zero => simp [unfoldWith] at reached
  | succ depth inductionHypothesis =>
      unfold unfoldWith at reached
      split at reached
      · rename_i isLeaf
        cases reached
        exact leaf above a shape isLeaf
      · rename_i type layout isInner
        split at reached
        · rename_i met
          cases reached
          exact back above a type layout isInner (List.contains_iff_mem.mp met)
        · rename_i notMet
          obtain ⟨shapes, collected, rfl⟩ := Option.map_eq_some_iff.mp reached
          have found := mapM_eq_some_iff.mp collected
          refine inner above a type layout shapes isInner ?_ ?_ ?_
          · exact fun met => notMet (List.contains_iff_mem.mpr met)
          · exact found.imp fun _ _ reached => ⟨depth, reached⟩
          · exact found.imp fun _ _ reached => inductionHypothesis reached

end Unfolds

end

/-! ## Finite universes -/

/-- What identifies the type that a type form stands for, if it stands for
one. -/
def Entry.key? : Entry → Option Key
  | .leaf shape => shape.type.map (·.identity)
  | .inner type _ => some type.identity

/-- Whether some type forms contain everything that they ask for. -/
def ClosedUnder (entry : TypeForm → Entry) (forms : List TypeForm) : Prop :=
  ∀ a ∈ forms, ∀ type layout, entry a = .inner type layout →
    ∀ request ∈ layout.requests, request ∈ forms

/-- Whether a type form stands for a type that is not being expanded. -/
def isIdle (entry : TypeForm → Entry) (isBusy : Key → Bool) (a : TypeForm) : Bool :=
  ((entry a).key?.map fun key => !isBusy key).getD false

/-- How many types of a universe are not being expanded. -/
def remaining
    (entry : TypeForm → Entry)
    (forms : List TypeForm)
    (isBusy : Key → Bool) :
    Nat :=
  forms.countP (isIdle entry isBusy)

/-- What fewer elements satisfy is counted less often. -/
private theorem countP_lt_countP
    {p q : α → Bool}
    {as : List α}
    {a : α}
    (weaker : ∀ b ∈ as, p b = true → q b = true)
    (member : a ∈ as)
    (fails : p a = false)
    (holds : q a = true) :
    as.countP p < as.countP q := by
  induction as with
  | nil => simp at member
  | cons b rest inductionHypothesis =>
      have restWeaker : ∀ c ∈ rest, p c = true → q c = true :=
        fun c later => weaker c (List.mem_cons_of_mem _ later)
      rcases List.mem_cons.mp member with rfl | isLater
      · have restLe := List.countP_mono_left restWeaker
        rw [List.countP_cons_of_neg (by simp [fails]), List.countP_cons_of_pos holds]
        omega
      · have restLt := inductionHypothesis restWeaker isLater
        have headWeaker := weaker b (by simp)
        rw [List.countP_cons, List.countP_cons]
        cases pHead : p b with
        | false =>
            simp only [Bool.false_eq_true, if_false]
            omega
        | true =>
            rw [headWeaker pHead]
            simpa using restLt

/-- Once a type is being expanded, one type less remains. -/
theorem remaining_lt
    {entry : TypeForm → Entry}
    {forms : List TypeForm}
    {a : TypeForm}
    {key : Key}
    {isBusy isBusyLater : Key → Bool}
    (member : a ∈ forms)
    (hasKey : (entry a).key? = some key)
    (idle : isBusy key = false)
    (busy : isBusyLater key = true)
    (stays : ∀ other, isBusy other = true → isBusyLater other = true) :
    remaining entry forms isBusyLater < remaining entry forms isBusy := by
  refine countP_lt_countP ?_ member (by simp [isIdle, hasKey, busy])
    (by simp [isIdle, hasKey, idle])
  intro b _ idleLater
  unfold isIdle at idleLater ⊢
  cases otherKey : (entry b).key? with
  | none => simp [otherKey] at idleLater
  | some other =>
      cases busyBefore : isBusy other with
      | false => simp [busyBefore]
      | true => simp [otherKey, stays other busyBefore] at idleLater

/-- In a universe that contains everything it asks for, everything unfolds. -/
theorem exists_unfolds
    {entry : TypeForm → Entry}
    {forms : List TypeForm}
    (closed : ClosedUnder entry forms)
    (kinds : Key → Option PrimitiveKind)
    {a : TypeForm}
    (member : a ∈ forms)
    (above : List Key) :
    ∃ shape, Unfolds entry kinds above a shape := by
  generalize bound : remaining entry forms above.contains = n
  induction n using Nat.strongRecOn generalizing a above with
  | ind n inductionHypothesis =>
      cases entryCase : entry a with
      | leaf shape => exact ⟨shape, .leaf entryCase above⟩
      | inner type layout =>
          by_cases met : type.identity ∈ above
          · exact ⟨.back type, .back entryCase met⟩
          · have fewer :
                remaining entry forms (type.identity :: above).contains < n := by
              rw [← bound]
              have hasKey : (entry a).key? = some type.identity := by
                rw [entryCase]
                rfl
              refine remaining_lt member hasKey ?_ ?_ ?_
              · simpa using met
              · simp
              · intro other busy
                simp only [List.contains_iff_mem] at busy ⊢
                exact List.mem_cons_of_mem _ busy
            have requestsUnfold :
                ∃ shapes, Forall₂ (Unfolds entry kinds (type.identity :: above))
                  layout.requests shapes := by
              have each : ∀ request ∈ layout.requests,
                  ∃ shape, Unfolds entry kinds (type.identity :: above) request shape :=
                fun request asked =>
                  inductionHypothesis _ fewer (closed a member type layout entryCase request asked)
                    _ rfl
              generalize layout.requests = requests at each
              induction requests with
              | nil => exact ⟨[], .nil⟩
              | cons request rest later =>
                  obtain ⟨shape, unfolds⟩ := each request (by simp)
                  obtain ⟨shapes, others⟩ :=
                    later fun other asked => each other (List.mem_cons_of_mem _ asked)
                  exact ⟨shape :: shapes, .cons unfolds others⟩
            obtain ⟨shapes, requestsUnfold⟩ := requestsUnfold
            exact ⟨_, .inner entryCase met requestsUnfold⟩

end SchemaProbe

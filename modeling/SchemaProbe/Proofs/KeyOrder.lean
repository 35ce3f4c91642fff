import SchemaProbe.TypeForm.Identity

namespace SchemaProbe

/-!
# The order of keys

Keys are linearly ordered, so that an increasing list is determined by its
members.  The key of a set therefore depends on what is in the set and on
nothing else, and says what that is.
-/

namespace Key

theorem compare_eq_iff
    {a b : Key} :
    compare a b = .eq ↔ a = b := by
  induction a generalizing b with
  | tag s => cases b <;> simp [compare, rank]
  | number r =>
      cases b with
      | number q =>
          cases r
          cases q
          simp [compare]
      | _ => simp [compare, rank]
  | text s => cases b <;> simp [compare, rank]
  | pair first second firstIh secondIh =>
      cases b <;> simp [compare, rank, firstIh, secondIh]

theorem compare_swap
    (a b : Key) :
    (compare a b).swap = compare b a := by
  have ofOrd {α : Type} [Ord α] [Std.TransOrd α] (x y : α) :
      (Ord.compare x y).swap = Ord.compare y x :=
    Std.OrientedCmp.eq_swap.symm
  induction a generalizing b with
  | tag s => cases b <;> simp only [compare, rank, ofOrd]
  | number r => cases b <;> simp only [compare, rank, Ordering.swap_then, ofOrd]
  | text s => cases b <;> simp only [compare, rank, ofOrd]
  | pair first second firstIh secondIh =>
      cases b <;> simp only [compare, rank, Ordering.swap_then, ofOrd, firstIh, secondIh]

/-- What comes first in lexicographic order comes first in each later
comparison. -/
private theorem then_lt_trans
    {α β : Type}
    {f : α → α → Ordering}
    {g : β → β → Ordering}
    {a b c : α}
    {x y z : β}
    (sameFirst : ∀ p q, f p q = .eq → p = q)
    (firstTrans : f a b = .lt → f b c = .lt → f a c = .lt)
    (secondTrans : g x y = .lt → g y z = .lt → g x z = .lt)
    (lower : (f a b).then (g x y) = .lt)
    (upper : (f b c).then (g y z) = .lt) :
    (f a c).then (g x z) = .lt := by
  rw [Ordering.then_eq_lt] at lower upper ⊢
  rcases lower with lower | ⟨sameLower, lower⟩
  · rcases upper with upper | ⟨sameUpper, _⟩
    · exact .inl (firstTrans lower upper)
    · rw [← sameFirst b c sameUpper]
      exact .inl lower
  · rw [sameFirst a b sameLower]
    rcases upper with upper | ⟨sameUpper, upper⟩
    · exact .inl upper
    · exact .inr ⟨sameUpper, secondTrans lower upper⟩

/-- Keys of different ranks are compared by their ranks. -/
private theorem compare_of_rank_ne
    {a b : Key}
    (different : a.rank ≠ b.rank) :
    compare a b = Ord.compare a.rank b.rank := by
  cases a <;> cases b <;> first
    | rfl
    | exact absurd rfl different

private theorem rank_le_of_lt
    {a b : Key}
    (less : compare a b = .lt) :
    a.rank ≤ b.rank := by
  by_cases same : a.rank = b.rank
  · exact Nat.le_of_eq same
  · rw [compare_of_rank_ne same, Nat.compare_eq_lt] at less
    exact Nat.le_of_lt less

private theorem compare_lt_of_rank_lt
    {a b : Key}
    (ranked : a.rank < b.rank) :
    compare a b = .lt := by
  rw [compare_of_rank_ne (Nat.ne_of_lt ranked), Nat.compare_eq_lt]
  exact ranked

/-- In a chain of comparisons the rank grows somewhere or stays the same. -/
private theorem rank_lt_or_same
    {a b c : Key}
    (lower : compare a b = .lt)
    (upper : compare b c = .lt) :
    a.rank < c.rank ∨ a.rank = b.rank ∧ b.rank = c.rank := by
  have lowerRank := rank_le_of_lt lower
  have upperRank := rank_le_of_lt upper
  omega

theorem compare_lt_trans
    {a b c : Key}
    (lower : compare a b = .lt)
    (upper : compare b c = .lt) :
    compare a c = .lt := by
  have ofOrd {α : Type} [Ord α] [Std.TransOrd α] {x y z : α} :
      Ord.compare x y = .lt → Ord.compare y z = .lt → Ord.compare x z = .lt :=
    fun first second => Std.TransCmp.lt_trans first second
  have ofEq {α : Type} [Ord α] [Std.LawfulEqOrd α] (p q : α) :
      Ord.compare p q = .eq → p = q :=
    Std.LawfulEqCmp.compare_eq_iff_eq.mp
  induction a generalizing b c with
  | tag s =>
      rcases rank_lt_or_same lower upper with ranked | ⟨same, further⟩
      · exact compare_lt_of_rank_lt ranked
      · cases b <;> cases c <;> simp [rank] at same further
        exact ofOrd lower upper
  | number r =>
      rcases rank_lt_or_same lower upper with ranked | ⟨same, further⟩
      · exact compare_lt_of_rank_lt ranked
      · cases b <;> cases c <;> simp [rank] at same further
        exact then_lt_trans ofEq ofOrd ofOrd lower upper
  | text s =>
      rcases rank_lt_or_same lower upper with ranked | ⟨same, further⟩
      · exact compare_lt_of_rank_lt ranked
      · cases b <;> cases c <;> simp [rank] at same further
        exact ofOrd lower upper
  | pair first second firstIh secondIh =>
      rcases rank_lt_or_same lower upper with ranked | ⟨same, further⟩
      · exact compare_lt_of_rank_lt ranked
      · cases b <;> cases c <;> simp [rank] at same further
        exact then_lt_trans (fun _ _ => compare_eq_iff.mp) firstIh secondIh lower upper

/-! ## Increasing lists -/

/-- Whether a list of keys is increasing. -/
def Increasing (keys : List Key) : Prop :=
  keys.Pairwise fun a b => compare a b = .lt

theorem mem_insert_iff
    {k other : Key}
    {keys : List Key} :
    other ∈ insert k keys ↔ other = k ∨ other ∈ keys := by
  induction keys with
  | nil => simp [insert]
  | cons head rest inductionHypothesis =>
      rw [insert]
      split
      · simp
      · rename_i same
        rw [compare_eq_iff] at same
        subst same
        simp
      · rw [List.mem_cons, inductionHypothesis, List.mem_cons]
        exact or_left_comm

theorem increasing_insert
    (k : Key)
    {keys : List Key}
    (increasing : Increasing keys) :
    Increasing (insert k keys) := by
  induction keys with
  | nil => simp [insert, Increasing]
  | cons head rest inductionHypothesis =>
      obtain ⟨headLeast, restIncreasing⟩ := List.pairwise_cons.mp increasing
      rw [insert]
      split
      · rename_i less
        refine List.pairwise_cons.mpr ⟨fun other member => ?_, increasing⟩
        rcases List.mem_cons.mp member with rfl | later
        · exact less
        · exact compare_lt_trans less (headLeast other later)
      · exact increasing
      · rename_i greater
        refine List.pairwise_cons.mpr ⟨fun other member => ?_, inductionHypothesis restIncreasing⟩
        rcases mem_insert_iff.mp member with rfl | later
        · rw [← compare_swap, greater]
          rfl
        · exact headLeast other later

/-- An increasing list is determined by its members. -/
theorem Increasing.eq_of_mem_iff
    {keys others : List Key}
    (increasing : Increasing keys)
    (othersIncreasing : Increasing others)
    (same : ∀ k, k ∈ keys ↔ k ∈ others) :
    keys = others := by
  have notLess (k : Key) : compare k k ≠ .lt := by
    rw [compare_eq_iff.mpr rfl]
    simp
  induction keys generalizing others with
  | nil =>
      cases others with
      | nil => rfl
      | cons head rest => exact absurd ((same head).mpr (by simp)) (by simp)
  | cons head rest inductionHypothesis =>
      cases others with
      | nil => exact absurd ((same head).mp (by simp)) (by simp)
      | cons other more =>
          obtain ⟨headLeast, restIncreasing⟩ := List.pairwise_cons.mp increasing
          obtain ⟨otherLeast, moreIncreasing⟩ := List.pairwise_cons.mp othersIncreasing
          have heads : head = other := by
            rcases List.mem_cons.mp ((same head).mp (by simp)) with equal | later
            · exact equal
            · rcases List.mem_cons.mp ((same other).mpr (by simp)) with equal | otherLater
              · exact equal.symm
              · exact absurd (compare_lt_trans (headLeast other otherLater) (otherLeast head later))
                  (notLess head)
          subst heads
          refine congrArg (head :: ·) (inductionHypothesis restIncreasing moreIncreasing ?_)
          intro k
          have members := same k
          simp only [List.mem_cons] at members
          constructor
          · intro later
            rcases members.mp (.inr later) with rfl | found
            · exact absurd (headLeast k later) (notLess k)
            · exact found
          · intro later
            rcases members.mpr (.inr later) with rfl | found
            · exact absurd (otherLeast k later) (notLess k)
            · exact found

/-! ## Keys of sequences and sets -/

/-- The keys in the key of a sequence. -/
def elements : Key → List Key
  | .pair k rest => k :: elements rest
  | _ => []

@[simp]
theorem elements_sequence (keys : List Key) : (sequence keys).elements = keys := by
  induction keys with
  | nil => rfl
  | cons k rest inductionHypothesis => simp [sequence, elements, inductionHypothesis]

theorem foldr_insert
    (keys : List Key) :
    Increasing (keys.foldr insert []) ∧ ∀ k, k ∈ keys.foldr insert [] ↔ k ∈ keys := by
  induction keys with
  | nil => simp [Increasing]
  | cons head rest inductionHypothesis =>
      refine ⟨increasing_insert head inductionHypothesis.1, fun k => ?_⟩
      rw [List.foldr_cons, mem_insert_iff, inductionHypothesis.2, List.mem_cons]

/-- The key of a set says what is in it. -/
theorem mem_elements_setOf_iff
    {k : Key}
    {keys : List Key} :
    k ∈ (setOf keys).elements ↔ k ∈ keys := by
  rw [setOf, elements_sequence]
  exact (foldr_insert keys).2 k

/-- Sets with the same members have the same key. -/
theorem setOf_congr
    {keys others : List Key}
    (same : ∀ k, k ∈ keys ↔ k ∈ others) :
    setOf keys = setOf others := by
  have increasing := foldr_insert keys
  have othersIncreasing := foldr_insert others
  refine congrArg sequence (increasing.1.eq_of_mem_iff othersIncreasing.1 fun k => ?_)
  rw [increasing.2, othersIncreasing.2, same]

end Key

end SchemaProbe

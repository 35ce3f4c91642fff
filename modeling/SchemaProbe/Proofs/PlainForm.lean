import SchemaProbe.Proofs.KeyOrder
import SchemaProbe.TypeForm.Build
import SchemaProbe.Weight

namespace SchemaProbe

/-!
# Plain type forms

A plain type form has no notes and nothing mutable in it, and its unions are
flat.  Its key says what it is: whether it has capabilities at all, whether null
is among its members, and, for a union with null, what is left without null.
-/

namespace Key

/-- Whether a key is that of a type form with capabilities. -/
def namesType : Key → Bool
  | .tag name => name == "any"
  | .pair (.tag "generic") (.pair (.tag _) _) => false
  | .pair (.tag label) _ =>
    ["variable", "builtin", "sized", "class", "union", "literal", "bare", "generic",
      "callable"].contains label
  | _ => false

/-- The keys of the members of a union, or the key alone. -/
def members : Key → List Key
  | .pair (.tag "union") keys => keys.elements
  | key => [key]

/-- Whether a key is that of a union with null. -/
def isNullable : Key → Bool
  | .pair (.tag "union") keys => keys.elements.contains TypeForm.nullType.key
  | _ => false

end Key

namespace TypeForm

/-- Whether a type form has capabilities, as opposed to what is no type. -/
def hasCapabilities : TypeForm → Bool
  | .any | .cls _ | .variable _ | .bare _ | .generic (.cls _) _ | .callable _ _ | .union _ _
  | .literal _ | .annotated _ _ => true
  | _ => false

/-- Whether a type form stays as it is among the members of a union. -/
def standsInUnion : TypeForm → Bool
  | .union _ _ => false
  | .text _ => false
  | .value v => !v.isNull
  | _ => true

mutual

/-- Whether a type form has no notes, nothing mutable and only flat unions, and
what is no type is not mistaken for one. -/
def isPlain : TypeForm → Bool
  | .annotated _ _ => false
  | .generic _ args => allPlain args
  | .callable params result => allPlain params && isPlain result
  | .union _ members => allPlain members && members.all standsInUnion
  | .literal values => Value.allHashable values
  | .value v => v.isHashable && !v.key.namesType
  | _ => true

/-- Whether all type forms are plain. -/
def allPlain : List TypeForm → Bool
  | [] => true
  | a :: rest => isPlain a && allPlain rest

end

theorem allPlain_iff
    {as : List TypeForm} :
    allPlain as = true ↔ ∀ a ∈ as, a.isPlain = true := by
  induction as with
  | nil => simp [allPlain]
  | cons a rest inductionHypothesis => simp [allPlain, inductionHypothesis]

mutual

theorem isHashable_of_isPlain
    (a : TypeForm)
    (plain : a.isPlain = true) :
    a.isHashable = true := by
  cases a with
  | generic _ args => exact allHashable_of_allPlain args plain
  | callable params result =>
      simp only [isPlain, Bool.and_eq_true] at plain
      simp [isHashable, allHashable_of_allPlain params plain.1,
        isHashable_of_isPlain result plain.2]
  | union _ members =>
      simp only [isPlain, Bool.and_eq_true] at plain
      exact allHashable_of_allPlain members plain.1
  | literal values => exact plain
  | value v =>
      simp only [isPlain, Bool.and_eq_true] at plain
      exact plain.1
  | annotated inner notes => cases plain
  | _ => rfl

theorem allHashable_of_allPlain
    (as : List TypeForm)
    (plain : allPlain as = true) :
    allHashable as = true := by
  cases as with
  | nil => rfl
  | cons a rest =>
      simp only [allPlain, Bool.and_eq_true] at plain
      simp [allHashable, isHashable_of_isPlain a plain.1, allHashable_of_allPlain rest plain.2]

end

/-- A plain type form is identified by its key. -/
theorem identity_of_isPlain
    {a : TypeForm}
    (plain : a.isPlain = true) :
    a.identity = a.key := by
  rw [identity, if_pos (isHashable_of_isPlain a plain)]

/-- Plain type forms with the same key are the same type. -/
theorem identity_eq_of_key
    {a b : TypeForm}
    (plain : a.isPlain = true)
    (otherPlain : b.isPlain = true)
    (same : a.key = b.key) :
    a.identity = b.identity := by
  rw [identity_of_isPlain plain, identity_of_isPlain otherPlain, same]

/-! ## What the key of a type form says -/

private theorem namesType_class (c : ClassRef) : c.key.namesType = true := by
  cases c <;> rfl

/-- The key of a plain type form says whether it has capabilities. -/
theorem namesType_key
    {a : TypeForm}
    (plain : a.isPlain = true) :
    a.key.namesType = a.hasCapabilities := by
  cases a with
  | cls c => exact namesType_class c
  | generic origin args =>
      cases origin with
      | cls c => cases c <;> rfl
      | classVar => rfl
      | final => rfl
  | annotated inner notes => cases plain
  | value v =>
      simp only [isPlain, Bool.and_eq_true, Bool.not_eq_true'] at plain
      exact plain.2
  | _ => rfl

/-- Only the null value's class has its key. -/
theorem key_eq_nullType_iff
    {a : TypeForm}
    (plain : a.isPlain = true) :
    a.key = nullType.key ↔ a.isNullType = true := by
  constructor
  · intro same
    have names := namesType_key plain
    rw [same] at names
    cases a with
    | cls c =>
        cases c with
        | builtin b => cases b <;> first | rfl | (revert same; decide)
        | _ => simp [key, ClassRef.key, nullType, builtin, Key.labelled] at same
    | value v => cases names
    | text s => cases names
    | any => simp [key, ClassRef.key, nullType, builtin, Key.labelled] at same
    | never => cases names
    | ellipsis => cases names
    | _ => simp [key, ClassRef.key, nullType, builtin, Key.labelled] at same
  · intro isNull
    cases a with
    | cls c =>
        obtain rfl := eq_of_beq isNull
        rfl
    | _ => cases isNull

/-- The keys of type forms are those of their elements. -/
theorem keys_eq_map (as : List TypeForm) : keys as = as.map key := by
  induction as with
  | nil => rfl
  | cons a rest inductionHypothesis => simp [keys, inductionHypothesis]

/-- The members of the key of a flat union are its members' keys. -/
theorem mem_members_union_iff
    {style : UnionStyle}
    {members : List TypeForm}
    {k : Key} :
    k ∈ (TypeForm.union style members).key.members ↔ ∃ m ∈ members, m.key = k := by
  simp only [key, Key.labelled, Key.members, Key.mem_elements_setOf_iff, keys_eq_map,
    List.mem_map]

/-- What stands in a union has no members of its own. -/
theorem members_of_standsInUnion
    {a : TypeForm}
    (plain : a.isPlain = true)
    (stands : a.standsInUnion = true) :
    a.key.members = [a.key] := by
  cases a with
  | cls c => cases c <;> rfl
  | union style members => cases stands
  | annotated inner notes => cases plain
  | value v =>
      simp only [isPlain, Bool.and_eq_true, Bool.not_eq_true'] at plain
      obtain ⟨_, noType⟩ := plain
      rw [key]
      unfold Key.members
      split
      · rename_i unionKey
        rw [unionKey] at noType
        cases noType
      · rfl
  | _ => rfl

/-! ## Unions without null -/

/-- The members of a flat union that are left, made into a type form again. -/
def united (members : List TypeForm) : TypeForm :=
  match distinct members with
  | [single] => single
  | several => .union .named several

theorem mem_of_mem_distinct
    {a : TypeForm}
    {as : List TypeForm}
    (member : a ∈ distinct as) :
    a ∈ as := by
  induction as with
  | nil => exact member
  | cons first rest inductionHypothesis =>
      rw [distinct] at member
      rcases List.mem_cons.mp member with rfl | later
      · exact List.mem_cons_self
      · exact List.mem_cons_of_mem _ (inductionHypothesis (List.mem_filter.mp later).1)

/-- Dropping repeated type forms keeps every key. -/
theorem exists_distinct_iff
    {as : List TypeForm}
    (plain : ∀ a ∈ as, a.isPlain = true)
    {k : Key} :
    (∃ a ∈ distinct as, a.key = k) ↔ ∃ a ∈ as, a.key = k := by
  constructor
  · rintro ⟨a, member, isKey⟩
    exact ⟨a, mem_of_mem_distinct member, isKey⟩
  · rintro ⟨a, member, isKey⟩
    induction as generalizing a with
    | nil => cases member
    | cons first rest inductionHypothesis =>
        have restPlain : ∀ b ∈ rest, b.isPlain = true :=
          fun b later => plain b (List.mem_cons_of_mem _ later)
        rw [distinct]
        by_cases same : first.key = k
        · exact ⟨first, List.mem_cons_self, same⟩
        · have later : a ∈ rest := by
            rcases List.mem_cons.mp member with rfl | later
            · exact absurd isKey same
            · exact later
          obtain ⟨b, kept, bKey⟩ := inductionHypothesis restPlain a later isKey
          have bPlain := restPlain b (mem_of_mem_distinct kept)
          refine ⟨b, List.mem_cons_of_mem _ (List.mem_filter.mpr ⟨kept, ?_⟩), bKey⟩
          have different : first.key ≠ b.key := fun equal => same (equal.trans bKey)
          simpa [TypeForm.same, identity_of_isPlain bPlain,
            identity_of_isPlain (plain first List.mem_cons_self)] using different

/-- Making a union of what stands in one drops repetitions and nothing else. -/
theorem unionOf_eq_united
    {members : List TypeForm}
    (stand : ∀ m ∈ members, m.standsInUnion = true) :
    unionOf members = united members := by
  have arguments : (members.map argument).flatMap unionMembers = members := by
    induction members with
    | nil => rfl
    | cons m rest inductionHypothesis =>
        have alone : unionMembers m.argument = [m] := by
          have stands := stand m List.mem_cons_self
          cases m with
          | union style others => cases stands
          | text s => cases stands
          | value v => cases v <;> first | rfl | cases stands
          | _ => rfl
        rw [List.map_cons, List.flatMap_cons, alone,
          inductionHypothesis fun m later => stand m (List.mem_cons_of_mem _ later)]
        rfl
  rw [unionOf, unionIn, arguments]
  rfl

section

variable {style : UnionStyle} {members : List TypeForm}

/-- The members of a plain union are plain and stand in it. -/
theorem plain_members
    (plain : (TypeForm.union style members).isPlain = true) :
    ∀ m ∈ members, m.isPlain = true ∧ m.standsInUnion = true := by
  simp only [isPlain, Bool.and_eq_true, List.all_eq_true] at plain
  exact fun m member => ⟨allPlain_iff.mp plain.1 m member, plain.2 m member⟩

/-- A plain union either has no null, and stays as it is, or becomes the union of
the others. -/
theorem stripNull_union
    (plain : (TypeForm.union style members).isPlain = true) :
    stripNull (.union style members) =
      if members.any isNullType then (united (members.filter fun m => !m.isNullType), true)
      else (.union style members, false) := by
  have others : ∀ m ∈ members.filter fun m => !m.isNullType, m.standsInUnion = true :=
    fun m member => (plain_members plain m (List.mem_filter.mp member).1).2
  rw [stripNull]
  by_cases hasNull : members.any isNullType = true
  · rw [if_pos hasNull]
    have shorter : (members.filter fun m => !m.isNullType).length < members.length := by
      obtain ⟨m, member, isNull⟩ := List.any_eq_true.mp hasNull
      exact List.length_filter_lt_length_iff_exists.mpr ⟨m, member, by simp [isNull]⟩
    rw [if_pos shorter]
    split
    · rename_i single isSingle
      rw [isSingle]
      rfl
    · rw [unionOf_eq_united others]
  · rw [if_neg hasNull]
    have same : (members.filter fun m => !m.isNullType) = members := by
      rw [List.filter_eq_self]
      intro m member
      have notNull := List.any_eq_false.mp (Bool.eq_false_iff.mpr hasNull) m member
      simpa using notNull
    rw [same, if_neg (Nat.lt_irrefl _)]

/-- What plain members unite to is plain. -/
theorem isPlain_united
    (plain : ∀ m ∈ members, m.isPlain = true ∧ m.standsInUnion = true) :
    (united members).isPlain = true := by
  have kept : ∀ m ∈ distinct members, m.isPlain = true ∧ m.standsInUnion = true :=
    fun m member => plain m (mem_of_mem_distinct member)
  unfold united
  split
  · rename_i single isSingle
    exact (kept single (by simp [isSingle])).1
  · simp only [isPlain, Bool.and_eq_true, List.all_eq_true]
    exact ⟨allPlain_iff.mpr fun m member => (kept m member).1, fun m member => (kept m member).2⟩

/-- What plain members unite to says which they are. -/
theorem mem_members_united_iff
    (plain : ∀ m ∈ members, m.isPlain = true ∧ m.standsInUnion = true)
    {k : Key} :
    k ∈ (united members).key.members ↔ ∃ m ∈ members, m.key = k := by
  rw [← exists_distinct_iff fun m member => (plain m member).1]
  unfold united
  split
  · rename_i single isSingle
    have member : single ∈ members := mem_of_mem_distinct (by simp [isSingle])
    rw [members_of_standsInUnion (plain single member).1 (plain single member).2, isSingle]
    simp [eq_comm]
  · rw [mem_members_union_iff]

/-- What members other than null unite to has no null. -/
theorem stripNull_united
    (plain : ∀ m ∈ members, m.isPlain = true ∧ m.standsInUnion = true)
    (required : ∀ m ∈ members, m.isNullType = false) :
    stripNull (united members) = (united members, false) := by
  have isPlain := isPlain_united plain
  unfold united at isPlain ⊢
  split
  · rename_i single isSingle
    have member : single ∈ members := mem_of_mem_distinct (by simp [isSingle])
    have stands := (plain single member).2
    have singlePlain := (plain single member).1
    cases single with
    | union style others => cases stands
    | annotated inner notes => cases singlePlain
    | _ => rfl
  · simp only at isPlain
    rw [stripNull_union isPlain, if_neg]
    simp only [List.any_eq_true, not_exists, not_and, Bool.not_eq_true]
    exact fun m member => required m (mem_of_mem_distinct member)

end

/-- A plain type form is a union with null, or stays as it is without it. -/
theorem stripNull_cases
    {a : TypeForm}
    (plain : a.isPlain = true) :
    a.stripNull = (a, false) ∨
      ∃ style members, a = .union style members ∧ members.any isNullType = true ∧
        a.stripNull = (united (members.filter fun m => !m.isNullType), true) := by
  cases a with
  | union style members =>
      rw [stripNull_union plain]
      cases hasNull : members.any isNullType with
      | true => exact .inr ⟨style, members, rfl, hasNull, rfl⟩
      | false => exact .inl rfl
  | annotated inner notes => cases plain
  | _ => exact .inl rfl

/-- The members of a plain union other than null. -/
theorem plain_others
    {style : UnionStyle}
    {members : List TypeForm}
    (plain : (TypeForm.union style members).isPlain = true) :
    ∀ m ∈ members.filter fun m => !m.isNullType,
      (m.isPlain = true ∧ m.standsInUnion = true) ∧ m.isNullType = false := by
  intro m member
  obtain ⟨kept, required⟩ := List.mem_filter.mp member
  exact ⟨plain_members plain m kept, by simpa using required⟩

/-- A union with null has capabilities. -/
theorem hasCapabilities_of_stripNull
    {a inner : TypeForm}
    (plain : a.isPlain = true)
    (strips : a.stripNull = (inner, true)) :
    a.hasCapabilities = true := by
  rcases stripNull_cases plain with stays | ⟨style, members, rfl, _⟩
  · rw [stays] at strips
    cases strips
  · rfl

/-- What is left of a plain type form without null is plain. -/
theorem isPlain_stripNull
    {a : TypeForm}
    (plain : a.isPlain = true) :
    a.stripNull.1.isPlain = true := by
  rcases stripNull_cases plain with stays | ⟨style, members, rfl, _, stripped⟩
  · rw [stays]
    exact plain
  · rw [stripped]
    exact isPlain_united fun m member => (plain_others plain m member).1

/-- Null is taken out of a plain type form at once. -/
theorem stripNull_stripNull
    {a : TypeForm}
    (plain : a.isPlain = true) :
    a.stripNull.1.stripNull = (a.stripNull.1, false) := by
  rcases stripNull_cases plain with stays | ⟨style, members, rfl, _, stripped⟩
  · rw [stays, stays]
  · rw [stripped]
    exact stripNull_united (fun m member => (plain_others plain m member).1)
      fun m member => (plain_others plain m member).2

/-- The key of a plain type form says whether null is among its members. -/
theorem isNullable_key
    {a : TypeForm}
    (plain : a.isPlain = true) :
    a.key.isNullable = a.stripNull.2 := by
  cases a with
  | union style members =>
      have memberKeys :
          nullType.key ∈ (TypeForm.union style members).key.members ↔
            ∃ m ∈ members, m.key = nullType.key :=
        mem_members_union_iff
      have sameNull : (∃ m ∈ members, m.key = nullType.key) ↔ members.any isNullType = true := by
        rw [List.any_eq_true]
        exact exists_congr fun m => and_congr_right fun member =>
          key_eq_nullType_iff (plain_members plain m member).1
      rw [sameNull] at memberKeys
      have keys : (TypeForm.union style members).key.isNullable =
          (TypeForm.union style members).key.members.contains nullType.key := rfl
      rw [keys, stripNull_union plain]
      cases hasNull : members.any isNullType with
      | true => simpa using memberKeys.mpr hasNull
      | false =>
          rw [hasNull] at memberKeys
          simpa using memberKeys
  | cls c => cases c <;> rfl
  | annotated inner notes => cases plain
  | value v =>
      simp only [isPlain, Bool.and_eq_true, Bool.not_eq_true'] at plain
      obtain ⟨_, noType⟩ := plain
      rw [key]
      unfold Key.isNullable
      split
      · rename_i unionKey
        rw [unionKey] at noType
        cases noType
      · rfl
  | _ => rfl

/-- Unions with null that are the same without it are the same. -/
theorem key_eq_of_stripNull
    {a b inner other : TypeForm}
    (plain : a.isPlain = true)
    (otherPlain : b.isPlain = true)
    (stripped : a.stripNull = (inner, true))
    (otherStripped : b.stripNull = (other, true))
    (same : inner.key = other.key) :
    a.key = b.key := by
  rcases stripNull_cases plain with stays | ⟨style, members, rfl, hasNull, becomes⟩
  · rw [stays] at stripped
    cases stripped
  rcases stripNull_cases otherPlain with stays | ⟨otherStyle, others, rfl, otherNull, otherBecomes⟩
  · rw [stays] at otherStripped
    cases otherStripped
  obtain rfl : inner = _ := (Prod.mk.inj (stripped.symm.trans becomes)).1
  obtain rfl : other = _ := (Prod.mk.inj (otherStripped.symm.trans otherBecomes)).1
  -- A member is null or among those whose keys the rest has in common.
  have memberKeys {style : UnionStyle} {members : List TypeForm}
      (plain : (TypeForm.union style members).isPlain = true)
      (hasNull : members.any isNullType = true) (k : Key) :
      k ∈ members.map key ↔
        k = nullType.key ∨
          k ∈ (united (members.filter fun m => !m.isNullType)).key.members := by
    rw [mem_members_united_iff fun m member => (plain_others plain m member).1, List.mem_map]
    constructor
    · rintro ⟨m, member, rfl⟩
      cases isNull : m.isNullType with
      | true => exact .inl ((key_eq_nullType_iff (plain_members plain m member).1).mpr isNull)
      | false => exact .inr ⟨m, List.mem_filter.mpr ⟨member, by simp [isNull]⟩, rfl⟩
    · rintro (rfl | ⟨m, member, isKey⟩)
      · obtain ⟨m, member, isNull⟩ := List.any_eq_true.mp hasNull
        exact ⟨m, member, (key_eq_nullType_iff (plain_members plain m member).1).mpr isNull⟩
      · exact ⟨m, (List.mem_filter.mp member).1, isKey⟩
  have sets : Key.setOf (members.map key) = Key.setOf (others.map key) := by
    refine Key.setOf_congr fun k => ?_
    rw [memberKeys plain hasNull, memberKeys otherPlain otherNull, same]
  simp only [key, keys_eq_map, sets]

/-- Members that are all the same type unite to that type. -/
theorem united_of_same
    {a : TypeForm}
    {rest : List TypeForm}
    (plain : ∀ m ∈ a :: rest, m.isPlain = true)
    (same : ∀ m ∈ rest, m.key = a.key) :
    united (a :: rest) = a := by
  have none : (distinct rest).filter (fun b => !a.same b) = [] := by
    rw [List.filter_eq_nil_iff]
    intro m member
    have inRest := mem_of_mem_distinct member
    have sameIdentity : a.identity = m.identity := by
      rw [identity_of_isPlain (plain a List.mem_cons_self),
        identity_of_isPlain (plain m (List.mem_cons_of_mem a inRest)), same m inRest]
    simp [TypeForm.same, sameIdentity]
  rw [united, distinct, none]

/-- Members that are not all the same type unite to a union. -/
theorem united_of_different
    {members : List TypeForm}
    {a b : TypeForm}
    (plain : ∀ m ∈ members, m.isPlain = true)
    (first : a ∈ members)
    (second : b ∈ members)
    (different : a.key ≠ b.key) :
    united members = .union .named (distinct members) := by
  unfold united
  split
  · rename_i single isSingle
    have isKey (m : TypeForm) (member : m ∈ members) : single.key = m.key := by
      obtain ⟨kept, isKept, sameKey⟩ := (exists_distinct_iff plain).mpr ⟨m, member, rfl⟩
      rw [isSingle, List.mem_singleton] at isKept
      rw [← isKept, sameKey]
    exact absurd ((isKey a first).symm.trans (isKey b second)) different
  · rfl

/-- What members unite to depends on which types they are. -/
theorem key_united_congr
    {members others : List TypeForm}
    (plain : ∀ m ∈ members, m.isPlain = true)
    (otherPlain : ∀ m ∈ others, m.isPlain = true)
    (same : ∀ k, (∃ m ∈ members, m.key = k) ↔ ∃ m ∈ others, m.key = k) :
    (united members).key = (united others).key := by
  by_cases differ : ∃ a ∈ members, ∃ b ∈ members, a.key ≠ b.key
  · obtain ⟨a, first, b, second, different⟩ := differ
    obtain ⟨c, otherFirst, firstKey⟩ := (same a.key).mp ⟨a, first, rfl⟩
    obtain ⟨d, otherSecond, secondKey⟩ := (same b.key).mp ⟨b, second, rfl⟩
    rw [united_of_different plain first second different,
      united_of_different otherPlain otherFirst otherSecond (by rwa [firstKey, secondKey])]
    have sets : Key.setOf ((distinct members).map key) = Key.setOf ((distinct others).map key) := by
      refine Key.setOf_congr fun k => ?_
      rw [List.mem_map, List.mem_map, exists_distinct_iff plain, exists_distinct_iff otherPlain,
        same]
    simp only [key, keys_eq_map, sets]
  · have alike (a : TypeForm) (first : a ∈ members) (b : TypeForm) (second : b ∈ members) :
        a.key = b.key :=
      Decidable.byContradiction fun different => differ ⟨a, first, b, second, different⟩
    cases members with
    | nil =>
        cases others with
        | nil => rfl
        | cons b rest =>
            obtain ⟨_, absent, _⟩ := (same b.key).mpr ⟨b, List.mem_cons_self, rfl⟩
            cases absent
    | cons a rest =>
        cases others with
        | nil =>
            obtain ⟨_, absent, _⟩ := (same a.key).mp ⟨a, List.mem_cons_self, rfl⟩
            cases absent
        | cons b more =>
            have isKey (m : TypeForm) (member : m ∈ b :: more) : m.key = a.key := by
              obtain ⟨c, isMember, sameKey⟩ := (same m.key).mpr ⟨m, member, rfl⟩
              rw [← sameKey, alike c isMember a List.mem_cons_self]
            rw [united_of_same plain fun m member =>
                alike m (List.mem_cons_of_mem a member) a List.mem_cons_self,
              united_of_same otherPlain fun m member => by
                rw [isKey m (List.mem_cons_of_mem b member), isKey b List.mem_cons_self],
              isKey b List.mem_cons_self]

/-- Unions with null that are the same are the same without it. -/
theorem key_stripNull_congr
    {a b inner other : TypeForm}
    (plain : a.isPlain = true)
    (otherPlain : b.isPlain = true)
    (stripped : a.stripNull = (inner, true))
    (otherStripped : b.stripNull = (other, true))
    (same : a.key = b.key) :
    inner.key = other.key := by
  rcases stripNull_cases plain with stays | ⟨style, members, rfl, hasNull, becomes⟩
  · rw [stays] at stripped
    cases stripped
  rcases stripNull_cases otherPlain with stays | ⟨otherStyle, others, rfl, otherNull, otherBecomes⟩
  · rw [stays] at otherStripped
    cases otherStripped
  obtain rfl : inner = _ := (Prod.mk.inj (stripped.symm.trans becomes)).1
  obtain rfl : other = _ := (Prod.mk.inj (otherStripped.symm.trans otherBecomes)).1
  have kept {style : UnionStyle} {members : List TypeForm}
      (plain : (TypeForm.union style members).isPlain = true) (k : Key) :
      (∃ m ∈ members.filter fun m => !m.isNullType, m.key = k) ↔
        k ∈ (TypeForm.union style members).key.members ∧ k ≠ nullType.key := by
    rw [mem_members_union_iff]
    constructor
    · rintro ⟨m, member, rfl⟩
      obtain ⟨isMember, notNull⟩ := List.mem_filter.mp member
      refine ⟨⟨m, isMember, rfl⟩, fun isNull => ?_⟩
      rw [(key_eq_nullType_iff (plain_members plain m isMember).1).mp isNull] at notNull
      cases notNull
    · rintro ⟨⟨m, member, rfl⟩, notNull⟩
      refine ⟨m, List.mem_filter.mpr ⟨member, ?_⟩, rfl⟩
      rw [Bool.not_eq_true', Bool.eq_false_iff]
      exact fun isNull => notNull ((key_eq_nullType_iff (plain_members plain m member).1).mpr isNull)
  refine key_united_congr (fun m member => (plain_others plain m member).1.1)
    (fun m member => (plain_others otherPlain m member).1.1) fun k => ?_
  rw [kept plain, kept otherPlain, same]

/-! ## The parts of a type form -/

/-- The class that arguments are applied to. -/
def originForms : Origin → List TypeForm
  | .cls c => [.cls c]
  | _ => []

/-- The type forms that a type form asks for by itself. -/
def asks : TypeForm → List TypeForm
  | .bare b => [.builtin b]
  | .generic origin args => originForms origin ++ args
  | .callable _ _ => [.builtin .callable]
  | .union style members =>
    match stripNull (.union style members) with
    | (inner, true) => [inner]
    | (_, false) => []
  | .literal values => (values.head?.map fun v => .cls v.classOf).toList
  | _ => []

mutual

/-- A type form and everything that it asks for, all the way down. -/
def parts : TypeForm → List TypeForm
  | .generic origin args => .generic origin args :: (originForms origin ++ partsOfAll args)
  | .union style members =>
    .union style members :: (stripNull (.union style members)).1 :: partsOfAll members
  | a => a :: asks a

/-- The parts of type forms. -/
def partsOfAll : List TypeForm → List TypeForm
  | [] => []
  | a :: rest => parts a ++ partsOfAll rest

end

theorem self_mem_parts (a : TypeForm) : a ∈ a.parts := by
  cases a <;> simp [parts]

theorem mem_partsOfAll_iff
    {b : TypeForm}
    {as : List TypeForm} :
    b ∈ partsOfAll as ↔ ∃ a ∈ as, b ∈ a.parts := by
  induction as with
  | nil => simp [partsOfAll]
  | cons a rest inductionHypothesis => simp [partsOfAll, inductionHypothesis]

theorem exists_of_mem_originForms
    {origin : Origin}
    {b : TypeForm}
    (member : b ∈ originForms origin) :
    ∃ c, b = .cls c := by
  cases origin with
  | cls c => exact ⟨c, List.mem_singleton.mp member⟩
  | _ => cases member

/-- What is left of a union without null is one of its members or asks for
nothing. -/
theorem united_mem_or_asks_nothing
    {members : List TypeForm}
    (plain : ∀ m ∈ members, (m.isPlain = true ∧ m.standsInUnion = true) ∧ m.isNullType = false) :
    united members ∈ members ∨ (united members).asks = [] := by
  have remains := stripNull_united (fun m member => (plain m member).1) fun m member =>
    (plain m member).2
  unfold united at remains ⊢
  split
  · rename_i single isSingle
    exact .inl (mem_of_mem_distinct (by simp [isSingle]))
  · refine .inr ?_
    simp only at remains
    rw [asks, remains]

/-- The other type forms ask for classes alone. -/
theorem exists_of_mem_asks
    {a b : TypeForm}
    (noGeneric : ∀ origin args, a ≠ .generic origin args)
    (noUnion : ∀ style members, a ≠ .union style members)
    (member : b ∈ a.asks) :
    ∃ c, b = .cls c := by
  cases a with
  | bare b => exact ⟨_, List.mem_singleton.mp member⟩
  | callable params result => exact ⟨_, List.mem_singleton.mp member⟩
  | generic origin args => exact absurd rfl (noGeneric origin args)
  | union style members => exact absurd rfl (noUnion style members)
  | literal values =>
      cases values with
      | nil => cases member
      | cons v rest => exact ⟨v.classOf, by simpa [asks] using member⟩
  | _ => cases member

/-- The parts of type forms that are neither applied nor unions. -/
theorem parts_eq
    {a : TypeForm}
    (noGeneric : ∀ origin args, a ≠ .generic origin args)
    (noUnion : ∀ style members, a ≠ .union style members) :
    a.parts = a :: a.asks := by
  cases a with
  | generic origin args => exact absurd rfl (noGeneric origin args)
  | union style members => exact absurd rfl (noUnion style members)
  | _ => rfl

mutual

/-- The parts of a plain type form are plain. -/
theorem isPlain_parts
    (a : TypeForm)
    (plain : a.isPlain = true) :
    ∀ b ∈ a.parts, b.isPlain = true := by
  intro b member
  cases a with
  | generic origin args =>
      rcases List.mem_cons.mp member with rfl | member
      · exact plain
      · rcases List.mem_append.mp member with first | later
        · obtain ⟨c, rfl⟩ := exists_of_mem_originForms first
          rfl
        · exact isPlain_partsOfAll args plain b later
  | union style members =>
      rcases List.mem_cons.mp member with rfl | member
      · exact plain
      · rcases List.mem_cons.mp member with rfl | later
        · exact isPlain_stripNull plain
        · simp only [isPlain, Bool.and_eq_true] at plain
          exact isPlain_partsOfAll members plain.1 b later
  | _ =>
      rw [parts_eq (by simp) (by simp)] at member
      rcases List.mem_cons.mp member with rfl | later
      · exact plain
      · obtain ⟨c, rfl⟩ := exists_of_mem_asks (by simp) (by simp) later
        rfl

theorem isPlain_partsOfAll
    (as : List TypeForm)
    (plain : allPlain as = true) :
    ∀ b ∈ partsOfAll as, b.isPlain = true := by
  intro b member
  cases as with
  | nil => cases member
  | cons a rest =>
      simp only [allPlain, Bool.and_eq_true] at plain
      rcases List.mem_append.mp member with first | later
      · exact isPlain_parts a plain.1 b first
      · exact isPlain_partsOfAll rest plain.2 b later

end

mutual

/-- What a part of a plain type form asks for is a part of it. -/
theorem asks_mem_parts
    (a : TypeForm)
    (plain : a.isPlain = true) :
    ∀ b ∈ a.parts, ∀ request ∈ b.asks, request ∈ a.parts := by
  intro b member request asked
  cases a with
  | generic origin args =>
      refine List.mem_cons_of_mem _ (List.mem_append.mpr ?_)
      rcases List.mem_cons.mp member with rfl | member
      · rcases List.mem_append.mp asked with first | later
        · exact .inl first
        · exact .inr (mem_partsOfAll_iff.mpr ⟨request, later, self_mem_parts request⟩)
      · rcases List.mem_append.mp member with first | later
        · obtain ⟨c, rfl⟩ := exists_of_mem_originForms first
          cases asked
        · exact .inr (asks_mem_partsOfAll args plain b later request asked)
  | union style members =>
      have membersPlain : allPlain members = true := by
        simp only [isPlain, Bool.and_eq_true] at plain
        exact plain.1
      rcases List.mem_cons.mp member with rfl | member
      · rw [asks] at asked
        split at asked
        · rename_i inner stripped
          obtain rfl := List.mem_singleton.mp asked
          simp [parts, stripped]
        · cases asked
      · refine List.mem_cons_of_mem _ (List.mem_cons_of_mem _ ?_)
        refine asks_mem_partsOfAll members membersPlain b ?_ request asked
        rcases List.mem_cons.mp member with rfl | later
        · rw [stripNull_union plain] at asked ⊢
          cases hasNull : members.any isNullType with
          | false =>
              rw [hasNull] at asked
              rw [if_neg Bool.false_ne_true] at asked
              rw [asks, stripNull_union plain, hasNull, if_neg Bool.false_ne_true] at asked
              cases asked
          | true =>
              rw [hasNull, if_pos rfl] at asked
              rw [if_pos rfl]
              rcases united_mem_or_asks_nothing (plain_others plain) with kept | nothing
              · exact mem_partsOfAll_iff.mpr
                  ⟨_, (List.mem_filter.mp kept).1, self_mem_parts _⟩
              · rw [nothing] at asked
                cases asked
        · exact later
  | _ =>
      rw [parts_eq (by simp) (by simp)] at member ⊢
      rcases List.mem_cons.mp member with rfl | later
      · exact List.mem_cons_of_mem _ asked
      · obtain ⟨c, rfl⟩ := exists_of_mem_asks (by simp) (by simp) later
        cases asked

theorem asks_mem_partsOfAll
    (as : List TypeForm)
    (plain : allPlain as = true) :
    ∀ b ∈ partsOfAll as, ∀ request ∈ b.asks, request ∈ partsOfAll as := by
  intro b member request asked
  cases as with
  | nil => cases member
  | cons a rest =>
      simp only [allPlain, Bool.and_eq_true] at plain
      rcases List.mem_append.mp member with first | later
      · exact List.mem_append_left _ (asks_mem_parts a plain.1 b first request asked)
      · exact List.mem_append_right _ (asks_mem_partsOfAll rest plain.2 b later request asked)

end

mutual

/-- A type form has at most twice as many parts as it weighs. -/
theorem length_parts_le (a : TypeForm) : a.parts.length ≤ 2 * a.weight := by
  cases a with
  | generic origin args =>
      have argsLe := length_partsOfAll_le args
      have originLe : (originForms origin).length ≤ 1 := by cases origin <;> simp [originForms]
      simp only [parts, List.length_cons, List.length_append, weight]
      omega
  | union style members =>
      have membersLe := length_partsOfAll_le members
      simp only [parts, List.length_cons, weight]
      omega
  | _ =>
      have positive (b : TypeForm) : 1 ≤ b.weight := by
        cases b <;> simp only [weight] <;> omega
      have asksLe (b : TypeForm) (others : b.asks.length ≤ 1) : (b :: b.asks).length ≤ 2 * b.weight := by
        have weighs := positive b
        rw [List.length_cons]
        omega
      rw [parts_eq (by simp) (by simp)]
      refine asksLe _ ?_
      first
        | exact Nat.le_refl 1
        | exact Nat.zero_le 1
        | (rename_i values
           cases values <;> simp [asks])

theorem length_partsOfAll_le (as : List TypeForm) :
    (partsOfAll as).length ≤ 2 * weightAll as := by
  cases as with
  | nil => exact Nat.le_refl 0
  | cons a rest =>
      have firstLe := length_parts_le a
      have restLe := length_partsOfAll_le rest
      simp only [partsOfAll, List.length_append, weightAll]
      omega

end

end TypeForm

end SchemaProbe

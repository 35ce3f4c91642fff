import SchemaProbe.Proofs.PlainForm

namespace SchemaProbe

/-!
# A type form or null

A type form or null is null itself, a union that has null already, or one that null is
added to.  Without null it is the type form again, but that a union that was written with
bars is named then.
-/

namespace TypeForm

variable {a n : TypeForm} {members : List TypeForm}

/-- Whether a type form is such as building gives: a union has several members, which are
all different, and only types stand between bars. -/
def IsBuilt (a : TypeForm) : Prop :=
  ∀ style members, a = .union style members → distinct members = members ∧ 2 ≤ members.length ∧
    (style = .bar → ∀ m ∈ members, m.hasCapabilities = true)

/-- Members that are left are all different. -/
theorem pairwise_distinct (members : List TypeForm) :
    (distinct members).Pairwise fun a b => a.same b = false := by
  induction members with
  | nil => exact .nil
  | cons first rest inductionHypothesis =>
      refine .cons (fun b kept => ?_) (inductionHypothesis.filter _)
      simpa using (List.mem_filter.mp kept).2

/-- Members that are all different are left as they are. -/
theorem distinct_of_pairwise (different : members.Pairwise fun a b => a.same b = false) :
    distinct members = members := by
  induction different with
  | nil => rfl
  | cons fromFirst _ inductionHypothesis =>
      rw [distinct, inductionHypothesis, List.filter_eq_self.mpr]
      intro b member
      rw [fromFirst b member]
      rfl

/-- No member is dropped twice. -/
theorem distinct_distinct (members : List TypeForm) :
    distinct (distinct members) = distinct members :=
  distinct_of_pairwise (pairwise_distinct members)

/-- What uniting gives is built, if only types stand between bars. -/
theorem isBuilt_unionIn
    {style : UnionStyle}
    (nonempty : members.flatMap unionMembers ≠ [])
    (stand : ∀ m ∈ members.flatMap unionMembers, m.standsInUnion = true)
    (areTypes : style = .bar → ∀ m ∈ members.flatMap unionMembers, m.hasCapabilities = true) :
    (unionIn style members).IsBuilt := by
  intro other kept isUnion
  unfold unionIn at isUnion
  split at isUnion
  · rename_i single isSingle
    have member : single ∈ distinct (members.flatMap unionMembers) := by
      rw [isSingle]
      exact List.mem_singleton_self single
    have stands := stand single (mem_of_mem_distinct member)
    rw [isUnion] at stands
    cases stands
  · rename_i severalMembers
    cases isUnion
    refine ⟨distinct_distinct _, ?_, fun isBar m member => areTypes isBar m (mem_of_mem_distinct member)⟩
    cases all : members.flatMap unionMembers with
    | nil => exact absurd all nonempty
    | cons first rest =>
        rw [all, distinct] at severalMembers
        rw [distinct, List.length_cons]
        cases others : (distinct rest).filter fun b => !first.same b with
        | nil => exact absurd (by rw [others]) (severalMembers first)
        | cons second further => exact Nat.succ_le_succ (Nat.succ_pos _)

/-- What a plain type form puts into a union stands in it. -/
theorem stand_unionMembers
    (plain : a.isPlain = true) :
    ∀ m ∈ unionMembers a.argument, m.standsInUnion = true := by
  cases a with
  | union style others => exact fun m member => (plain_members plain m member).2
  | value v => cases v <;> exact List.forall_mem_singleton.mpr rfl
  | _ => exact List.forall_mem_singleton.mpr rfl

/-- A type form that is built puts something into a union. -/
theorem unionMembers_ne_nil (built : a.IsBuilt) : unionMembers a.argument ≠ [] := by
  cases a with
  | union style others =>
      obtain ⟨-, several, -⟩ := built style others rfl
      intro isEmpty
      rw [show others = [] from isEmpty] at several
      exact absurd several (Nat.not_succ_le_zero 1)
  | value v => cases v <;> exact List.cons_ne_nil _ _
  | _ => exact List.cons_ne_nil _ _

/-- What stands beside a bar, other than a typing form, puts types into a union. -/
theorem types_unionMembers
    (built : a.IsBuilt)
    (isOther : a.isTypingForm = false)
    (stands : a.standsBesideBar = true) :
    ∀ m ∈ unionMembers a.argument, m.hasCapabilities = true := by
  cases a with
  | union style others =>
      cases style with
      | named => cases isOther
      | bar => exact (built .bar others rfl).2.2 rfl
  | generic origin args =>
      cases origin with
      | cls c => exact List.forall_mem_singleton.mpr rfl
      | _ => cases isOther
  | value v => cases v <;> first | exact List.forall_mem_singleton.mpr rfl | cases stands
  | any | cls | callable => exact List.forall_mem_singleton.mpr rfl
  | text | ellipsis => cases stands
  | _ => cases isOther

/-- A named union of type forms that are built is built. -/
theorem isBuilt_unionOf
    (nonempty : members ≠ [])
    (each : ∀ m ∈ members, m.isPlain = true ∧ m.IsBuilt) :
    (unionOf members).IsBuilt := by
  refine isBuilt_unionIn ?_ ?_ fun isBar => by cases isBar
  · intro isEmpty
    obtain ⟨first, rest, rfl⟩ := List.exists_cons_of_ne_nil nonempty
    exact unionMembers_ne_nil (each first List.mem_cons_self).2 (List.append_eq_nil_iff.mp isEmpty).1
  · intro m member
    obtain ⟨n, isArgument, among⟩ := List.mem_flatMap.mp member
    obtain ⟨b, isMember, rfl⟩ := List.mem_map.mp isArgument
    exact stand_unionMembers (each b isMember).1 m among

/-- Two type forms that are built make one with a bar between them. -/
theorem isBuilt_bar
    {left right : TypeForm}
    (leftPlain : left.isPlain = true)
    (rightPlain : right.isPlain = true)
    (leftBuilt : left.IsBuilt)
    (rightBuilt : right.IsBuilt)
    (isUnion : bar? left right = some a) :
    a.IsBuilt := by
  unfold bar? at isUnion
  split at isUnion
  · cases isUnion
    refine isBuilt_unionOf (List.cons_ne_nil _ _) ?_
    exact List.forall_mem_cons.mpr
      ⟨⟨leftPlain, leftBuilt⟩, List.forall_mem_singleton.mpr ⟨rightPlain, rightBuilt⟩⟩
  · rename_i notTyping
    obtain ⟨leftOther, rightOther⟩ := Bool.or_eq_false_iff.mp (Bool.eq_false_iff.mpr notTyping)
    split at isUnion
    · rename_i stand
      obtain ⟨leftStands, rightStands⟩ := Bool.and_eq_true_iff.mp stand
      cases isUnion
      have either {holds : TypeForm → Prop}
          (ofLeft : ∀ m ∈ unionMembers left.argument, holds m)
          (ofRight : ∀ m ∈ unionMembers right.argument, holds m) :
          ∀ m ∈ [left.argument, right.argument].flatMap unionMembers, holds m := by
        intro m member
        rw [List.flatMap_cons, List.flatMap_singleton, List.mem_append] at member
        exact member.elim (ofLeft m) (ofRight m)
      refine isBuilt_unionIn ?_
        (either (stand_unionMembers leftPlain) (stand_unionMembers rightPlain)) fun _ =>
          either (types_unionMembers leftBuilt leftOther leftStands)
            (types_unionMembers rightBuilt rightOther rightStands)
      intro isEmpty
      exact unionMembers_ne_nil leftBuilt (List.append_eq_nil_iff.mp isEmpty).1
    · cases isUnion

/-- A plain union is the same type in every style. -/
theorem identity_restyled
    {style other : UnionStyle}
    (plain : (TypeForm.union style members).isPlain = true) :
    (TypeForm.union other members).identity = (TypeForm.union style members).identity := by
  have otherPlain : (TypeForm.union other members).isPlain = true := plain
  rw [identity_of_isPlain plain, identity_of_isPlain otherPlain]
  rfl

/-- One more type form is dropped if it is the same as an earlier one. -/
theorem distinct_concat (members : List TypeForm) (n : TypeForm) :
    distinct (members ++ [n]) =
      if members.any fun m => m.same n then distinct members else distinct members ++ [n] := by
  induction members with
  | nil => rfl
  | cons first rest inductionHypothesis =>
      rw [List.cons_append, distinct, inductionHypothesis, distinct, List.any_cons]
      by_cases isRepeated : (rest.any fun m => m.same n) = true
      · rw [if_pos isRepeated, if_pos (by rw [isRepeated, Bool.or_true])]
      · rw [if_neg isRepeated, Bool.eq_false_iff.mpr isRepeated, Bool.or_false, List.filter_append]
        cases same : first.same n with
        | true => simp [same]
        | false => simp [same]

/-- A plain type form is the same as null if it is null. -/
theorem same_nullType (plain : a.isPlain = true) : a.same nullType = a.isNullType := by
  have nullPlain : nullType.isPlain = true := rfl
  rw [same, identity_of_isPlain plain, identity_of_isPlain nullPlain]
  by_cases isNull : a.isNullType = true
  · rw [isNull, (key_eq_nullType_iff plain).mpr isNull]
    exact beq_self_eq_true _
  · rw [Bool.eq_false_iff.mpr isNull]
    exact beq_eq_false_iff_ne.mpr fun sameKey => isNull ((key_eq_nullType_iff plain).mp sameKey)

/-- Several different members make a named union. -/
theorem united_of_distinct
    (different : distinct members = members)
    (several : 2 ≤ members.length) :
    united members = .union .named members := by
  unfold united
  rw [different]
  split
  · exact absurd several (Nat.not_succ_le_self 1)
  · rfl

/-- A union or null is what its members and null unite to. -/
theorem optional_union (style : UnionStyle) (members : List TypeForm) :
    optional (.union style members) = united (members ++ [nullType]) := by
  rfl

/-- A union of plain members that stand in one is plain. -/
theorem isPlain_union
    {style : UnionStyle}
    (each : ∀ m ∈ members, m.isPlain = true ∧ m.standsInUnion = true) :
    (TypeForm.union style members).isPlain = true := by
  rw [isPlain, Bool.and_eq_true, List.all_eq_true]
  exact ⟨allPlain_iff.mpr fun m member => (each m member).1, fun m member => (each m member).2⟩

section

variable (each : ∀ m ∈ members, m.isPlain = true ∧ m.standsInUnion = true)

include each

/-- Null stands in a union as any other member does. -/
theorem each_concat_nullType :
    ∀ m ∈ members ++ [nullType], m.isPlain = true ∧ m.standsInUnion = true := by
  intro m member
  rcases List.mem_append.mp member with old | isNull
  · exact each m old
  · obtain rfl := List.mem_singleton.mp isNull
    exact ⟨rfl, rfl⟩

/-- Null is dropped if it is among the members already. -/
theorem distinct_concat_nullType :
    distinct (members ++ [nullType]) =
      if members.any isNullType then distinct members else distinct members ++ [nullType] := by
  have sameNull : (members.any fun m => m.same nullType) = members.any isNullType := by
    rw [Bool.eq_iff_iff, List.any_eq_true, List.any_eq_true]
    exact exists_congr fun m => and_congr_right fun member => by
      rw [same_nullType (each m member).1]
  rw [distinct_concat, sameNull]

/-- Null that is not among different members makes a union with them. -/
theorem united_concat_nullType
    (different : distinct members = members)
    (required : members.any isNullType = false)
    (nonempty : 1 ≤ members.length) :
    united (members ++ [nullType]) = .union .named (members ++ [nullType]) := by
  refine united_of_distinct ?_ ?_
  · rw [distinct_concat_nullType each, required, different, if_neg Bool.false_ne_true]
  · rw [List.length_append]
    exact Nat.succ_le_succ nonempty

/-- Null that was added to members is taken out again. -/
theorem stripNull_concat_nullType
    (style : UnionStyle)
    (required : members.any isNullType = false) :
    stripNull (.union style (members ++ [nullType])) = (united members, true) := by
  have kept : members.filter (fun m => !m.isNullType) = members := by
    refine List.filter_eq_self.mpr fun m member => ?_
    rw [Bool.not_eq_true']
    exact Bool.eq_false_iff.mpr (List.any_eq_false.mp required m member)
  have others : (members ++ [nullType]).filter (fun m => !m.isNullType) = members := by
    rw [List.filter_append, kept]
    exact List.append_nil _
  rw [stripNull_union (isPlain_union (each_concat_nullType each)), others, if_pos]
  rw [List.any_append]
  exact Bool.or_true _

end

/-- A type form that is neither null nor a union makes a union with null. -/
theorem optional_of_single
    (plain : a.isPlain = true)
    (stands : a.standsInUnion = true)
    (required : a.isNullType = false) :
    a.optional.isPlain = true ∧ a.optional.stripNull = (a, true) := by
  have each : ∀ m ∈ [a], m.isPlain = true ∧ m.standsInUnion = true :=
    List.forall_mem_singleton.mpr ⟨plain, stands⟩
  have none : [a].any isNullType = false := by rw [List.any_cons, required, List.any_nil]; rfl
  have becomes : a.optional = .union .named ([a] ++ [nullType]) :=
    (unionOf_eq_united fun m member => (each_concat_nullType each m member).2).trans
      (united_concat_nullType each rfl none (Nat.le_refl 1))
  rw [becomes]
  exact ⟨isPlain_union (each_concat_nullType each), stripNull_concat_nullType each .named none⟩

/-- What types unite to is a type. -/
theorem hasCapabilities_united (areTypes : ∀ m ∈ members, m.hasCapabilities = true) :
    (united members).hasCapabilities = true := by
  unfold united
  split
  · rename_i single isSingle
    exact areTypes single (mem_of_mem_distinct (by rw [isSingle]; exact List.mem_singleton_self _))
  · rfl

/-- A type form that is built stays as it is where it is null or has null, unless it is
written with bars, and is the same again without the null that is added to it, but for the
style of a union. -/
theorem optional_cases
    (plain : a.isPlain = true)
    (accepted : a.hasCapabilities = true)
    (built : a.IsBuilt) :
    a.optional = a ∨
      a.optional.isPlain = true ∧
        ((∃ x, x.hasCapabilities = true ∧ a.stripNull = (x, true) ∧
            a.optional.stripNull = (x, true)) ∨
          a.optional.stripNull = (a, true) ∨
            ∃ style members, a = .union style members ∧ members.any isNullType = false ∧
              a.optional.stripNull = (.union .named members, true)) := by
  have single (stands : a.standsInUnion = true) :
      a.optional = a ∨ a.optional.isPlain = true ∧ a.optional.stripNull = (a, true) := by
    cases isNull : a.isNullType with
    | true =>
        refine .inl ?_
        cases a with
        | cls c =>
            obtain rfl := eq_of_beq isNull
            rfl
        | _ => cases isNull
    | false => exact .inr (optional_of_single plain stands isNull)
  cases a with
  | union style members =>
      obtain ⟨different, several, areTypes⟩ := built style members rfl
      have each := plain_members plain
      have named : (TypeForm.union .named members).isPlain = true := isPlain_union each
      rw [optional_union, stripNull_union plain]
      cases isNullable : members.any isNullType with
      | true =>
          have becomes : united (members ++ [nullType]) = .union .named members := by
            have same : united (members ++ [nullType]) = united members := by
              rw [united, distinct_concat_nullType each, isNullable, if_pos rfl, united]
            rw [same, united_of_distinct different several]
          rw [becomes]
          cases style with
          | named => exact .inl rfl
          | bar =>
              refine .inr ⟨named, .inl ⟨_, hasCapabilities_united fun m member => ?_, rfl, ?_⟩⟩
              · exact areTypes rfl m (List.mem_filter.mp member).1
              · rw [stripNull_union named, isNullable]
                rfl
      | false =>
          rw [united_concat_nullType each different isNullable (Nat.le_of_succ_le several)]
          refine .inr ⟨isPlain_union (each_concat_nullType each),
            .inr (.inr ⟨style, members, rfl, isNullable, ?_⟩)⟩
          rw [stripNull_concat_nullType each .named isNullable, united_of_distinct different several]
  | text s => cases accepted
  | value v => cases accepted
  | _ =>
      rcases single rfl with same | ⟨isPlain, strips⟩
      · exact .inl same
      · exact .inr ⟨isPlain, .inr (.inl strips)⟩

end TypeForm

end SchemaProbe

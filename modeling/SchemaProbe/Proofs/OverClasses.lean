import SchemaProbe.Proofs.OptionalForms
import SchemaProbe.Proofs.Senses

namespace SchemaProbe

/-!
# Type forms over declared classes

A type form is over some classes if no other class stands in it.  Literal values and
notes do not count.  Whatever is built from type forms over some classes, or made of one
by taking off notes or null, is over these classes again, and so is what a written type
form is read as if its names stand for type forms over them.
-/

/-- The declared class that something is applied to, if it is one. -/
def Origin.userClasses : Origin → List UserClass
  | .cls (.user c) => [c]
  | _ => []

namespace TypeForm

mutual

/-- The declared classes that stand in a type form. -/
def userClasses : TypeForm → List UserClass
  | .cls (.user c) => [c]
  | .newType c => [c]
  | .generic origin args => origin.userClasses ++ userClassesAll args
  | .callable params result => userClassesAll params ++ userClasses result
  | .union _ members => userClassesAll members
  | .annotated inner _ => userClasses inner
  | _ => []

/-- The declared classes that stand in type forms. -/
def userClassesAll : List TypeForm → List UserClass
  | [] => []
  | a :: rest => userClasses a ++ userClassesAll rest

end

/-- Whether no class stands in a type form but some. -/
def IsOver (classes : UserClass → Prop) (a : TypeForm) : Prop :=
  ∀ c ∈ a.userClasses, classes c

/-- A class stands in type forms if it stands in one of them. -/
theorem mem_userClassesAll_iff
    {as : List TypeForm}
    {c : UserClass} :
    c ∈ userClassesAll as ↔ ∃ a ∈ as, c ∈ a.userClasses := by
  induction as with
  | nil => simp [userClassesAll]
  | cons a rest inductionHypothesis => simp [userClassesAll, inductionHypothesis]

section

variable {classes : UserClass → Prop}

/-- What no class stands in is over any classes. -/
theorem isOver_of_none
    {a : TypeForm}
    (none : a.userClasses = []) :
    a.IsOver classes := by
  intro c member
  rw [none] at member
  cases member

/-- A type form over some classes is one over more. -/
theorem IsOver.mono
    {others : UserClass → Prop}
    {a : TypeForm}
    (isOver : a.IsOver classes)
    (more : ∀ c, classes c → others c) :
    a.IsOver others :=
  fun c member => more c (isOver c member)

theorem isOver_generic_iff
    {origin : Origin}
    {args : List TypeForm} :
    (TypeForm.generic origin args).IsOver classes ↔
      (∀ c ∈ origin.userClasses, classes c) ∧ ∀ a ∈ args, a.IsOver classes := by
  simp only [IsOver, userClasses, List.mem_append, mem_userClassesAll_iff]
  constructor
  · exact fun isOver => ⟨fun c member => isOver c (.inl member),
      fun a isArg c member => isOver c (.inr ⟨a, isArg, member⟩)⟩
  · rintro ⟨overOrigin, overArgs⟩ c (member | ⟨a, isArg, member⟩)
    · exact overOrigin c member
    · exact overArgs a isArg c member

theorem isOver_callable_iff
    {params : List TypeForm}
    {result : TypeForm} :
    (TypeForm.callable params result).IsOver classes ↔
      (∀ a ∈ params, a.IsOver classes) ∧ result.IsOver classes := by
  simp only [IsOver, userClasses, List.mem_append, mem_userClassesAll_iff]
  constructor
  · exact fun isOver => ⟨fun a isParam c member => isOver c (.inl ⟨a, isParam, member⟩),
      fun c member => isOver c (.inr member)⟩
  · rintro ⟨overParams, overResult⟩ c (⟨a, isParam, member⟩ | member)
    · exact overParams a isParam c member
    · exact overResult c member

theorem isOver_union_iff
    {style : UnionStyle}
    {members : List TypeForm} :
    (TypeForm.union style members).IsOver classes ↔ ∀ m ∈ members, m.IsOver classes := by
  simp only [IsOver, userClasses, mem_userClassesAll_iff]
  exact ⟨fun isOver m isMember c member => isOver c ⟨m, isMember, member⟩,
    fun isOver c ⟨m, isMember, member⟩ => isOver m isMember c member⟩

namespace IsOver

variable {a : TypeForm}

/-- What a type form becomes as an argument is over the same classes. -/
theorem argument (isOver : a.IsOver classes) : a.argument.IsOver classes := by
  unfold TypeForm.argument
  split
  · exact isOver_of_none rfl
  · exact isOver_of_none rfl
  · exact isOver

/-- The null value in the place of a type brings in no class. -/
theorem fieldType (isOver : a.IsOver classes) : a.fieldType.IsOver classes := by
  unfold TypeForm.fieldType
  split
  · exact isOver_of_none rfl
  · exact isOver

/-- The members of a union are over the same classes. -/
theorem unionMembers (isOver : a.IsOver classes) : ∀ m ∈ unionMembers a, m.IsOver classes := by
  cases a with
  | union style members => exact isOver_union_iff.mp isOver
  | _ => exact List.forall_mem_singleton.mpr isOver

/-- What type forms are united to is over the same classes. -/
theorem unionIn
    {style : UnionStyle}
    {parts : List TypeForm}
    (isOver : ∀ p ∈ parts, p.IsOver classes) :
    (unionIn style parts).IsOver classes := by
  have overMembers : ∀ m ∈ distinct (parts.flatMap TypeForm.unionMembers), m.IsOver classes := by
    intro m member
    obtain ⟨p, isPart, isIn⟩ := List.mem_flatMap.mp (mem_of_mem_distinct member)
    exact (isOver p isPart).unionMembers m isIn
  unfold TypeForm.unionIn
  split
  · rename_i single isSingle
    rw [isSingle] at overMembers
    exact overMembers single (List.mem_singleton_self single)
  · exact isOver_union_iff.mpr overMembers

/-- Named unions are over the same classes. -/
theorem unionOf
    {parts : List TypeForm}
    (isOver : ∀ p ∈ parts, p.IsOver classes) :
    (unionOf parts).IsOver classes := by
  refine .unionIn fun p member => ?_
  obtain ⟨a, isPart, rfl⟩ := List.mem_map.mp member
  exact (isOver a isPart).argument

/-- Two type forms with a bar between them are over the same classes. -/
theorem bar?
    {left right : TypeForm}
    (leftOver : left.IsOver classes)
    (rightOver : right.IsOver classes)
    (isBar : TypeForm.bar? left right = some a) :
    a.IsOver classes := by
  unfold TypeForm.bar? at isBar
  split at isBar
  · cases isBar
    exact .unionOf (List.forall_mem_cons.mpr ⟨leftOver, List.forall_mem_singleton.mpr rightOver⟩)
  · split at isBar
    · cases isBar
      exact .unionIn (List.forall_mem_cons.mpr
        ⟨leftOver.argument, List.forall_mem_singleton.mpr rightOver.argument⟩)
    · cases isBar

/-- Type forms with bars between them are over the same classes. -/
theorem foldlM_bar
    {first : TypeForm}
    {rest : List TypeForm}
    (firstOver : first.IsOver classes)
    (restOver : ∀ p ∈ rest, p.IsOver classes)
    (isBar : rest.foldlM TypeForm.bar? first = some a) :
    a.IsOver classes := by
  induction rest generalizing first with
  | nil =>
      cases isBar
      exact firstOver
  | cons next rest inductionHypothesis =>
      obtain ⟨nextOver, othersOver⟩ := List.forall_mem_cons.mp restOver
      rw [List.foldlM_cons] at isBar
      obtain ⟨pair, isPair, isRest⟩ := Option.bind_eq_some_iff.mp isBar
      exact inductionHypothesis (firstOver.bar? nextOver isPair) othersOver isRest

/-- A union that is built anew in its style is over the same classes. -/
theorem unionAs
    {style : UnionStyle}
    {members : List TypeForm}
    (isOver : ∀ m ∈ members, m.IsOver classes) :
    (unionAs style members).IsOver classes := by
  cases style with
  | named => exact .unionOf isOver
  | bar =>
      rw [TypeForm.unionAs]
      cases isBar : barUnion? members with
      | none => exact isOver_union_iff.mpr isOver
      | some a =>
          cases members with
          | nil => cases isBar
          | cons first rest =>
              obtain ⟨firstOver, restOver⟩ := List.forall_mem_cons.mp isOver
              exact firstOver.foldlM_bar restOver isBar

/-- A type form with a note is over the same classes. -/
theorem withNote
    (isOver : a.IsOver classes)
    (note : Value) :
    (a.withNote note).IsOver classes := by
  have overArgument := isOver.argument
  unfold TypeForm.withNote
  split
  · rename_i inner notes isNoted
    rw [isNoted] at overArgument
    exact overArgument
  · exact overArgument

/-- A type form without the notes around it is over the same classes. -/
theorem withoutNotes (isOver : a.IsOver classes) : a.withoutNotes.IsOver classes := by
  fun_induction TypeForm.withoutNotes a with
  | case1 inner notes inductionHypothesis => exact inductionHypothesis isOver
  | case2 => exact isOver

/-- A type form without its null branch is over the same classes. -/
theorem stripNull (isOver : a.IsOver classes) : a.stripNull.1.IsOver classes := by
  fun_induction TypeForm.stripNull a with
  | case1 inner notes inductionHypothesis => exact inductionHypothesis isOver
  | case2 style members others isShorter single isSingle =>
      refine isOver_union_iff.mp isOver single (List.mem_filter.mp (?_ : single ∈ others)).1
      rw [isSingle]
      exact List.mem_singleton_self single
  | case3 style members others isShorter several =>
      exact .unionOf fun m member => isOver_union_iff.mp isOver m (List.mem_filter.mp member).1
  | case4 => exact isOver
  | case5 => exact isOver

mutual

/-- Replacing names by what is over some classes keeps a type form over them. -/
theorem substitute
    {ofName : String → Option TypeForm}
    (a : TypeForm)
    (isOver : a.IsOver classes)
    (names : ∀ name ∈ a.names, ∀ b, ofName name = some b → b.IsOver classes) :
    (a.substitute ofName fun _ => none).IsOver classes := by
  have replaces (name : String) (otherwise : TypeForm) (isName : name ∈ a.names)
      (isOther : otherwise.userClasses = []) : ((ofName name).getD otherwise).IsOver classes := by
    cases found : ofName name with
    | none => exact isOver_of_none isOther
    | some b => exact names name isName b found
  cases a with
  | generic origin args =>
      obtain ⟨overOrigin, overArgs⟩ := isOver_generic_iff.mp isOver
      exact isOver_generic_iff.mpr ⟨overOrigin, substituteAll args overArgs names⟩
  | callable params result =>
      obtain ⟨overParams, overResult⟩ := isOver_callable_iff.mp isOver
      rw [TypeForm.names] at names
      exact isOver_callable_iff.mpr
        ⟨substituteAll params overParams fun name isName => names name (List.mem_append_left _ isName),
          substitute result overResult fun name isName => names name (List.mem_append_right _ isName)⟩
  | union style members =>
      exact .unionAs (substituteAll members (isOver_union_iff.mp isOver) names)
  | annotated inner notes =>
      have overInner := substitute inner isOver names
      rw [TypeForm.substitute]
      split
      · rename_i core others isNoted
        rw [isNoted] at overInner
        exact overInner
      · exact overInner
  | reference name => exact replaces name _ (List.mem_singleton_self name) rfl
  | text s => exact replaces s _ (List.mem_singleton_self s) rfl
  | _ => exact isOver
termination_by structural a

/-- Replacing names by what is over some classes keeps type forms over them. -/
theorem substituteAll
    {ofName : String → Option TypeForm}
    (as : List TypeForm)
    (isOver : ∀ a ∈ as, a.IsOver classes)
    (names : ∀ name ∈ namesAll as, ∀ b, ofName name = some b → b.IsOver classes) :
    ∀ a ∈ TypeForm.substituteAll ofName (fun _ => none) as, a.IsOver classes := by
  cases as with
  | nil => exact fun a member => absurd member List.not_mem_nil
  | cons a rest =>
      obtain ⟨overFirst, overRest⟩ := List.forall_mem_cons.mp isOver
      rw [TypeForm.namesAll] at names
      exact List.forall_mem_cons.mpr
        ⟨substitute a overFirst fun name isName => names name (List.mem_append_left _ isName),
          substituteAll rest overRest fun name isName => names name (List.mem_append_right _ isName)⟩
termination_by structural as

end

mutual

/-- A type form without notes at any depth is over the same classes. -/
theorem plain
    (a : TypeForm)
    (isOver : a.IsOver classes) :
    a.plain.IsOver classes := by
  cases a with
  | generic origin args =>
      obtain ⟨overOrigin, overArgs⟩ := isOver_generic_iff.mp isOver
      exact isOver_generic_iff.mpr ⟨overOrigin, plainAll args overArgs⟩
  | callable params result =>
      obtain ⟨overParams, overResult⟩ := isOver_callable_iff.mp isOver
      exact isOver_callable_iff.mpr ⟨plainAll params overParams, plain result overResult⟩
  | union style members => exact .unionAs (plainAll members (isOver_union_iff.mp isOver))
  | annotated inner notes => exact plain inner isOver
  | _ => exact isOver
termination_by structural a

/-- Type forms without notes at any depth are over the same classes. -/
theorem plainAll
    (as : List TypeForm)
    (isOver : ∀ a ∈ as, a.IsOver classes) :
    ∀ a ∈ TypeForm.plainAll as, a.IsOver classes := by
  cases as with
  | nil => exact fun a member => absurd member List.not_mem_nil
  | cons a rest =>
      obtain ⟨overFirst, overRest⟩ := List.forall_mem_cons.mp isOver
      exact List.forall_mem_cons.mpr ⟨plain a overFirst, plainAll rest overRest⟩
termination_by structural as

end

/-- A type form that cannot be resolved yet is over the same classes. -/
theorem unresolved
    (isOver : a.IsOver classes)
    (isQuoted : Bool) :
    (a.unresolved isQuoted).IsOver classes := by
  unfold TypeForm.unresolved
  split
  · exact isOver_of_none rfl
  · split
    · exact isOver_of_none rfl
    · exact isOver.withoutNotes

end IsOver

end

end TypeForm

end SchemaProbe

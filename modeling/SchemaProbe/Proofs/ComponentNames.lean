import Mathlib.Data.List.DropRight
import SchemaProbe.TypeForm.Name

namespace SchemaProbe

/-!
# Names that are safe in references

The name of a type form is put together from names of its parts, along the structure
of the form, and each part without parts of its own is named by a text that was made
safe.  What makes a name safe holds of texts that were made safe, because what is
trimmed keeps its characters and loses the underscores at its ends, and it holds of
names that are joined, because the ends of the whole are ends of parts.
-/

/-- Whether a character is a digit, a letter of the plain alphabet or an underscore. -/
def IsSafe (c : Char) : Prop :=
  ('0' ≤ c ∧ c ≤ '9') ∨ ('A' ≤ c ∧ c ≤ 'Z') ∨ ('a' ≤ c ∧ c ≤ 'z') ∨ c = '_'

/-- The characters that are left in a name are the safe ones. -/
theorem isNameChar_iff {c : Char} : isNameChar c = true ↔ IsSafe c := by
  unfold isNameChar IsSafe Char.isAlphanum Char.isAlpha Char.isUpper Char.isLower Char.isDigit
  simp only [Bool.or_eq_true, Bool.and_eq_true, decide_eq_true_eq, beq_iff_eq, Char.le_def]
  tauto

theorem all_isNameChar_iff {text : List Char} :
    text.all isNameChar = true ↔ ∀ c ∈ text, IsSafe c := by
  simp only [List.all_eq_true, isNameChar_iff]

instance (c : Char) : Decidable (IsSafe c) :=
  decidable_of_iff (isNameChar c = true) isNameChar_iff

/-- Whether a name can stand at the end of a reference: it is not empty, all of its
characters are safe, and it neither starts nor ends with an underscore. -/
structure IsComponentName (name : String) : Prop where
  nonempty : name.toList ≠ []
  safe : ∀ c ∈ name.toList, IsSafe c
  starts : name.toList.head? ≠ some '_'
  ends : name.toList.getLast? ≠ some '_'

instance (name : String) : Decidable (IsComponentName name) :=
  decidable_of_iff
    (name.toList ≠ [] ∧ name.toList.all isNameChar = true ∧ name.toList.head? ≠ some '_' ∧
      name.toList.getLast? ≠ some '_')
    ⟨fun ⟨nonempty, safe, starts, ends⟩ => ⟨nonempty, all_isNameChar_iff.mp safe, starts, ends⟩,
      fun name => ⟨name.nonempty, all_isNameChar_iff.mpr name.safe, name.starts, name.ends⟩⟩

/-! ## Texts that are made safe -/

/-- Folding leaves safe characters alone. -/
theorem isSafe_of_mem_foldOthers
    {c : Char}
    {inRun : Bool}
    {text : List Char}
    (member : c ∈ foldOthers inRun text) :
    IsSafe c := by
  induction text generalizing inRun with
  | nil => cases member
  | cons first rest inductionHypothesis =>
      rw [foldOthers] at member
      split at member
      · rename_i isSafe
        rcases List.mem_cons.mp member with rfl | later
        · exact isNameChar_iff.mp isSafe
        · exact inductionHypothesis later
      · split at member
        · exact inductionHypothesis member
        · rcases List.mem_cons.mp member with rfl | later
          · decide
          · exact inductionHypothesis later

/-- Trimming drops underscores from the front, and then from the back. -/
theorem trimUnderscores_eq (text : List Char) :
    trimUnderscores text = (text.dropWhile (· == '_')).rdropWhile (· == '_') :=
  rfl

/-- What is left after trimming stood in the text. -/
theorem mem_of_mem_trimUnderscores
    {c : Char}
    {text : List Char}
    (member : c ∈ trimUnderscores text) :
    c ∈ text := by
  rw [trimUnderscores_eq] at member
  apply (List.dropWhile_sublist _).mem
  exact (List.rdropWhile_prefix _ _).mem member

/-- A trimmed text does not start with an underscore. -/
theorem head?_trimUnderscores (text : List Char) :
    (trimUnderscores text).head? ≠ some '_' := by
  intro starts
  rw [trimUnderscores_eq] at starts
  obtain ⟨rest, isWhole⟩ := List.rdropWhile_prefix (· == '_') (text.dropWhile (· == '_'))
  have whole : (text.dropWhile (· == '_')).head? = some '_' := by
    rw [← isWhole, List.head?_append, starts]
    rfl
  have other := List.head?_dropWhile_not (· == '_') text
  rw [whole] at other
  cases other

/-- A trimmed text does not end with an underscore. -/
theorem getLast?_trimUnderscores (text : List Char) :
    (trimUnderscores text).getLast? ≠ some '_' := by
  intro ends
  rw [trimUnderscores, List.getLast?_reverse] at ends
  have other := List.head?_dropWhile_not (· == '_') (text.dropWhile (· == '_')).reverse
  rw [ends] at other
  cases other

/-- Any text becomes a safe name. -/
theorem isComponentName_nameOfText (text : String) : IsComponentName (nameOfText text) := by
  unfold nameOfText
  cases trimmed : trimUnderscores (foldOthers false text.toList) with
  | nil => decide
  | cons first rest =>
      dsimp only
      rw [← trimmed]
      constructor
      all_goals rw [String.toList_ofList]
      · simp [trimmed]
      · intro c member
        exact isSafe_of_mem_foldOthers (mem_of_mem_trimUnderscores member)
      · exact head?_trimUnderscores _
      · exact getLast?_trimUnderscores _

/-- Any display form becomes a safe name. -/
theorem isComponentName_nameOfDisplay (display : String) :
    IsComponentName (nameOfDisplay display) :=
  isComponentName_nameOfText _

/-! ## Names that are joined -/

namespace IsComponentName

/-- Two safe names with an underscore between them are a safe name. -/
theorem append
    {first second : String}
    (firstSafe : IsComponentName first)
    (secondSafe : IsComponentName second) :
    IsComponentName (first ++ "_" ++ second) := by
  have whole : (first ++ "_" ++ second).toList = first.toList ++ '_' :: second.toList := by
    rw [String.toList_append, String.toList_append, List.append_assoc]
    rfl
  constructor
  all_goals rw [whole]
  · simp
  · intro c member
    rcases List.mem_append.mp member with isFirst | later
    · exact firstSafe.safe c isFirst
    · rcases List.mem_cons.mp later with rfl | isSecond
      · decide
      · exact secondSafe.safe c isSecond
  · rw [List.head?_append_of_ne_nil _ firstSafe.nonempty]
    exact firstSafe.starts
  · rw [List.getLast?_append_of_ne_nil _ (by simp), List.getLast?_cons_of_ne_nil secondSafe.nonempty]
    exact secondSafe.ends

/-- Safe names, of which there is one at least, are joined to a safe name. -/
theorem join
    {first : String}
    {rest : List String}
    (firstSafe : IsComponentName first)
    (restSafe : ∀ name ∈ rest, IsComponentName name) :
    IsComponentName (joinNames (first :: rest)) := by
  induction rest generalizing first with
  | nil => exact firstSafe
  | cons second others inductionHypothesis =>
      have joined : joinNames (first :: second :: others) =
          first ++ "_" ++ joinNames (second :: others) := by
        unfold joinNames
        rw [String.intercalate_cons_cons]
      rw [joined]
      apply firstSafe.append
      apply inductionHypothesis
      · exact restSafe second List.mem_cons_self
      · intro name member
        exact restSafe name (List.mem_cons_of_mem _ member)

/-- A safe name has no slash. -/
theorem noSlash {name : String} (safe : IsComponentName name) : '/' ∉ name.toList := by
  intro member
  exact absurd (safe.safe '/' member) (by decide)

end IsComponentName

/-! ## Type forms and values -/

/-- The name of a class is safe, whatever the class is called. -/
theorem ClassRef.isComponentName_schemaName (c : ClassRef) : IsComponentName c.schemaName :=
  isComponentName_nameOfText c.name

/-- The name of what arguments are applied to is safe. -/
theorem Origin.isComponentName_schemaName (origin : Origin) :
    IsComponentName origin.schemaName := by
  cases origin with
  | cls c => exact c.isComponentName_schemaName
  | classVar => decide
  | final => decide

/-- The word for a union is safe. -/
theorem UnionStyle.isComponentName_schemaName (style : UnionStyle) :
    IsComponentName style.schemaName := by
  cases style with
  | named => decide
  | bar => decide

mutual

/-- The name of a type form is safe. -/
theorem TypeForm.isComponentName_schemaName (a : TypeForm) : IsComponentName a.schemaName := by
  cases a with
  | any => decide
  | never => exact isComponentName_nameOfDisplay _
  | cls c => exact c.isComponentName_schemaName
  | «variable» name => exact isComponentName_nameOfDisplay _
  | newType c => exact isComponentName_nameOfDisplay _
  | bare b => exact (ClassRef.builtin b).isComponentName_schemaName
  | generic origin args =>
      rw [TypeForm.schemaName]
      exact origin.isComponentName_schemaName.join (TypeForm.isComponentName_schemaNames args)
  | callable params result =>
      rw [TypeForm.schemaName]
      apply (ClassRef.builtin .callable).isComponentName_schemaName.join
      rintro name (_ | ⟨_, _ | ⟨_, absent⟩⟩)
      · exact isComponentName_nameOfDisplay _
      · exact result.isComponentName_schemaName
      · cases absent
  | union style members =>
      rw [TypeForm.schemaName]
      exact style.isComponentName_schemaName.join (TypeForm.isComponentName_schemaNames members)
  | literal values =>
      rw [TypeForm.schemaName]
      exact IsComponentName.join (by decide) (Value.isComponentName_schemaNames values)
  | annotated inner notes =>
      rw [TypeForm.schemaName]
      exact inner.isComponentName_schemaName
  | reference name => exact isComponentName_nameOfDisplay _
  | text s => exact isComponentName_nameOfDisplay _
  | ellipsis => exact isComponentName_nameOfDisplay _
  | value v =>
      rw [TypeForm.schemaName]
      exact v.isComponentName_schemaName
termination_by structural a

/-- The names of type forms are safe. -/
theorem TypeForm.isComponentName_schemaNames (forms : List TypeForm) :
    ∀ name ∈ TypeForm.schemaNames forms, IsComponentName name := by
  cases forms with
  | nil => exact fun _ absent => nomatch absent
  | cons a rest =>
      rw [TypeForm.schemaNames]
      exact List.forall_mem_cons.mpr
        ⟨a.isComponentName_schemaName, TypeForm.isComponentName_schemaNames rest⟩
termination_by structural forms

/-- The name of a value in the place of a type is safe. -/
theorem Value.isComponentName_schemaName (v : Value) : IsComponentName v.schemaName := by
  cases v with
  | type a =>
      rw [Value.schemaName]
      exact a.isComponentName_schemaName
  | null | bool _ | int _ | float _ | text _ | bytes _ _ | bytearray _ | date _ | moment _
  | uuid _ | decimal _ | items _ _ _ | dict _ _ | member _ _ _ _ | record _ _ | object _ _
  | container _ => exact isComponentName_nameOfDisplay _
termination_by structural v

/-- The names of values are safe. -/
theorem Value.isComponentName_schemaNames (values : List Value) :
    ∀ name ∈ Value.schemaNames values, IsComponentName name := by
  cases values with
  | nil => exact fun _ absent => nomatch absent
  | cons v rest =>
      rw [Value.schemaNames]
      exact List.forall_mem_cons.mpr
        ⟨v.isComponentName_schemaName, Value.isComponentName_schemaNames rest⟩
termination_by structural values

end

end SchemaProbe

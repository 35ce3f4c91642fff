import SchemaProbe.Proofs.Tables
import SchemaProbe.Proofs.UnfoldingLaws

namespace SchemaProbe

/-!
# When trees agree

Trees are compared node by node, fields by their names.  A tree agrees with
itself when every name stands for one field and every case can be compared;
trees that agree say the same at their roots.
-/

namespace Table

/-- Where every key stands at one place, each entry is found by its key. -/
theorem lookup_of_mem
    [BEq κ] [LawfulBEq κ]
    {table : List (κ × α)}
    {e : κ × α}
    (distinct : (table.map Prod.fst).Nodup)
    (member : e ∈ table) :
    table.lookup e.1 = some e.2 := by
  induction table with
  | nil => simp at member
  | cons head rest inductionHypothesis =>
      obtain ⟨key, a⟩ := head
      rw [List.map_cons, List.nodup_cons] at distinct
      rcases List.mem_cons.mp member with rfl | later
      · simp
      · have otherName : (e.1 == key) = false := by
          rw [beq_eq_false_iff_ne]
          intro same
          subst same
          exact distinct.1 (List.mem_map.mpr ⟨e, later, rfl⟩)
        simp only [List.lookup_cons, otherName]
        exact inductionHypothesis distinct.2 later

end Table

/-- Whether the cases of a node can be compared. -/
def ShapeHeader.IsComparable (h : ShapeHeader) : Prop :=
  ∀ cases, h.cases = some cases → Value.allContent cases = true

namespace Shape

mutual

/-- Whether every name of a tree stands for one field and every case can be
compared. -/
def IsComparable : Shape → Prop
  | .single h _ => h.IsComparable
  | .keyed h _ fields => h.IsComparable ∧ (fields.map Prod.fst).Nodup ∧ AllComparable fields
  | .unkeyed h element => h.IsComparable ∧ element.IsComparable
  | .recursive h _ => h.IsComparable
  | .unconstrained h => h.IsComparable

/-- Whether the trees of fields are comparable. -/
def AllComparable : List (String × Shape) → Prop
  | [] => True
  | (_, s) :: rest => s.IsComparable ∧ AllComparable rest

end

/-- The trees of fields are comparable if each of them is. -/
theorem allComparable_iff {fields : List (String × Shape)} :
    AllComparable fields ↔ ∀ e ∈ fields, e.2.IsComparable := by
  induction fields with
  | nil => simp [AllComparable]
  | cons field rest inductionHypothesis =>
      obtain ⟨name, s⟩ := field
      simp [AllComparable, inductionHypothesis]

/-- A header that can be compared agrees with itself. -/
theorem header_agrees_self
    {h : ShapeHeader}
    (comparable : h.IsComparable) :
    h.agrees h = true := by
  unfold ShapeHeader.agrees
  have typeAgrees : sameType h.type h.type = true := by
    unfold sameType
    cases h.type <;> simp
  rw [typeAgrees]
  cases casesCase : h.cases with
  | none => simp
  | some cases =>
      have content := comparable cases casesCase
      simp [Value.equalAll, Value.equals, Value.list, Value.hasContent, content]

mutual

/-- A comparable tree agrees with itself. -/
theorem agrees_self (s : Shape) (comparable : s.IsComparable) : s.agrees s = true := by
  cases s with
  | single h kind =>
      rw [agrees, header_agrees_self comparable]
      simp
  | keyed h isFixed fields =>
      obtain ⟨headerComparable, distinct, fieldsComparable⟩ := comparable
      rw [agrees, header_agrees_self headerComparable]
      have fieldsAgree : agreesFields fields fields = true :=
        agreesFields_self fields fields fieldsComparable
          fun e member => Table.lookup_of_mem distinct member
      simp [fieldsAgree]
  | unkeyed h element =>
      obtain ⟨headerComparable, elementComparable⟩ := comparable
      rw [agrees, header_agrees_self headerComparable, agrees_self element elementComparable]
      rfl
  | recursive h marker =>
      rw [agrees, header_agrees_self comparable]
      simp
  | unconstrained h =>
      rw [agrees, header_agrees_self comparable]
termination_by structural s

/-- Comparable fields agree with a table that they are found in. -/
theorem agreesFields_self
    (fields table : List (String × Shape))
    (comparable : AllComparable fields)
    (found : ∀ e ∈ fields, table.lookup e.1 = some e.2) :
    agreesFields fields table = true := by
  cases fields with
  | nil => rw [agreesFields]
  | cons field rest =>
      obtain ⟨name, s⟩ := field
      obtain ⟨firstComparable, restComparable⟩ := comparable
      have first : table.lookup name = some s := found (name, s) (by simp)
      rw [agreesFields, first]
      simp only [agrees_self s firstComparable, Bool.true_and]
      exact agreesFields_self rest table restComparable
        fun e member => found e (List.mem_cons_of_mem _ member)
termination_by structural fields

end

/-- Trees that agree have headers that agree. -/
theorem header_agrees_of_agrees
    {s t : Shape}
    (agree : s.agrees t = true) :
    s.header.agrees t.header = true := by
  cases s <;> cases t <;>
    simp only [agrees, header, Bool.and_eq_true, Bool.false_eq_true] at agree ⊢
  case single.single => exact agree.1
  case keyed.keyed => exact agree.1.1.1
  case unkeyed.unkeyed => exact agree.1
  case recursive.recursive => exact agree.1
  case unconstrained.unconstrained => exact agree

/-- Trees that agree may both be missing or may both not. -/
theorem isOptional_eq_of_agrees
    {s t : Shape}
    (agree : s.agrees t = true) :
    s.isOptional = t.isOptional := by
  have headers := header_agrees_of_agrees agree
  unfold ShapeHeader.agrees at headers
  simp only [Bool.and_eq_true, beq_iff_eq] at headers
  exact headers.1.2

/-- Trees that agree stand for the same type. -/
theorem sameType_of_agrees
    {s t : Shape}
    (agree : s.agrees t = true) :
    sameType s.type t.type = true := by
  have headers := header_agrees_of_agrees agree
  unfold ShapeHeader.agrees at headers
  simp only [Bool.and_eq_true] at headers
  exact headers.1.1

@[simp]
theorem isOptional_optional (s : Shape) (isOptional : Bool) :
    (s.optional isOptional).isOptional = isOptional := by
  cases s <;> rfl

@[simp]
theorem type_optional (s : Shape) (isOptional : Bool) :
    (s.optional isOptional).type = s.type := by
  cases s <;> rfl

@[simp]
theorem hasRecursive_optional (s : Shape) (isOptional : Bool) :
    (s.optional isOptional).hasRecursive = s.hasRecursive := by
  cases s <;> simp [optional, withHeader, hasRecursive]

/-- Saying again what a tree says about being missing changes nothing. -/
theorem optional_isOptional (s : Shape) : s.optional s.isOptional = s := by
  cases s <;> rfl

/-- Whether a tree may be missing does not matter for comparing its parts. -/
theorem IsComparable.optional
    {s : Shape}
    (comparable : s.IsComparable)
    (isOptional : Bool) :
    (s.optional isOptional).IsComparable := by
  cases s <;> exact comparable

end Shape

/-- A header without cases can be compared. -/
theorem ShapeHeader.isComparable_of (type : Option TypeForm) :
    (ShapeHeader.of type).IsComparable := by
  intro cases isSome
  simp [ShapeHeader.of] at isSome

/-- The common shape of items is one of them, or nothing is known about it. -/
theorem commonElement_mem_or_any (shapes : List Shape) :
    Recording.commonElement shapes ∈ shapes ∨ Recording.commonElement shapes = .any none := by
  cases shapes with
  | nil => exact .inr rfl
  | cons first rest =>
      rw [Recording.commonElement]
      by_cases alike : (rest.all fun s => s.agrees first) = true
      · exact .inl (by simp [alike])
      · exact .inr (by simp [alike])

/-- Fields that are set one after the other have distinct names and comparable
trees. -/
theorem record_comparable
    {entries : List (FieldPlan × Shape)}
    (comparable : ∀ e ∈ entries, e.2.IsComparable)
    (fields : List (String × Shape))
    (distinct : (fields.map Prod.fst).Nodup)
    (fieldsComparable : ∀ e ∈ fields, e.2.IsComparable) :
    let final := entries.foldl
      (fun fields e => Table.set fields e.1.key (e.2.optional e.1.isOptional)) fields
    (final.map Prod.fst).Nodup ∧ ∀ e ∈ final, e.2.IsComparable := by
  induction entries generalizing fields with
  | nil => exact ⟨distinct, fieldsComparable⟩
  | cons e rest inductionHypothesis =>
      refine inductionHypothesis (fun other later => comparable other (List.mem_cons_of_mem _ later))
        _ (Table.nodup_keys_set distinct _ _) ?_
      intro field member
      rcases Table.mem_or_eq_of_mem_set member with old | rfl
      · exact fieldsComparable field old
      · exact (comparable e (by simp)).optional _

/-- A node made of comparable trees is comparable. -/
theorem Layout.node_comparable
    {type : TypeForm}
    {known : Option PrimitiveKind}
    {layout : Layout}
    {shapes : List Shape}
    (comparable : ∀ s ∈ shapes, s.IsComparable)
    (casesContent : ∀ value cases, layout = .scalar value cases → Value.allContent cases = true) :
    (layout.node type known shapes).IsComparable := by
  have first : (shapes.head?.getD (.any none)).IsComparable := by
    cases shapes with
    | nil => exact ShapeHeader.isComparable_of none
    | cons s rest => exact comparable s (by simp)
  cases layout with
  | unknown => exact ShapeHeader.isComparable_of _
  | record plans =>
      have entriesComparable : ∀ e ∈ plans.zip shapes, e.2.IsComparable :=
        fun e member => comparable e.2 (List.of_mem_zip member).2
      obtain ⟨distinct, fieldsComparable⟩ :=
        record_comparable entriesComparable [] List.nodup_nil fun _ absent => nomatch absent
      exact ⟨ShapeHeader.isComparable_of _, distinct,
        Shape.allComparable_iff.mpr fieldsComparable⟩
  | sequence item => exact ⟨ShapeHeader.isComparable_of _, first⟩
  | tuple items =>
      refine ⟨ShapeHeader.isComparable_of _, ?_⟩
      rcases commonElement_mem_or_any shapes with member | isAny
      · exact comparable _ member
      · rw [isAny]
        exact ShapeHeader.isComparable_of none
  | mapping value => exact ⟨ShapeHeader.isComparable_of _, by simp, first, trivial⟩
  | nullable inner => exact first.optional true
  | scalar value cases =>
      intro others isSome
      obtain rfl := Option.some.inj isSome
      exact casesContent value cases rfl

end SchemaProbe

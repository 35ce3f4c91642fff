import Mathlib.Data.List.Perm.Basic
import SchemaProbe.Proofs.MemoUnfolding
import SchemaProbe.Proofs.Tables

namespace SchemaProbe

/-!
# Trees up to the order of fields

Two ways of reading a universe that differ in the order of the fields of some types
unfold to trees that differ in the order of the fields of those types and in nothing
else: plain unfolding makes every field by itself, whatever stands beside it.
-/

open List

/-! ## Trees -/

namespace Shape

mutual

/-- Whether two trees are the same but for the order of the fields of some types. -/
inductive SameButOrder (moves : TypeForm → Prop) : Shape → Shape → Prop
  | single (h : ShapeHeader) (kind : PrimitiveKind) :
      SameButOrder moves (.single h kind) (.single h kind)
  | recursive (h : ShapeHeader) (marker : TypeForm) :
      SameButOrder moves (.recursive h marker) (.recursive h marker)
  | unconstrained (h : ShapeHeader) : SameButOrder moves (.unconstrained h) (.unconstrained h)
  | unkeyed {h : ShapeHeader} {element other : Shape} :
      SameButOrder moves element other →
      SameButOrder moves (.unkeyed h element) (.unkeyed h other)
  | keyed {h : ShapeHeader} {isFixed : Bool} {fields others : List (String × Shape)} :
      FieldsSameButOrder moves fields others →
      SameButOrder moves (.keyed h isFixed fields) (.keyed h isFixed others)
  | moved {h : ShapeHeader} {type : TypeForm} {isFixed : Bool}
      {fields others reordered : List (String × Shape)} :
      h.type = some type → moves type → FieldsSameButOrder moves fields others →
      others ~ reordered →
      SameButOrder moves (.keyed h isFixed fields) (.keyed h isFixed reordered)

/-- Whether fields have the same names and trees that are the same but for the order
of the fields of some types. -/
inductive FieldsSameButOrder (moves : TypeForm → Prop) :
    List (String × Shape) → List (String × Shape) → Prop
  | nil : FieldsSameButOrder moves [] []
  | cons {name : String} {s t : Shape} {rest others : List (String × Shape)} :
      SameButOrder moves s t → FieldsSameButOrder moves rest others →
      FieldsSameButOrder moves ((name, s) :: rest) ((name, t) :: others)

end

section

variable {moves : TypeForm → Prop} {s t : Shape}

/-- Fields are compared one by one. -/
theorem fieldsSameButOrder_of_forall₂
    {fields others : List (String × Shape)}
    (each : Forall₂ (fun e f => e.1 = f.1 ∧ SameButOrder moves e.2 f.2) fields others) :
    FieldsSameButOrder moves fields others := by
  induction each with
  | nil => exact .nil
  | @cons e f rest others both _ inductionHypothesis =>
      obtain ⟨name, s⟩ := e
      obtain ⟨other, t⟩ := f
      obtain ⟨rfl, same⟩ := both
      exact .cons same inductionHypothesis

namespace SameButOrder

theorem any (type : Option TypeForm) : SameButOrder moves (.any type) (.any type) :=
  .unconstrained _

/-- Trees that are the same stay so where they may be missing. -/
theorem optional
    (same : SameButOrder moves s t)
    (isOptional : Bool) :
    SameButOrder moves (s.optional isOptional) (t.optional isOptional) := by
  cases same with
  | single h kind => exact .single _ kind
  | recursive h marker => exact .recursive _ marker
  | unconstrained h => exact .unconstrained _
  | unkeyed element => exact .unkeyed element
  | keyed fields => exact .keyed fields
  | moved stands free fields reordered => exact .moved stands free fields reordered

/-- A node without parts is the same as itself. -/
theorem of_isLeafNode (isLeaf : IsLeafNode s) : SameButOrder moves s s := by
  cases isLeaf with
  | foreign => exact .any none
  | any _ => exact .any _
  | scalar _ => exact .single _ _

/-- A scalar is the same as itself alone. -/
theorem eq_of_single
    {h : ShapeHeader}
    {kind : PrimitiveKind}
    (same : SameButOrder moves (.single h kind) t) :
    t = .single h kind := by
  cases same
  rfl

end SameButOrder

end

end Shape

/-! ## Nodes -/

namespace Layout

variable {moves : TypeForm → Prop} {type : TypeForm} {shapes others : List Shape}

/-- Trees that are the same make for the same kind. -/
theorem scalarKind_sameButOrder
    (same : Forall₂ (Shape.SameButOrder moves) shapes others)
    (cases : List Value) :
    scalarKind cases shapes = scalarKind cases others := by
  cases same with
  | nil => rfl
  | cons first _ => cases first <;> rfl

/-- The first of some trees, or an unconstrained node. -/
theorem head_sameButOrder
    (same : Forall₂ (Shape.SameButOrder moves) shapes others) :
    Shape.SameButOrder moves (shapes.head?.getD (.any none)) (others.head?.getD (.any none)) := by
  cases same with
  | nil => exact .any none
  | cons first _ => exact first

/-- The fields that plans make of trees that are the same are the same. -/
theorem fields_sameButOrder
    (plans : List FieldPlan)
    (same : Forall₂ (Shape.SameButOrder moves) shapes others)
    {table other : List (String × Shape)}
    (alike : Forall₂ (fun e f => e.1 = f.1 ∧ Shape.SameButOrder moves e.2 f.2) table other) :
    Forall₂ (fun e f => e.1 = f.1 ∧ Shape.SameButOrder moves e.2 f.2)
      ((plans.zip shapes).foldl
        (fun fields e => Table.set fields e.1.key (e.2.optional e.1.isOptional)) table)
      ((plans.zip others).foldl
        (fun fields e => Table.set fields e.1.key (e.2.optional e.1.isOptional)) other) := by
  induction plans generalizing shapes others table other with
  | nil => exact alike
  | cons p rest inductionHypothesis =>
      cases same with
      | nil => exact alike
      | cons first further =>
          apply inductionHypothesis further
          exact Table.forall₂_set alike p.key (first.optional p.isOptional)

/-- A layout makes the same node of trees that are the same, if their common tree is
the same where it is a tuple. -/
theorem node_sameButOrder
    (layout : Layout)
    (same : Forall₂ (Shape.SameButOrder moves) shapes others)
    (common : ∀ items, layout = .tuple items →
      Shape.SameButOrder moves (Recording.commonElement shapes) (Recording.commonElement others)) :
    Shape.SameButOrder moves (layout.node type none shapes) (layout.node type none others) := by
  cases layout with
  | unknown => exact .any _
  | record plans =>
      apply Shape.SameButOrder.keyed
      exact Shape.fieldsSameButOrder_of_forall₂ (fields_sameButOrder plans same .nil)
  | sequence item => exact .unkeyed (head_sameButOrder same)
  | tuple items => exact .unkeyed (common items rfl)
  | mapping value => exact .keyed (.cons (head_sameButOrder same) .nil)
  | nullable inner => exact (head_sameButOrder same).optional true
  | scalar value cases =>
      rw [node, node, scalarKind_sameButOrder same cases]
      exact .single _ _

end Layout

/-- What belongs to the elements of a list one by one moves along with them. -/
theorem exists_zip_perm
    {belongs : α → β → Prop}
    {as moved : List α}
    {bs : List β}
    (isMoved : moved ~ as)
    (each : Forall₂ belongs as bs) :
    ∃ last, Forall₂ belongs moved last ∧ moved.zip last ~ as.zip bs := by
  have paired : Forall₂ (fun a e => e.1 = a ∧ belongs a e.2) as (as.zip bs) := by
    clear isMoved
    induction each with
    | nil => exact .nil
    | cons first _ inductionHypothesis => exact .cons ⟨rfl, first⟩ inductionHypothesis
  obtain ⟨pairs, movedPaired, pairsMoved⟩ := perm_comp_forall₂ isMoved paired
  have split : Forall₂ belongs moved (pairs.map Prod.snd) ∧
      moved.zip (pairs.map Prod.snd) = pairs := by
    clear isMoved pairsMoved
    induction movedPaired with
    | nil => exact ⟨.nil, rfl⟩
    | @cons a e rest pairs first _ inductionHypothesis =>
        obtain ⟨b, c⟩ := e
        obtain ⟨rfl, isFirst⟩ := first
        refine ⟨.cons isFirst inductionHypothesis.1, ?_⟩
        rw [map_cons, zip_cons_cons, inductionHypothesis.2]
  refine ⟨_, split.1, ?_⟩
  rw [split.2]
  exact pairsMoved

/-- What stands for the fields of a class in another order makes for the same node but
for that order. -/
theorem Layout.exists_reordered
    {moves : TypeForm → Prop}
    {type : TypeForm}
    {plans reordered : List FieldPlan}
    {shapes others : List Shape}
    {stands : TypeForm → Shape → Prop}
    (free : moves type)
    (distinct : (plans.map (·.key)).Nodup)
    (moved : reordered ~ plans)
    (each : Forall₂ stands (plans.map FieldPlan.requested) others)
    (same : Forall₂ (Shape.SameButOrder moves) shapes others) :
    ∃ last, Forall₂ stands (reordered.map FieldPlan.requested) last ∧
      Shape.SameButOrder moves ((Layout.record plans).node type none shapes)
        ((Layout.record reordered).node type none last) := by
  rw [forall₂_map_left_iff] at each
  obtain ⟨last, lastEach, zipMoved⟩ := exists_zip_perm moved each
  refine ⟨last, forall₂_map_left_iff.mpr lastEach, ?_⟩
  -- Where all keys differ, setting them one after the other is listing them.
  have listed {entries : List (FieldPlan × Shape)}
      (unique : (entries.map fun e => e.1.key).Nodup) :
      entries.foldl (fun fields e => Table.set fields e.1.key (e.2.optional e.1.isOptional)) [] =
        entries.map fun e => (e.1.key, e.2.optional e.1.isOptional) :=
    Table.foldl_set_of_distinct (fun e : FieldPlan × Shape => e.1.key) _ (by simpa using unique)
  have unique : ((plans.zip others).map fun e => e.1.key).Nodup := by
    have firsts : (plans.zip others).map Prod.fst = plans :=
      map_fst_zip (Nat.le_of_eq each.length_eq)
    rw [← firsts, map_map] at distinct
    exact distinct
  have lastUnique : ((reordered.zip last).map fun e => e.1.key).Nodup :=
    (zipMoved.map fun e => e.1.key).nodup_iff.mpr unique
  rw [node, node, listed lastUnique]
  apply Shape.SameButOrder.moved rfl free
  · exact Shape.fieldsSameButOrder_of_forall₂ (fields_sameButOrder plans same .nil)
  · rw [listed unique]
    exact zipMoved.symm.map _

/-! ## Entries -/

/-- Whether type forms stand for the same but for the order of the fields of some
types. -/
inductive Entry.SameButOrder (moves : TypeForm → Prop) : Entry → Entry → Prop
  | same (e : Entry) : SameButOrder moves e e
  | moved {type : TypeForm} {plans reordered : List FieldPlan} :
      moves type → (plans.map (·.key)).Nodup → reordered ~ plans →
      SameButOrder moves (.inner type (.record plans)) (.inner type (.record reordered))

section

variable {moves : TypeForm → Prop} {entry other : TypeForm → Entry} {forms : List TypeForm}
  {root a : TypeForm} {above : List Key} {shape : Shape}

namespace Entry.SameButOrder

theorem symm
    {e f : Entry}
    (same : Entry.SameButOrder moves e f) :
    Entry.SameButOrder moves f e := by
  cases same with
  | same => exact .same _
  | moved free distinct reordered =>
      exact .moved free ((reordered.map _).nodup_iff.mpr distinct) reordered.symm

theorem key?_eq
    {e f : Entry}
    (same : Entry.SameButOrder moves e f) :
    e.key? = f.key? := by
  cases same <;> rfl

/-- What is not looked into stands for the same. -/
theorem of_leaf
    {e : Entry}
    (same : Entry.SameButOrder moves (.leaf shape) e) :
    e = .leaf shape := by
  cases same
  rfl

/-- What is looked into asks for the same. -/
theorem of_inner
    {type : TypeForm}
    {layout : Layout}
    {e : Entry}
    (same : Entry.SameButOrder moves (.inner type layout) e) :
    ∃ reordered, e = .inner type reordered ∧ reordered.requests ~ layout.requests := by
  cases same with
  | same => exact ⟨layout, rfl, .refl _⟩
  | moved _ _ reordered => exact ⟨_, rfl, reordered.map _⟩

/-- Types that are read as another one or null stand for the same. -/
theorem of_nullable
    {type x : TypeForm}
    {e : Entry}
    (same : Entry.SameButOrder moves (.inner type (.nullable x)) e) :
    e = .inner type (.nullable x) := by
  cases same
  rfl

theorem isNullable
    {e f : Entry}
    (same : Entry.SameButOrder moves e f)
    (nullable : e.IsNullable) :
    f.IsNullable := by
  obtain ⟨type, x, rfl⟩ := nullable.exists_eq
  rw [same.of_nullable]
  trivial

end Entry.SameButOrder

/-- A type has the same face where the order of fields is another. -/
theorem face_sameButOrder
    (same : ∀ b ∈ forms, Entry.SameButOrder moves (entry b) (other b))
    (closed : ClosedUnder entry forms)
    (member : a ∈ forms) :
    face entry a = face other a := by
  have isSame := same a member
  by_cases isNullable : (entry a).IsNullable
  · obtain ⟨type, x, entryCase⟩ := isNullable.exists_eq
    have isWrapped := same x (closed a member type _ entryCase x List.mem_cons_self)
    rw [entryCase] at isSame
    cases wrappedCase : entry x with
    | leaf shape =>
        rw [wrappedCase] at isWrapped
        simp [face, entryCase, isSame.of_nullable, wrappedCase, isWrapped.of_leaf]
    | inner inside layout =>
        rw [wrappedCase] at isWrapped
        obtain ⟨reordered, otherCase, _⟩ := isWrapped.of_inner
        simp [face, entryCase, isSame.of_nullable, wrappedCase, otherCase]
  · have otherRequired : ¬ (other a).IsNullable := fun nullable =>
      isNullable (isSame.symm.isNullable nullable)
    rw [face_of_not_nullable isNullable, face_of_not_nullable otherRequired, isSame.key?_eq]

/-- The same types are met where the order of fields is another. -/
theorem Visits.sameButOrder
    (visits : Visits entry [] root above a)
    (same : ∀ b ∈ forms, Entry.SameButOrder moves (entry b) (other b))
    (lawful : Lawful entry forms)
    (rootMember : root ∈ forms) :
    Visits other [] root above a := by
  induction visits with
  | root => exact .root
  | request visits isInner notMet asked inductionHypothesis =>
      have isSame := same _ (visits.mem lawful rootMember)
      rw [isInner] at isSame
      obtain ⟨reordered, otherInner, requests⟩ := isSame.of_inner
      exact .request inductionHypothesis otherInner notMet (requests.mem_iff.mpr asked)

/-! ## Unfolding -/

/-- The elements of a tuple have a common tree wherever the order of fields is
another. -/
theorem commonElement_sameButOrder
    {items : List TypeForm}
    {shapes others : List Shape}
    (same : ∀ b ∈ forms, Entry.SameButOrder moves (entry b) (other b))
    (lawful : Lawful entry forms)
    (otherLawful : Lawful other forms)
    (rootMember : root ∈ forms)
    (visits : ∀ item ∈ items, Visits entry [] root above item)
    (unfold : Forall₂ (Unfolds entry (fun _ => none) above) items shapes)
    (otherUnfold : Forall₂ (Unfolds other (fun _ => none) above) items others)
    (each : Forall₂ (Shape.SameButOrder moves) shapes others) :
    Shape.SameButOrder moves (Recording.commonElement shapes) (Recording.commonElement others) := by
  have proper (entry : TypeForm → Entry) : Proper entry forms [] := fun _ _ _ _ _ _ met => by
    cases met
  cases unfold with
  | nil =>
      cases each
      exact .any none
  | @cons first shape rest shapes firstUnfolds restUnfold =>
      cases otherUnfold with
      | @cons _ otherShape _ others otherFirst otherRest =>
          have otherVisits (item : TypeForm) (isItem : item ∈ first :: rest) :=
            (visits item isItem).sameButOrder same lawful rootMember
          have faces (item : TypeForm) (isItem : item ∈ first :: rest) :=
            face_sameButOrder same lawful.closed ((visits item isItem).mem lawful rootMember)
          have agree := all_agrees_eq_all_face (visits first mem_cons_self)
            (fun item isItem => visits item (mem_cons_of_mem _ isItem)) lawful rootMember
            (proper entry) firstUnfolds restUnfold
          have otherAgree := all_agrees_eq_all_face (otherVisits first mem_cons_self)
            (fun item isItem => otherVisits item (mem_cons_of_mem _ isItem)) otherLawful rootMember
            (proper other) otherFirst otherRest
          have sameFaces : (rest.all fun item => face entry item == face entry first) =
              rest.all fun item => face other item == face other first := by
            rw [Bool.eq_iff_iff, all_eq_true, all_eq_true]
            apply forall₂_congr
            intro item isItem
            rw [faces first mem_cons_self, faces item (mem_cons_of_mem _ isItem)]
          rw [Recording.commonElement, Recording.commonElement, agree, otherAgree, sameFaces]
          split
          · exact (forall₂_cons.mp each).1
          · exact .any none

/-- Trees that are the same can be found one by one. -/
theorem exists_sameButOrder
    {requests : List TypeForm}
    {shapes : List Shape}
    (each : Forall₂ (fun request shape => Visits entry [] root above request →
      ∃ reordered, Unfolds other (fun _ => none) above request reordered ∧
        Shape.SameButOrder moves shape reordered) requests shapes)
    (visits : ∀ request ∈ requests, Visits entry [] root above request) :
    ∃ others, Forall₂ (Unfolds other (fun _ => none) above) requests others ∧
      Forall₂ (Shape.SameButOrder moves) shapes others := by
  induction each with
  | nil => exact ⟨[], .nil, .nil⟩
  | cons first _ inductionHypothesis =>
      obtain ⟨t, unfolds, same⟩ := first (visits _ mem_cons_self)
      obtain ⟨others, further, alike⟩ :=
        inductionHypothesis fun request asked => visits request (mem_cons_of_mem _ asked)
      exact ⟨t :: others, .cons unfolds further, .cons same alike⟩

/-- Where the order of the fields of some types is another, a type unfolds to the
same tree but for that order. -/
theorem Unfolds.sameButOrder
    (unfolds : Unfolds entry (fun _ => none) above a shape)
    (same : ∀ b ∈ forms, Entry.SameButOrder moves (entry b) (other b))
    (lawful : Lawful entry forms)
    (otherLawful : Lawful other forms)
    (rootMember : root ∈ forms)
    (visits : Visits entry [] root above a) :
    ∃ reordered, Unfolds other (fun _ => none) above a reordered ∧
      Shape.SameButOrder moves shape reordered := by
  revert visits
  apply Unfolds.tree_induction (motive := fun above a shape => Visits entry [] root above a →
    ∃ reordered, Unfolds other (fun _ => none) above a reordered ∧
      Shape.SameButOrder moves shape reordered) _ _ _ unfolds
  · intro above a shape isLeaf visits
    have member := visits.mem lawful rootMember
    have isSame := same a member
    rw [isLeaf] at isSame
    exact ⟨shape, .leaf isSame.of_leaf above, .of_isLeafNode (lawful.leaves a member shape isLeaf)⟩
  · intro above a type layout isInner met visits
    have isSame := same a (visits.mem lawful rootMember)
    rw [isInner] at isSame
    obtain ⟨reordered, otherInner, _⟩ := isSame.of_inner
    exact ⟨.back type, .back otherInner met, .recursive _ _⟩
  · intro above a type layout shapes isInner notMet unfold each visits
    have isSame := same a (visits.mem lawful rootMember)
    have requestVisits (request : TypeForm) (asked : request ∈ layout.requests) :=
      visits.request isInner notMet asked
    obtain ⟨others, otherUnfold, alike⟩ := exists_sameButOrder each requestVisits
    rw [isInner] at isSame
    generalize otherCase : other a = e at isSame
    cases isSame with
    | same =>
        refine ⟨_, .inner otherCase notMet otherUnfold, layout.node_sameButOrder alike ?_⟩
        rintro items rfl
        exact commonElement_sameButOrder same lawful otherLawful rootMember requestVisits unfold
          otherUnfold alike
    | moved free distinct moved =>
        obtain ⟨last, lastUnfold, lastSame⟩ :=
          Layout.exists_reordered free distinct moved otherUnfold alike
        exact ⟨_, .inner otherCase notMet lastUnfold, lastSame⟩

/-- Types with cases have the same node wherever they are met if they have where the
order of fields is another. -/
theorem KindsAgree.sameButOrder
    (agree : KindsAgree entry [] root)
    (same : ∀ b ∈ forms, Entry.SameButOrder moves (entry b) (other b))
    (lawful : Lawful entry forms)
    (otherLawful : Lawful other forms)
    (rootMember : root ∈ forms) :
    KindsAgree other [] root := by
  have otherSame : ∀ b ∈ forms, Entry.SameButOrder moves (other b) (entry b) :=
    fun b member => (same b member).symm
  intro a b above further type value cases shape last visits furtherVisits isInner otherInner notMet
    notFurther unfolds lastUnfolds
  -- What stands for a type with cases unfolds to a scalar, which has no fields to move.
  have scalar {a : TypeForm} {above : List Key} {shape : Shape}
      (visits : Visits other [] root above a)
      (isInner : other a = .inner type (.scalar value cases)) (notMet : type.identity ∉ above)
      (unfolds : Unfolds other (fun _ => none) above a shape) :
      Visits entry [] root above a ∧ entry a = .inner type (.scalar value cases) ∧
        Unfolds entry (fun _ => none) above a shape := by
    have isSame := otherSame a (visits.mem otherLawful rootMember)
    obtain ⟨shapes, _, rfl⟩ := unfolds.exists_requests isInner notMet
    obtain ⟨found, foundUnfolds, foundSame⟩ :=
      unfolds.sameButOrder otherSame otherLawful lawful rootMember visits
    rw [isInner] at isSame
    generalize entryCase : entry a = e at isSame
    cases isSame
    obtain rfl := foundSame.eq_of_single
    exact ⟨visits.sameButOrder otherSame otherLawful rootMember, rfl, foundUnfolds⟩
  obtain ⟨firstVisits, firstInner, firstUnfolds⟩ := scalar visits isInner notMet unfolds
  obtain ⟨secondVisits, secondInner, secondUnfolds⟩ :=
    scalar furtherVisits otherInner notFurther lastUnfolds
  exact agree a b above further type value cases shape last firstVisits secondVisits firstInner
    secondInner notMet notFurther firstUnfolds secondUnfolds

end

end SchemaProbe

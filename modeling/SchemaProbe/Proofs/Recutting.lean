import SchemaProbe.Proofs.Readings
import SchemaProbe.Proofs.Tables

namespace SchemaProbe

/-!
# Trees that are cut at another type

A description of a type or null enters both the type and the type or null.  Where it
meets the type or null again, its tree is cut there, while a description of the type
alone looks through it and is cut at the type, which may be missing.  The one tree
becomes the other by changing the nodes at which it is cut.  That changes neither
which trees agree nor how nodes are made of the trees of their parts.
-/

open List

/-- What may not be null is not the same as what may. -/
theorem TypeForm.key_ne_of_not_isNullable
    {a b : TypeForm}
    (isNullable : b.key.isNullable = true)
    (required : a.key.isNullable = false) :
    a.key ≠ b.key := by
  intro same
  rw [same, isNullable] at required
  cases required

/-- What may be null is no class. -/
theorem TypeForm.identity_class_ne_of_isNullable
    {b : TypeForm}
    (isNullable : b.key.isNullable = true)
    (c : ClassRef) :
    (TypeForm.cls c).identity ≠ b.key := by
  refine TypeForm.key_ne_of_not_isNullable isNullable ?_
  rw [TypeForm.isNullable_key rfl]
  rfl

/-- What a type or null is read as is not the type or null. -/
theorem TypeForm.identity_inner_ne
    {a inner : TypeForm}
    (plain : a.isPlain = true)
    (strips : a.stripNull = (inner, true)) :
    inner.identity ≠ a.key := by
  have innerPlain := TypeForm.isPlain_stripNull plain
  have remains := TypeForm.stripNull_stripNull plain
  rw [strips] at innerPlain remains
  rw [TypeForm.identity_of_isPlain innerPlain]
  refine TypeForm.key_ne_of_not_isNullable ?_ ?_
  · rw [TypeForm.isNullable_key plain, strips]
  · rw [TypeForm.isNullable_key innerPlain, remains]

/-- A type or null, and the type, as they are known. -/
structure Cut where
  nullable : TypeForm
  bare : TypeForm
  plain : nullable.isPlain = true
  barePlain : bare.isPlain = true
  strips : ∃ inner, nullable.stripNull = (inner, true) ∧ inner.key = bare.key

namespace Cut

variable (cut : Cut)

/-- The type or null may be null. -/
theorem isNullable : cut.nullable.key.isNullable = true := by
  obtain ⟨inner, stripped, -⟩ := cut.strips
  rw [TypeForm.isNullable_key cut.plain, stripped]

/-- The type may not be null. -/
theorem bare_not_isNullable : cut.bare.key.isNullable = false := by
  obtain ⟨inner, stripped, sameKey⟩ := cut.strips
  have remains := TypeForm.stripNull_stripNull cut.plain
  have innerPlain := TypeForm.isPlain_stripNull cut.plain
  rw [stripped] at remains innerPlain
  rw [← sameKey, TypeForm.isNullable_key innerPlain, remains]

/-- The type is not the same as the type or null. -/
theorem bare_ne : cut.bare.key ≠ cut.nullable.key :=
  TypeForm.key_ne_of_not_isNullable cut.isNullable cut.bare_not_isNullable

/-- What another type is read as, if not as null, is neither of the two. -/
theorem inner_ne
    {type inner : TypeForm}
    (plain : type.isPlain = true)
    (other : type.key ≠ cut.nullable.key)
    (strips : type.stripNull = (inner, true)) :
    inner.key ≠ cut.nullable.key ∧ inner.key ≠ cut.bare.key := by
  have innerPlain := TypeForm.isPlain_stripNull plain
  have remains := TypeForm.stripNull_stripNull plain
  rw [strips] at innerPlain remains
  constructor
  · refine TypeForm.key_ne_of_not_isNullable cut.isNullable ?_
    rw [TypeForm.isNullable_key innerPlain, remains]
  · intro same
    obtain ⟨wrapped, stripped, sameKey⟩ := cut.strips
    exact other (TypeForm.key_eq_of_stripNull plain cut.plain strips stripped
      (same.trans sameKey.symm))

/-- What the type or null is read as is the type, however it is written. -/
theorem key_inner
    {type inner : TypeForm}
    (plain : type.isPlain = true)
    (same : type.key = cut.nullable.key)
    (strips : type.stripNull = (inner, true)) :
    inner.key = cut.bare.key := by
  obtain ⟨wrapped, stripped, sameKey⟩ := cut.strips
  exact (TypeForm.key_stripNull_congr plain cut.plain strips stripped same).trans sameKey

end Cut

/-- Whether a header is not that of the type or null. -/
def ShapeHeader.Avoids (h : ShapeHeader) (cut : Cut) : Prop :=
  ∀ type, h.type = some type → type.key ≠ cut.nullable.key

namespace Shape

mutual

/-- A tree that is cut at the type instead of at the type or null. -/
def recut (cut : Cut) : Shape → Shape
  | .single h kind => .single h kind
  | .keyed h isFixed fields => .keyed h isFixed (recutFields cut fields)
  | .unkeyed h element => .unkeyed h (recut cut element)
  | .recursive h marker =>
    if marker.key = cut.nullable.key then (back cut.bare).optional true else .recursive h marker
  | .unconstrained h => .unconstrained h

/-- The trees of fields, cut at the type instead of at the type or null. -/
def recutFields (cut : Cut) : List (String × Shape) → List (String × Shape)
  | [] => []
  | (name, s) :: rest => (name, recut cut s) :: recutFields cut rest

end

/-- Whether a tree is one that is found below a type and the type or null.  Where it is
met again, the type or null is referred back to, but for fields, which are read without
null: there, and only there, the type is referred back to as one that may be missing. -/
inductive IsCut (cut : Cut) : (inField : Bool) → Shape → Prop
  | single {inField : Bool} {h : ShapeHeader} {kind : PrimitiveKind} :
      h.Avoids cut → IsCut cut inField (.single h kind)
  | keyed {inField isFixed : Bool} {h : ShapeHeader} {fields : List (String × Shape)} :
      h.Avoids cut → (∀ e ∈ fields, IsCut cut isFixed e.2) →
      IsCut cut inField (.keyed h isFixed fields)
  | unkeyed {inField : Bool} {h : ShapeHeader} {element : Shape} :
      h.Avoids cut → IsCut cut false element → IsCut cut inField (.unkeyed h element)
  | unconstrained {inField : Bool} {h : ShapeHeader} :
      h.Avoids cut → IsCut cut inField (.unconstrained h)
  | nullable : IsCut cut false (back cut.nullable)
  | back {inField : Bool} {h : ShapeHeader} {marker : TypeForm} :
      marker.key ≠ cut.nullable.key → h.type = some marker →
      (marker.key = cut.bare.key → h.isOptional = true → inField = true) →
      IsCut cut inField (.recursive h marker)

/-! ## What stays the same -/

section

variable {cut : Cut} {inField : Bool}

theorem recutFields_eq_map (fields : List (String × Shape)) :
    recutFields cut fields = fields.map fun e => (e.1, e.2.recut cut) := by
  induction fields with
  | nil => rfl
  | cons field rest inductionHypothesis => rw [recutFields, inductionHypothesis, map_cons]

mutual

/-- A tree refers back somewhere wherever it is cut. -/
theorem hasRecursive_recut (s : Shape) : (s.recut cut).hasRecursive = s.hasRecursive := by
  cases s with
  | keyed h isFixed fields => exact anyRecursive_recutFields fields
  | unkeyed h element => exact hasRecursive_recut element
  | recursive h marker =>
      rw [recut]
      split <;> rfl
  | single h kind => rfl
  | unconstrained h => rfl
termination_by structural s

/-- Fields refer back somewhere wherever they are cut. -/
theorem anyRecursive_recutFields (fields : List (String × Shape)) :
    anyRecursive (recutFields cut fields) = anyRecursive fields := by
  cases fields with
  | nil => rfl
  | cons field rest =>
      obtain ⟨name, s⟩ := field
      rw [recutFields, anyRecursive, anyRecursive, hasRecursive_recut s,
        anyRecursive_recutFields rest]
termination_by structural fields

end

/-- It does not matter whether a tree is cut before or after it is said to be
optional. -/
theorem recut_optional (s : Shape) : (s.optional true).recut cut = (s.recut cut).optional true := by
  cases s with
  | recursive h marker =>
      rw [optional, withHeader, recut, recut]
      split <;> rfl
  | _ => rfl

/-- A tree that is not itself cut at the type or null says the same about itself. -/
theorem header_recut
    {s : Shape}
    (other : ∀ h marker, s = .recursive h marker → marker.key ≠ cut.nullable.key) :
    (s.recut cut).header = s.header := by
  cases s with
  | recursive h marker => rw [recut, if_neg (other h marker rfl)]
  | _ => rfl

/-- A node that refers back agrees with itself. -/
theorem back_agrees_self (type : TypeForm) (isOptional : Bool) :
    ((back type).optional isOptional).agrees ((back type).optional isOptional) = true := by
  have comparable : (back type).IsComparable := ShapeHeader.isComparable_of (some type)
  exact agrees_self _ (comparable.optional isOptional)

/-- Where the type or null may be referred back to, no other node agrees with one that
refers back to the type, which may be missing. -/
theorem IsCut.not_agrees_bare
    {h : ShapeHeader}
    {marker : TypeForm}
    (isCut : IsCut cut false (.recursive h marker))
    (other : marker.key ≠ cut.nullable.key) :
    ((Shape.back cut.bare).optional true).agrees (.recursive h marker) = false ∧
      (Shape.recursive h marker).agrees ((Shape.back cut.bare).optional true) = false := by
  have notBoth : marker.key = cut.bare.key → h.isOptional = true → False := by
    cases isCut with
    | nullable => exact absurd rfl other
    | back _ _ onlyField => exact fun sameMarker isOptional => nomatch onlyField sameMarker isOptional
  constructor
  · rw [Bool.eq_false_iff]
    intro agree
    have isOptional : true = h.isOptional := isOptional_eq_of_agrees agree
    simp only [Shape.back, Shape.optional, withHeader, agrees, Bool.and_eq_true, beq_iff_eq] at agree
    exact notBoth agree.2.symm isOptional.symm
  · rw [Bool.eq_false_iff]
    intro agree
    have isOptional : h.isOptional = true := isOptional_eq_of_agrees agree
    simp only [Shape.back, Shape.optional, withHeader, agrees, Bool.and_eq_true, beq_iff_eq] at agree
    exact notBoth agree.2 isOptional

/-- Nodes that refer back agree wherever they are cut. -/
theorem agrees_recut_recursive
    {h g : ShapeHeader}
    {marker other : TypeForm}
    (isCut : IsCut cut inField (.recursive h marker))
    (otherCut : IsCut cut inField (.recursive g other)) :
    ((Shape.recursive h marker).recut cut).agrees ((Shape.recursive g other).recut cut) =
      (Shape.recursive h marker).agrees (.recursive g other) := by
  have differ {h g : ShapeHeader} {marker other : TypeForm} (different : marker.key ≠ other.key) :
      (Shape.recursive h marker).agrees (.recursive g other) = false := by
    rw [agrees, Bool.and_eq_false_iff]
    exact .inr (beq_eq_false_iff_ne.mpr different)
  rw [recut, recut]
  cases isCut with
  | nullable =>
      cases otherCut with
      | nullable =>
          rw [if_pos rfl]
          exact (back_agrees_self _ _).trans (back_agrees_self _ false).symm
      | back elsewhere ofMarker onlyField =>
          rw [if_pos rfl, if_neg elsewhere, differ (Ne.symm elsewhere)]
          exact ((IsCut.back elsewhere ofMarker onlyField).not_agrees_bare elsewhere).1
  | back elsewhere ofMarker onlyField =>
      rw [if_neg elsewhere]
      cases otherCut with
      | nullable =>
          rw [if_pos rfl, differ elsewhere]
          exact ((IsCut.back elsewhere ofMarker onlyField).not_agrees_bare elsewhere).2
      | back otherElsewhere _ _ => rw [if_neg otherElsewhere]

/-- What refers back agrees with nothing that does not, and the other way round. -/
theorem agrees_of_isRecursive_ne
    {s t : Shape}
    (differ : s.isRecursive ≠ t.isRecursive) :
    s.agrees t = false := by
  cases s <;> cases t <;> first | rfl | exact absurd rfl differ

/-- A node refers back wherever it is cut. -/
theorem isRecursive_recut (s : Shape) : (s.recut cut).isRecursive = s.isRecursive := by
  cases s with
  | recursive h marker =>
      rw [recut]
      split <;> rfl
  | _ => rfl

/-- Fields agree wherever they are cut if their trees do. -/
theorem agreesFields_recutFields
    {fields others : List (String × Shape)}
    (alike : ∀ e ∈ fields, ∀ f ∈ others,
      (e.2.recut cut).agrees (f.2.recut cut) = e.2.agrees f.2) :
    agreesFields (recutFields cut fields) (recutFields cut others) = agreesFields fields others := by
  induction fields with
  | nil => rfl
  | cons field rest inductionHypothesis =>
      obtain ⟨name, s⟩ := field
      have lookedUp : (recutFields cut others).lookup name =
          (others.lookup name).map (recut cut) := by
        rw [recutFields_eq_map]
        exact Table.lookup_map_entries (fun _ => recut cut) name others
      rw [recutFields, agreesFields, agreesFields, lookedUp,
        inductionHypothesis fun e member => alike e (mem_cons_of_mem _ member)]
      congr 1
      cases found : others.lookup name with
      | none => rfl
      | some t => exact alike (name, s) mem_cons_self (name, t) (Table.mem_of_lookup found)

/-- Trees agree wherever they are cut. -/
theorem agrees_recut
    {s t : Shape}
    (isCut : s.IsCut cut inField)
    (otherCut : t.IsCut cut inField) :
    (s.recut cut).agrees (t.recut cut) = s.agrees t := by
  -- What refers back is cut, and all else keeps its kind and what it says about itself.
  have apart {s t : Shape} (differ : s.isRecursive ≠ t.isRecursive) :
      (s.recut cut).agrees (t.recut cut) = s.agrees t := by
    rw [agrees_of_isRecursive_ne differ, agrees_of_isRecursive_ne]
    rwa [isRecursive_recut, isRecursive_recut]
  induction isCut generalizing t with
  | single _ | unconstrained _ =>
      cases otherCut with
      | nullable | back _ _ _ => exact apart Bool.false_ne_true
      | _ => rfl
  | unkeyed _ _ inductionHypothesis =>
      cases otherCut with
      | nullable | back _ _ _ => exact apart Bool.false_ne_true
      | unkeyed _ elementCut =>
          rw [recut, recut, agrees, agrees, inductionHypothesis elementCut]
      | _ => rfl
  | @keyed _ isFixed h fields _ _ inductionHypothesis =>
      cases otherCut with
      | nullable | back _ _ _ => exact apart Bool.false_ne_true
      | @keyed _ otherFixed g others _ othersCut =>
          have lengths : ∀ fields, (recutFields cut fields).length = fields.length := by
            intro fields
            rw [recutFields_eq_map, length_map]
          rw [recut, recut, agrees, agrees, lengths, lengths]
          by_cases sameFixed : isFixed = otherFixed
          · subst sameFixed
            rw [agreesFields_recutFields fun e member f otherMember =>
              inductionHypothesis e member (othersCut f otherMember)]
          · simp only [beq_eq_false_iff_ne.mpr sameFixed, Bool.and_false, Bool.false_and]
      | _ => rfl
  | nullable =>
      cases otherCut with
      | nullable => exact agrees_recut_recursive .nullable .nullable
      | back elsewhere ofMarker onlyField =>
          exact agrees_recut_recursive .nullable (.back elsewhere ofMarker onlyField)
      | _ => exact apart (Ne.symm Bool.false_ne_true)
  | @back _ h marker elsewhere ofMarker onlyField =>
      cases otherCut with
      | nullable => exact agrees_recut_recursive (.back elsewhere ofMarker onlyField) .nullable
      | back otherElsewhere otherMarker otherField =>
          exact agrees_recut_recursive (.back elsewhere ofMarker onlyField)
            (.back otherElsewhere otherMarker otherField)
      | _ => exact apart (Ne.symm Bool.false_ne_true)

end

/-! ## Where trees are cut -/

/-- Whether a tree is one that a type is found to have below a type and the type or
null: at the root, only those two refer back to themselves. -/
structure IsCutFor (cut : Cut) (key : Key) (s : Shape) : Prop where
  isCut : s.IsCut cut false
  root : ∀ h marker, s = .recursive h marker →
    marker.key = cut.nullable.key ∨ marker.key = cut.bare.key → key = marker.key

section

variable {cut : Cut} {inField : Bool} {key : Key} {s : Shape}

/-- Where a tree is found, it can be the tree of a field if it is not cut right there. -/
theorem IsCut.asField
    (isCut : s.IsCut cut false)
    (other : ∀ h marker, s = .recursive h marker → marker.key ≠ cut.nullable.key) :
    s.IsCut cut true := by
  cases isCut with
  | single avoids => exact .single avoids
  | keyed avoids fieldsCut => exact .keyed avoids fieldsCut
  | unkeyed avoids elementCut => exact .unkeyed avoids elementCut
  | unconstrained avoids => exact .unconstrained avoids
  | nullable => exact absurd rfl (other _ _ rfl)
  | back elsewhere ofMarker _ => exact .back elsewhere ofMarker fun _ _ => rfl

/-- A tree that may be missing is cut like the tree, unless it is cut right there. -/
theorem IsCut.optional
    (isCut : s.IsCut cut inField)
    (root : ∀ h marker, s = .recursive h marker →
      marker.key ≠ cut.nullable.key ∧ (marker.key = cut.bare.key → inField = true)) :
    (s.optional true).IsCut cut inField := by
  cases isCut with
  | single avoids => exact .single avoids
  | keyed avoids fieldsCut => exact .keyed avoids fieldsCut
  | unkeyed avoids elementCut => exact .unkeyed avoids elementCut
  | unconstrained avoids => exact .unconstrained avoids
  | nullable => exact absurd rfl (root _ _ rfl).1
  | back elsewhere ofMarker _ =>
      exact .back elsewhere ofMarker fun sameMarker _ => (root _ _ rfl).2 sameMarker

/-- The tree of another type is not cut right there. -/
theorem IsCutFor.elsewhere
    (cutFor : s.IsCutFor cut key)
    (other : key ≠ cut.nullable.key)
    (h : ShapeHeader)
    (marker : TypeForm)
    (isBack : s = .recursive h marker) :
    marker.key ≠ cut.nullable.key := by
  intro same
  exact other ((cutFor.root h marker isBack (.inl same)).trans same)

/-- A type that is met again is referred back to. -/
theorem IsCutFor.back
    {type : TypeForm}
    (other : type.key ≠ cut.nullable.key) :
    (Shape.back type).IsCutFor cut type.key where
  isCut := .back other rfl fun _ isOptional => nomatch isOptional
  root h marker isBack _ := by
    cases isBack
    rfl

/-- The type or null that is met again is referred back to. -/
theorem IsCutFor.nullable : (Shape.back cut.nullable).IsCutFor cut cut.nullable.key where
  isCut := .nullable
  root h marker isBack _ := by
    cases isBack
    rfl

/-- A node that is not one that refers back is cut where its parts are. -/
theorem IsCutFor.of_isCut
    (isCut : s.IsCut cut false)
    (notBack : s.isRecursive = false) :
    s.IsCutFor cut key where
  isCut := isCut
  root h marker isBack _ := by
    subst isBack
    cases notBack

/-- An unconstrained node without a type is not cut. -/
theorem IsCut.any : (Shape.any none).IsCut cut inField :=
  .unconstrained fun _ isType => nomatch isType

end

end Shape

/-- The node of another type does not stand for the type or null. -/
theorem ShapeHeader.avoids_of_ne
    {cut : Cut}
    {type : TypeForm}
    (other : type.key ≠ cut.nullable.key)
    (isOptional : Bool)
    (cases : Option (List Value)) :
    ShapeHeader.Avoids ⟨some type, isOptional, cases⟩ cut := by
  rintro _ ⟨rfl⟩
  exact other

/-! ## How nodes are made -/

section

variable {cut : Cut} {type : TypeForm} {shapes : List Shape}

/-- The common element of trees is cut like them. -/
theorem commonElement_recut (isCut : ∀ s ∈ shapes, s.IsCut cut false) :
    Recording.commonElement (shapes.map (Shape.recut cut)) =
      (Recording.commonElement shapes).recut cut := by
  cases shapes with
  | nil => rfl
  | cons first rest =>
      have alike : ((rest.map (Shape.recut cut)).all fun s => s.agrees (first.recut cut)) =
          rest.all fun s => s.agrees first := by
        rw [Bool.eq_iff_iff, all_map, all_eq_true, all_eq_true]
        refine forall₂_congr fun s member => ?_
        rw [Function.comp_apply,
          Shape.agrees_recut (isCut s (mem_cons_of_mem _ member)) (isCut first mem_cons_self)]
      rw [map_cons, Recording.commonElement, Recording.commonElement, alike]
      split <;> rfl

/-- Fields are recorded in the same way wherever their trees are cut. -/
theorem recorded_fields_recut
    (plans : List FieldPlan)
    (shapes : List Shape)
    (fields : List (String × Shape)) :
    (plans.zip (shapes.map (Shape.recut cut))).foldl
        (fun fields e =>
          Table.set fields e.1.key (if e.1.isOptional then e.2.optional true else e.2))
        (Shape.recutFields cut fields) =
      Shape.recutFields cut
        ((plans.zip shapes).foldl
          (fun fields e =>
            Table.set fields e.1.key (if e.1.isOptional then e.2.optional true else e.2))
          fields) := by
  induction plans generalizing shapes fields with
  | nil => rfl
  | cons plan rest inductionHypothesis =>
      cases shapes with
      | nil => rfl
      | cons s others =>
          have recorded : (if plan.isOptional then (s.recut cut).optional true else s.recut cut) =
              (if plan.isOptional then s.optional true else s).recut cut := by
            split
            · exact (s.recut_optional).symm
            · rfl
          have set (field : Shape) : Table.set (Shape.recutFields cut fields) plan.key
              (field.recut cut) = Shape.recutFields cut (Table.set fields plan.key field) := by
            rw [Shape.recutFields_eq_map, Shape.recutFields_eq_map]
            exact (Table.map_set (fun _ => Shape.recut cut) fields plan.key field).symm
          rw [map_cons, zip_cons_cons, zip_cons_cons, foldl_cons, foldl_cons, recorded, set,
            inductionHypothesis]

/-- The first of some trees is cut like them. -/
theorem head_recut (shapes : List Shape) :
    ((shapes.map (Shape.recut cut)).head?.getD (.any none)) =
      (shapes.head?.getD (.any none)).recut cut := by
  cases shapes <;> rfl

/-- Nodes are made in the same way wherever the trees of their parts are cut. -/
theorem Layout.recorded_recut
    {layout : Layout}
    (each : Forall₂ (fun request s => Shape.IsCutFor cut request.key s) layout.requests shapes)
    (required : ∀ value cases, layout = .scalar value cases → value.key ≠ cut.nullable.key) :
    layout.recorded type (shapes.map (Shape.recut cut)) =
      (layout.recorded type shapes).recut cut := by
  have isCut : ∀ s ∈ shapes, s.IsCut cut false := by
    intro s member
    obtain ⟨_, _, cutFor⟩ := exists_mem_of_forall₂ each member
    exact cutFor.isCut
  cases layout with
  | unknown => rfl
  | record plans => exact congrArg (Shape.keyed _ true) (recorded_fields_recut plans shapes [])
  | sequence item => exact congrArg (Shape.unkeyed _) (head_recut shapes)
  | tuple items => exact congrArg (Shape.unkeyed _) (commonElement_recut isCut)
  | mapping value => exact congrArg (fun s => Shape.keyed _ false [("", s)]) (head_recut shapes)
  | nullable inner =>
      refine (congrArg (Shape.optional true) (head_recut shapes)).trans ?_
      exact (Shape.recut_optional _).symm
  | scalar value cases =>
      obtain ⟨s, rest, cutFor, others, rfl⟩ := forall₂_cons_left_iff.mp each
      have header := Shape.header_recut (cutFor.elsewhere (required value cases rfl))
      have kind : scalarKind cases ((s :: rest).map (Shape.recut cut)) =
          scalarKind cases (s :: rest) := by
        cases s with
        | recursive h marker =>
            rw [map_cons, Shape.recut, if_neg (cutFor.elsewhere (required value cases rfl) h marker rfl)]
            rfl
        | _ => rfl
      rw [recorded, recorded, kind]
      simp only [map_cons, head?_cons, Option.map_some, Shape.isOptional, header]
      rfl

/-- The fields of a record are cut where their trees are. -/
theorem recorded_fields_isCut
    {plans : List FieldPlan}
    {fields : List (String × Shape)}
    (faithful : ∀ p ∈ plans, p.IsFaithful ∧ p.form.isPlain = true)
    (each : Forall₂ (fun request s => Shape.IsCutFor cut request.key s)
      (Layout.record plans).requests shapes)
    (before : ∀ e ∈ fields, e.2.IsCut cut true) :
    ∀ e ∈ (plans.zip shapes).foldl
        (fun fields e =>
          Table.set fields e.1.key (if e.1.isOptional then e.2.optional true else e.2)) fields,
      e.2.IsCut cut true := by
  induction plans generalizing shapes fields with
  | nil => exact before
  | cons plan rest inductionHypothesis =>
      obtain ⟨s, others, cutFor, othersCut, rfl⟩ := forall₂_cons_left_iff.mp each
      have fieldCut : (if plan.isOptional then s.optional true else s).IsCut cut true := by
        obtain ⟨⟨isInner, orOptional⟩, plain⟩ := faithful plan mem_cons_self
        cases isOptional : plan.isOptional with
        | true =>
            -- A field that may be missing is asked for without null.
            simp only [isOptional, if_true] at cutFor
            have required : plan.inner.key ≠ cut.nullable.key := by
              refine TypeForm.key_ne_of_not_isNullable cut.isNullable ?_
              rw [isInner, TypeForm.isNullable_key (TypeForm.isPlain_stripNull plain),
                TypeForm.stripNull_stripNull plain]
            have asField := cutFor.isCut.asField (cutFor.elsewhere required)
            rw [if_pos rfl]
            exact asField.optional fun h marker isBack =>
              ⟨cutFor.elsewhere required h marker isBack, fun _ => rfl⟩
        | false =>
            simp only [isOptional, Bool.false_eq_true, if_false] at cutFor
            have required : plan.form.key ≠ cut.nullable.key := by
              refine TypeForm.key_ne_of_not_isNullable cut.isNullable ?_
              rw [TypeForm.isNullable_key plain, Bool.eq_false_iff]
              intro isNullable
              have isMissing := orOptional isNullable
              rw [isOptional] at isMissing
              cases isMissing
            rw [if_neg Bool.false_ne_true]
            exact cutFor.isCut.asField (cutFor.elsewhere required)
      refine inductionHypothesis (fun p member => faithful p (mem_cons_of_mem _ member)) othersCut
        fun e member => ?_
      rcases Table.mem_or_eq_of_mem_set member with old | rfl
      · exact before e old
      · exact fieldCut

/-- The node of a type is cut where the trees of its parts are. -/
theorem Layout.recorded_isCutFor
    {layout : Layout}
    (plain : type.isPlain = true)
    (other : type.key ≠ cut.nullable.key)
    (faithful : ∀ plans, layout = .record plans → ∀ p ∈ plans, p.IsFaithful ∧ p.form.isPlain = true)
    (wraps : ∀ inner, layout = .nullable inner → type.stripNull = (inner, true))
    (each : Forall₂ (fun request s => Shape.IsCutFor cut request.key s) layout.requests shapes) :
    (layout.recorded type shapes).IsCutFor cut type.key := by
  have isCut : ∀ s ∈ shapes, s.IsCut cut false := by
    intro s member
    obtain ⟨_, _, cutFor⟩ := exists_mem_of_forall₂ each member
    exact cutFor.isCut
  have first : (shapes.head?.getD (.any none)).IsCut cut false := by
    cases shapes with
    | nil => exact .any
    | cons s rest => exact isCut s mem_cons_self
  have avoids := ShapeHeader.avoids_of_ne other
  cases layout with
  | unknown => exact .of_isCut (.unconstrained (avoids false none)) rfl
  | record plans =>
      refine .of_isCut (.keyed (avoids false none) ?_) rfl
      exact recorded_fields_isCut (faithful plans rfl) each fun _ absent => nomatch absent
  | sequence item => exact .of_isCut (.unkeyed (avoids false none) first) rfl
  | tuple items =>
      refine .of_isCut (.unkeyed (avoids false none) ?_) rfl
      rcases commonElement_mem_or_any shapes with member | isAny
      · exact isCut _ member
      · rw [isAny]
        exact .any
  | mapping value =>
      refine .of_isCut (.keyed (avoids false none) fun e member => ?_) rfl
      obtain rfl := mem_singleton.mp member
      exact first
  | nullable inner =>
      obtain ⟨s, rest, cutFor, _, rfl⟩ := forall₂_cons_left_iff.mp each
      -- What another type is read as is neither the type nor the type or null.
      obtain ⟨notNullable, notBare⟩ := cut.inner_ne plain other (wraps inner rfl)
      have elsewhere (h : ShapeHeader) (marker : TypeForm) (isBack : s = .recursive h marker) :
          marker.key ≠ cut.nullable.key ∧ marker.key ≠ cut.bare.key :=
        ⟨fun same => notNullable ((cutFor.root h marker isBack (.inl same)).trans same),
          fun same => notBare ((cutFor.root h marker isBack (.inr same)).trans same)⟩
      refine ⟨cutFor.isCut.optional fun h marker isBack => ?_, fun h marker isBack isCutThere => ?_⟩
      · exact ⟨(elsewhere h marker isBack).1, fun same => absurd same (elsewhere h marker isBack).2⟩
      · cases s with
        | recursive g inside =>
            cases isBack
            exact absurd isCutThere (not_or.mpr (elsewhere g marker rfl))
        | _ => cases isBack
  | scalar value cases => exact .of_isCut (.single (avoids _ _)) rfl

end

end SchemaProbe

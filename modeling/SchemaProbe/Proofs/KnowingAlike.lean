import SchemaProbe.Proofs.Components
import SchemaProbe.Proofs.DescribingOptional
import SchemaProbe.Proofs.SchemaUnfolding

namespace SchemaProbe

/-!
# What is known of trees that are cut elsewhere

The description of a type or null is that of the type but for where it is cut.  The nodes
that refer back are written as references by name, which both trees have from the same
name, and no schema is shared for a reference; everything else is known alike.
-/

open Step

/-! ## Nodes that refer back -/

/-- A node that refers back is written as a reference, whatever is known about it. -/
theorem KnownShape.build_back
    {caps : Capabilities}
    (undescribed : caps.description = none)
    (config : SchemaConfig)
    (name : String)
    (σ : Synthesis) :
    (KnownShape.back (some caps) name).build config σ = (.referenceTo name, σ.referBack name) := by
  rw [build, Synthesis.finish_unshared _ undescribed rfl]

/-- Whether two states know all types at once, and two trees as shapes of which the same is
built. -/
def KnownAlike
    (config : SchemaConfig)
    (s t : Store)
    (looks others : Step Store KnownShape) :
    Prop :=
  ∃ known other, looks.run s = (.ok known, s) ∧ others.run t = (.ok other, t) ∧
    ∀ σ, known.build config σ = other.build config σ

/-- Whether a state knows a type that declares no schema but a written one. -/
def Store.FindsDeclared (s : Store) (type : TypeForm) : Prop :=
  ∃ caps, (s.registry .current).find? type = some caps ∧
    ∀ hook, caps.schema = some hook → ∃ schema, hook = .declared schema

/-- Where types declare schemas plainly, those about which something sound is known declare
no schema but a written one. -/
theorem Store.FindsSound.declared
    {s : Store}
    {forms : List TypeForm}
    {type : TypeForm}
    (isFound : s.FindsSound forms .declaringPlainly type) :
    s.FindsDeclared type := by
  obtain ⟨caps, found, sound⟩ := isFound
  refine ⟨caps, found, fun hook declares => ?_⟩
  obtain ⟨header, isWritten⟩ := sound.schema hook declares
  exact ⟨_, isWritten⟩

/-- Whether one state knows a type and another one the type or null under the same name,
and both the same about all other types. -/
structure Cut.Known (cut : Cut) (own : Capabilities) (s t : Store) : Prop where
  agrees : s.AgreesBut cut.nullable.key t
  bare : (s.registry .current).find? cut.bare = some own
  nullable : (t.registry .current).find? cut.nullable = some (unionCapabilities cut.nullable)
  name : ∀ reader, own.reader = some reader → own.name = (unionCapabilities cut.nullable).name
  undescribed : own.description = none

section

variable {config : SchemaConfig} {cut : Cut} {own : Capabilities} {s t : Store}
  {shape : Shape}

/-- A type that is not the type or null is not found as that. -/
theorem Cut.identity_ne
    {type : TypeForm}
    (cut : Cut)
    (other : type.key ≠ cut.nullable.key) :
    type.identity ≠ cut.nullable.key := by
  unfold TypeForm.identity
  split
  · exact other
  · intro isText
    have isNullable := cut.isNullable
    rw [← isText] at isNullable
    cases isNullable

namespace Cut.Known

variable (known : cut.Known own s t)

include known

/-- A type that is not the type or null is known to both states. -/
theorem find?
    {type : TypeForm}
    (other : type.key ≠ cut.nullable.key) :
    (t.registry .current).find? type = (s.registry .current).find? type :=
  known.agrees.found type (cut.identity_ne other)

/-- A node of another type is known alike if what it consists of is. -/
theorem node
    {type : Option TypeForm}
    {looks others : Option Capabilities → Step Store KnownShape}
    (elsewhere : ∀ a, type = some a → a.key ≠ cut.nullable.key)
    (declared : ∀ a, type = some a → t.FindsDeclared a)
    (parts : ∀ record, KnownAlike config s t (looks record) (others record)) :
    KnownAlike config s t (knowNode config type looks) (knowNode config type others) := by
  have sameRecord : s.recordOf type = t.recordOf type := by
    cases type with
    | none => rfl
    | some a => exact (known.find? (elsewhere a rfl)).symm
  have isKnown : ∀ a, type = some a → ((t.registry .current).find? a).isSome := by
    intro a isType
    obtain ⟨caps, found, -⟩ := declared a isType
    rw [found]
    rfl
  have alsoKnown : ∀ a, type = some a → ((s.registry .current).find? a).isSome := by
    intro a isType
    rw [← known.find? (elsewhere a isType)]
    exact isKnown a isType
  unfold KnownAlike
  rw [knowNode_of_known isKnown, knowNode_of_known alsoKnown, sameRecord]
  cases record : t.recordOf type with
  | none => exact parts none
  | some caps =>
      dsimp only
      split
      · refine ⟨_, _, rfl, rfl, fun σ => ?_⟩
        rw [config.dateSchema_congr known.agrees.alike]
      · cases isDeclared : caps.schema with
        | none => exact parts (some caps)
        | some hook =>
            obtain ⟨a, isType, found⟩ := Option.bind_eq_some_iff.mp record
            obtain ⟨_, again, plainly⟩ := declared a isType
            rw [found] at again
            cases again
            obtain ⟨schema, rfl⟩ := plainly hook isDeclared
            exact ⟨.declared caps schema, .declared caps schema, rfl, rfl, fun _ => rfl⟩

/-- The type is referred back to as the type or null is. -/
theorem back
    (looksInto : ∃ reader, own.LooksInto reader) :
    KnownAlike config s t ((((Shape.back cut.bare).optional true)).know config none)
      ((Shape.back cut.nullable).know config none) := by
  have refersBack {u : Store} {type : TypeForm} {caps : Capabilities}
      (found : (u.registry .current).find? type = some caps)
      (isProbed : caps.bypassesProbe = false)
      (h : ShapeHeader)
      (isType : h.type = some type) :
      ((Shape.recursive h type).know config none).run u = (.ok (.back (some caps) caps.name), u) := by
    have isKnown : ∀ a, h.type.or none = some a → ((u.registry .current).find? a).isSome := by
      rw [isType]
      rintro _ ⟨rfl⟩
      rw [found]
      rfl
    have record : u.recordOf (h.type.or none) = some caps := by
      rw [isType]
      exact found
    obtain ⟨notDate, undeclared⟩ := Bool.or_eq_false_iff.mp isProbed
    have unwritten : caps.schema = none :=
      Option.isNone_iff_eq_none.mp (Option.isSome_eq_false_iff.mp undeclared)
    rw [Shape.know, knowNode_of_known isKnown, record]
    dsimp only
    rw [notDate, if_neg Bool.false_ne_true, unwritten]
    dsimp only
    rw [run_bind_of_ok (lookup?_of_known found)]
    rfl
  obtain ⟨_, strips, _⟩ := cut.strips
  obtain ⟨reader, looksInto⟩ := looksInto
  refine ⟨_, _, refersBack known.bare looksInto.isProbed _ rfl,
    refersBack known.nullable (looksInto_unionCapabilities strips).2.isProbed _ rfl, fun σ => ?_⟩
  have undescribed : (unionCapabilities cut.nullable).description = none := by
    unfold unionCapabilities
    split <;> rfl
  rw [KnownShape.build_back known.undescribed, KnownShape.build_back undescribed,
    known.name reader looksInto.reads]

end Cut.Known

/-- A field may be missing wherever the trees are cut. -/
theorem Shape.IsCut.isOptional_recut (isCut : shape.IsCut cut true) :
    (shape.recut cut).isOptional = shape.isOptional := by
  cases isCut with
  | back elsewhere _ _ => rw [Shape.recut, if_neg elsewhere]
  | _ => rfl

mutual

/-- A tree that is cut at the type is known as the one that is cut at the type or null. -/
theorem Shape.know_recut
    {inField : Bool}
    (known : cut.Known own s t)
    (shape : Shape)
    (isCut : shape.IsCut cut inField)
    (types : shape.Types t.FindsDeclared)
    (looksInto : shape.hasRecursive = true → ∃ reader, own.LooksInto reader) :
    KnownAlike config s t ((shape.recut cut).know config none) (shape.know config none) := by
  obtain ⟨declared, markers, partsDeclared⟩ := Shape.types_iff.mp types
  cases shape with
  | single h kind =>
      cases isCut with
      | single avoids =>
          rw [Shape.recut, Shape.know, Option.or_none]
          exact known.node avoids declared fun _ => ⟨_, _, rfl, rfl, fun _ => rfl⟩
  | keyed h isFixed fields =>
      cases isCut with
      | keyed avoids fieldsCut =>
          rw [Shape.hasRecursive] at looksInto
          rw [Shape.recut]
          cases isFixed with
          | true =>
              rw [Shape.know, Shape.know, Option.or_none]
              refine known.node avoids declared fun record => ?_
              obtain ⟨parts, others, ran, otherRan, same⟩ :=
                Shape.knowFields_recut known fields fieldsCut partsDeclared looksInto
              rw [KnownAlike, run_bind_of_ok ran, run_bind_of_ok otherRan]
              refine ⟨_, _, rfl, rfl, fun σ => ?_⟩
              rw [KnownShape.build, KnownShape.build, same]
          | false =>
              cases fields with
              | nil =>
                  rw [Shape.recutFields, Shape.know, Option.or_none]
                  exact known.node avoids declared fun _ => ⟨_, _, rfl, rfl, fun _ => rfl⟩
              | cons field rest =>
                  obtain ⟨name, first⟩ := field
                  rw [Shape.recutFields, Shape.know, Shape.know, Option.or_none]
                  refine known.node avoids declared fun record => ?_
                  obtain ⟨part, other, ran, otherRan, same⟩ :=
                    Shape.know_recut known first (fieldsCut _ List.mem_cons_self)
                      (partsDeclared _ List.mem_cons_self) fun isBack =>
                        looksInto (by rw [Shape.anyRecursive, isBack]; rfl)
                  rw [KnownAlike, run_bind_of_ok ran, run_bind_of_ok otherRan]
                  refine ⟨_, _, rfl, rfl, fun σ => ?_⟩
                  rw [KnownShape.build, KnownShape.build, same]
  | unkeyed h element =>
      cases isCut with
      | unkeyed avoids elementCut =>
          rw [Shape.hasRecursive] at looksInto
          rw [Shape.recut, Shape.know, Shape.know, Option.or_none]
          refine known.node avoids declared fun record => ?_
          obtain ⟨part, other, ran, otherRan, same⟩ :=
            Shape.know_recut known element elementCut (partsDeclared _ List.mem_cons_self) looksInto
          rw [KnownAlike, run_bind_of_ok ran, run_bind_of_ok otherRan]
          refine ⟨_, _, rfl, rfl, fun σ => ?_⟩
          rw [KnownShape.build, KnownShape.build, same]
  | recursive h marker =>
      cases isCut with
      | nullable =>
          rw [Shape.recut, if_pos rfl]
          exact known.back (looksInto rfl)
      | back elsewhere ofMarker _ =>
          obtain ⟨caps, found, _⟩ := markers h marker rfl
          have alsoFound := (known.find? elsewhere).symm.trans found
          rw [Shape.recut, if_neg elsewhere, Shape.know, Option.or_none]
          refine known.node (fun a isType => ?_) declared fun record => ?_
          · rw [ofMarker] at isType
            cases isType
            exact elsewhere
          · rw [KnownAlike, run_bind_of_ok (lookup?_of_known alsoFound),
              run_bind_of_ok (lookup?_of_known found)]
            exact ⟨_, _, rfl, rfl, fun _ => rfl⟩
  | unconstrained h =>
      cases isCut with
      | unconstrained avoids =>
          rw [Shape.recut, Shape.know, Option.or_none]
          exact known.node avoids declared fun _ => ⟨_, _, rfl, rfl, fun _ => rfl⟩
termination_by structural shape

/-- Fields that are cut at the type are known as those that are cut at the type or null. -/
theorem Shape.knowFields_recut
    (known : cut.Known own s t)
    (fields : List (String × Shape))
    (areCut : ∀ e ∈ fields, e.2.IsCut cut true)
    (types : ∀ part ∈ fields.map Prod.snd, part.Types t.FindsDeclared)
    (looksInto : Shape.anyRecursive fields = true → ∃ reader, own.LooksInto reader) :
    ∃ parts others, (Shape.knowFields config (Shape.recutFields cut fields)).run s = (.ok parts, s) ∧
      (Shape.knowFields config fields).run t = (.ok others, t) ∧
        ∀ properties required σ, KnownShape.buildFields config parts properties required σ =
          KnownShape.buildFields config others properties required σ := by
  cases fields with
  | nil => exact ⟨[], [], rfl, rfl, fun _ _ _ => rfl⟩
  | cons field rest =>
      obtain ⟨name, shape⟩ := field
      rw [Shape.anyRecursive] at looksInto
      obtain ⟨first, other, ran, otherRan, same⟩ :=
        Shape.know_recut known shape (areCut _ List.mem_cons_self) (types _ List.mem_cons_self)
          fun isBack => looksInto (by rw [isBack]; rfl)
      obtain ⟨parts, others, restRan, othersRan, sameRest⟩ :=
        Shape.knowFields_recut known rest
          (fun e member => areCut e (List.mem_cons_of_mem _ member)) (fun part isPart => types part (List.mem_cons_of_mem _ isPart))
          fun isBack => looksInto (by rw [isBack, Bool.or_true])
      have sameOptional : (shape.recut cut).isOptional = shape.isOptional :=
        (areCut _ List.mem_cons_self).isOptional_recut
      rw [Shape.recutFields, Shape.knowFields, Shape.knowFields, run_bind_of_ok ran,
        run_bind_of_ok otherRan, run_bind_of_ok restRan, run_bind_of_ok othersRan]
      refine ⟨_, _, rfl, rfl, fun properties required σ => ?_⟩
      rw [KnownShape.buildFields, KnownShape.buildFields, same, sameOptional]
      exact sameRest _ _ _
termination_by structural fields

end

end

end SchemaProbe

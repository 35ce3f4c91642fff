import SchemaProbe.Proofs.TiedProbing

namespace SchemaProbe

/-!
# What shapes show

A shape shows the types that its nodes stand for and those that it refers back to.  What
a type records shows what the types that it asks for show, and the type itself; so what
can be said of all that is recorded can be said of the shape that is made of it.
-/

/-- Whether every node of a shape stands for a type in sight, or for none, and every node
that refers back refers to a type that may be referred to. -/
inductive Shape.Shows (visible referred : TypeForm → Prop) : Shape → Prop
  | single {h : ShapeHeader} {kind : PrimitiveKind} :
      (∀ a, h.type = some a → visible a) → Shows visible referred (.single h kind)
  | keyed {h : ShapeHeader} {isFixed : Bool} {fields : List (String × Shape)} :
      (∀ a, h.type = some a → visible a) → (∀ e ∈ fields, Shows visible referred e.2) →
        Shows visible referred (.keyed h isFixed fields)
  | unkeyed {h : ShapeHeader} {element : Shape} :
      (∀ a, h.type = some a → visible a) → Shows visible referred element →
        Shows visible referred (.unkeyed h element)
  | recursive {h : ShapeHeader} {marker : TypeForm} :
      (∀ a, h.type = some a → visible a) → referred marker →
        Shows visible referred (.recursive h marker)
  | unconstrained {h : ShapeHeader} :
      (∀ a, h.type = some a → visible a) → Shows visible referred (.unconstrained h)

section

variable {visible referred : TypeForm → Prop} {s : Shape}

/-- A node that stands for no type is in sight. -/
theorem Shape.shows_any : (Shape.any none).Shows visible referred :=
  .unconstrained nofun

/-- What else a node says of itself does not matter but for its type. -/
theorem Shape.Shows.withHeader
    {h : ShapeHeader}
    (shows : s.Shows visible referred)
    (isVisible : ∀ a, h.type = some a → visible a) :
    (s.withHeader h).Shows visible referred := by
  cases shows with
  | single _ => exact .single isVisible
  | keyed _ fields => exact .keyed isVisible fields
  | unkeyed _ element => exact .unkeyed isVisible element
  | recursive _ marker => exact .recursive isVisible marker
  | unconstrained _ => exact .unconstrained isVisible

/-- The type of a node is in sight. -/
theorem Shape.Shows.type
    {a : TypeForm}
    (shows : s.Shows visible referred)
    (isType : s.type = some a) :
    visible a := by
  cases shows with
  | single isVisible => exact isVisible a isType
  | keyed isVisible _ => exact isVisible a isType
  | unkeyed isVisible _ => exact isVisible a isType
  | recursive isVisible _ => exact isVisible a isType
  | unconstrained isVisible => exact isVisible a isType

/-- A node may be missing or not. -/
theorem Shape.Shows.optional
    (shows : s.Shows visible referred)
    (isOptional : Bool) :
    (s.optional isOptional).Shows visible referred :=
  shows.withHeader fun _ isType => shows.type isType

/-- The node of a type with literal cases is in sight if the type is. -/
theorem Shape.shows_withCases
    {a : TypeForm}
    (isVisible : visible a)
    (s : Shape)
    (cases : List Value) :
    (s.withCases a cases).Shows visible referred :=
  .single (by rintro _ ⟨rfl⟩; exact isVisible)

variable {r : Recording} {type : Option TypeForm}

/-- The common shape of elements is in sight if the elements are. -/
theorem Recording.shows_commonElement
    {shapes : List Shape}
    (shows : ∀ s ∈ shapes, s.Shows visible referred) :
    (commonElement shapes).Shows visible referred := by
  cases shapes with
  | nil => exact Shape.shows_any
  | cons first rest =>
      rw [commonElement]
      split
      · exact shows first List.mem_cons_self
      · exact Shape.shows_any

/-- A decoder that read a single value shows what the value shows and its type. -/
theorem Recording.shows_wrapped
    {value : Option Shape}
    (isVisible : ∀ a, type = some a → visible a)
    (shows : ∀ s, value = some s → s.Shows visible referred)
    (isOptional : Bool) :
    (wrapped type value isOptional).Shows visible referred := by
  have node : (value.getD (.any type)).Shows visible referred := by
    cases value with
    | none => exact .unconstrained isVisible
    | some s => exact shows s rfl
  unfold wrapped
  dsimp only
  have stamped : (if (type.map isClass).getD false && !(value.getD (.any type)).isRecursive then
      (value.getD (.any type)).ofType type else value.getD (.any type)).Shows visible referred := by
    split
    · exact node.withHeader isVisible
    · exact node
  split
  · exact stamped.optional true
  · exact stamped

/-- What is finished from recordings of what is in sight is in sight. -/
theorem Recording.IsFine.shows
    (isFine : r.IsFine (Shape.Shows visible referred))
    (isOpen : Path → Bool)
    (depth : Nat) :
    (∀ type : Option TypeForm, (∀ a, type = some a → visible a) → ∀ id relative,
        (r.finishNode isOpen type depth id relative).Shows visible referred) ∧
      ∀ item relative, (∀ s, item.bind Item.shape? = some s → s.Shows visible referred) →
        (r.finishItem isOpen depth item relative).Shows visible referred := by
  induction depth with
  | zero =>
      refine ⟨fun _ isVisible _ _ => .unconstrained isVisible, fun item relative shows => ?_⟩
      rw [finishItem.eq_def]
      split
      · exact Shape.shows_any
      · exact shows _ rfl
      · exact Shape.shows_any
      · contradiction
  | succ depth inductionHypothesis =>
      obtain ⟨nodes, items⟩ := inductionHypothesis
      constructor
      · intro type isVisible id relative
        rw [finishNode]
        split
        · rename_i fields nullKeys isNode
          refine .keyed isVisible fun e member => ?_
          obtain ⟨field, isField, rfl⟩ := List.mem_map.mp member
          have finished : (r.finishItem isOpen depth field.2 (relative ++ [.key field.1])).Shows
              visible referred := by
            refine items _ _ fun s isShape => ?_
            exact isFine _ (List.mem_of_getElem? isNode) s
              (List.mem_filterMap.mpr ⟨field, isField, isShape⟩)
          dsimp only
          split
          · exact finished.optional true
          · exact finished
        · rename_i elements isOptional isNode
          have element : (commonElement (elements.map fun item =>
              r.finishItem isOpen depth (some item) (relative ++ [.index 0]))).Shows visible referred := by
            refine shows_commonElement fun s member => ?_
            obtain ⟨item, isItem, rfl⟩ := List.mem_map.mp member
            refine items _ _ fun s isShape => ?_
            exact isFine _ (List.mem_of_getElem? isNode) s
              (List.mem_filterMap.mpr ⟨item, isItem, isShape⟩)
          dsimp only
          split
          · exact .unkeyed isVisible (element.optional true)
          · exact .unkeyed isVisible element
        · rename_i value isOptional isNode
          refine shows_wrapped isVisible (fun s isValue => ?_) isOptional
          exact isFine _ (List.mem_of_getElem? isNode) s (Option.mem_toList.mpr isValue)
        · exact nodes type isVisible _ relative
        · exact .unconstrained isVisible
        · exact .unconstrained isVisible
      · intro item relative shows
        cases item with
        | none => 
            rw [finishItem]
            exact Shape.shows_any
        | some item =>
            cases item with
            | shape s =>
                rw [finishItem]
                exact shows s rfl
            | node id =>
                rw [finishItem]
                exact nodes none nofun id relative

/-- The shape that is finished from recordings of what is in sight is in sight. -/
theorem Recording.IsFine.shows_finish
    (isFine : r.IsFine (Shape.Shows visible referred))
    (isVisible : ∀ a, type = some a → visible a)
    (openPaths : List Path) :
    (r.finish type openPaths).Shows visible referred :=
  (isFine.shows _ _).1 type isVisible 0 []

end

/-! ## Markers -/

mutual

/-- The types that a shape refers back to. -/
def Shape.markers : Shape → List TypeForm
  | .recursive _ marker => [marker]
  | .keyed _ _ fields => Shape.markersOfFields fields
  | .unkeyed _ element => element.markers
  | _ => []

/-- The types that fields refer back to. -/
def Shape.markersOfFields : List (String × Shape) → List TypeForm
  | [] => []
  | (_, s) :: rest => s.markers ++ Shape.markersOfFields rest

end

/-- Fields refer back to what the shape of one of them refers back to. -/
theorem Shape.mem_markersOfFields_iff
    {a : TypeForm}
    {fields : List (String × Shape)} :
    a ∈ Shape.markersOfFields fields ↔ ∃ e ∈ fields, a ∈ e.2.markers := by
  induction fields with
  | nil => simp [Shape.markersOfFields]
  | cons field rest inductionHypothesis =>
      rw [Shape.markersOfFields, List.mem_append, inductionHypothesis]
      simp

section

variable {visible referred : TypeForm → Prop} {s : Shape}

/-- A shape refers back to types that may be referred to. -/
theorem Shape.Shows.markers
    (shows : s.Shows visible referred) :
    ∀ a ∈ s.markers, referred a := by
  induction shows with
  | single _ => exact nofun
  | keyed _ _ inductionHypothesis =>
      intro a member
      rw [Shape.markers, Shape.mem_markersOfFields_iff] at member
      obtain ⟨e, isField, isMarker⟩ := member
      exact inductionHypothesis e isField a isMarker
  | unkeyed _ _ inductionHypothesis => exact inductionHypothesis
  | recursive _ isReferred =>
      intro a member
      rw [List.mem_singleton.mp member]
      exact isReferred
  | unconstrained _ => exact nofun

mutual

/-- A shape that refers back to nothing shows no type that it refers back to. -/
theorem Shape.shows_of_hasRecursive_eq_false
    (s : Shape)
    (without : s.hasRecursive = false) :
    s.Shows Step.anything referred := by
  cases s with
  | single h kind => exact .single fun _ _ => trivial
  | keyed h isFixed fields =>
      exact .keyed (fun _ _ => trivial) (Shape.shows_of_anyRecursive_eq_false fields without)
  | unkeyed h element =>
      exact .unkeyed (fun _ _ => trivial) (Shape.shows_of_hasRecursive_eq_false element without)
  | recursive h marker => cases without
  | unconstrained h => exact .unconstrained fun _ _ => trivial
termination_by structural s

/-- Fields that refer back to nothing show no type that they refer back to. -/
theorem Shape.shows_of_anyRecursive_eq_false
    (fields : List (String × Shape))
    (without : Shape.anyRecursive fields = false) :
    ∀ e ∈ fields, e.2.Shows Step.anything referred := by
  cases fields with
  | nil => exact nofun
  | cons field rest =>
      obtain ⟨name, s⟩ := field
      rw [Shape.anyRecursive, Bool.or_eq_false_iff] at without
      exact List.forall_mem_cons.mpr ⟨Shape.shows_of_hasRecursive_eq_false s without.1,
        Shape.shows_of_anyRecursive_eq_false rest without.2⟩
termination_by structural fields

end

/-- A shape that may refer back to nothing refers back to nothing. -/
theorem Shape.Shows.markers_eq_nil
    (shows : s.Shows visible fun _ => False) :
    s.markers = [] :=
  List.eq_nil_iff_forall_not_mem.mpr shows.markers

end

/-- What is finished of what is in sight is in sight, as the node of a type that is. -/
theorem Capabilities.finishesFine_shows
    {visible referred : TypeForm → Prop}
    {caps : Capabilities}
    (isVisible : visible caps.type) :
    caps.FinishesFine (Shape.Shows visible referred) where
  finish _ openPaths isFine := by
    refine isFine.shows_finish (fun a isType => ?_) openPaths
    cases isType
    exact isVisible
  cases shape labels _ _ := Shape.shows_withCases isVisible shape labels

end SchemaProbe

import SchemaProbe.Proofs.Growing
import SchemaProbe.Proofs.LoadingAlike
import SchemaProbe.Proofs.ShapeAgreement

namespace SchemaProbe

/-!
# Decoded values become attributes

A class with fields reads one value for each field and gives the values to what
makes its instances.  A model takes the value of a field from its alias first, and
from its name if nothing is given there.  As long as no alias is the name of another
field, every value that is not null is found again under the name of its field.
-/

open Step

/-! ## Reading the fields -/

namespace FieldPlan

/-- The request by which a field is read. -/
def request (p : FieldPlan) : Request TypeForm String :=
  if p.isOptional then .decodeIfPresent p.inner (some p.key) else .decode p.form (some p.key)

/-- The given values after one more answer; null is not given where there is a
default. -/
def give (values : List (String × Value)) (e : FieldPlan × Value) : List (String × Value) :=
  if e.1.isOptional && e.2.isNull && e.1.hasDefault then values
  else Table.set values e.1.name e.2

/-- A value that is not null is given. -/
theorem give_of_value
    {e : FieldPlan × Value}
    (values : List (String × Value))
    (isValue : e.2.isNull = false) :
    give values e = Table.set values e.1.name e.2 := by
  simp [give, isValue]

/-- Giving a value changes nothing under another name. -/
theorem lookup_give_of_ne
    {e : FieldPlan × Value}
    {name : String}
    (values : List (String × Value))
    (different : name ≠ e.1.name) :
    (give values e).lookup name = values.lookup name := by
  unfold give
  split
  · rfl
  · exact Table.lookup_set_of_ne values e.2 different

/-- A value that is not null is found under its name when all are given. -/
theorem lookup_foldl_give
    {pairs : List (FieldPlan × Value)}
    {e : FieldPlan × Value}
    (values : List (String × Value))
    (unique : (pairs.map fun e => e.1.name).Nodup)
    (member : e ∈ pairs)
    (isValue : e.2.isNull = false) :
    (pairs.foldl give values).lookup e.1.name = some e.2 := by
  have unchanged (later : List (FieldPlan × Value)) (given : List (String × Value))
      (absent : e.1.name ∉ later.map fun e => e.1.name) :
      (later.foldl give given).lookup e.1.name = given.lookup e.1.name := by
    induction later generalizing given with
    | nil => rfl
    | cons next rest inductionHypothesis =>
        rw [List.map_cons, List.mem_cons, not_or] at absent
        rw [List.foldl_cons, inductionHypothesis _ absent.2, lookup_give_of_ne _ absent.1]
  induction pairs generalizing values with
  | nil => cases member
  | cons first rest inductionHypothesis =>
      rw [List.map_cons, List.nodup_cons] at unique
      rw [List.foldl_cons]
      rcases List.mem_cons.mp member with rfl | isLater
      · rw [unchanged rest _ unique.1, give_of_value _ isValue, Table.lookup_set_self]
      · exact inductionHypothesis _ unique.2 isLater

/-- Values are given under the names of fields alone. -/
theorem mem_keys_foldl_give
    {pairs : List (FieldPlan × Value)}
    {values : List (String × Value)}
    {name : String}
    (member : name ∈ (pairs.foldl give values).map Prod.fst) :
    name ∈ values.map Prod.fst ∨ name ∈ pairs.map fun e => e.1.name := by
  induction pairs generalizing values with
  | nil => exact .inl member
  | cons first rest inductionHypothesis =>
      rw [List.foldl_cons] at member
      rw [List.map_cons]
      rcases inductionHypothesis member with isGiven | isLater
      · unfold give at isGiven
        split at isGiven
        · exact .inl isGiven
        · rcases Table.mem_keys_set_iff.mp isGiven with rfl | old
          · exact .inr List.mem_cons_self
          · exact .inl old
      · exact .inr (List.mem_cons_of_mem _ isLater)

end FieldPlan

/-- Reading fields is asking for each of them, and giving what is answered. -/
theorem readFields_eq
    (surface : Surface σ)
    (container : Handle)
    (plans : List FieldPlan)
    (values : List (String × Value)) :
    readFields surface container plans values =
      Step.each (fun p : FieldPlan => surface.value container p.request) plans >>= fun answers =>
        pure ((plans.zip answers).foldl FieldPlan.give values) := by
  induction plans generalizing values with
  | nil => rfl
  | cons plan rest inductionHypothesis =>
      rw [readFields, Step.each, FieldPlan.request]
      cases isOptional : plan.isOptional with
      | true =>
          simp only [inductionHypothesis, bind_assoc, pure_bind, if_true, List.zip_cons_cons,
            List.foldl_cons]
          refine congrArg _ (funext fun v => ?_)
          simp only [FieldPlan.give, isOptional, Bool.true_and]
          split <;> rfl
      | false =>
          simp only [inductionHypothesis, bind_assoc, pure_bind, Bool.false_eq_true, if_false,
            List.zip_cons_cons, List.foldl_cons, FieldPlan.give, isOptional, Bool.false_and]

/-- A step for each element gives one result for each. -/
theorem Step.length_of_each
    {f : α → Step σ β}
    {elements : List α}
    {results : List β}
    {s reached : σ}
    (ran : (Step.each f elements).run s = (.ok results, reached)) :
    results.length = elements.length := by
  induction elements generalizing results s with
  | nil =>
      cases ran
      rfl
  | cons a rest inductionHypothesis =>
      obtain ⟨b, between, -, continued⟩ := run_bind_eq_ok_iff.mp ran
      obtain ⟨bs, last, restRan, result⟩ := run_bind_eq_ok_iff.mp continued
      cases result
      rw [List.length_cons, List.length_cons, inductionHypothesis restRan]

/-- Looking up the names in a field changes its type form alone. -/
theorem Field.eq_of_resolve?
    {ofName : String → Option TypeForm}
    (f : Field)
    {g : Field}
    (settled : f.resolve? ofName = some g) :
    ∃ form isResolved, g = { f with form := form, isResolved := isResolved } := by
  unfold Field.resolve? at settled
  split at settled
  · cases settled
    exact ⟨f.form, f.isResolved, rfl⟩
  · obtain ⟨a, -, rfl⟩ := Option.map_eq_some_iff.mp settled
    exact ⟨_, _, rfl⟩

/-! ## Making instances -/

/-- The names under which a value for a field can be given to a model. -/
def Field.names (f : Field) : List String :=
  f.aliasName.toList ++ [f.name]

/-- What is found behind an attribute of another name is not that attribute. -/
theorem lookup_append_of_ne
    {name other : String}
    (different : other ≠ name)
    (value : Option Value)
    (rest : List (String × Value)) :
    ((value.toList.map fun v => (name, v)) ++ rest).lookup other = rest.lookup other := by
  cases value with
  | none => rfl
  | some v =>
      change ((name, v) :: rest).lookup other = _
      rw [List.lookup_cons, beq_eq_false_iff_ne.mpr different]

/-- A value is found as the attribute of a field if the field can be given it, no
other field can, and nothing else is given for the field. -/
theorem lookup_assignFields
    {fields : List Field}
    {given : List (String × Value)}
    {f : Field}
    {name : String}
    {v : Value}
    (unique : (fields.map (·.name)).Nodup)
    (member : f ∈ fields)
    (isGiven : given.lookup name = some v)
    (own : name ∈ f.names)
    (alone : ∀ other ∈ f.names, other ∈ given.map Prod.fst → other = name)
    (others : ∀ g ∈ fields, name ∈ g.names → g.name = f.name) :
    (assignFields fields given).lookup f.name = some v := by
  induction fields generalizing given with
  | nil => cases member
  | cons g rest inductionHypothesis =>
      rw [List.map_cons, List.nodup_cons] at unique
      cases taken : g.givenName? given with
      | none =>
          simp only [assignFields, taken]
          rcases List.mem_cons.mp member with rfl | isLater
          · have present := List.find?_eq_none.mp taken name own
            exact absurd (Table.any_key_iff.mpr (List.mem_map_of_mem (Table.mem_of_lookup isGiven)))
              present
          · have different : f.name ≠ g.name := fun same =>
              unique.1 (same ▸ List.mem_map_of_mem isLater)
            rw [lookup_append_of_ne different]
            exact inductionHypothesis unique.2 isLater isGiven alone fun other isField =>
              others other (List.mem_cons_of_mem _ isField)
      | some other =>
          have isName : other ∈ g.names := List.mem_of_find?_eq_some taken
          simp only [assignFields, taken]
          rcases List.mem_cons.mp member with rfl | isLater
          · have present : (given.any fun e => e.1 == other) = true :=
              List.find?_some (p := fun name => given.any fun e => e.1 == name) taken
            obtain rfl : other = name := alone other isName (Table.any_key_iff.mp present)
            rw [isGiven]
            exact List.lookup_cons_self
          · have different : f.name ≠ g.name := fun same =>
              unique.1 (same ▸ List.mem_map_of_mem isLater)
            have otherName : name ≠ other := by
              rintro rfl
              exact different (others g List.mem_cons_self isName).symm
            rw [lookup_append_of_ne different]
            refine inductionHypothesis unique.2 isLater ?_ (fun last isOwn isLeft => ?_)
              fun other isField => others other (List.mem_cons_of_mem _ isField)
            · rw [Table.lookup_erase_of_ne _ otherName]
              exact isGiven
            · exact alone last isOwn (List.map_subset _ (List.filter_subset_self _) isLeft)

/-- The attributes of a dataclass instance are those of the later fields behind the
argument or the default of the first one. -/
theorem argumentFields?_cons
    {f : Field}
    {rest : List Field}
    {given attributes : List (String × Value)}
    (built : argumentFields? (f :: rest) given = .ok attributes) :
    ∃ others, argumentFields? rest given = .ok others ∧
      attributes =
        (((if f.isArgument then given.lookup f.name else none).or f.defaultValue?).toList.map
          fun v => (f.name, v)) ++ others := by
  rw [argumentFields?] at built
  cases restBuilt : argumentFields? rest given with
  | error fault =>
      rw [restBuilt] at built
      cases built
  | ok others =>
      rw [restBuilt] at built
      refine ⟨others, rfl, ?_⟩
      simp only [bind, Except.bind] at built
      split at built
      · rename_i v isValue
        rw [isValue]
        cases built
        rfl
      · rename_i without
        rw [without]
        split at built
        · cases built
        · cases built
          rfl

/-- A value that is given for an argument is found as the attribute of its field. -/
theorem lookup_argumentFields
    {fields : List Field}
    {given attributes : List (String × Value)}
    {f : Field}
    {v : Value}
    (unique : (fields.map (·.name)).Nodup)
    (member : f ∈ fields)
    (isArgument : f.isArgument = true)
    (isGiven : given.lookup f.name = some v)
    (built : argumentFields? fields given = .ok attributes) :
    attributes.lookup f.name = some v := by
  induction fields generalizing attributes with
  | nil => cases member
  | cons g rest inductionHypothesis =>
      rw [List.map_cons, List.nodup_cons] at unique
      obtain ⟨others, restBuilt, rfl⟩ := argumentFields?_cons built
      rcases List.mem_cons.mp member with rfl | isLater
      · rw [if_pos isArgument, isGiven]
        exact List.lookup_cons_self
      · have different : f.name ≠ g.name := fun same =>
          unique.1 (same ▸ List.mem_map_of_mem isLater)
        rw [lookup_append_of_ne different]
        exact inductionHypothesis unique.2 isLater restBuilt

namespace World

/-- The fields with which a class is declared. -/
def declaredFields (w : World) (c : ClassRef) : List Field :=
  match w.body c with
  | .model fields | .dataclass fields _ => fields
  | _ => []

/-- The fields that a class reads. -/
def plannedFields (w : World) (c : ClassRef) : List Field :=
  match w.body c with
  | .model fields => fields.filter fun f => !f.isExcluded
  | .dataclass fields _ => fields.filter (·.isArgument)
  | _ => []

/-- The key under which a class reads a field. -/
def wireKey (w : World) (c : ClassRef) (f : Field) : String :=
  if w.isDataclass c then f.key.getD f.name
  else if w.isStruct c then firstText [f.key, f.aliasName] f.name
  else firstText [f.aliasName] f.name

/-- The name under which a class gives the value of a field to its instances. -/
def argumentName (w : World) (c : ClassRef) (f : Field) : String :=
  if w.isDataclass c || w.isStruct c then f.name else firstText [f.aliasName] f.name

/-- Whether the fields of a class have names of their own and are read under keys of
their own, and no alias is the name of another field.  The arguments of a dataclass
have no aliases. -/
structure NamesApart (w : World) (c : ClassRef) : Prop where
  names : ((w.declaredFields c).map (·.name)).Nodup
  keys : ((w.declaredFields c).map (w.wireKey c)).Nodup
  aliases : w.isDataclass c = false → ∀ f ∈ w.declaredFields c, ∀ g ∈ w.declaredFields c,
    f.aliasName = some g.name → f.name = g.name

section

variable {w : World} {c : ClassRef}

/-- What a class reads is declared. -/
theorem plannedFields_sublist (w : World) (c : ClassRef) :
    (w.plannedFields c).Sublist (w.declaredFields c) := by
  unfold plannedFields declaredFields
  split <;> simp

/-- A class gives the value of a field under its name, or a model does so under an
alias, which is the field's key as well. -/
theorem argumentName_cases (w : World) (c : ClassRef) (f : Field) :
    w.argumentName c f = f.name ∨
      ((w.isDataclass c = false ∧ w.isStruct c = false) ∧ w.argumentName c f ≠ "" ∧
        f.aliasName = some (w.argumentName c f)) := by
  unfold argumentName
  cases isDataclass : w.isDataclass c with
  | true => exact .inl rfl
  | false =>
      cases isStruct : w.isStruct c with
      | true => exact .inl rfl
      | false =>
          rw [Bool.or_false, if_neg Bool.false_ne_true]
          cases aliasIs : f.aliasName with
          | none => exact .inl rfl
          | some text =>
              by_cases isEmpty : text = ""
              · subst isEmpty
                exact .inl rfl
              · have first : firstText [some text] f.name = text := by simp [firstText, isEmpty]
                rw [first]
                exact .inr ⟨⟨rfl, rfl⟩, isEmpty, rfl⟩

/-- A class gives a value to an instance under one of the names of its field. -/
theorem argumentName_mem (w : World) (c : ClassRef) (f : Field) :
    w.argumentName c f ∈ f.names := by
  unfold Field.names
  rcases w.argumentName_cases c f with byName | ⟨-, -, byAlias⟩
  · rw [byName]
    exact List.mem_append_right _ (List.mem_singleton_self _)
  · rw [byAlias]
    exact List.mem_append_left _ (List.mem_singleton_self _)

/-- The key of a field of a model with an alias is the alias. -/
theorem wireKey_of_aliasName
    {f : Field}
    {text : String}
    (isModel : w.isDataclass c = false ∧ w.isStruct c = false)
    (isAlias : f.aliasName = some text)
    (notEmpty : text ≠ "") :
    w.wireKey c f = text := by
  simp [wireKey, isModel, firstText, isAlias, notEmpty]

/-- Under the conditions on names, the argument of a field can be given to no other
field. -/
theorem NamesApart.name_eq_of_mem
    {f g : Field}
    (apart : w.NamesApart c)
    (noDataclass : w.isDataclass c = false)
    (isField : f ∈ w.declaredFields c)
    (isOther : g ∈ w.declaredFields c)
    (taken : w.argumentName c f ∈ g.names) :
    g.name = f.name := by
  have crossing := apart.aliases noDataclass
  rcases List.mem_append.mp taken with isAlias | isName
  · have otherAlias : g.aliasName = some (w.argumentName c f) := Option.mem_toList.mp isAlias
    rcases w.argumentName_cases c f with byName | ⟨isModel, notEmpty, byAlias⟩
    · exact crossing g isOther f isField (otherAlias.trans (congrArg some byName))
    · have sameKey : w.wireKey c g = w.wireKey c f :=
        (wireKey_of_aliasName isModel otherAlias notEmpty).trans
          (wireKey_of_aliasName isModel byAlias notEmpty).symm
      rw [List.inj_on_of_nodup_map apart.keys isOther isField sameKey]
  · have otherName : w.argumentName c f = g.name := List.mem_singleton.mp isName
    rcases w.argumentName_cases c f with byName | ⟨-, -, byAlias⟩
    · exact otherName.symm.trans byName
    · exact (crossing f isField g isOther (byAlias.trans (congrArg some otherName))).symm

/-- Under the conditions on names, the arguments of the fields that a class reads are
different. -/
theorem NamesApart.arguments (apart : w.NamesApart c) :
    ((w.plannedFields c).map (w.argumentName c)).Nodup := by
  have names := apart.names.sublist ((w.plannedFields_sublist c).map _)
  refine (List.Nodup.of_map _ names).map_on fun f isField g isOther same => ?_
  have isDeclared := (w.plannedFields_sublist c).subset isField
  have otherDeclared := (w.plannedFields_sublist c).subset isOther
  refine List.inj_on_of_nodup_map apart.names isDeclared otherDeclared ?_
  cases isDataclass : w.isDataclass c with
  | true => simpa [argumentName, isDataclass] using same
  | false =>
      refine apart.name_eq_of_mem isDataclass otherDeclared isDeclared ?_
      rw [← same]
      exact w.argumentName_mem c f

/-- Under the conditions on names, every value that is given for a field that a class
reads is found as the attribute of the field. -/
theorem NamesApart.construct
    {given : List (String × Value)}
    {v : Value}
    (apart : w.NamesApart c)
    (isGiven : ∀ name ∈ given.map Prod.fst, ∃ f ∈ w.plannedFields c, name = w.argumentName c f)
    (made : w.construct? c given = .ok v) :
    ∃ attributes, v = .record c attributes ∧ ∀ f ∈ w.plannedFields c, ∀ a,
      given.lookup (w.argumentName c f) = some a → attributes.lookup f.name = some a := by
  have declared := (w.plannedFields_sublist c).subset
  unfold construct? at made
  split at made
  · rename_i fields isModel
    cases made
    have noDataclass : w.isDataclass c = false := by
      unfold isDataclass
      rw [isModel]
    have areFields : w.declaredFields c = fields := by
      unfold declaredFields
      rw [isModel]
    have names := apart.names
    rw [areFields] at declared names
    refine ⟨_, rfl, fun f isPlanned a found => ?_⟩
    refine lookup_assignFields names (declared isPlanned) found (w.argumentName_mem c f)
      (fun other isName isOther => ?_) fun g isField taken => ?_
    · obtain ⟨g, otherPlanned, rfl⟩ := isGiven other isOther
      have sameName := apart.name_eq_of_mem noDataclass (areFields ▸ declared otherPlanned)
        (areFields ▸ declared isPlanned) isName
      rw [List.inj_on_of_nodup_map names (declared isPlanned) (declared otherPlanned) sameName]
    · exact apart.name_eq_of_mem noDataclass (areFields ▸ declared isPlanned) (areFields ▸ isField)
        taken
  · rename_i fields refusal isDataclass
    cases built : argumentFields? fields given with
    | error fault =>
        rw [built] at made
        cases made
    | ok attributes =>
        rw [built] at made
        have areFields : w.declaredFields c = fields := by
          unfold declaredFields
          rw [isDataclass]
        have names := apart.names
        rw [areFields] at declared names
        cases refusal with
        | some message => cases made
        | none =>
            cases made
            refine ⟨attributes, rfl, fun f isPlanned a found => ?_⟩
            have isArgument : f.isArgument = true := by
              rw [plannedFields, isDataclass] at isPlanned
              exact (List.mem_filter.mp isPlanned).2
            have byName : w.argumentName c f = f.name := by
              simp [argumentName, World.isDataclass, isDataclass]
            rw [byName] at found
            exact lookup_argumentFields names (declared isPlanned) isArgument found built
  · cases made

/-! ## Settling -/

/-- Looking up the names in fields changes nothing of what a model makes of them. -/
theorem assignFields_of_resolve?
    {ofName : String → Option TypeForm}
    {fields settled : List Field}
    (each : fields.Forall₂ (fun f g => f.resolve? ofName = some g) settled)
    (given : List (String × Value)) :
    assignFields settled given = assignFields fields given := by
  induction each generalizing given with
  | nil => rfl
  | @cons f g rest others first _ inductionHypothesis =>
      obtain ⟨form, isResolved, rfl⟩ := f.eq_of_resolve? first
      simp only [assignFields, inductionHypothesis]
      rfl

/-- Settling any class changes nothing of how instances are made. -/
theorem construct?_settle (w : World) (d c : ClassRef) :
    (w.settle d).construct? c = w.construct? c := by
  funext given
  unfold construct?
  rcases w.body_settle_fields d c with same | ⟨ofName, fields, settled, before, after, each⟩
  · rw [same]
  · rw [before, after]
    simp only [assignFields_of_resolve? each]

/-- The plans of fields whose names were looked up are for the same arguments and
keys. -/
theorem map_filter_of_resolve?
    {ofName : String → Option TypeForm}
    {fields settled : List Field}
    {view : Field → α}
    (each : fields.Forall₂ (fun f g => f.resolve? ofName = some g) settled)
    (formless : ∀ f form isResolved,
      view { f with form := form, isResolved := isResolved } = view f) :
    (settled.filter fun f => !f.isExcluded).map view =
      (fields.filter fun f => !f.isExcluded).map view := by
  induction each with
  | nil => rfl
  | @cons f g rest others first _ inductionHypothesis =>
      obtain ⟨form, isResolved, rfl⟩ := f.eq_of_resolve? first
      rw [List.filter_cons, List.filter_cons]
      dsimp only
      split
      · rw [List.map_cons, List.map_cons, formless, inductionHypothesis]
      · exact inductionHypothesis

/-- The hints of fields are found for each field in its place. -/
theorem map_fst_of_hints
    {fields : List Field}
    {hints : List (Field × TypeForm)}
    (found : (fields.mapM fun f => do pure (f, ← w.hint? f)) = Except.ok hints) :
    hints.map Prod.fst = fields := by
  induction fields generalizing hints with
  | nil =>
      cases found
      rfl
  | cons f rest inductionHypothesis =>
      rw [List.mapM_cons] at found
      cases hint : w.hint? f with
      | error fault =>
          rw [hint] at found
          cases found
      | ok a =>
          rw [hint] at found
          cases restFound : rest.mapM fun f => do pure (f, ← w.hint? f) with
          | error fault =>
              rw [restFound] at found
              cases found
          | ok others =>
              rw [restFound] at found
              cases found
              rw [List.map_cons, inductionHypothesis restFound]

/-- A class plans its fields for their arguments and their keys. -/
theorem plans_of_decodingPlans
    {plans : List FieldPlan}
    {reached : World}
    (ran : (decodingPlans c).run w = (.ok plans, reached)) :
    plans.map (fun p => (p.name, p.key)) =
      (w.plannedFields c).map fun f => (w.argumentName c f, w.wireKey c f) := by
  rcases decodingPlans_eq_ok ran with
    ⟨fields, refusal, hints, isBody, rfl, found, rfl⟩ | ⟨settled, noDataclass, rfl, isBody, rfl⟩
  · have isDataclass : reached.isDataclass c = true := by
      simp [World.isDataclass, isBody]
    have filtered : fields.filter (·.isArgument) =
        (hints.filter fun h => h.1.isArgument).map Prod.fst := by
      rw [← map_fst_of_hints found, List.filter_map]
      rfl
    rw [plannedFields, isBody]
    dsimp only
    rw [filtered, List.map_map, List.map_map]
    refine List.map_congr_left fun h _ => ?_
    simp [argumentName, wireKey, isDataclass, Field.dataclassPlan, FieldPlan.of]
  · have planned (f : Field) :
        (fun p : FieldPlan => (p.name, p.key))
            (if w.isStruct c then f.structPlan else f.modelPlan) =
          (w.argumentName c f, w.wireKey c f) := by
      cases isStruct : w.isStruct c <;>
        simp [argumentName, wireKey, noDataclass, isStruct, Field.structPlan, Field.modelPlan,
          FieldPlan.of]
    have sameView : (fun p : FieldPlan => (p.name, p.key)) ∘
        (fun f => if w.isStruct c then f.structPlan else f.modelPlan) =
          fun f => (w.argumentName c f, w.wireKey c f) :=
      funext planned
    rw [List.map_map, sameView, plannedFields]
    rcases w.body_settle_fields c c with same | ⟨ofName, fields, others, before, after, each⟩
    · rw [← same, isBody]
    · rw [isBody] at after
      cases after
      rw [before]
      exact map_filter_of_resolve? each fun _ _ _ => rfl

/-- Finding the plans of a class changes nothing of how its instances are made. -/
theorem construct?_of_decodingPlans
    {plans : List FieldPlan}
    {reached : World}
    (ran : (decodingPlans c).run w = (.ok plans, reached)) :
    reached.construct? c = w.construct? c := by
  rcases decodingPlans_eq_ok ran with ⟨_, _, _, _, rfl, _⟩ | ⟨_, _, rfl, _⟩
  · rfl
  · exact w.construct?_settle c c

/-- A class whose fields can be planned is declared. -/
theorem declares_of_decodingPlans
    {plans : List FieldPlan}
    {reached : World}
    (ran : (decodingPlans c).run w = (.ok plans, reached)) :
    reached.Declares c := by
  cases c with
  | user u =>
      cases found : reached.record? u with
      | some r =>
          change (reached.record? u).isSome = true
          rw [found]
          rfl
      | none =>
          have plain : reached.body (.user u) = .plain := by
            simp [body, found]
          rcases decodingPlans_eq_ok ran with ⟨_, _, _, isBody, rfl, -⟩ | ⟨_, -, -, isBody, -⟩
          · rw [plain] at isBody
            cases isBody
          · rw [plain] at isBody
            cases isBody
  | builtin _ | sized _ _ => trivial

end

end World

/-! ## Reading and making -/

/-- Lists that are viewed alike have entries that are viewed alike beside the same
elements. -/
theorem exists_mem_zip_of_map
    {as : List α}
    {bs : List β}
    {cs : List γ}
    {view : α → δ}
    {other : β → δ}
    {e : β × γ}
    (same : as.map view = bs.map other)
    (member : e ∈ bs.zip cs) :
    ∃ a, (a, e.2) ∈ as.zip cs ∧ view a = other e.1 := by
  have isPair : (other e.1, e.2) ∈ (as.map view).zip cs := by
    rw [same, List.zip_map_left]
    exact List.mem_map_of_mem (f := Prod.map other id) member
  rw [List.zip_map_left] at isPair
  obtain ⟨p, isEntry, isSame⟩ := List.mem_map.mp isPair
  obtain ⟨sameView, sameElement⟩ := Prod.mk.inj isSame
  exact ⟨p.1, sameElement ▸ isEntry, sameView⟩

/-- Whether a surface leaves a class alone: while it answers, a declared class stays
declared and its instances are made as before. -/
def Surface.Spares (surface : Surface σ) (c : ClassRef) : Prop :=
  ∀ h request s, s.2.world.Declares c →
    let reached := ((surface.answer h request).run s).2
    reached.2.world.Declares c ∧ reached.2.world.construct? c = s.2.world.construct? c

/-- The regime of states in which a class is declared and its instances are made in one
way. -/
def ClassRef.making
    (c : ClassRef)
    (make : List (String × Value) → Except Fault Value) :
    Regime Store where
  holds s := s.world.Declares c ∧ s.world.construct? c = make
  allows := Interrupt.IsAny

/-- A surface that leaves a class alone answers like itself while it does. -/
theorem Surface.Spares.answersAlike
    {surface : Surface σ}
    {c : ClassRef}
    (spares : surface.Spares c)
    (make : List (String × Value) → Except Fault Value) :
    surface.AnswersAlike (c.making make) (fun _ => True) surface := by
  refine Surface.answersAlike_of_answer (fun _ => trivial) trivial fun h request _ s holds => ?_
  obtain ⟨declared, made⟩ := spares h request s holds.1
  exact .of_run ⟨declared, made.trans holds.2⟩ (fun _ _ => trivial) fun _ _ => trivial

/-- Under the conditions on names, every answer that is not null is the attribute of the
field that was asked for. -/
theorem World.NamesApart.attributes
    {w : World}
    {c : ClassRef}
    {plans : List FieldPlan}
    {answers : List Value}
    {v : Value}
    (apart : w.NamesApart c)
    (names : plans.map (·.name) = (w.plannedFields c).map (w.argumentName c))
    (sameLength : answers.length = plans.length)
    (made : w.construct? c ((plans.zip answers).foldl FieldPlan.give []) = .ok v) :
    ∃ attributes, v = .record c attributes ∧
      ∀ e ∈ (w.plannedFields c).zip answers,
        e.2.isNull = false → attributes.lookup e.1.name = some e.2 := by
  have pairNames : (plans.zip answers).map (fun e => e.1.name) = plans.map (·.name) := by
    have firsts : (plans.zip answers).map Prod.fst = plans :=
      List.map_fst_zip (Nat.le_of_eq sameLength.symm)
    exact (List.map_map ..).symm.trans (congrArg (List.map (·.name)) firsts)
  have isGiven : ∀ name ∈ ((plans.zip answers).foldl FieldPlan.give []).map Prod.fst,
      ∃ f ∈ w.plannedFields c, name = w.argumentName c f := by
    intro name member
    rcases FieldPlan.mem_keys_foldl_give member with absent | isArgument
    · cases absent
    · rw [pairNames, names] at isArgument
      obtain ⟨f, isPlanned, same⟩ := List.mem_map.mp isArgument
      exact ⟨f, isPlanned, same.symm⟩
  obtain ⟨attributes, isRecord, found⟩ := apart.construct isGiven made
  refine ⟨attributes, isRecord, fun e member isValue => ?_⟩
  obtain ⟨plan, isPair, sameName⟩ := exists_mem_zip_of_map names member
  refine found e.1 (List.of_mem_zip member).1 e.2 ?_
  rw [← sameName]
  refine FieldPlan.lookup_foldl_give [] ?_ isPair isValue
  rw [pairNames, names]
  exact apart.arguments

/-- Reading the fields of a class from a surface that leaves it alone changes nothing of
how its instances are made. -/
theorem Surface.Spares.construct?_readFields
    {surface : Surface σ}
    {c : ClassRef}
    {decoder container : Handle}
    {plans : List FieldPlan}
    {s opened answered : σ × Store}
    {values : List (String × Value)}
    (spares : surface.Spares c)
    (declared : s.2.world.Declares c)
    (opens : (surface.openHandle decoder .openKeyed).run s = (.ok container, opened))
    (reads : (readFields surface container plans []).run opened = (.ok values, answered)) :
    answered.2.world.construct? c = s.2.world.construct? c := by
  have answersAlike := spares.answersAlike (s.2.world.construct? c)
  have opensAlike : Alike _ anything (surface.openHandle decoder .openKeyed)
      (surface.openHandle decoder .openKeyed) :=
    answersAlike.openHandle (fun _ => trivial) decoder fun _ _ => trivial
  have readsAlike : Alike _ anything (readFields surface container plans [])
      (readFields surface container plans []) :=
    readFields_alike (fun _ => trivial) answersAlike container (fun _ _ => trivial) []
  have openedHolds := (opensAlike s ⟨declared, rfl⟩).holds_run
  rw [opens] at openedHolds
  have answeredHolds := (readsAlike opened openedHolds).holds_run
  rw [reads] at answeredHolds
  exact answeredHolds.2

/-- Decoded values become attributes.  A class with fields asks a container for a value
for each of the fields that it reads, under the field's key, and if it makes an
instance of what it is answered, then every value that is not null is the attribute
of its field.  The names, the keys and the aliases of the fields have to be apart,
and the container must leave the class alone. -/
theorem runWith_fields_attributes
    {surface : Surface σ}
    {delegate : Delegate σ}
    {c : ClassRef}
    {decoder : Handle}
    {s last : σ × Store}
    {v : Value}
    (spares : surface.Spares c)
    (apart : s.2.world.NamesApart c)
    (returned : ((Reader.fields c).runWith surface delegate decoder).run s = (.ok v, last)) :
    ∃ plans settled container opened answers answered attributes,
      (Step.shared (Step.inWorld (decodingPlans c))).run s = (.ok plans, settled) ∧
        (surface.openHandle decoder .openKeyed).run settled = (.ok container, opened) ∧
        (Step.each (fun p : FieldPlan => surface.value container p.request) plans).run opened =
          (.ok answers, answered) ∧
        plans.map (·.key) = (s.2.world.plannedFields c).map (s.2.world.wireKey c) ∧
        v = .record c attributes ∧
        ∀ e ∈ (s.2.world.plannedFields c).zip answers,
          e.2.isNull = false → attributes.lookup e.1.name = some e.2 := by
  obtain ⟨plans, settled, planned, ran⟩ := run_bind_eq_ok_iff.mp returned
  obtain ⟨container, opened, opens, ran⟩ := run_bind_eq_ok_iff.mp ran
  obtain ⟨values, answered, reads, ran⟩ := run_bind_eq_ok_iff.mp ran
  obtain ⟨answers, between, asked, isRead⟩ :=
    run_bind_eq_ok_iff.mp (readFields_eq surface container plans [] ▸ reads)
  cases isRead
  have plannedRun : (decodingPlans c).run s.2.world = (.ok plans, settled.2.world) := by
    rw [Step.shared, run_within, inWorld, run_within] at planned
    obtain ⟨isPlans, rfl⟩ := Prod.mk.inj planned
    exact Prod.ext isPlans rfl
  have views := World.plans_of_decodingPlans plannedRun
  have names : plans.map (·.name) = (s.2.world.plannedFields c).map (s.2.world.argumentName c) := by
    have firsts := congrArg (List.map Prod.fst) views
    rwa [List.map_map, List.map_map] at firsts
  have keys : plans.map (·.key) = (s.2.world.plannedFields c).map (s.2.world.wireKey c) := by
    have seconds := congrArg (List.map Prod.snd) views
    rwa [List.map_map, List.map_map] at seconds
  -- instances are made at the end as they were at the beginning
  have sameMaking : answered.2.world.construct? c = s.2.world.construct? c :=
    (spares.construct?_readFields (World.declares_of_decodingPlans plannedRun) opens reads).trans
      (World.construct?_of_decodingPlans plannedRun)
  have made : s.2.world.construct? c ((plans.zip answers).foldl FieldPlan.give []) = .ok v := by
    rw [run_bind_of_ok (run_current answered), sameMaking, run_ofExcept] at ran
    cases outcome : s.2.world.construct? c ((plans.zip answers).foldl FieldPlan.give []) with
    | ok result =>
        rw [outcome] at ran
        cases ran
        rfl
    | error fault =>
        rw [outcome] at ran
        cases ran
  obtain ⟨attributes, isRecord, found⟩ := apart.attributes names (length_of_each asked) made
  exact ⟨plans, settled, container, opened, answers, answered, attributes, planned, opens, asked,
    keys, isRecord, found⟩

/-! ## Reading data -/

/-- Finding out about types leaves declared classes alone. -/
theorem World.Reaches.construct?
    {w reached : World}
    {c : ClassRef}
    (reaches : w.Reaches reached)
    (declared : w.Declares c) :
    reached.Declares c ∧ reached.construct? c = w.construct? c := by
  have grown {v later : World} (grows : v.GrowsTo later)
      (before : v.Declares c ∧ v.construct? c = w.construct? c) :
      later.Declares c ∧ later.construct? c = w.construct? c := by
    refine ⟨grows.declares before.1, (funext fun given => ?_).trans before.2⟩
    unfold World.construct?
    rw [grows.body before.1]
  induction reaches with
  | start => exact ⟨declared, rfl⟩
  | spell key a _ inductionHypothesis => exact grown (growsTo_spell _ key a) inductionHypothesis
  | specialise args fields key _ _ inductionHypothesis =>
      exact grown (growsTo_specialise _ _ key) inductionHypothesis
  | @settle v d _ inductionHypothesis =>
      refine ⟨?_, (v.construct?_settle d c).trans inductionHypothesis.2⟩
      cases c with
      | user u =>
          have isDeclared : (v.record? u).isSome = true := inductionHypothesis.1
          change ((v.settle d).record? u).isSome = true
          rcases record?_settle_cases v d u with same | settled
          · rw [same]
            exact isDeclared
          · rw [settled, Option.isSome_map]
            exact isDeclared
      | builtin _ | sized _ _ => trivial

/-- Data is read without touching declared classes. -/
theorem dataReader_spares (depth : Nat) (c : ClassRef) :
    (dataReader (loadTo depth)).Spares c := by
  intro h request s declared
  have answers := (dataReader_reaches depth s.2.world).answer h request (fun _ _ => trivial)
  exact (answers s .start).holds_run.construct? declared

/-- A class whose fields are read under a key, under an alias and under their own
name. -/
def parcelClass : ClassRef :=
  .user ⟨1, "Parcel", "post"⟩

/-- The state in which parcels are declared, with some fields. -/
def parcelStore (fields : List Field) : Store :=
  { Store.initial with
    world :=
      { World.empty with
        classes :=
          [{ cls := ⟨1, "Parcel", "post"⟩
             lineage := [parcelClass, .builtin .struct, .builtin .model]
             base := none
             params := []
             hooks := Hooks.none
             body := .model fields }] } }

/-- The fields of parcels. -/
def parcelFields : List Field :=
  [{ Field.required "weight" (.builtin .int) with key := some "w" },
    { Field.required "label" (.builtin .str) with aliasName := some "l" },
    { Field.required "price" (.builtin .int) with default := some (.int 3) }]

/-- The data of a parcel without a price. -/
def parcelData : DataCells :=
  [⟨.dict none [(.text "l", .text "fragile"), (.text "w", .int 2)], 0⟩]

/-- A parcel that is read from data has its weight and its label. -/
theorem runWith_fields_attributes_parcel :
    ∃ attributes last,
      ((Reader.fields parcelClass).runWith (dataReader (loadTo 1)) (fun _ _ => Step.exhausted)
          ⟨.decoder, [], [], 0⟩).run (parcelData, parcelStore parcelFields) =
        (.ok (.record parcelClass attributes), last) ∧
      attributes.lookup "weight" = some (.int 2) ∧
      attributes.lookup "label" = some (.text "fragile") := by
  have apart : (parcelStore parcelFields).world.NamesApart parcelClass :=
    ⟨by decide, by decide, fun _ => by decide⟩
  obtain ⟨plans, settled, container, opened, answers, answered, attributes, planned, opens, asked,
      -, isRecord, found⟩ :=
    runWith_fields_attributes (dataReader_spares 1 parcelClass) apart
      (rfl : ((Reader.fields parcelClass).runWith (dataReader (loadTo 1))
        (fun _ _ => Step.exhausted) ⟨.decoder, [], [], 0⟩).run
          (parcelData, parcelStore parcelFields) = (.ok _, _))
  cases planned
  cases opens
  cases asked
  cases isRecord
  refine ⟨_, _, rfl, ?_, ?_⟩
  · exact found ({ Field.required "weight" (.builtin .int) with key := some "w" }, .int 2)
      List.mem_cons_self rfl
  · exact found ({ Field.required "label" (.builtin .str) with aliasName := some "l" },
      .text "fragile") (List.mem_cons_of_mem _ List.mem_cons_self) rfl

/-- Where an alias is the name of another field, the model takes the value of the other
field for the one with the alias, and the other field gets nothing. -/
example :
    (((Reader.fields parcelClass).runWith (dataReader (loadTo 1)) (fun _ _ => Step.exhausted)
        ⟨.decoder, [], [], 0⟩).run
      (parcelData, parcelStore
        [{ Field.required "weight" (.builtin .int) with key := some "w", aliasName := some "label" },
          { Field.required "label" (.builtin .str) with key := some "l" }])).1 =
      .ok (.record parcelClass [("weight", .text "fragile")]) := by
  rfl

end SchemaProbe

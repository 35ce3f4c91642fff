import SchemaProbe.Proofs.Sources
import SchemaProbe.Proofs.Settling
import SchemaProbe.Proofs.SettledNames
import SchemaProbe.Proofs.Swapping
import SchemaProbe.Proofs.Universe

namespace SchemaProbe

/-!
# Worlds on the way

While classes are declared one after the other, a world holds some of those that there
are in the end.  What it says about a class that it holds is what is said in the end, but
for the types of fields in which names are not known yet.
-/

open Step

/-! ## Fields in the end -/

/-- A field as it is in the end, when its names are settled. -/
def Field.final (ofName : String → Option TypeForm) (f : Field) : Field :=
  { f with
    written := f.written.settled ofName
    form := (f.written.settled ofName).withoutNotes
    isResolved := true }

namespace ClassBody

/-- The fields of a class. -/
def fields : ClassBody → List Field
  | .model fields => fields
  | .dataclass fields _ => fields
  | _ => []

/-- A class with each of its fields changed. -/
def mapFields (change : Field → Field) : ClassBody → ClassBody
  | .model fields => .model (fields.map change)
  | .dataclass fields refusal => .dataclass (fields.map change) refusal
  | body => body

end ClassBody

/-- A record as it is in the end, when the names in its fields are settled. -/
def ClassRecord.final (ofName : String → Option TypeForm) (r : ClassRecord) : ClassRecord :=
  { r with body := r.body.mapFields (Field.final ofName) }

/-- Fields that are the same in the end are the same but for their types. -/
theorem map_untyped_final (ofName : String → Option TypeForm) (fields : List Field) :
    (fields.map (Field.final ofName)).map Field.untyped = fields.map Field.untyped := by
  rw [List.map_map]
  rfl

/-- A class resembles what it is in the end. -/
theorem ClassBody.resembles_final (ofName : String → Option TypeForm) (body : ClassBody) :
    body.Resembles (body.mapFields (Field.final ofName)) := by
  cases body with
  | model fields => exact .model (map_untyped_final ofName fields)
  | dataclass fields refusal => exact .dataclass refusal (map_untyped_final ofName fields)
  | _ => exact .same _

/-! ## Worlds on the way -/

/-- Classes that resemble the same resemble each other. -/
theorem ClassBody.Resembles.trans_symm
    {body first second : ClassBody}
    (resembles : first.Resembles body)
    (others : second.Resembles body) :
    first.Resembles second := by
  cases resembles with
  | same _ =>
      cases others with
      | same _ => exact .same _
      | model same => exact .model same.symm
      | dataclass refusal same => exact .dataclass refusal same.symm
  | model same =>
      cases others with
      | same _ => exact .model same
      | model otherSame => exact .model (otherSame.symm.trans same)
  | dataclass refusal same =>
      cases others with
      | same _ => exact .dataclass refusal same
      | dataclass _ otherSame => exact .dataclass refusal (otherSame.symm.trans same)

/-- What a declared class extends is declared. -/
theorem World.IsClosed.declares_lineage
    {w : World}
    {c : ClassRef}
    (closed : w.IsClosed)
    (declared : w.Declares c) :
    ∀ ancestor ∈ w.lineage c, w.Declares ancestor := by
  intro ancestor member
  cases c with
  | user v =>
      obtain ⟨r, found⟩ := Option.isSome_iff_exists.mp declared
      rw [World.lineage, found] at member
      exact (closed.closes found).lineage ancestor member
  | builtin b =>
      obtain ⟨_, _, rfl⟩ := List.mem_map.mp member
      trivial
  | sized number home =>
      cases ancestor with
      | user u =>
          rw [World.lineage] at member
          split at member <;> split at member <;> simp at member
      | _ => trivial

/-- The known values that a declared class lists are of declared classes. -/
theorem World.IsClosed.declares_cases
    {w : World}
    {c : ClassRef}
    {values : List ValueTerm}
    (closed : w.IsClosed)
    (isHook : (w.hooks c).cases = some (.listed values)) :
    ∀ v, .known v ∈ values → w.Declares v.labelling := by
  cases c with
  | user u =>
      cases found : w.record? u with
      | none =>
          rw [World.hooks, found] at isHook
          cases isHook
      | some r =>
          rw [World.hooks, found] at isHook
          exact (closed.closes found).cases values isHook
  | _ => cases isHook

/-- Whether a world holds some of the classes of another one, under their names, and they
are the same in the end. -/
structure World.IsStage
    (ofName : String → Option TypeForm)
    (last w : World) :
    Prop where
  names : ∀ name a, w.names.lookup name = some a → last.names.lookup name = some a
  records : ∀ c r, w.record? c = some r →
    (last.record? c).map (ClassRecord.final ofName) = some (r.final ofName)

/-- A world is a stage of itself. -/
theorem World.IsStage.refl (ofName : String → Option TypeForm) (w : World) :
    World.IsStage ofName w w :=
  ⟨fun _ _ found => found, fun _ _ found => by rw [found]; rfl⟩

/-- A stage of a stage is a stage. -/
theorem World.IsStage.trans
    {ofName : String → Option TypeForm}
    {last between w : World}
    (later : World.IsStage ofName last between)
    (earlier : World.IsStage ofName between w) :
    World.IsStage ofName last w := by
  refine ⟨fun name a found => later.names name a (earlier.names name a found), fun c r found => ?_⟩
  obtain ⟨s, isRecord, same⟩ := Option.map_eq_some_iff.mp (earlier.records c r found)
  rw [later.records c s isRecord, same]

section

variable {ofName : String → Option TypeForm} {last w : World} {c : ClassRef}

namespace World.IsStage

variable (stage : World.IsStage ofName last w)

include stage

/-- A declared class has a record, in the end as well. -/
theorem exists_record
    {u : UserClass}
    (declared : w.Declares (.user u)) :
    ∃ r s, w.record? u = some r ∧ last.record? u = some s ∧ s.final ofName = r.final ofName := by
  obtain ⟨r, found⟩ := Option.isSome_iff_exists.mp declared
  obtain ⟨s, isLast, same⟩ := Option.map_eq_some_iff.mp (stage.records u r found)
  exact ⟨r, s, found, isLast, same⟩

/-- What is declared is declared in the end. -/
theorem declares (declared : w.Declares c) : last.Declares c := by
  cases c with
  | user u =>
      obtain ⟨-, s, -, isLast, -⟩ := stage.exists_record declared
      exact Option.isSome_iff_exists.mpr ⟨s, isLast⟩
  | _ => trivial

theorem hooks (declared : w.Declares c) : last.hooks c = w.hooks c := by
  cases c with
  | user u =>
      obtain ⟨r, s, found, isLast, same⟩ := stage.exists_record declared
      rw [World.hooks, World.hooks, found, isLast]
      exact (congrArg ClassRecord.hooks same :)
  | _ => rfl

theorem lineage (declared : w.Declares c) : last.lineage c = w.lineage c := by
  cases c with
  | user u =>
      obtain ⟨r, s, found, isLast, same⟩ := stage.exists_record declared
      rw [World.lineage, World.lineage, found, isLast]
      exact (congrArg ClassRecord.lineage same :)
  | _ => rfl

theorem body (declared : w.Declares c) :
    (last.body c).mapFields (Field.final ofName) = (w.body c).mapFields (Field.final ofName) := by
  cases c with
  | user u =>
      obtain ⟨r, s, found, isLast, same⟩ := stage.exists_record declared
      rw [World.body, World.body, found, isLast]
      exact congrArg ClassRecord.body same
  | builtin b => cases b <;> rfl
  | sized number home => rfl

/-- A declared class makes what it makes in the end. -/
theorem makesAlikeAt (declared : w.Declares c) : w.MakesAlikeAt last c where
  body := by
    have resembles := ClassBody.resembles_final ofName (last.body c)
    rw [stage.body declared] at resembles
    exact (ClassBody.resembles_final ofName _).trans_symm resembles
  lineage := stage.lineage declared

theorem baseArguments
    (closed : w.IsClosed)
    (declared : w.Declares c)
    (b : Builtin) :
    last.baseArguments c b = w.baseArguments c b := by
  have bases (u : UserClass) (isAncestor : .user u ∈ w.lineage c) :
      (last.record? u).bind (·.base) = (w.record? u).bind (·.base) := by
    have ancestor := closed.declares_lineage declared _ isAncestor
    obtain ⟨r, s, found, isLast, same⟩ := stage.exists_record ancestor
    rw [found, isLast]
    exact (congrArg ClassRecord.base same :)
  unfold World.baseArguments
  rw [stage.lineage declared]
  refine congrArg (fun found : List (List TypeForm) => found.head?.getD [])
    (List.filterMap_congr fun ancestor isAncestor => ?_)
  cases ancestor with
  | user u =>
      dsimp only
      rw [bases u isAncestor]
  | _ => rfl

/-- A declared class is read as in the end. -/
theorem reader? (closed : w.IsClosed) (declared : w.Declares c) :
    last.reader? c = w.reader? c := by
  have alike := stage.makesAlikeAt declared
  have bodies := alike.body
  unfold World.reader?
  rw [stage.hooks declared]
  simp only [alike.inherits, alike.sequenceShape?, stage.baseArguments closed declared]
  generalize w.body c = before, last.body c = after at bodies
  cases bodies <;> rfl

theorem kind? (declared : w.Declares c) : last.kind? c = w.kind? c := by
  unfold World.kind?
  rw [stage.hooks declared]

/-- A value of a declared class has the label that it has in the end. -/
theorem label
    {v : Value}
    (declared : w.Declares v.labelling) :
    last.label v = w.label v := by
  have text (bare : Value) (isDeclared : w.Declares bare.classOf) :
      last.textOf bare = w.textOf bare := by
    unfold World.textOf
    rw [stage.hooks isDeclared]
    cases bare with
    | record c fields =>
        have bodies := (stage.makesAlikeAt isDeclared).body
        change (w.body c).Resembles (last.body c) at bodies
        dsimp only
        generalize w.body c = before, last.body c = after at bodies
        cases bodies <;> rfl
    | _ => rfl
  unfold World.label
  dsimp only
  cases v with
  | member cls mixin name value => rw [text value declared]
  | _ => rw [text _ (by exact declared)]

end World.IsStage

end

/-- Whether a value is of no declared class. -/
def Value.IsBuiltin (v : Value) : Prop :=
  ∀ u, v.classOf ≠ .user u

/-- A value of no declared class is labelled in every world. -/
theorem Value.IsBuiltin.declares_labelling
    {v : Value}
    (builtin : v.IsBuiltin)
    (w : World) :
    w.Declares v.labelling := by
  have declares (c : ClassRef) (isBuiltin : ∀ u, c ≠ .user u) : w.Declares c := by
    cases c with
    | user u => exact absurd rfl (isBuiltin u)
    | _ => trivial
  cases v with
  | member cls mixin name value => exact absurd rfl (builtin cls)
  | _ => exact declares _ builtin

/-! ## Fields on the way -/

/-- Whether a set of type forms is closed under what is done to types when they are read
and looked up: names are settled, notes and null are taken off, and parts are asked for;
and whether no literal in it lists a value of a declared class. -/
structure TypeForm.Vocabulary
    (among : TypeForm → Prop)
    (ofName : String → Option TypeForm) : Prop
    extends SettlesAlike among ofName where
  withoutNotes : ∀ a, among a → among a.withoutNotes
  plain : ∀ a, among a → among a.plain
  stripNull : ∀ a, among a → among a.stripNull.1
  any : among .any
  text : among (.builtin .str)
  sources : ∀ a b, among a → a.source? = some b → among b
  args : ∀ origin args, among (.generic origin args) → ∀ a ∈ args, among a
  literals : ∀ values, among (.literal values) → ∀ v ∈ values,
    v.IsBuiltin ∧ among (.cls v.classOf)

/-- Whether a type form comes up and is over some classes. -/
structure TypeForm.IsMet
    (among : TypeForm → Prop)
    (classes : UserClass → Prop)
    (a : TypeForm) :
    Prop where
  comesUp : among a
  isOver : a.IsOver classes

/-- Whether a field is on the way to what it is in the end: what it is read as so far comes
up, and it is settled as in the end if it is settled. -/
structure Field.IsOnWay
    (among : TypeForm → Prop)
    (ofName : String → Option TypeForm)
    (classes : UserClass → Prop)
    (f : Field) :
    Prop where
  settled : f.isResolved = true → f.form = (f.written.settled ofName).withoutNotes
  met : f.form.IsMet among classes
  isOver : f.written.IsOver classes
  later : among (f.written.settled ofName)
  names : ∀ name ∈ f.written.names, (ofName name).isSome = true

/-- Whether what names stand for is what they stand for in the end, and over some
classes. -/
def NamesOver
    (ofName : String → Option TypeForm)
    (classes : UserClass → Prop)
    (meaning : String → Option TypeForm) :
    Prop :=
  ∀ name a, meaning name = some a → ofName name = some a ∧ a.IsOver classes

section

variable {among : TypeForm → Prop} {ofName meaning : String → Option TypeForm}
  {classes : UserClass → Prop}

namespace TypeForm

mutual

/-- Names are replaced alike if they stand for the same. -/
theorem substitute_congr
    (a : TypeForm)
    (same : ∀ name ∈ a.names, meaning name = ofName name) :
    (a.substitute meaning fun _ => none) = a.substitute ofName fun _ => none := by
  cases a with
  | generic origin args =>
      rw [substitute, substitute, substituteAll_congr args same]
  | callable params result =>
      rw [names] at same
      rw [substitute, substitute,
        substituteAll_congr params fun name isName => same name (List.mem_append_left _ isName),
        substitute_congr result fun name isName => same name (List.mem_append_right _ isName)]
  | union style members =>
      rw [substitute, substitute, substituteAll_congr members same]
  | annotated inner notes =>
      rw [substitute, substitute, substitute_congr inner same]
  | reference name => rw [substitute, substitute, same name (List.mem_singleton_self name)]
  | text s => rw [substitute, substitute, same s (List.mem_singleton_self s)]
  | _ => rfl
termination_by structural a

/-- Names are replaced alike if they stand for the same. -/
theorem substituteAll_congr
    (as : List TypeForm)
    (same : ∀ name ∈ namesAll as, meaning name = ofName name) :
    substituteAll meaning (fun _ => none) as = substituteAll ofName (fun _ => none) as := by
  cases as with
  | nil => rfl
  | cons a rest =>
      rw [namesAll] at same
      rw [substituteAll, substituteAll,
        substitute_congr a fun name isName => same name (List.mem_append_left _ isName),
        substituteAll_congr rest fun name isName => same name (List.mem_append_right _ isName)]
termination_by structural as

end

/-- Names that are looked up early are settled as in the end. -/
theorem eq_of_resolveNames?
    {a b : TypeForm}
    (namesOver : NamesOver ofName classes meaning)
    (isOver : a.IsOver classes)
    (resolved : a.resolveNames? meaning = some b) :
    b = a.settled ofName ∧ b.IsOver classes := by
  unfold resolveNames? at resolved
  split at resolved
  · rename_i known
    cases resolved
    refine ⟨substitute_congr a fun name isName => ?_, isOver.substitute a fun name _ b found =>
      (namesOver name b found).2⟩
    obtain ⟨b, found⟩ := Option.isSome_iff_exists.mp (List.all_eq_true.mp known name isName)
    rw [found, (namesOver name b found).1]
  · cases resolved

/-- Names that all stand for something are settled. -/
theorem resolveNames?_of_known
    {a : TypeForm}
    (known : ∀ name ∈ a.names, (meaning name).isSome = true) :
    a.resolveNames? meaning = some (a.settled meaning) :=
  if_pos (List.all_eq_true.mpr known)

end TypeForm

namespace Field

/-- A field whose names are looked up is on the way, and the same in the end. -/
theorem IsOnWay.resolve?
    {f g : Field}
    (words : TypeForm.Vocabulary among ofName)
    (onWay : f.IsOnWay among ofName classes)
    (namesOver : NamesOver ofName classes meaning)
    (resolved : f.resolve? meaning = some g) :
    g.IsOnWay among ofName classes ∧ g.final ofName = f.final ofName ∧ g.isResolved = true := by
  unfold Field.resolve? at resolved
  split at resolved
  · rename_i isResolved
    cases resolved
    exact ⟨onWay, rfl, isResolved⟩
  · cases isSettled : f.written.resolveNames? meaning with
    | none =>
        rw [isSettled] at resolved
        cases resolved
    | some a =>
        rw [isSettled] at resolved
        cases resolved
        obtain ⟨rfl, isOver⟩ := TypeForm.eq_of_resolveNames? namesOver onWay.isOver isSettled
        exact ⟨⟨fun _ => rfl, ⟨words.withoutNotes _ onWay.later, isOver.withoutNotes⟩, onWay.isOver,
          onWay.later, onWay.names⟩, rfl, rfl⟩

/-- A field whose names all stand for something can be settled. -/
theorem IsOnWay.exists_resolve?
    {f : Field}
    (onWay : f.IsOnWay among ofName classes)
    (known : ∀ name, (ofName name).isSome = true → (meaning name).isSome = true) :
    ∃ g, f.resolve? meaning = some g := by
  unfold Field.resolve?
  split
  · exact ⟨f, rfl⟩
  · rw [TypeForm.resolveNames?_of_known fun name isName => known name (onWay.names name isName)]
    exact ⟨_, rfl⟩

/-- A settled field has the plan of the field in the end. -/
theorem IsOnWay.plan_final
    {f : Field}
    (onWay : f.IsOnWay among ofName classes)
    (isResolved : f.isResolved = true) :
    (f.final ofName).modelPlan = f.modelPlan ∧ (f.final ofName).structPlan = f.structPlan := by
  have isForm := onWay.settled isResolved
  unfold modelPlan structPlan
  rw [isForm]
  exact ⟨rfl, rfl⟩

end Field

end

/-! ## Written type forms on the way -/

mutual

/-- The written type forms in a statement, and all that they are built from. -/
def Statement.parts : Statement → List TypeTerm
  | .request _ written _ => (written.form?.map TypeTerm.parts).getD []
  | .delegate _ type _ => type.parts
  | .forKeys _ _ body => Statement.partsAll body
  | .untilEnd _ body => Statement.partsAll body
  | .branch _ _ agreed otherwise => Statement.partsAll agreed ++ Statement.partsAll otherwise
  | .attempt body handler => Statement.partsAll body ++ Statement.partsAll handler
  | .give (.value v) => v.parts
  | _ => []

/-- The written type forms in statements, and all that they are built from. -/
def Statement.partsAll : List Statement → List TypeTerm
  | [] => []
  | first :: rest => first.parts ++ Statement.partsAll rest

end

/-- The written type forms in the hooks of a class, and all that they are built from. -/
def Hooks.parts (hooks : Hooks) : List TypeTerm :=
  (hooks.program.map Statement.partsAll).getD [] ++
    match hooks.cases with
    | some (.listed values) => ValueTerm.partsAll values
    | _ => []

section

variable {among : TypeForm → Prop} {ofName : String → Option TypeForm}

theorem TypeTerm.areWorded_nil : AreWorded among ofName [] :=
  ⟨nofun, fun _ _ => nofun⟩

/-- A name is worded if it comes up, and so does what it stands for. -/
theorem TypeTerm.areWorded_named
    {name : String}
    {a : TypeForm}
    (stands : ofName name = some a)
    (nameComesUp : among (.text name))
    (comesUp : among a) :
    AreWorded among ofName (TypeTerm.named name).parts := by
  refine ⟨List.forall_mem_singleton.mpr trivial, fun m stage => ?_⟩
  refine List.forall_mem_singleton.mpr ⟨nofun, fun b read => ?_⟩
  rcases stage name b read with rfl | isName
  · exact nameComesUp
  · cases stands.symm.trans isName
    exact comesUp

/-- What may be null is worded if it is worded otherwise, and comes up with null. -/
theorem TypeTerm.AreWorded.optional
    {t : TypeTerm}
    (worded : AreWorded among ofName t.parts)
    (comesUp : ∀ m : Sense, m.IsStage ofName → ∀ a, (optional t).read m = .ok a → among a) :
    AreWorded among ofName (TypeTerm.optional t).parts :=
  ⟨List.forall_mem_cons.mpr ⟨trivial, worded.ordinary⟩, fun m stage =>
    List.forall_mem_cons.mpr ⟨⟨nofun, comesUp m stage⟩, worded.comeUp m stage⟩⟩

end

/-! ## Worlds on the way with their fields -/

/-- Whether a class consists of fields. -/
def ClassBody.HasFields : ClassBody → Prop
  | .model _ => True
  | .dataclass _ _ => True
  | _ => False

/-- Whether a world is on the way to what there is in the end, and declares some classes so
far: its fields are on the way, and names stand for what they stand for in the end. -/
structure World.IsOnWay
    (among : TypeForm → Prop)
    (ofName : String → Option TypeForm)
    (classes : UserClass → Prop)
    (w : World) :
    Prop where
  declares : ∀ u, w.Declares (.user u) ↔ classes u
  closed : w.IsClosed
  bodies : ∀ c r, w.record? c = some r → r.body.HasFields
  fields : ∀ c r, w.record? c = some r → ∀ f ∈ r.body.fields, f.IsOnWay among ofName classes
  hooks : ∀ c r, w.record? c = some r → TypeTerm.AreWorded among ofName r.hooks.parts
  spellings : ∀ e ∈ w.spellings, Spelling among e
  meanings : NamesOver ofName classes w.typeOf?
  own : ∀ u, classes u → ofName u.name = some (.cls (.user u))

/-- Whether a world says the same in the end as another one: it has the same classes under
the same names, and only their fields may be settled further. -/
structure World.SameInEnd
    (ofName : String → Option TypeForm)
    (w other : World) :
    Prop where
  names : other.names = w.names
  records : ∀ c, (other.record? c).map (ClassRecord.final ofName) =
    (w.record? c).map (ClassRecord.final ofName)

/-- Whether a world holds all that there is in the end, and every name stands for
something. -/
structure World.IsComplete
    (ofName : String → Option TypeForm)
    (last w : World) :
    Prop where
  stage : World.IsStage ofName last w
  names : ∀ name, w.names.lookup name = last.names.lookup name
  classes : ∀ u, last.Declares (.user u) → w.Declares (.user u)
  meanings : ∀ name, (ofName name).isSome = true → (w.typeOf? name).isSome = true

section

variable {ofName : String → Option TypeForm} {last w other : World}

namespace World.SameInEnd

theorem refl (w : World) : w.SameInEnd ofName w :=
  ⟨rfl, fun _ => rfl⟩

theorem trans
    {third : World}
    (first : w.SameInEnd ofName other)
    (second : other.SameInEnd ofName third) :
    w.SameInEnd ofName third :=
  ⟨second.names.trans first.names, fun c => (second.records c).trans (first.records c)⟩

theorem symm (same : w.SameInEnd ofName other) : other.SameInEnd ofName w :=
  ⟨same.names.symm, fun c => (same.records c).symm⟩

/-- What is declared in a world is declared in one that says the same in the end. -/
theorem declares_iff (same : w.SameInEnd ofName other) (u : UserClass) :
    other.Declares (.user u) ↔ w.Declares (.user u) := by
  have records := congrArg Option.isSome (same.records u)
  rw [Option.isSome_map, Option.isSome_map] at records
  rw [World.Declares, World.Declares, records]

/-- A world that says the same in the end is a stage of the same. -/
theorem isStage
    (same : w.SameInEnd ofName other)
    (stage : World.IsStage ofName last w) :
    World.IsStage ofName last other := by
  constructor
  · rw [same.names]
    exact stage.names
  · intro c r found
    have records := same.records c
    rw [found] at records
    obtain ⟨before, wasFound, isFinal⟩ := Option.map_eq_some_iff.mp records.symm
    rw [stage.records c before wasFound, isFinal]

/-- A world that says the same in the end is a stage. -/
theorem isStage_self (same : w.SameInEnd ofName other) : World.IsStage ofName w other := by
  constructor
  · rw [same.names]
    exact fun name a found => found
  · intro c r found
    rw [← same.records c, found]
    rfl

/-- A world that says the same in the end is complete as well. -/
theorem isComplete
    (same : w.SameInEnd ofName other)
    (complete : World.IsComplete ofName last w) :
    World.IsComplete ofName last other := by
  constructor
  · exact same.isStage complete.stage
  · rw [same.names]
    exact complete.names
  · exact fun u declared => (same.declares_iff u).mpr (complete.classes u declared)
  · intro name known
    unfold World.typeOf?
    rw [same.names]
    exact complete.meanings name known

end World.SameInEnd

/-- A complete world makes what there is made in the end. -/
theorem World.IsComplete.makesAlike (complete : World.IsComplete ofName last w) :
    w.MakesAlike last := by
  intro c
  by_cases declared : w.Declares c
  · exact complete.stage.makesAlikeAt declared
  · cases c with
    | user u =>
        have undeclared : last.record? u = none := by
          by_contra found
          exact declared (complete.classes u (Option.isSome_iff_ne_none.mpr found))
        have unknown : w.record? u = none := by
          by_contra found
          exact declared (Option.isSome_iff_ne_none.mpr found)
        constructor
        · rw [World.body, World.body, undeclared, unknown]
          exact .same _
        · rw [World.lineage, World.lineage, undeclared, unknown]
    | _ => exact absurd trivial declared

/-- Complete worlds make the same. -/
theorem World.IsComplete.makesAlike_of
    (complete : World.IsComplete ofName last w)
    (otherComplete : World.IsComplete ofName last other) :
    w.MakesAlike other := by
  intro c
  have alike := complete.makesAlike c
  have otherAlike := otherComplete.makesAlike c
  exact ⟨alike.body.trans_symm otherAlike.body, otherAlike.lineage.symm.trans alike.lineage⟩

end

/-! ## Settling on the way -/

/-- Whether a world that is on the way was reached from another one by what says the same in
the end. -/
structure World.LeadsTo
    (among : TypeForm → Prop)
    (ofName : String → Option TypeForm)
    (classes : UserClass → Prop)
    (w reached : World) :
    Prop where
  onWay : reached.IsOnWay among ofName classes
  same : w.SameInEnd ofName reached

/-- A settled record refers to what it refers to. -/
theorem World.Closes.settleAll
    {w : World}
    {r : ClassRecord}
    (closes : w.Closes r) :
    w.Closes (w.settleAll r) := by
  rw [World.settleAll_eq_withBody]
  refine ⟨closes.lineage, fun mixin members aliases isBody => ?_, closes.cases⟩
  unfold World.settleAll at isBody
  split at isBody
  · split at isBody
    · cases isBody
    · exact closes.members mixin members aliases isBody
  · exact closes.members mixin members aliases isBody

/-- Settling a class leaves no class undeclared. -/
theorem World.IsClosed.settle
    {w : World}
    (closed : w.IsClosed)
    (c : ClassRef) :
    (w.settle c).IsClosed := by
  have declares (d : ClassRef) (declared : w.Declares d) : (w.settle c).Declares d := by
    cases d with
    | user u =>
        rw [World.Declares]
        rcases World.record?_settle_cases w c u with same | isSettled
        · rw [same]
          exact declared
        · rw [isSettled, Option.isSome_map]
          exact declared
    | _ => trivial
  constructor
  · rw [World.names_settle]
    exact fun name d found => declares d (closed.names name d found)
  · intro r member
    cases c with
    | user u =>
        rw [World.settle] at member
        split at member
        · rename_i before found
          obtain ⟨old, isOld, isNew⟩ := List.mem_map.mp member
          split at isNew
          · rw [← isNew]
            exact (closed.closes found).settleAll.mono declares
          · rw [← isNew]
            exact (closed.records old isOld).mono declares
        · exact (closed.records r member).mono declares
    | _ => exact (closed.records r member).mono declares

section

variable {among : TypeForm → Prop} {ofName : String → Option TypeForm} {last w : World}
  {classes : UserClass → Prop}

/-- Staying leads nowhere else. -/
theorem World.IsOnWay.refl (onWay : w.IsOnWay among ofName classes) :
    w.LeadsTo among ofName classes w :=
  ⟨onWay, .refl w⟩

theorem World.LeadsTo.trans
    {between reached : World}
    (first : w.LeadsTo among ofName classes between)
    (second : between.LeadsTo among ofName classes reached) :
    w.LeadsTo among ofName classes reached :=
  ⟨second.onWay, first.same.trans second.same⟩

/-- Inside a class names stand for what they stand for in the end. -/
theorem World.IsOnWay.namesInside
    (onWay : w.IsOnWay among ofName classes)
    {u : UserClass}
    (declared : classes u) :
    NamesOver ofName classes (w.typeInside? u) := by
  intro name a found
  unfold World.typeInside? at found
  split at found
  · rename_i isOwn
    cases found
    rw [beq_iff_eq.mp isOwn]
    refine ⟨onWay.own u declared, fun c member => ?_⟩
    rw [List.mem_singleton.mp member]
    exact declared
  · exact onWay.meanings name a found

/-- A class is declared where its record is found. -/
theorem World.IsOnWay.declared_of_record
    (onWay : w.IsOnWay among ofName classes)
    {u : UserClass}
    {r : ClassRecord}
    (found : w.record? u = some r) :
    classes u :=
  (onWay.declares u).mp (Option.isSome_iff_exists.mpr ⟨r, found⟩)

/-- Fields whose names are looked up one by one are on the way, and the same in the end. -/
theorem Field.forall_isOnWay_of_resolve
    {meaning : String → Option TypeForm}
    {fields settled : List Field}
    (words : TypeForm.Vocabulary among ofName)
    (onWay : ∀ f ∈ fields, f.IsOnWay among ofName classes)
    (namesOver : NamesOver ofName classes meaning)
    (each : fields.Forall₂ (fun f g => f.resolve? meaning = some g) settled) :
    settled.map (Field.final ofName) = fields.map (Field.final ofName) ∧
      ∀ f ∈ settled, f.IsOnWay among ofName classes ∧ f.isResolved = true := by
  induction each with
  | nil => exact ⟨rfl, fun _ member => absurd member List.not_mem_nil⟩
  | cons first _ inductionHypothesis =>
      obtain ⟨firstOnWay, restOnWay⟩ := List.forall_mem_cons.mp onWay
      obtain ⟨isOnWay, same, isResolved⟩ := firstOnWay.resolve? words namesOver first
      obtain ⟨sameRest, areOnWay⟩ := inductionHypothesis restOnWay
      rw [List.map_cons, List.map_cons, same, sameRest]
      exact ⟨rfl, List.forall_mem_cons.mpr ⟨⟨isOnWay, isResolved⟩, areOnWay⟩⟩

/-- Settling all fields of a class leaves it on the way, and the same in the end. -/
theorem World.IsOnWay.settleAll
    (words : TypeForm.Vocabulary among ofName)
    (onWay : w.IsOnWay among ofName classes)
    {u : UserClass}
    {r : ClassRecord}
    (found : w.record? u = some r) :
    (w.settleAll r).final ofName = r.final ofName ∧ (w.settleAll r).body.HasFields ∧
      ∀ f ∈ (w.settleAll r).body.fields, f.IsOnWay among ofName classes := by
  have isClass := World.id_of_record? found
  have fields := onWay.fields u r found
  have hasFields := onWay.bodies u r found
  unfold World.settleAll
  split
  · rename_i before isModel
    split
    · rename_i settled isSettled
      rw [isModel, ClassBody.fields] at fields
      rw [isClass] at isSettled
      obtain ⟨same, areOnWay⟩ := Field.forall_isOnWay_of_resolve words fields
        (onWay.namesInside (onWay.declared_of_record found)) (mapM_eq_some_iff.mp isSettled)
      refine ⟨?_, trivial, fun f member => (areOnWay f member).1⟩
      rw [ClassRecord.final, ClassRecord.final, isModel, ClassBody.mapFields, ClassBody.mapFields,
        same]
    · exact ⟨rfl, hasFields, fields⟩
  · exact ⟨rfl, hasFields, fields⟩

/-- Settling a class leads on the way. -/
theorem World.IsOnWay.settle
    (words : TypeForm.Vocabulary among ofName)
    (onWay : w.IsOnWay among ofName classes)
    (c : ClassRef) :
    w.LeadsTo among ofName classes (w.settle c) := by
  have records (u : UserClass) : ((w.settle c).record? u).map (ClassRecord.final ofName) =
      (w.record? u).map (ClassRecord.final ofName) := by
    rcases World.record?_settle_cases w c u with same | isSettled
    · rw [same]
    · rw [isSettled, Option.map_map]
      exact Option.map_congr fun r found => (onWay.settleAll words found).1
  have same : w.SameInEnd ofName (w.settle c) := ⟨World.names_settle w c, records⟩
  have found (u : UserClass) (r : ClassRecord) (isRecord : (w.settle c).record? u = some r) :
      ∃ before, w.record? u = some before ∧ (r = before ∨ r = w.settleAll before) := by
    rcases World.record?_settle_cases w c u with same | isSettled
    · exact ⟨r, same ▸ isRecord, .inl rfl⟩
    · rw [isSettled] at isRecord
      obtain ⟨before, wasRecord, isSettled⟩ := Option.map_eq_some_iff.mp isRecord
      exact ⟨before, wasRecord, .inr isSettled.symm⟩
  have spellings : (w.settle c).spellings = w.spellings := by
    unfold World.settle
    split
    · split <;> rfl
    · rfl
  refine ⟨?_, same⟩
  constructor
  · exact fun u => (same.declares_iff u).trans (onWay.declares u)
  · exact onWay.closed.settle c
  · intro u r isRecord
    obtain ⟨before, wasRecord, rfl | rfl⟩ := found u r isRecord
    · exact onWay.bodies u r wasRecord
    · exact (onWay.settleAll words wasRecord).2.1
  · intro u r isRecord
    obtain ⟨before, wasRecord, rfl | rfl⟩ := found u r isRecord
    · exact onWay.fields u r wasRecord
    · exact (onWay.settleAll words wasRecord).2.2
  · intro u r isRecord
    obtain ⟨before, wasRecord, rfl | rfl⟩ := found u r isRecord
    · exact onWay.hooks u r wasRecord
    · rw [World.settleAll_eq_withBody]
      exact onWay.hooks u before wasRecord
  · rw [spellings]
    exact onWay.spellings
  · intro name a isMeaning
    unfold World.typeOf? at isMeaning
    rw [World.names_settle] at isMeaning
    exact onWay.meanings name a isMeaning
  · exact onWay.own

end

end SchemaProbe

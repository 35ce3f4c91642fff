import SchemaProbe.Proofs.Answers

namespace SchemaProbe

/-!
# Declaring on the way

What a declaration makes of its fields depends on the names that are declared by then, but
not once all names are settled.  So a class that is declared at two stages of the same
world is the same in the end, and a world with one more class is on the way again.
-/

open Step

/-! ## What declarations are read as -/

namespace FieldDeclaration

/-- How the names in the type of a field are understood inside a class. -/
def naming (own : String) (d : FieldDeclaration) : Naming :=
  if d.isQuoted then .deferred else .inside own

/-- The written type forms in the default of a field, and all that they are built from. -/
def defaultParts (d : FieldDeclaration) : List TypeTerm :=
  (d.default.map ValueTerm.parts).getD []

/-- Resolves the default of a field. -/
def resolveDefault (d : FieldDeclaration) : Step World (Option Value) :=
  match d.default with
  | some t => do pure (some (← t.resolve .strict))
  | none => pure none

/-- The terms of a field are resolved one after the other. -/
theorem resolve_eq (own : String) (style : FieldStyle) (d : FieldDeclaration) :
    d.resolve own style = (do
      let written ← d.type.resolve (d.naming own)
      let default ← d.resolveDefault
      Step.ofExcept (checkKey style d)
      Step.ofExcept (checkDefault style d.name default)
      pure (Field.ofWritten d written.fieldType default)) := by
  unfold resolve resolveDefault
  refine bind_congr fun written => ?_
  cases d.default with
  | none => rfl
  | some t => exact (bind_assoc (t.resolve .strict) _ _).symm

/-- The default of a field as it is read. -/
def defaultIn (w : World) (d : FieldDeclaration) : Except Fault (Option Value) :=
  match d.default with
  | some t => do .ok (some (← t.read (Naming.strict.sense w)))
  | none => .ok none

/-- A field as it is read inside a class. -/
def read
    (own : String)
    (style : FieldStyle)
    (w : World)
    (d : FieldDeclaration) :
    Except Fault Field := do
  let written ← d.type.read ((d.naming own).sense w)
  let default ← d.defaultIn w
  checkKey style d
  checkDefault style d.name default
  .ok (Field.ofWritten d written.fieldType default)

/-- A field is read as it is in every world with other spellings. -/
theorem read_respell
    {w : World}
    (spellings : List (Key × TypeForm))
    (own : String)
    (style : FieldStyle) :
    read own style { w with spellings := spellings } = read own style w := by
  funext d
  unfold read naming
  cases d.isQuoted <;> rfl

/-- Whether the type of a field is worded, whatever it is read as is over known names, and
comes up if it is put off as a whole. -/
structure IsWorded
    (among : TypeForm → Prop)
    (ofName : String → Option TypeForm)
    (d : FieldDeclaration) :
    Prop where
  type : TypeTerm.AreWorded among ofName d.type.parts
  default : TypeTerm.AreWorded among ofName d.defaultParts
  names : ∀ m : Sense, m.IsStage ofName → ∀ a, d.type.read m = .ok a →
    ∀ name ∈ a.names, (ofName name).isSome = true
  quoted : d.isQuoted = true → ∀ m : Sense, m.IsStage ofName → ∀ a, d.type.read m = .ok a →
    among (.reference a.fieldType.shownAsArgument)

end FieldDeclaration

section

variable {among : TypeForm → Prop} {ofName : String → Option TypeForm} {last w other : World}
  {classes : UserClass → Prop} {d : FieldDeclaration} {own : String} {style : FieldStyle}

/-- A vocabulary has words for what is written inside a class. -/
theorem TypeForm.Vocabulary.inside
    (words : TypeForm.Vocabulary among ofName)
    (own : String)
    (d : FieldDeclaration)
    (w : World) :
    (d.naming own).Words among w := by
  refine ⟨?_, words.alike, words.nulls, words.arguments⟩
  unfold FieldDeclaration.naming
  split
  · exact Naming.isSettledIn_deferred
  · exact Naming.isSettledIn_inside own

/-- Names inside a class are put off or mean what is declared. -/
theorem FieldDeclaration.naming_meaning
    {name : String}
    {a : TypeForm}
    (found : (d.naming own).meaning w name = .ok a) :
    a = .text name ∨ w.names.lookup name = some a := by
  unfold naming at found
  split at found
  · cases found
    exact .inl rfl
  · change Except.ok (if name == own then TypeForm.text name
      else (w.names.lookup name).getD (.text name)) = .ok a at found
    split at found
    · cases found
      exact .inl rfl
    · cases isDeclared : w.names.lookup name with
      | none =>
          rw [isDeclared] at found
          cases found
          exact .inl rfl
      | some b =>
          rw [isDeclared] at found
          exact .inr (congrArg some (Except.ok.inj found))

/-- Names inside a class are on the way to what they stand for in the end. -/
theorem World.IsOnWay.isStage_naming
    (onWay : w.IsOnWay among ofName classes)
    (own : String)
    (d : FieldDeclaration) :
    ((d.naming own).sense w).IsStage ofName := fun _ _ found =>
  (FieldDeclaration.naming_meaning found).imp_right fun isDeclared =>
    (onWay.meaning_strict (Naming.strict_meaning_eq_ok.mpr isDeclared)).1

/-- Names inside a class stand for what is over the declared classes. -/
theorem World.IsOnWay.isOver_naming
    (onWay : w.IsOnWay among ofName classes)
    {name : String}
    {a : TypeForm}
    (found : (d.naming own).meaning w name = .ok a) :
    a.IsOver classes := by
  rcases FieldDeclaration.naming_meaning found with rfl | isDeclared
  · exact TypeForm.isOver_of_none rfl
  · exact (onWay.meaning_strict (Naming.strict_meaning_eq_ok.mpr isDeclared)).2

/-- The terms of a field are resolved into what they are read as. -/
theorem FieldDeclaration.resolve_reads
    (words : TypeForm.Vocabulary among ofName)
    (onWay : w.IsOnWay among ofName classes)
    (worded : d.IsWorded among ofName) :
    Step.Reads among w (d.resolve own style) (d.read own style w) := by
  have default : Step.Reads among w d.resolveDefault (d.defaultIn w) := by
    have parts := worded.default
    unfold FieldDeclaration.defaultParts at parts
    unfold FieldDeclaration.resolveDefault FieldDeclaration.defaultIn
    cases isDefault : d.default with
    | none => exact .pure none
    | some t =>
        rw [isDefault] at parts
        exact (ValueTerm.resolve_reads (words.strict w) t
          (parts.comeUp _ onWay.isStage_strict)).bind fun v _ => .pure _
  rw [FieldDeclaration.resolve_eq, FieldDeclaration.read]
  refine (TypeTerm.resolve_reads (words.inside own d w) d.type
    (worded.type.comeUp _ (onWay.isStage_naming own d))).bind fun written _ => ?_
  refine default.bind fun v _ => ?_
  refine (Step.Reads.ofExcept (checkKey style d)).bind fun _ _ => ?_
  exact (Step.Reads.ofExcept (checkDefault style d.name v)).bind fun _ _ => .pure _

/-- The null value in the place of a type stands for its class, be it before or after names
are settled. -/
theorem TypeForm.settled_fieldType
    {a : TypeForm}
    (words : TypeForm.Vocabulary among ofName)
    (joins : a.Joins among) :
    a.fieldType.settled ofName = (a.settled ofName).fieldType := by
  have argument : a.argument.settled ofName = (a.settled ofName).argument :=
    settled_argument words.alike words.classes joins.flat fun m member =>
      words.settles m (joins.members m member)
  have same {b : TypeForm} (isArgument : b.argument = b) : b.fieldType = b := by
    unfold TypeForm.fieldType
    split
    · cases isArgument
    · rfl
  cases a with
  | value v => cases v <;> rfl
  | text s =>
      change (TypeForm.text s).settled ofName = _
      rw [TypeForm.settled, TypeForm.substitute]
      cases found : ofName s with
      | none => rfl
      | some b =>
          obtain ⟨c, rfl⟩ := words.classes s b found
          rfl
  | _ => exact (same argument.symm).symm

/-- What a field is read as. -/
theorem FieldDeclaration.exists_of_read
    {f : Field}
    (read : d.read own style w = .ok f) :
    ∃ a default, d.type.read ((d.naming own).sense w) = .ok a ∧ d.defaultIn w = .ok default ∧
      f = Field.ofWritten d a.fieldType default := by
  obtain ⟨a, isWritten, rest⟩ := exists_of_bind_eq_ok read
  obtain ⟨default, isDefault, rest⟩ := exists_of_bind_eq_ok rest
  obtain ⟨-, -, rest⟩ := exists_of_bind_eq_ok rest
  obtain ⟨-, -, rest⟩ := exists_of_bind_eq_ok rest
  cases rest
  exact ⟨a, default, isWritten, isDefault, rfl⟩

/-- A field that is read at a stage has the default that it has in the end. -/
theorem World.IsStage.defaultIn
    (stage : World.IsStage ofName last w)
    (closed : w.IsClosed)
    {default : Option Value}
    (isDefault : d.defaultIn w = .ok default) :
    d.defaultIn last = .ok default := by
  unfold FieldDeclaration.defaultIn at isDefault ⊢
  split at isDefault
  · rename_i t isTerm
    obtain ⟨v, isRead, same⟩ := exists_of_bind_eq_ok isDefault
    cases same
    rw [ValueTerm.read_of_below (stage.below_strict closed) t v isRead]
    rfl
  · exact isDefault

/-- A field that is read at two stages is the same in the end. -/
theorem FieldDeclaration.read_final
    {f g : Field}
    (words : TypeForm.Vocabulary among ofName)
    (worded : d.IsWorded among ofName)
    (onWay : w.IsOnWay among ofName classes)
    {others : UserClass → Prop}
    (otherOnWay : other.IsOnWay among ofName others)
    (stage : World.IsStage ofName last w)
    (otherStage : World.IsStage ofName last other)
    (read : d.read own style w = .ok f)
    (otherRead : d.read own style other = .ok g) :
    f.final ofName = g.final ofName := by
  obtain ⟨a, default, isType, isDefault, rfl⟩ := FieldDeclaration.exists_of_read read
  obtain ⟨b, _, isOtherType, isOtherDefault, rfl⟩ := FieldDeclaration.exists_of_read otherRead
  cases (stage.defaultIn onWay.closed isDefault).symm.trans
    (otherStage.defaultIn otherOnWay.closed isOtherDefault)
  have isStage := onWay.isStage_naming own d
  have isOtherStage := otherOnWay.isStage_naming own d
  have same := TypeTerm.read_settledSame words.toSettlesAlike ⟨isStage, isOtherStage, rfl⟩ d.type
    worded.type isType isOtherType
  have joins := TypeForm.joins_of_among words.toSettlesAlike same.flat
    (worded.type.comesUp isStage isType)
  have otherJoins := TypeForm.joins_of_among words.toSettlesAlike same.otherFlat
    (worded.type.comesUp isOtherStage isOtherType)
  have written : a.fieldType.settled ofName = b.fieldType.settled ofName := by
    rw [TypeForm.settled_fieldType words joins, TypeForm.settled_fieldType words otherJoins,
      same.same]
  unfold Field.final Field.ofWritten
  dsimp only
  rw [written]

/-- A field that is read on the way is on the way. -/
theorem FieldDeclaration.isOnWay_of_read
    {f : Field}
    (words : TypeForm.Vocabulary among ofName)
    (worded : d.IsWorded among ofName)
    (onWay : w.IsOnWay among ofName classes)
    (read : d.read own style w = .ok f) :
    f.IsOnWay among ofName classes := by
  obtain ⟨a, default, isType, -, rfl⟩ := FieldDeclaration.exists_of_read read
  have stage := onWay.isStage_naming own d
  have comesUp := worded.type.comesUp stage isType
  have isOver : a.fieldType.IsOver classes :=
    .fieldType (TypeTerm.read_isOver (fun _ _ found => onWay.isOver_naming found) d.type
      worded.type.ordinary isType)
  have fieldComesUp : among a.fieldType := by
    unfold TypeForm.fieldType
    split
    · exact words.nulls
    · exact comesUp
  have names : ∀ name ∈ a.fieldType.names, (ofName name).isSome = true := by
    unfold TypeForm.fieldType
    split
    · exact fun name member => absurd member List.not_mem_nil
    · exact worded.names _ stage a isType
  refine ⟨nofun, ⟨?_, .unresolved isOver _⟩, isOver, words.settles _ fieldComesUp, names⟩
  change among (a.fieldType.unresolved d.isQuoted)
  unfold TypeForm.unresolved
  split
  · rename_i isQuoted
    exact worded.quoted isQuoted _ stage a isType
  · have withoutNotes := words.withoutNotes _ fieldComesUp
    split
    · rename_i s isText
      rw [isText] at withoutNotes
      exact words.arguments _ withoutNotes
    · exact withoutNotes

end

/-! ## Classes -/

namespace ClassDeclaration

/-- Resolves what a class extends. -/
def resolveExtension (d : ClassDeclaration) : Step World Extension :=
  match d.base with
  | some t => do Step.ofExcept (Extension.ofBase? (← t.resolve .strict))
  | none => pure ⟨d.form.defaultParent, none⟩

/-- What a class extends, as it is read. -/
def extension? (w : World) (d : ClassDeclaration) : Except Fault Extension :=
  match d.base with
  | some t => do Extension.ofBase? (← t.read (Naming.strict.sense w))
  | none => .ok ⟨d.form.defaultParent, none⟩

/-- The record of a class that extends something and consists of something. -/
def recordOf
    (w : World)
    (extension : Extension)
    (body : ClassBody)
    (d : ClassDeclaration) :
    ClassRecord where
  cls := w.nextClass d.name d.home
  lineage :=
    .user (w.nextClass d.name d.home) ::
      ((extension.parent.map w.lineage).getD [] ++ d.form.mixinLineage)
  base := extension.base
  params := d.params
  hooks := d.hooks.inheriting ((extension.parent.map w.hooks).getD .none)
  body := body

end ClassDeclaration

/-- What a class with fields consists of, beside what it inherits. -/
def World.bodyOf
    (w : World)
    (parent : Option ClassRef)
    (style : FieldStyle)
    (refusal : Option String)
    (fields : List Field) :
    ClassBody :=
  match style with
  | .dataclass =>
    .dataclass (Field.override (w.inheritedFields parent) fields)
      (refusal.or (w.inheritedRefusal parent))
  | _ => .model (Field.override (w.inheritedFields parent) fields)

/-- Whether a class with fields has a record when it is declared in a world, before the
names in its fields are looked up. -/
inductive ClassDeclaration.MakesIn (w : World) (d : ClassDeclaration) : ClassRecord → Prop
  | fields {style : FieldStyle} {declarations : List FieldDeclaration} {refusal : Option String}
      {extension : Extension} {fields : List Field} :
      d.form = .fields style declarations refusal →
        d.extension? w = .ok extension →
          declarations.mapM (FieldDeclaration.read d.name style w) = .ok fields →
            MakesIn w d (d.recordOf w extension (w.bodyOf extension.parent style refusal fields))

/-- A world in which one more class is declared, before the names in its own fields are
looked up. -/
def World.knowing (w : World) (r : ClassRecord) : World :=
  (w.add r).bindName r.cls.name (.cls (.user r.cls))

/-- A world in which one more class is declared. -/
def World.declaring (w : World) (own : List String) (r : ClassRecord) : World :=
  (w.knowing r).replace ((w.knowing r).settleEach own r)

/-- Whether what a class with fields is declared by is worded, and lists no values of
declared classes. -/
structure ClassDeclaration.IsWorded
    (among : TypeForm → Prop)
    (ofName : String → Option TypeForm)
    (d : ClassDeclaration) :
    Prop where
  fields : ∃ style declarations refusal, d.form = .fields style declarations refusal ∧
    ∀ f ∈ declarations, f.IsWorded among ofName
  base : ∀ t, d.base = some t → TypeTerm.AreWorded among ofName t.parts
  hooks : TypeTerm.AreWorded among ofName d.hooks.parts
  cases : ∀ values, d.hooks.cases = some (.listed values) → ∀ v, .known v ∈ values → v.IsBuiltin

/-- A class with fields is declared by finding out what it extends and what it consists of,
and adding it. -/
theorem ClassDeclaration.declare_eq
    {d : ClassDeclaration}
    {style : FieldStyle}
    {declarations : List FieldDeclaration}
    {refusal : Option String}
    (isForm : d.form = .fields style declarations refusal) :
    d.declare = (do
      let extension ← d.resolveExtension
      let body ← d.form.body d.name extension.parent
      let w ← Step.current
      Step.update fun _ => w.declaring d.form.fieldNames (d.recordOf w extension body)) := by
  unfold declare resolveExtension recordOf
  rw [isForm]
  cases d.base with
  | none => rfl
  | some t => exact (bind_assoc (t.resolve .strict) _ _).symm

section

variable {among : TypeForm → Prop} {ofName : String → Option TypeForm} {last w other : World}
  {classes : UserClass → Prop} {d : ClassDeclaration} {r : ClassRecord}

/-- What a step that reads ends with is what is read. -/
theorem Step.Reads.of_run
    {step : Step World α}
    {result : Except Fault α}
    {a : α}
    {v reached : World}
    (reads : Step.Reads among w step result)
    (spells : w.Spells among v)
    (ran : step.run v = (.ok a, reached)) :
    result = .ok a ∧ w.Spells among reached := by
  obtain ⟨between, ended, spellsOn⟩ := reads v spells
  rw [ended] at ran
  obtain ⟨isOk, rfl⟩ := Prod.mk.inj ran
  exact ⟨eq_ok_of_mapError isOk, spellsOn⟩

/-- What a class extends is resolved into what it is read as. -/
theorem ClassDeclaration.resolveExtension_reads
    (words : TypeForm.Vocabulary among ofName)
    (onWay : w.IsOnWay among ofName classes)
    (worded : d.IsWorded among ofName) :
    Step.Reads among w d.resolveExtension (d.extension? w) := by
  unfold resolveExtension extension?
  cases isBase : d.base with
  | none => exact .pure _
  | some t =>
      exact (TypeTerm.resolve_reads (words.strict w) t
        ((worded.base t isBase).comeUp _ onWay.isStage_strict)).bind fun a _ => .ofExcept _

/-- What a class with fields consists of is resolved into what it is read as. -/
theorem ClassForm.body_reads
    {style : FieldStyle}
    {declarations : List FieldDeclaration}
    (words : TypeForm.Vocabulary among ofName)
    (onWay : w.IsOnWay among ofName classes)
    (worded : ∀ f ∈ declarations, f.IsWorded among ofName)
    (own : String)
    (parent : Option ClassRef)
    (refusal : Option String) :
    Step.Reads among w ((ClassForm.fields style declarations refusal).body own parent) (do
      .ok (w.bodyOf parent style refusal (← declarations.mapM (FieldDeclaration.read own style w)))) := by
  unfold ClassForm.body
  refine (Step.Reads.each declarations fun f member =>
    FieldDeclaration.resolve_reads words onWay (worded f member)).bind fun fields _ => ?_
  refine .current_bind fun v spells => ?_
  rw [spells.view (·.inheritedFields parent) fun _ => rfl,
    spells.view (·.inheritedRefusal parent) fun _ => rfl]
  cases style <;> exact .pure _

/-- A class that is declared has a record, and is added to the world. -/
theorem ClassDeclaration.exists_of_declare
    {reached : World}
    (words : TypeForm.Vocabulary among ofName)
    (onWay : w.IsOnWay among ofName classes)
    (worded : d.IsWorded among ofName)
    (ran : d.declare.run w = (.ok (), reached)) :
    ∃ between r, w.LeadsTo among ofName classes between ∧ d.MakesIn between r ∧
      reached = between.declaring d.form.fieldNames r := by
  obtain ⟨style, declarations, refusal, isForm, fieldsWorded⟩ := worded.fields
  rw [declare_eq isForm] at ran
  obtain ⟨extension, first, extended, rest⟩ := run_bind_eq_ok_iff.mp ran
  obtain ⟨body, second, built, rest⟩ := run_bind_eq_ok_iff.mp rest
  obtain ⟨isExtension, spells⟩ :=
    (resolveExtension_reads words onWay worded).of_run ⟨rfl, onWay.spellings⟩ extended
  rw [isForm] at built
  obtain ⟨isBody, spellsOn⟩ := (ClassForm.body_reads words onWay fieldsWorded d.name
    extension.parent refusal).of_run spells built
  obtain ⟨fields, areRead, same⟩ := exists_of_bind_eq_ok isBody
  cases same
  cases rest
  refine ⟨second, _, onWay.leadsTo_of_spells spellsOn, ?_, rfl⟩
  rw [← FieldDeclaration.read_respell second.spellings] at areRead
  rw [spellsOn.same]
  exact .fields isForm isExtension areRead

/-! ## The same class at two stages -/

/-- What is kept of fields by name does not depend on what else they are. -/
theorem Field.map_override
    {change : Field → Field}
    (keeps : ∀ f, (change f).name = f.name)
    (inherited own : List Field) :
    (Field.override inherited own).map change =
      Field.override (inherited.map change) (own.map change) := by
  have places (fields : List Field) (f : Field) :
      (if fields.any fun g => g.name == f.name then
        fields.map fun g => if g.name == f.name then f else g
      else fields ++ [f]).map change =
        if (fields.map change).any fun g => g.name == (change f).name then
          (fields.map change).map fun g => if g.name == (change f).name then change f else g
        else fields.map change ++ [change f] := by
    have named : (fields.map change).any (fun g => g.name == (change f).name) =
        fields.any fun g => g.name == f.name := by
      rw [List.any_map]
      refine congrArg fields.any (funext fun g => ?_)
      rw [Function.comp, keeps, keeps]
    rw [named]
    split
    · rw [List.map_map, List.map_map]
      refine List.map_congr_left fun g _ => ?_
      rw [Function.comp, Function.comp, keeps, keeps]
      split <;> rfl
    · rw [List.map_append, List.map_singleton]
  induction own generalizing inherited with
  | nil => rfl
  | cons f rest inductionHypothesis =>
      unfold Field.override at inductionHypothesis ⊢
      rw [List.foldl_cons, List.map_cons, List.foldl_cons, inductionHypothesis, places]

/-- Fields that are put in the place of others are these or those. -/
theorem Field.mem_override
    {inherited own : List Field}
    {f : Field}
    (member : f ∈ Field.override inherited own) :
    f ∈ inherited ∨ f ∈ own := by
  unfold Field.override at member
  induction own generalizing inherited with
  | nil => exact .inl member
  | cons g rest inductionHypothesis =>
      rw [List.foldl_cons] at member
      rcases inductionHypothesis member with old | isOwn
      · split at old
        · obtain ⟨h, isOld, same⟩ := List.mem_map.mp old
          split at same
          · exact .inr (same ▸ List.mem_cons_self)
          · exact .inl (same ▸ isOld)
        · rcases List.mem_append.mp old with isOld | isNew
          · exact .inl isOld
          · exact .inr (List.mem_singleton.mp isNew ▸ List.mem_cons_self)
      · exact .inr (List.mem_cons_of_mem _ isOwn)

namespace ClassBody

/-- The refusal of a dataclass. -/
def refusal? : ClassBody → Option String
  | .dataclass _ refusal => refusal
  | _ => none

theorem fields_mapFields (change : Field → Field) (body : ClassBody) :
    (body.mapFields change).fields = body.fields.map change := by
  cases body <;> rfl

theorem refusal?_mapFields (change : Field → Field) (body : ClassBody) :
    (body.mapFields change).refusal? = body.refusal? := by
  cases body <;> rfl

end ClassBody

theorem World.inheritedFields_some (w : World) (c : ClassRef) :
    w.inheritedFields (some c) = (w.body c).fields := by
  unfold World.inheritedFields
  rw [Option.map_some]
  cases w.body c <;> rfl

theorem World.inheritedRefusal_some (w : World) (c : ClassRef) :
    w.inheritedRefusal (some c) = (w.body c).refusal? := by
  unfold World.inheritedRefusal
  rw [Option.map_some]
  cases w.body c <;> rfl

/-- What a class extends when it names no base is no declared class. -/
theorem ClassForm.defaultParent_ne
    {form : ClassForm}
    {u : UserClass} :
    form.defaultParent ≠ some (.user u) := by
  cases form with
  | fields style declarations refusal => cases style <;> nofun
  | _ => nofun

/-- What is extended by the type form of a base stands in it. -/
theorem Extension.mem_userClasses
    {a : TypeForm}
    {extension : Extension}
    {u : UserClass}
    (isExtension : Extension.ofBase? a = .ok extension)
    (isParent : extension.parent = some (.user u)) :
    u ∈ a.userClasses := by
  cases a with
  | cls c =>
      cases c with
      | builtin b => cases b <;> cases isExtension <;> cases isParent
      | user v =>
          cases isExtension
          cases isParent
          exact List.mem_singleton_self _
      | sized number home =>
          cases isExtension
          cases isParent
  | generic origin args =>
      cases origin with
      | cls c =>
          cases isExtension
          cases isParent
          exact List.mem_append_left _ (List.mem_singleton_self _)
      | _ => cases isExtension
  | any | bare b =>
      cases isExtension
      cases isParent
  | _ => cases isExtension

/-- What a class extends is declared. -/
theorem ClassDeclaration.declares_parent
    {extension : Extension}
    {c : ClassRef}
    (onWay : w.IsOnWay among ofName classes)
    (worded : d.IsWorded among ofName)
    (isExtension : d.extension? w = .ok extension)
    (isParent : extension.parent = some c) :
    w.Declares c := by
  cases c with
  | user u =>
      refine (onWay.declares u).mpr ?_
      unfold extension? at isExtension
      split at isExtension
      · rename_i t isBase
        obtain ⟨a, isRead, isExtended⟩ := exists_of_bind_eq_ok isExtension
        exact (onWay.isMet_of_read (worded.base t isBase) isRead).isOver u
          (Extension.mem_userClasses isExtended isParent)
      · cases isExtension
        exact absurd isParent ClassForm.defaultParent_ne
  | _ => trivial

/-- What a class extends at a stage is what it extends in the end. -/
theorem World.IsStage.extension?
    {extension : Extension}
    (stage : World.IsStage ofName last w)
    (closed : w.IsClosed)
    (isExtension : d.extension? w = .ok extension) :
    d.extension? last = .ok extension := by
  unfold ClassDeclaration.extension? at isExtension ⊢
  split at isExtension
  · rename_i t isBase
    obtain ⟨a, isRead, isExtended⟩ := exists_of_bind_eq_ok isExtension
    rw [TypeTerm.read_of_below (stage.below_strict closed) t a isRead]
    exact isExtended
  · exact isExtension

/-- Fields that are read at two stages are the same in the end. -/
theorem FieldDeclaration.readAll_final
    {own : String}
    {style : FieldStyle}
    {declarations : List FieldDeclaration}
    {fields otherFields : List Field}
    {others : UserClass → Prop}
    (words : TypeForm.Vocabulary among ofName)
    (worded : ∀ f ∈ declarations, f.IsWorded among ofName)
    (onWay : w.IsOnWay among ofName classes)
    (otherOnWay : other.IsOnWay among ofName others)
    (stage : World.IsStage ofName last w)
    (otherStage : World.IsStage ofName last other)
    (read : declarations.mapM (FieldDeclaration.read own style w) = .ok fields)
    (otherRead : declarations.mapM (FieldDeclaration.read own style other) = .ok otherFields) :
    fields.map (Field.final ofName) = otherFields.map (Field.final ofName) := by
  induction declarations generalizing fields otherFields with
  | nil =>
      cases read
      cases otherRead
      rfl
  | cons f rest inductionHypothesis =>
      obtain ⟨firstWorded, restWorded⟩ := List.forall_mem_cons.mp worded
      rw [List.mapM_cons] at read otherRead
      obtain ⟨g, isFirst, isRest⟩ := exists_of_bind_eq_ok read
      obtain ⟨gs, areRest, same⟩ := exists_of_bind_eq_ok isRest
      obtain ⟨h, isOtherFirst, isOtherRest⟩ := exists_of_bind_eq_ok otherRead
      obtain ⟨hs, areOtherRest, otherSame⟩ := exists_of_bind_eq_ok isOtherRest
      cases same
      cases otherSame
      rw [List.map_cons, List.map_cons,
        FieldDeclaration.read_final words firstWorded onWay otherOnWay stage otherStage isFirst
          isOtherFirst,
        inductionHypothesis restWorded areRest areOtherRest]

/-- What a class consists of is the same in the end where its own fields are, and where it
inherits the same. -/
theorem World.mapFields_bodyOf
    {parent : Option ClassRef}
    {style : FieldStyle}
    {fields otherFields : List Field}
    (refusal : Option String)
    (fieldsSame : fields.map (Field.final ofName) = otherFields.map (Field.final ofName))
    (inherits : ∀ c, parent = some c →
      (w.body c).mapFields (Field.final ofName) = (other.body c).mapFields (Field.final ofName)) :
    (w.bodyOf parent style refusal fields).mapFields (Field.final ofName) =
      (other.bodyOf parent style refusal otherFields).mapFields (Field.final ofName) := by
  have inherited : (w.inheritedFields parent).map (Field.final ofName) =
      (other.inheritedFields parent).map (Field.final ofName) := by
    cases parent with
    | none => rfl
    | some c =>
        have bodies := congrArg ClassBody.fields (inherits c rfl)
        rw [ClassBody.fields_mapFields, ClassBody.fields_mapFields] at bodies
        rw [World.inheritedFields_some, World.inheritedFields_some, bodies]
  have refusals : w.inheritedRefusal parent = other.inheritedRefusal parent := by
    cases parent with
    | none => rfl
    | some c =>
        have bodies := congrArg ClassBody.refusal? (inherits c rfl)
        rw [ClassBody.refusal?_mapFields, ClassBody.refusal?_mapFields] at bodies
        rw [World.inheritedRefusal_some, World.inheritedRefusal_some, bodies]
  have overridden : (Field.override (w.inheritedFields parent) fields).map (Field.final ofName) =
      (Field.override (other.inheritedFields parent) otherFields).map (Field.final ofName) := by
    have keeps (f : Field) : (f.final ofName).name = f.name := rfl
    rw [Field.map_override keeps, Field.map_override keeps, inherited, fieldsSame]
  cases style <;> simp only [World.bodyOf, ClassBody.mapFields, overridden, refusals]

/-- A class that is declared at two stages is the same in the end. -/
theorem ClassDeclaration.MakesIn.final_eq
    {s : ClassRecord}
    {others : UserClass → Prop}
    (words : TypeForm.Vocabulary among ofName)
    (worded : d.IsWorded among ofName)
    (onWay : w.IsOnWay among ofName classes)
    (otherOnWay : other.IsOnWay among ofName others)
    (stage : World.IsStage ofName last w)
    (otherStage : World.IsStage ofName last other)
    (makes : d.MakesIn w r)
    (otherMakes : d.MakesIn other s)
    (sameClass : w.nextClass d.name d.home = other.nextClass d.name d.home) :
    r.final ofName = s.final ofName := by
  obtain ⟨_, _, _, sameForm, fieldsWorded⟩ := worded.fields
  cases makes with
  | @fields style declarations refusal extension fields isForm isExtension areRead =>
    cases otherMakes with
    | fields isOtherForm isOtherExtension areOtherRead =>
      cases sameForm.symm.trans isForm
      cases isForm.symm.trans isOtherForm
      cases (stage.extension? onWay.closed isExtension).symm.trans
        (otherStage.extension? otherOnWay.closed isOtherExtension)
      have declared (c : ClassRef) (isParent : extension.parent = some c) :
          w.Declares c ∧ other.Declares c :=
        ⟨declares_parent onWay worded isExtension isParent,
          declares_parent otherOnWay worded isOtherExtension isParent⟩
      have fieldsSame := FieldDeclaration.readAll_final words fieldsWorded onWay otherOnWay stage
        otherStage areRead areOtherRead
      have bodies (c : ClassRef) (isParent : extension.parent = some c) :=
        (stage.body (declared c isParent).1).symm.trans (otherStage.body (declared c isParent).2)
      have lineages : extension.parent.map w.lineage = extension.parent.map other.lineage :=
        Option.map_congr fun c isParent =>
          (stage.lineage (declared c isParent).1).symm.trans
            (otherStage.lineage (declared c isParent).2)
      have hooks : extension.parent.map w.hooks = extension.parent.map other.hooks :=
        Option.map_congr fun c isParent =>
          (stage.hooks (declared c isParent).1).symm.trans (otherStage.hooks (declared c isParent).2)
      unfold ClassRecord.final ClassDeclaration.recordOf
      dsimp only
      rw [World.mapFields_bodyOf _ fieldsSame bodies, lineages, hooks, sameClass]

/-! ## One more class -/

/-- A class keeps what it is when its names are looked up. -/
theorem World.cls_settleEach (w : World) (own : List String) (r : ClassRecord) :
    (w.settleEach own r).cls = r.cls := by
  unfold World.settleEach
  split <;> rfl

theorem World.hooks_settleEach (w : World) (own : List String) (r : ClassRecord) :
    (w.settleEach own r).hooks = r.hooks := by
  unfold World.settleEach
  split <;> rfl

theorem World.lineage_settleEach (w : World) (own : List String) (r : ClassRecord) :
    (w.settleEach own r).lineage = r.lineage := by
  unfold World.settleEach
  split <;> rfl

/-- A new class has a record, and no other record changes. -/
theorem World.record?_declaring
    (fresh : w.record? r.cls = none)
    (own : List String)
    (u : UserClass) :
    (w.declaring own r).record? u =
      if r.cls = u then some ((w.knowing r).settleEach own r) else w.record? u := by
  have added : (w.knowing r).record? u = (w.record? u).or (if r.cls == u then some r else none) :=
    World.record?_add w r u
  rw [World.declaring, World.record?_replace, World.cls_settleEach, added]
  by_cases same : r.cls = u
  · rw [if_pos same, if_pos same, ← same, fresh, if_pos (beq_self_eq_true _)]
    rfl
  · rw [if_neg same, if_neg same, if_neg (mt beq_iff_eq.mp same), Option.or_none]

/-- Where one more class is declared, it is, and so is what was declared. -/
theorem World.declares_declaring
    (fresh : w.record? r.cls = none)
    (own : List String)
    (u : UserClass) :
    (w.declaring own r).Declares (.user u) ↔ w.Declares (.user u) ∨ r.cls = u := by
  rw [World.Declares, World.record?_declaring fresh own]
  by_cases same : r.cls = u
  · rw [if_pos same]
    exact ⟨fun _ => .inr same, fun _ => rfl⟩
  · rw [if_neg same]
    exact ⟨.inl, fun either => either.resolve_right same⟩

/-- What was declared stays declared. -/
theorem World.Declares.declaring
    {c : ClassRef}
    (declared : w.Declares c)
    (fresh : w.record? r.cls = none)
    (own : List String) :
    (w.declaring own r).Declares c := by
  cases c with
  | user u => exact (World.declares_declaring fresh own u).mpr (.inl declared)
  | _ => trivial

/-- Where one more class is declared its name means the class, and every other name what it
meant. -/
theorem World.lookup_declaring
    (w : World)
    (own : List String)
    (r : ClassRecord)
    (name : String) :
    (w.declaring own r).names.lookup name =
      if r.cls.name = name then some (.cls (.user r.cls)) else w.names.lookup name := by
  change (Table.set w.names r.cls.name (.cls (.user r.cls))).lookup name = _
  by_cases same : r.cls.name = name
  · rw [if_pos same, ← same, Table.lookup_set_self]
  · rw [if_neg same, Table.lookup_set_of_ne _ _ (Ne.symm same)]

/-- Where one more class is declared, names stand for what they stand for in the end. -/
theorem World.IsOnWay.namesOver_declaring
    (onWay : w.IsOnWay among ofName classes)
    (named : ofName r.cls.name = some (.cls (.user r.cls)))
    (own : List String) :
    NamesOver ofName (fun u => classes u ∨ r.cls = u) (w.declaring own r).typeOf? := by
  intro name a found
  rw [World.typeOf?, World.lookup_declaring] at found
  by_cases same : r.cls.name = name
  · rw [if_pos same] at found
    cases found
    refine ⟨same ▸ named, fun u member => ?_⟩
    exact .inr (List.mem_singleton.mp member).symm
  · rw [if_neg same] at found
    obtain ⟨isName, isOver⟩ := onWay.meanings name a found
    exact ⟨isName, isOver.mono fun _ => .inl⟩

/-- What is on the way over some classes is on the way over more. -/
theorem Field.IsOnWay.mono
    {f : Field}
    {others : UserClass → Prop}
    (onWay : f.IsOnWay among ofName classes)
    (more : ∀ u, classes u → others u) :
    f.IsOnWay among ofName others :=
  ⟨onWay.settled, ⟨onWay.met.comesUp, onWay.met.isOver.mono more⟩, onWay.isOver.mono more,
    onWay.later, onWay.names⟩

/-- Looking up the names in the fields of a class leaves it on the way, and the same in the
end. -/
theorem World.settleEach_final
    (words : TypeForm.Vocabulary among ofName)
    (onWay : ∀ f ∈ r.body.fields, f.IsOnWay among ofName classes)
    (namesOver : NamesOver ofName classes (w.typeInside? r.cls))
    (hasFields : r.body.HasFields)
    (own : List String) :
    (w.settleEach own r).final ofName = r.final ofName ∧ (w.settleEach own r).body.HasFields ∧
      ∀ f ∈ (w.settleEach own r).body.fields, f.IsOnWay among ofName classes := by
  unfold World.settleEach
  split
  · rename_i fields isModel
    rw [isModel, ClassBody.fields] at onWay
    have each (f : Field) (member : f ∈ fields) :
        (if own.contains f.name then (f.resolve? (w.typeInside? r.cls)).getD f else f).final ofName =
            f.final ofName ∧
          (if own.contains f.name then (f.resolve? (w.typeInside? r.cls)).getD f
            else f).IsOnWay among ofName classes := by
      split
      · cases resolved : f.resolve? (w.typeInside? r.cls) with
        | none => exact ⟨rfl, onWay f member⟩
        | some g =>
            obtain ⟨isOnWay, same, -⟩ := (onWay f member).resolve? words namesOver resolved
            exact ⟨same, isOnWay⟩
      · exact ⟨rfl, onWay f member⟩
    refine ⟨?_, trivial, fun g member => ?_⟩
    · have same := List.map_congr_left fun f member => (each f member).1
      rw [ClassRecord.final, ClassRecord.final, isModel, ClassBody.mapFields, ClassBody.mapFields,
        List.map_map]
      exact congrArg (fun fields => { r with body := .model fields }) same
    · obtain ⟨f, isField, rfl⟩ := List.mem_map.mp member
      exact (each f isField).2
  · exact ⟨rfl, hasFields, onWay⟩

/-- What a class inherits is among the fields of what it extends. -/
theorem World.IsOnWay.inheritedFields
    (onWay : w.IsOnWay among ofName classes)
    (parent : Option ClassRef) :
    ∀ f ∈ w.inheritedFields parent, f.IsOnWay among ofName classes := by
  cases parent with
  | none => exact fun f member => absurd member List.not_mem_nil
  | some c =>
      rw [World.inheritedFields_some]
      exact onWay.fieldsOf c

/-- Hooks are worded if they are, beside those that are inherited. -/
theorem Hooks.areWorded_inheriting
    {own inherited : Hooks}
    (worded : TypeTerm.AreWorded among ofName own.parts)
    (inheritedWorded : TypeTerm.AreWorded among ofName inherited.parts) :
    TypeTerm.AreWorded among ofName (own.inheriting inherited).parts := by
  have either : ∀ p ∈ (own.inheriting inherited).parts, p ∈ own.parts ∨ p ∈ inherited.parts := by
    intro p member
    rcases List.mem_append.mp member with inProgram | inCases
    · cases isProgram : own.program with
      | none =>
          refine .inr (List.mem_append_left _ ?_)
          rw [Hooks.inheriting, isProgram] at inProgram
          exact inProgram
      | some body =>
          refine .inl (List.mem_append_left _ ?_)
          rw [Hooks.inheriting, isProgram] at inProgram
          rw [isProgram]
          exact inProgram
    · cases areCases : own.cases with
      | none =>
          refine .inr (List.mem_append_right _ ?_)
          rw [Hooks.inheriting, areCases] at inCases
          exact inCases
      | some listed =>
          refine .inl (List.mem_append_right _ ?_)
          rw [Hooks.inheriting, areCases] at inCases
          rw [areCases]
          exact inCases
  refine ⟨fun p member => ?_, fun m stage p member => ?_⟩
  · exact (either p member).elim (worded.ordinary p) (inheritedWorded.ordinary p)
  · exact (either p member).elim (worded.comeUp m stage p) (inheritedWorded.comeUp m stage p)

namespace ClassDeclaration.MakesIn

variable (makes : d.MakesIn w r)

include makes

/-- The next class of its name and home is declared. -/
theorem cls_eq : r.cls = w.nextClass d.name d.home := by
  cases makes
  rfl

/-- A class with fields consists of fields. -/
theorem hasFields : r.body.HasFields := by
  cases makes with
  | @fields style => cases style <;> trivial

/-- The fields of a class that is declared are on the way. -/
theorem isOnWay
    (words : TypeForm.Vocabulary among ofName)
    (worded : d.IsWorded among ofName)
    (onWay : w.IsOnWay among ofName classes) :
    ∀ f ∈ r.body.fields, f.IsOnWay among ofName classes := by
  obtain ⟨style, declarations, refusal, sameForm, fieldsWorded⟩ := worded.fields
  cases makes with
  | @fields _ _ _ extension fields isForm isExtension areRead =>
    cases sameForm.symm.trans isForm
    have own (f : Field) (member : f ∈ fields) : f.IsOnWay among ofName classes := by
      obtain ⟨g, isDeclared, isRead⟩ :=
        exists_mem_of_forall₂ (forall₂_of_mapM_eq_ok areRead) member
      exact FieldDeclaration.isOnWay_of_read words (fieldsWorded g isDeclared) onWay isRead
    have all (f : Field)
        (member : f ∈ Field.override (w.inheritedFields extension.parent) fields) :
        f.IsOnWay among ofName classes :=
      (Field.mem_override member).elim (onWay.inheritedFields _ f) (own f)
    cases style <;> exact all

/-- The hooks of a class that is declared are worded. -/
theorem hooks
    (worded : d.IsWorded among ofName)
    (onWay : w.IsOnWay among ofName classes) :
    TypeTerm.AreWorded among ofName r.hooks.parts := by
  cases makes with
  | @fields style declarations refusal extension fields isForm isExtension areRead =>
    refine Hooks.areWorded_inheriting worded.hooks ?_
    cases extension.parent with
    | none => exact TypeTerm.areWorded_nil
    | some c => exact onWay.hooksOf c

/-- A class that is declared refers to itself and to what was declared. -/
theorem closes
    {later : World}
    (worded : d.IsWorded among ofName)
    (onWay : w.IsOnWay among ofName classes)
    (declares : ∀ c, w.Declares c → later.Declares c)
    (itself : later.Declares (.user r.cls)) :
    later.Closes r := by
  have hasFields := makes.hasFields
  cases makes with
  | @fields style declarations refusal extension fields isForm isExtension areRead =>
    have parents (c : ClassRef) (isParent : extension.parent = some c) : w.Declares c :=
      declares_parent onWay worded isExtension isParent
    refine ⟨fun c member => ?_, fun mixin members aliases isBody => ?_, fun values isHook v member => ?_⟩
    · rcases List.mem_cons.mp member with rfl | inherited
      · exact itself
      · have unmixed : d.form.mixinLineage = [] := by
          rw [isForm]
          rfl
        rw [unmixed, List.append_nil] at inherited
        cases isParent : extension.parent with
        | none =>
            rw [isParent] at inherited
            cases inherited
        | some parent =>
            rw [isParent] at inherited
            exact declares c (onWay.closed.declares_lineage (parents parent isParent) c inherited)
    · rw [isBody] at hasFields
      exact hasFields.elim
    · cases areCases : d.hooks.cases with
      | some listed =>
          have isOwn : d.hooks.cases = some (.listed values) := by
            rw [areCases, ← isHook]
            change _ = Option.or d.hooks.cases _
            rw [areCases]
            rfl
          exact (worded.cases values isOwn v member).declares_labelling later
      | none =>
          change Option.or d.hooks.cases _ = _ at isHook
          rw [areCases, Option.none_or] at isHook
          cases isParent : extension.parent with
          | none =>
              rw [isParent] at isHook
              cases isHook
          | some parent =>
              rw [isParent] at isHook
              exact declares _ (onWay.closed.declares_cases isHook v member)

end ClassDeclaration.MakesIn

/-- A world in which one more class is declared refers to declared classes alone. -/
theorem ClassDeclaration.MakesIn.isClosed_declaring
    (makes : d.MakesIn w r)
    (worded : d.IsWorded among ofName)
    (onWay : w.IsOnWay among ofName classes)
    (fresh : w.record? r.cls = none)
    (own : List String)
    (hasFields : ((w.knowing r).settleEach own r).body.HasFields) :
    (w.declaring own r).IsClosed := by
  have itself : (w.declaring own r).Declares (.user r.cls) :=
    (World.declares_declaring fresh own r.cls).mpr (.inr rfl)
  have closes := makes.closes worded onWay (fun _ declared => declared.declaring fresh own) itself
  have settledCloses : (w.declaring own r).Closes ((w.knowing r).settleEach own r) := by
    refine ⟨?_, fun mixin members aliases isBody => ?_, ?_⟩
    · rw [World.lineage_settleEach]
      exact closes.lineage
    · rw [isBody] at hasFields
      exact hasFields.elim
    · rw [World.hooks_settleEach]
      exact closes.cases
  refine ⟨fun name c found => ?_, fun q member => ?_⟩
  · rw [World.lookup_declaring] at found
    split at found
    · cases found
      exact itself
    · exact (onWay.closed.names name c found).declaring fresh own
  · obtain ⟨old, isOld, rfl⟩ := List.mem_map.mp member
    split
    · exact settledCloses
    · rename_i different
      rcases List.mem_append.mp isOld with before | new
      · exact (onWay.closed.records old before).mono fun _ declared => declared.declaring fresh own
      · refine absurd ?_ different
        rw [List.mem_singleton.mp new, World.cls_settleEach]
        exact beq_self_eq_true _

/-- A world on the way is a stage of that in which one more class is declared. -/
theorem World.IsOnWay.isStage_declaring
    (onWay : w.IsOnWay among ofName classes)
    (fresh : w.record? r.cls = none)
    (named : ofName r.cls.name = some (.cls (.user r.cls)))
    (own : List String) :
    World.IsStage ofName (w.declaring own r) w := by
  refine ⟨fun name a found => ?_, fun u q found => ?_⟩
  · rw [World.lookup_declaring]
    split
    · rename_i same
      rw [← named, same]
      exact (onWay.meaning_strict (Naming.strict_meaning_eq_ok.mpr found)).1
    · exact found
  · rw [World.record?_declaring fresh own]
    split
    · rename_i same
      rw [← same, fresh] at found
      cases found
    · rw [found]
      rfl

/-- A world in which one more class is declared is on the way, the world before it is a stage
of it, and the class is in the end what it was made as. -/
theorem World.IsOnWay.declaring
    (words : TypeForm.Vocabulary among ofName)
    (worded : d.IsWorded among ofName)
    (onWay : w.IsOnWay among ofName classes)
    (makes : d.MakesIn w r)
    (fresh : w.record? r.cls = none)
    (named : ofName r.cls.name = some (.cls (.user r.cls)))
    (own : List String) :
    (w.declaring own r).IsOnWay among ofName (fun u => classes u ∨ r.cls = u) ∧
      World.IsStage ofName (w.declaring own r) w ∧
        ((w.declaring own r).record? r.cls).map (ClassRecord.final ofName) =
          some (r.final ofName) := by
  have record := World.record?_declaring fresh own
  have more (u : UserClass) (declared : classes u) : classes u ∨ r.cls = u := .inl declared
  have meanings := onWay.namesOver_declaring named own
  have inside : NamesOver ofName (fun u => classes u ∨ r.cls = u)
      ((w.knowing r).typeInside? r.cls) := by
    intro name a found
    unfold World.typeInside? at found
    split at found
    · rename_i isOwn
      cases found
      rw [beq_iff_eq.mp isOwn]
      exact ⟨named, fun u member => .inr (List.mem_singleton.mp member).symm⟩
    · exact meanings name a found
  obtain ⟨final, hasFields, settled⟩ :=
    World.settleEach_final words
      (fun f member => (makes.isOnWay words worded onWay f member).mono more) inside
      makes.hasFields own
  refine ⟨?_, onWay.isStage_declaring fresh named own, ?_⟩
  · -- each record is the new one or was there before
    refine ⟨fun u => (World.declares_declaring fresh own u).trans (or_congr (onWay.declares u) .rfl),
      makes.isClosed_declaring worded onWay fresh own hasFields, fun u q found => ?_,
      fun u q found => ?_, fun u q found => ?_, onWay.spellings, meanings, ?_⟩
    · rw [record] at found
      split at found
      · cases found
        exact hasFields
      · exact onWay.bodies u q found
    · rw [record] at found
      split at found
      · cases found
        exact settled
      · exact fun f member => (onWay.fields u q found f member).mono more
    · rw [record] at found
      split at found
      · cases found
        rw [World.hooks_settleEach]
        exact makes.hooks worded onWay
      · exact onWay.hooks u q found
    · rintro u (declared | rfl)
      · exact onWay.own u declared
      · exact named
  · rw [record, if_pos rfl]
    exact congrArg some final

end

end SchemaProbe

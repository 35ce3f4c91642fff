import SchemaProbe.Proofs.Requesting
import SchemaProbe.Proofs.Settling

namespace SchemaProbe

/-!
# Classes with another program

Two worlds declare the same classes, but some classes are decoded by another program
in one of them.  Nothing else about classes depends on their programs: what is written
resolves in the same way, classes have the same plans and cases, and the same is found
out about types, but for how they are read.
-/

open List Step

/-! ## Worlds with a program in the place of another -/

/-- Whether a program is the same, or the second of two in the place of the first. -/
inductive Program.Swaps (p q : Program) : Option Program → Option Program → Prop
  | same (program : Option Program) : Swaps p q program program
  | swapped : Swaps p q (some p) (some q)

/-- Whether hooks are the same but for a program in the place of another. -/
structure Hooks.Swaps (p q : Program) (hooks other : Hooks) : Prop where
  program : Program.Swaps p q hooks.program other.program
  rest : other = { hooks with program := other.program }

/-- Whether two records declare the same class but for a program in the place of
another. -/
structure ClassRecord.Swaps (p q : Program) (r other : ClassRecord) : Prop where
  hooks : r.hooks.Swaps p q other.hooks
  rest : other = { r with hooks := other.hooks }

/-- Whether two worlds declare the same but for a program in the place of another. -/
structure World.Swaps (p q : Program) (w other : World) : Prop where
  classes : Forall₂ (ClassRecord.Swaps p q) w.classes other.classes
  names : other.names = w.names
  specialised : other.specialised = w.specialised
  spellings : other.spellings = w.spellings

/-- Whether two readers are the same but for a program in the place of another. -/
inductive Reader.Swaps (p q : Program) : Reader → Reader → Prop
  | same (reader : Reader) : Swaps p q reader reader
  | swapped (maker : Maker) : Swaps p q (.program maker p) (.program maker q)

/-- Whether the same is known of two types but for a program in the place of another. -/
structure Capabilities.Swaps (p q : Program) (caps other : Capabilities) : Prop where
  reader : Option.Rel (Reader.Swaps p q) caps.reader other.reader
  rest : caps.SameButReader other

section

variable {p q : Program} {w other : World} {r s : ClassRecord}

theorem Hooks.Swaps.refl (hooks : Hooks) : hooks.Swaps p q hooks :=
  ⟨.same _, rfl⟩

/-- What the same reads is the same but for a program in the place of another. -/
theorem Reader.Swaps.rel_refl (reader : Option Reader) :
    Option.Rel (Reader.Swaps p q) reader reader := by
  cases reader with
  | none => exact .none
  | some reader => exact .some (.same reader)

theorem Capabilities.Swaps.refl (caps : Capabilities) : caps.Swaps p q caps :=
  ⟨Reader.Swaps.rel_refl _, rfl⟩

/-- The same types have readers. -/
theorem Capabilities.Swaps.sameReader
    {caps other : Capabilities}
    (swaps : caps.Swaps p q other) :
    caps.SameButReader other ∧ (caps.reader = none ↔ other.reader = none) := by
  refine ⟨swaps.rest, ?_⟩
  have readers := swaps.reader
  generalize caps.reader = reader, other.reader = otherReader at readers
  cases readers <;> simp

/-- The readers of two types are the same but for a program in the place of another. -/
theorem Capabilities.Swaps.of_some
    {caps other : Capabilities}
    {reader otherReader : Reader}
    (swaps : caps.Swaps p q other)
    (reads : caps.reader = some reader)
    (otherReads : other.reader = some otherReader) :
    reader.Swaps p q otherReader := by
  have readers := swaps.reader
  rw [reads, otherReads] at readers
  cases readers with
  | some isSwapped => exact isSwapped

namespace ClassRecord.Swaps

/-- What does not depend on hooks is the same. -/
theorem view
    (swaps : r.Swaps p q s)
    (view : ClassRecord → α)
    (blind : ∀ r hooks, view { r with hooks := hooks } = view r) :
    view s = view r := by
  rw [swaps.rest]
  exact blind r s.hooks

theorem cls (swaps : r.Swaps p q s) : s.cls = r.cls :=
  swaps.view (·.cls) fun _ _ => rfl

theorem body (swaps : r.Swaps p q s) : s.body = r.body :=
  swaps.view (·.body) fun _ _ => rfl

theorem params (swaps : r.Swaps p q s) : s.params = r.params :=
  swaps.view (·.params) fun _ _ => rfl

/-- Settled records are the same but for a program in the place of another. -/
theorem settleAll
    (swaps : r.Swaps p q s)
    (w : World) :
    (w.settleAll r).Swaps p q (w.settleAll s) := by
  have settled (r : ClassRecord) (hooks : Hooks) :
      w.settleAll { r with hooks := hooks } = { w.settleAll r with hooks := hooks } := by
    unfold World.settleAll
    dsimp only
    split
    · split <;> rfl
    · rfl
  have kept (r : ClassRecord) : (w.settleAll r).hooks = r.hooks := by
    rw [World.settleAll_eq_withBody]
  refine ⟨?_, ?_⟩
  · rw [kept, kept]
    exact swaps.hooks
  · rw [kept s, ← settled, ← swaps.rest]

/-- A generic model with arguments is the same but for a program in the place of
another. -/
theorem specialised
    (swaps : r.Swaps p q s)
    (cls : UserClass)
    (args : List TypeForm)
    (fields : List Field) :
    (r.specialised cls args fields).Swaps p q (s.specialised cls args fields) := by
  refine ⟨swaps.hooks, ?_⟩
  rw [ClassRecord.specialised, ClassRecord.specialised, swaps.params,
    swaps.view (·.lineage) fun _ _ => rfl]

end ClassRecord.Swaps

namespace World.Swaps

/-- The records of a class are the same but for a program in the place of another. -/
theorem record?
    (swaps : w.Swaps p q other)
    (c : UserClass) :
    Option.Rel (ClassRecord.Swaps p q) (w.record? c) (other.record? c) := by
  unfold World.record?
  have each := swaps.classes
  generalize w.classes = classes, other.classes = others at each ⊢
  induction each with
  | nil => exact .none
  | @cons r s rest more first _ inductionHypothesis =>
      rw [find?_cons, find?_cons, first.cls]
      cases r.cls == c with
      | true => exact .some first
      | false => exact inductionHypothesis

/-- What does not depend on the hooks of a class is the same. -/
theorem map_record?
    (swaps : w.Swaps p q other)
    (view : ClassRecord → α)
    (blind : ∀ r hooks, view { r with hooks := hooks } = view r)
    (c : UserClass) :
    (other.record? c).map view = (w.record? c).map view := by
  have records := swaps.record? c
  generalize w.record? c = found, other.record? c = otherFound at records
  cases records with
  | none => rfl
  | some record => exact congrArg some (record.view view blind)

/-- The hooks of a class are the same but for a program in the place of another. -/
theorem hooks
    (swaps : w.Swaps p q other)
    (c : ClassRef) :
    (w.hooks c).Swaps p q (other.hooks c) := by
  cases c with
  | user u =>
      have records := swaps.record? u
      change Hooks.Swaps p q (((w.record? u).map ClassRecord.hooks).getD .none)
        (((other.record? u).map ClassRecord.hooks).getD .none)
      generalize w.record? u = found, other.record? u = otherFound at records
      cases records with
      | none => exact .refl _
      | some record => exact record.hooks
  | builtin b => exact .refl _
  | sized number home => exact .refl _

/-- Classes consist of the same. -/
theorem body (swaps : w.Swaps p q other) (c : ClassRef) : other.body c = w.body c := by
  cases c with
  | user u => exact congrArg (·.getD .plain) (swaps.map_record? (·.body) (fun _ _ => rfl) u)
  | builtin b => cases b <;> rfl
  | sized number home => rfl

/-- Classes extend the same. -/
theorem lineage (swaps : w.Swaps p q other) (c : ClassRef) : other.lineage c = w.lineage c := by
  cases c with
  | user u =>
      exact congrArg (·.getD [.user u]) (swaps.map_record? (·.lineage) (fun _ _ => rfl) u)
  | builtin b => rfl
  | sized number home => rfl

/-- Classes consist of the same and extend the same. -/
theorem makesAlike (swaps : w.Swaps p q other) : w.MakesAlike other :=
  .of_same swaps.body swaps.lineage

/-- Classes give the same arguments to the collections that they extend. -/
theorem baseArguments
    (swaps : w.Swaps p q other)
    (c : ClassRef)
    (b : Builtin) :
    other.baseArguments c b = w.baseArguments c b := by
  have bases (u : UserClass) : (other.record? u).bind (·.base) = (w.record? u).bind (·.base) := by
    have mapped := swaps.map_record? (·.base) (fun _ _ => rfl) u
    have joined := congrArg (Option.bind · id) mapped
    rwa [Option.bind_map, Option.bind_map] at joined
  unfold World.baseArguments
  rw [swaps.lineage]
  simp only [bases]

/-- Cases are labelled in the same way. -/
theorem label (swaps : w.Swaps p q other) : other.label = w.label := by
  have texts (v : Value) : other.textOf v = w.textOf v := by
    unfold World.textOf
    rw [(swaps.hooks v.classOf).rest]
    simp only [swaps.body]
  funext v
  simp only [World.label, texts]

/-- The next class of a name is the same. -/
theorem nextClass
    (swaps : w.Swaps p q other)
    (name home : String) :
    other.nextClass name home = w.nextClass name home := by
  have among (classes : List ClassRecord) :
      (classes.filter fun r => r.cls.name == name && r.cls.home == home).length =
        ((classes.map (·.cls)).filter fun c => c.name == name && c.home == home).length := by
    rw [filter_map, length_map]
    rfl
  have classes : other.classes.map (·.cls) = w.classes.map (·.cls) := by
    have each := swaps.classes
    generalize w.classes = before, other.classes = after at each
    induction each with
    | nil => rfl
    | cons first _ inductionHypothesis => rw [map_cons, map_cons, first.cls, inductionHypothesis]
  rw [World.nextClass, World.nextClass]
  simp only [among, classes]

/-- Putting records in the place of their old ones keeps worlds the same but for a
program in the place of another. -/
theorem replace
    (swaps : w.Swaps p q other)
    (record : r.Swaps p q s) :
    (w.replace r).Swaps p q (other.replace s) := by
  refine ⟨?_, swaps.names, swaps.specialised, swaps.spellings⟩
  rw [World.replace, World.replace, record.cls]
  simp only [forall₂_map_left_iff, forall₂_map_right_iff]
  refine swaps.classes.imp fun old new oldSwaps => ?_
  rw [oldSwaps.cls]
  split
  · exact record
  · exact oldSwaps

/-- Settling a class keeps worlds the same but for a program in the place of another. -/
theorem settle
    (swaps : w.Swaps p q other)
    (c : ClassRef) :
    (w.settle c).Swaps p q (other.settle c) := by
  cases c with
  | user u =>
      have records := swaps.record? u
      rw [World.settle, World.settle, settleAll_congr swaps.names]
      generalize w.record? u = found, other.record? u = otherFound at records
      cases records with
      | none => exact swaps
      | some record => exact swaps.replace (record.settleAll w)
  | builtin b => exact swaps
  | sized number home => exact swaps

/-- Classes are read in the same way but for a program in the place of another. -/
theorem reader?
    (swaps : w.Swaps p q other)
    (c : ClassRef) :
    Option.Rel (Reader.Swaps p q) (w.reader? c) (other.reader? c) := by
  have alike := swaps.makesAlike
  have programs := (swaps.hooks c).program
  unfold World.reader?
  simp only [swaps.body, (alike _).inherits, (alike _).sequenceShape?, swaps.baseArguments]
  generalize (w.hooks c).program = program, (other.hooks c).program = otherProgram at programs
  cases programs with
  | same => exact Reader.Swaps.rel_refl _
  | swapped => exact .some (.swapped (.cls c))

end World.Swaps

/-! ## What is found out about classes -/

/-- The bond of worlds that declare the same but for a program in the place of
another. -/
def World.swapping (p q : Program) : Bond World World where
  ties := World.Swaps p q
  allows interrupt := ∃ f, interrupt = .fault f
  lapses := False

theorem World.swapping_allowsFaults : (World.swapping p q).AllowsFaults :=
  fun f => ⟨f, rfl⟩

/-- A typing form is spelled in the same way. -/
theorem spelled_swaps
    (form : String)
    (parts : List TypeForm)
    (built : TypeForm) :
    Tied (World.swapping p q) (Same anything) (spelled form parts built)
      (spelled form parts built) := by
  unfold spelled
  refine .current_bind fun w other swaps => ?_
  rw [swaps.spellings]
  split
  · exact .pure swaps ⟨rfl, trivial⟩
  · refine .ok rfl rfl ⟨swaps.classes, swaps.names, swaps.specialised, ?_⟩ ⟨rfl, trivial⟩
    exact congrArg (· ++ _) swaps.spellings

/-- A generic model is given arguments in the same way. -/
theorem specialise_swaps
    (swaps : w.Swaps p q other)
    (record : r.Swaps p q s)
    (fields : List Field)
    (args : List TypeForm) :
    TiedAt (World.swapping p q) (Same anything) (specialise r fields args)
      (specialise s fields args) w other := by
  have made : other.specialisation s args fields =
      s.specialised (w.nextClass (r.specialisedName args) r.cls.home) args fields := by
    rw [World.specialisation, swaps.nextClass, ClassRecord.specialisedName, record.cls]
    rfl
  have madeSwaps : (w.specialisation r args fields).Swaps p q (other.specialisation s args fields) := by
    rw [made]
    exact record.specialised _ args fields
  unfold specialise
  rw [record.params, record.cls]
  split
  · exact .fail swaps (World.swapping_allowsFaults _)
  · split
    · exact .pure swaps ⟨rfl, trivial⟩
    · refine .current_bind ?_
      dsimp only
      rw [swaps.specialised]
      split
      · exact .pure swaps ⟨rfl, trivial⟩
      · refine .current_bind ?_
        refine .ok rfl rfl ⟨?_, swaps.names, ?_, swaps.spellings⟩ ⟨?_, trivial⟩
        · exact List.rel_append swaps.classes (.cons madeSwaps .nil)
        · rw [madeSwaps.cls]
          exact congrArg (· ++ _) swaps.specialised
        · rw [madeSwaps.cls]

/-- A class is given arguments in the same way. -/
theorem applyClass_swaps
    (c : ClassRef)
    (args : List TypeForm) :
    Tied (World.swapping p q) (Same anything) (applyClass c args) (applyClass c args) := by
  have faults {f : Fault} : (World.swapping p q).allows (.fault f) :=
    World.swapping_allowsFaults f
  unfold applyClass
  refine .current_bind fun w other swaps => ?_
  cases c with
  | builtin b =>
      dsimp only
      split
      · exact .pure swaps ⟨rfl, trivial⟩
      · exact .fail swaps faults
  | sized number home => exact .fail swaps faults
  | user u =>
      have records := swaps.record? u
      dsimp only
      rw [swaps.lineage]
      generalize w.record? u = found, other.record? u = otherFound at records
      cases records with
      | none => exact .fail swaps faults
      | some record =>
          dsimp only
          rw [record.body, record.params]
          split
          · exact specialise_swaps swaps record _ args
          · split
            · split
              · exact .pure swaps ⟨rfl, trivial⟩
              · exact .fail swaps faults
            · split
              · exact .fail swaps faults
              · have checks : Tied (World.swapping p q) (Same anything)
                    (Step.each (fun a => .ofExcept a.checkedArgument?) args)
                    (Step.each (fun a => .ofExcept a.checkedArgument?) args) :=
                  .each (fun _ => .ofExcept World.swapping_allowsFaults fun _ _ => trivial) args
                exact (checks w other swaps).bind_same fun _ _ _ ties _ => .pure ties ⟨rfl, trivial⟩

/-- The class that a name refers to is found in the same way. -/
theorem classNamed_swaps (name : String) :
    Tied (World.swapping p q) (Same anything) (classNamed .strict name)
      (classNamed .strict name) := by
  unfold classNamed
  refine .current_bind fun w other swaps => ?_
  have sameName : Naming.strict.meaning other name = Naming.strict.meaning w name := by
    simp only [Naming.strict, swaps.names]
  have takes : Tied (World.swapping p q) (Same anything) (Step.ofExcept (Naming.strict.meaning w name))
      (Step.ofExcept (Naming.strict.meaning w name)) :=
    .ofExcept World.swapping_allowsFaults fun _ _ => trivial
  rw [sameName]
  refine (takes w other swaps).bind_same fun a _ _ ties _ => ?_
  cases a with
  | cls c => exact .pure ties ⟨rfl, trivial⟩
  | _ => exact .fail ties (World.swapping_allowsFaults _)

/-- Resolving is made of steps that end in the same way. -/
theorem World.swapping_carries (p q : Program) :
    Naming.strict.Carries fun step => Tied (World.swapping p q) (Same anything) step step where
  pure _ := .pure_same trivial
  ofExcept _ := .ofExcept World.swapping_allowsFaults fun _ _ => trivial
  bind firstTied nextTied := firstTied.bind_same fun a _ => nextTied a
  named name := by
    rw [TypeTerm.resolve]
    refine .current_bind fun w other swaps => ?_
    have sameName : Naming.strict.meaning other name = Naming.strict.meaning w name := by
      simp only [Naming.strict, swaps.names]
    rw [sameName]
    exact Tied.ofExcept World.swapping_allowsFaults (fun _ _ => trivial) w other swaps
  spelled := spelled_swaps
  applied := applyClass_swaps
  member enumeration name := by
    rw [ValueTerm.resolve]
    refine (classNamed_swaps enumeration).bind_same fun c _ => .current_bind fun w other swaps => ?_
    rw [(swaps.makesAlike c).memberNamed?]
    exact Tied.ofOption World.swapping_allowsFaults (fun _ _ => trivial) w other swaps
  instanceOf name := by
    rw [ValueTerm.resolve]
    refine (classNamed_swaps name).bind_same fun c _ => .current_bind fun w other swaps => ?_
    rw [(swaps.makesAlike c).freshInstance?]
    exact Tied.ofExcept World.swapping_allowsFaults (fun _ _ => trivial) w other swaps

/-- The plans of a class are made in the same way. -/
theorem decodingPlans_swaps (c : ClassRef) :
    Tied (World.swapping p q) (Same anything) (decodingPlans c) (decodingPlans c) := by
  intro w other swaps
  have settled := swaps.settle c
  have ends (result : Except Fault (List FieldPlan)) (reached last : World)
      (ties : reached.Swaps p q last)
      (ran : (decodingPlans c).run w = (result.mapError .fault, reached))
      (otherRan : (decodingPlans c).run other = (result.mapError .fault, last)) :
      TiedAt (World.swapping p q) (Same anything) (decodingPlans c) (decodingPlans c) w other := by
    cases result with
    | ok plans => exact .ok ran otherRan ties ⟨rfl, trivial⟩
    | error f => exact .error ran otherRan ties (World.swapping_allowsFaults f)
  have sameDataclass : other.isDataclass c = w.isDataclass c := by
    rw [World.isDataclass, World.isDataclass, swaps.body]
  have sameStruct : other.isStruct c = w.isStruct c :=
    (swaps.makesAlike c).inherits .struct
  have ran := World.run_decodingPlans w c
  have otherRan := World.run_decodingPlans other c
  rw [sameDataclass, sameStruct, World.dataclassPlans?_congr (swaps.body c) swaps.names,
    World.structPlans?_congr (settled.body c) ((settled.makesAlike c).inherits .struct),
    World.modelPlans?_congr (settled.body c)] at otherRan
  split at ran
  · rename_i isDataclass
    rw [if_pos isDataclass] at otherRan
    exact ends _ _ _ swaps ran otherRan
  · rename_i noDataclass
    rw [if_neg noDataclass] at otherRan
    split at ran
    · rename_i isStruct
      rw [if_pos isStruct] at otherRan
      exact ends _ _ _ settled ran otherRan
    · rename_i noStruct
      rw [if_neg noStruct] at otherRan
      exact ends _ _ _ settled ran otherRan

/-- Classes have the same plans. -/
theorem World.Swaps.plansOf?
    (swaps : w.Swaps p q other)
    (c : ClassRef) :
    other.plansOf? c = w.plansOf? c := by
  unfold World.plansOf?
  cases decodingPlans_swaps c w other swaps with
  | ok ran otherRan _ same => rw [ran, otherRan, same.1]
  | error ran otherRan _ _ => rw [ran, otherRan]
  | lapsed _ lapses => exact lapses.elim

/-- The cases of a class are listed in the same way. -/
theorem classCases_swaps (c : ClassRef) :
    Tied (World.swapping p q) (Same anything) (classCases c) (classCases c) := by
  unfold classCases
  refine .current_bind fun w other swaps => ?_
  have sameCases : (other.hooks c).cases = (w.hooks c).cases := by rw [(swaps.hooks c).rest]
  rw [sameCases, (swaps.makesAlike c).members?]
  split
  · rename_i values _
    exact (ValueTerm.resolveAll_carried (World.swapping_carries p q) values w other swaps).bind_same
      fun _ _ _ ties _ => .pure ties ⟨rfl, trivial⟩
  · exact .fail swaps (World.swapping_allowsFaults _)
  · exact .pure swaps ⟨rfl, trivial⟩

/-- The same is found out about a class but for a program in the place of another. -/
theorem classCapabilities_swaps (c : ClassRef) :
    Tied (World.swapping p q) (Capabilities.Swaps p q) (classCapabilities c)
      (classCapabilities c) := by
  unfold classCapabilities
  refine .current_bind fun w other swaps => ?_
  have sameKind : other.kind? c = w.kind? c := by
    unfold World.kind?
    rw [(swaps.hooks c).rest]
  have sameSchema : (other.hooks c).schema = (w.hooks c).schema := by rw [(swaps.hooks c).rest]
  have sameDescription : (other.hooks c).description = (w.hooks c).description := by
    rw [(swaps.hooks c).rest]
  dsimp only
  rw [sameKind, sameSchema, sameDescription, (swaps.makesAlike c).inherits,
    (swaps.makesAlike c).inherits]
  split
  · exact .pure swaps (.refl _)
  · split
    · exact .pure swaps (.refl _)
    · refine (classCases_swaps c w other swaps).bind_same fun cases reached last ties _ => ?_
      refine .current_bind (.pure ties ⟨ties.reader? c, ?_⟩)
      rw [Capabilities.SameButReader, ties.label]

end

/-! ## States with a program in the place of another -/

/-- Whether two registries know the same but for a program in the place of another. -/
structure CapabilityRegistry.Swaps (p q : Program) (r other : CapabilityRegistry) : Prop where
  explicit : r.explicit.Forall₂ (fun e f => e.1 = f.1 ∧ e.2.Swaps p q f.2) other.explicit
  cache : r.cache.Forall₂ (fun e f => e.1 = f.1 ∧ e.2.Swaps p q f.2) other.cache

/-- Whether two states are the same but for a program in the place of another, and for
what was noted. -/
structure Store.Swaps (p q : Program) (s t : Store) : Prop where
  world : s.world.Swaps p q t.world
  shared : s.shared.Swaps p q t.shared
  own : Option.Rel (CapabilityRegistry.Swaps p q) s.own t.own
  guard : t.guard = s.guard

/-- The bond of states that are the same but for a program in the place of another,
where the first step may run out of a bound alone. -/
def Store.swapping (p q : Program) : Bond Store Store where
  ties := Store.Swaps p q
  allows _ := True
  lapses := True

section

variable {p q : Program} {s t : Store}

theorem CapabilityRegistry.Swaps.refl (r : CapabilityRegistry) : r.Swaps p q r :=
  ⟨List.forall₂_same.mpr fun e _ => ⟨rfl, .refl e.2⟩,
    List.forall₂_same.mpr fun e _ => ⟨rfl, .refl e.2⟩⟩

/-- What is remembered and registered is found in both registries. -/
theorem CapabilityRegistry.Swaps.find?
    {r other : CapabilityRegistry}
    (swaps : r.Swaps p q other)
    (a : TypeForm) :
    Option.Rel (Capabilities.Swaps p q) (r.find? a) (other.find? a) := by
  have cached := Table.lookup_rel swaps.cache a.identity
  have registered := Table.lookup_rel swaps.explicit a.identity
  unfold CapabilityRegistry.find?
  generalize r.cache.lookup _ = found, other.cache.lookup _ = otherFound at cached
  cases cached with
  | none => exact registered
  | some isFound => exact .some isFound

/-- Remembering the same keeps registries the same but for a program in the place of
another. -/
theorem CapabilityRegistry.Swaps.remember
    {r other : CapabilityRegistry}
    {caps otherCaps : Capabilities}
    (swaps : r.Swaps p q other)
    (a : TypeForm)
    (capsSwaps : caps.Swaps p q otherCaps) :
    (r.remember a caps).Swaps p q (other.remember a otherCaps) :=
  ⟨swaps.explicit, Table.forall₂_set swaps.cache a.identity capsSwaps⟩

namespace Store.Swaps

/-- The registries of both states know the same but for a program in the place of
another. -/
theorem registries (swaps : s.Swaps p q t) : s.RelatesBy (CapabilityRegistry.Swaps p q) t :=
  ⟨swaps.shared, swaps.own⟩

/-- Changing both registries that are asked keeps states the same but for a program in
the place of another. -/
theorem changeRegistry
    {change other : CapabilityRegistry → CapabilityRegistry}
    (swaps : s.Swaps p q t)
    (scope : Scope)
    (keeps : ∀ r r', r.Swaps p q r' → (change r).Swaps p q (other r')) :
    (s.changeRegistry scope change).Swaps p q (t.changeRegistry scope other) where
  world := by
    rw [Store.world_changeRegistry, Store.world_changeRegistry]
    exact swaps.world
  shared := (swaps.registries.changeRegistry scope keeps).shared
  own := (swaps.registries.changeRegistry scope keeps).own
  guard := by rw [Store.guard_changeRegistry, Store.guard_changeRegistry, swaps.guard]

end Store.Swaps

/-- What ends in the same way on the declared classes does so on the whole states. -/
theorem Step.Tied.inSwapping
    {good : α → β → Prop}
    {first : Step World α}
    {second : Step World β}
    (tied : Tied (World.swapping p q) good first second) :
    Tied (Store.swapping p q) good (inWorld first) (inWorld second) :=
  tied.within (fun _ _ swaps => swaps.world)
    (fun _ _ _ _ swaps worlds => ⟨worlds, swaps.shared, swaps.own, swaps.guard⟩)
    (fun _ _ => trivial) False.elim

/-- Types are looked up in states that know the same but for a program in the place of
another. -/
theorem Store.swapping_looks (p q : Program) :
    (Store.swapping p q).Looks (Capabilities.Swaps p q) fun _ => True where
  surface _ _ := trivial
  notes _ _ _ swaps := ⟨swaps.world, swaps.shared, swaps.own, swaps.guard⟩
  plain caps _ := .refl caps
  retyped caps other a name swaps := by
    refine ⟨swaps.reader, ?_⟩
    rw [Capabilities.SameButReader, swaps.rest]
  lacking caps other swaps := by
    have readers := swaps.reader
    rw [Capabilities.lacksReader, Capabilities.lacksReader, swaps.rest]
    dsimp only
    generalize caps.reader = reader, other.reader = otherReader at readers
    cases readers <;> exact ⟨rfl, rfl⟩
  labels _ _ swaps := swaps.world.label
  known _ _ scope a _ swaps := (swaps.registries.registry scope).find? a
  remembers _ _ scope a _ _ _ swaps capsSwaps :=
    swaps.changeRegistry scope fun _ _ registries => registries.remember a capsSwaps

/-- The same is found out in states that are the same but for a program in the place of
another. -/
theorem Store.swapping_findsOut (p q : Program) : (Store.swapping p q).FindsOut where
  types t := (TypeTerm.resolve_carried (World.swapping_carries p q) t).inSwapping
  values v := (ValueTerm.resolve_carried (World.swapping_carries p q) v).inSwapping
  plans c := (decodingPlans_swaps c).inSwapping
  endless := trivial

/-- A type is looked up in the same way but for a program in the place of another. -/
theorem lookup_swaps
    (scope : Scope)
    (a : TypeForm) :
    Tied (Store.swapping p q) (Capabilities.Swaps p q) (lookup scope a) (lookup scope a) :=
  lookup_tied (Store.swapping_looks p q) scope (fun _ _ => trivial)
    fun c _ => (classCapabilities_swaps c).inSwapping

/-- The reader of a type is found in the same way but for a program in the place of
another. -/
theorem sharedReader_swaps (type : TypeTerm) :
    Tied (Store.swapping p q) (Reader.Swaps p q) (sharedReader type) (sharedReader type) := by
  refine ((Store.swapping_findsOut p q).types type).bind_same fun a _ => ?_
  refine (lookup_swaps .shared a).bind fun caps other swaps => ?_
  have readers := swaps.reader
  generalize caps.reader = reader, other.reader = otherReader at readers
  cases readers with
  | none => exact .fail trivial
  | some isSwapped => exact .pure isSwapped

/-! ## Weights -/

/-- The weights of elements that weigh no more are together no more. -/
theorem total_le_of_forall₂
    {weight : α → Nat}
    {other : β → Nat}
    {as : List α}
    {bs : List β}
    (each : as.Forall₂ (fun a b => weight a ≤ other b) bs) :
    total weight as ≤ total other bs := by
  induction each with
  | nil => exact Nat.le_refl _
  | cons first _ inductionHypothesis => exact Nat.add_le_add first inductionHypothesis

/-- Where a program does not weigh less than the one it stands for, nothing weighs
less. -/
theorem Store.Swaps.weight_le
    (swaps : s.Swaps p q t)
    (lighter : Statement.weightAll p ≤ Statement.weightAll q) :
    s.weight ≤ t.weight := by
  have readers (reader other : Option Reader) (isSwapped : Option.Rel (Reader.Swaps p q) reader other) :
      (reader.map Reader.weight).getD 0 ≤ (other.map Reader.weight).getD 0 := by
    cases isSwapped with
    | none => exact Nat.le_refl _
    | some each =>
        cases each with
        | same => exact Nat.le_refl _
        | swapped => exact Nat.add_le_add_left lighter 1
  have entries (e f : Key × Capabilities) (each : e.1 = f.1 ∧ e.2.Swaps p q f.2) :
      e.2.weight ≤ f.2.weight := by
    have types : f.2.type = e.2.type := by rw [each.2.rest]
    rw [Capabilities.weight, Capabilities.weight, types]
    exact Nat.add_le_add_left (readers _ _ each.2.reader) _
  have registries (r other : CapabilityRegistry) (isSwapped : r.Swaps p q other) :
      r.weight ≤ other.weight :=
    Nat.add_le_add (total_le_of_forall₂ (isSwapped.explicit.imp entries))
      (total_le_of_forall₂ (isSwapped.cache.imp entries))
  have records (r other : ClassRecord) (isSwapped : r.Swaps p q other) :
      r.weight s.world ≤ other.weight t.world := by
    have bases : other.base = r.base := isSwapped.view (·.base) fun _ _ => rfl
    have programs := isSwapped.hooks.program
    rw [ClassRecord.weight, ClassRecord.weight, isSwapped.cls, isSwapped.body, bases,
      swaps.world.plansOf?]
    generalize r.hooks.program = program, other.hooks.program = otherProgram at programs
    cases programs with
    | same => exact Nat.le_refl _
    | swapped => exact Nat.add_le_add_right (Nat.add_le_add_right (Nat.add_le_add_left lighter _) _) _
  have owns : (s.own.map CapabilityRegistry.weight).getD 0 ≤
      (t.own.map CapabilityRegistry.weight).getD 0 := by
    have own := swaps.own
    generalize s.own = found, t.own = otherFound at own
    cases own with
    | none => exact Nat.le_refl _
    | some isSwapped => exact registries _ _ isSwapped
  have classes := total_le_of_forall₂ (swaps.world.classes.imp records)
  rw [Store.weight, Store.weight]
  exact Nat.add_le_add (Nat.add_le_add (Nat.add_le_add_left classes 1) (registries _ _ swaps.shared))
    owns

end

end SchemaProbe

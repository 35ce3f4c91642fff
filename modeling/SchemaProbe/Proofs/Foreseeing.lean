import SchemaProbe.Proofs.Universe

namespace SchemaProbe

/-!
# What is found out can be foreseen

What looking up a type finds out depends on what is declared and on what is
written, not on when it is done.  The one thing that can get in the way is that
equal types share what was found out for the first of them: where each type of a
universe is written in one way only, every state that is reached by looking types
up knows what could be foreseen from the start, and nothing else.
-/

/-! ## Worlds that declare alike -/

namespace World

/-- Whether two worlds declare the same classes, but for the fields of models. -/
structure DeclaresAlike (w other : World) : Prop where
  hooks : ∀ c, other.hooks c = w.hooks c
  lineage : ∀ c, other.lineage c = w.lineage c
  baseArguments : ∀ c b, other.baseArguments c b = w.baseArguments c b
  body : ∀ c, other.body c = w.body c ∨
    ∃ fields others, w.body c = .model fields ∧ other.body c = .model others

section

variable {w other last : World} {c : ClassRef}

theorem DeclaresAlike.refl (w : World) : w.DeclaresAlike w :=
  ⟨fun _ => rfl, fun _ => rfl, fun _ _ => rfl, fun _ => .inl rfl⟩

theorem DeclaresAlike.trans
    (first : w.DeclaresAlike other)
    (second : other.DeclaresAlike last) :
    w.DeclaresAlike last where
  hooks c := (second.hooks c).trans (first.hooks c)
  lineage c := (second.lineage c).trans (first.lineage c)
  baseArguments c b := (second.baseArguments c b).trans (first.baseArguments c b)
  body c := by
    rcases first.body c with same | ⟨fields, others, isModel, between⟩
    · rw [← same]
      exact second.body c
    · rcases second.body c with unchanged | ⟨_, others, _, isLast⟩
      · exact .inr ⟨fields, others, isModel, unchanged.trans between⟩
      · exact .inr ⟨fields, others, isModel, isLast⟩

theorem DeclaresAlike.symm (alike : w.DeclaresAlike other) : other.DeclaresAlike w where
  hooks c := (alike.hooks c).symm
  lineage c := (alike.lineage c).symm
  baseArguments c b := (alike.baseArguments c b).symm
  body c := by
    rcases alike.body c with same | ⟨fields, others, isModel, later⟩
    · exact .inl same.symm
    · exact .inr ⟨others, fields, later, isModel⟩

/-- Settling a class changes the fields of a model at most. -/
theorem declaresAlike_settle (w : World) (c : ClassRef) : w.DeclaresAlike (w.settle c) where
  hooks := hooks_settle w c
  lineage := lineage_settle w c
  baseArguments := baseArguments_settle w c
  body := body_settle_cases w c

/-- Settling classes changes the fields of models at most. -/
theorem SettlesTo.declaresAlike (settles : w.SettlesTo other) : w.DeclaresAlike other := by
  induction settles with
  | refl => exact .refl w
  | @settle reached c _ inductionHypothesis =>
      exact inductionHypothesis.trans (declaresAlike_settle reached c)

namespace DeclaresAlike

variable (alike : w.DeclaresAlike other)

include alike

theorem inherits (c : ClassRef) (b : Builtin) : other.inherits c b = w.inherits c b := by
  rw [World.inherits, World.inherits, alike.lineage]

theorem members? (c : ClassRef) : other.members? c = w.members? c := by
  unfold World.members?
  rcases alike.body c with same | ⟨fields, others, before, after⟩
  · rw [same]
  · rw [before, after]

theorem memberClass (c : ClassRef) : other.memberClass c = w.memberClass c := by
  rw [World.memberClass, World.memberClass, alike.members?]

/-- A case has the same label. -/
theorem label (v : Value) : other.label v = w.label v := by
  have texts (v : Value) : other.textOf v = w.textOf v := by
    unfold World.textOf
    rw [alike.hooks]
    split
    · rfl
    · split
      all_goals try rfl
      rename_i c fields _
      rcases alike.body c with same | ⟨fields, others, before, after⟩
      · rw [same]
      · rw [before, after]
  unfold World.label
  simp only [texts]

/-- A class is read in the same way. -/
theorem reader? (c : ClassRef) : other.reader? c = w.reader? c := by
  have shapes : other.sequenceShape? c = w.sequenceShape? c := by
    unfold World.sequenceShape?
    simp only [alike.inherits]
  unfold World.reader?
  rw [alike.hooks, shapes, alike.inherits, alike.inherits, alike.baseArguments]
  simp only [alike.baseArguments]
  rcases alike.body c with same | ⟨fields, others, before, after⟩
  · rw [same]
  · rw [before, after]

end DeclaresAlike

/-- The cases of a class that does not list them by a hook are its members. -/
theorem run_classCases (uncased : (w.hooks c).cases = none) :
    (classCases c).run w = (.ok (w.members? c), w) := by
  rw [classCases, Step.run_bind_of_ok (Step.run_current _), uncased]
  rfl

/-- The same is found out about a class where classes are declared alike. -/
theorem DeclaresAlike.classCapabilities
    (alike : w.DeclaresAlike other)
    (uncased : (w.hooks c).cases = none) :
    ∃ caps, (SchemaProbe.classCapabilities c).run w = (.ok caps, w) ∧
      (SchemaProbe.classCapabilities c).run other = (.ok caps, other) := by
  have otherUncased : (other.hooks c).cases = none := by rw [alike.hooks, uncased]
  have kinds : other.kind? c = w.kind? c := by
    unfold kind?
    rw [alike.hooks]
  have labels : other.label = w.label := funext alike.label
  simp only [SchemaProbe.classCapabilities, Step.run_bind_of_ok (Step.run_current _), kinds,
    alike.inherits, alike.hooks]
  cases w.kind? c with
  | some kind => exact ⟨_, rfl, rfl⟩
  | none =>
      simp only
      split
      · exact ⟨_, rfl, rfl⟩
      · rw [Step.run_bind_of_ok (run_classCases uncased),
          Step.run_bind_of_ok (run_classCases otherUncased)]
        simp only [Step.run_bind_of_ok (Step.run_current _), alike.members?, alike.reader?, labels]
        exact ⟨_, rfl, rfl⟩

end

end World

/-! ## What looking up would find -/

/-- Whether each type of some is written in one way. -/
def SpelledOnce (among : TypeForm → Prop) : Prop :=
  ∀ a b, among a → among b → a.identity = b.identity → a = b

namespace Store

/-- What looking up a type form would find out about it. -/
def foresee (s : Store) (a : TypeForm) : Option Capabilities :=
  ((lookup .current a).run s).1.toOption

/-- Whether a later state knows nothing but what was known before and what was to be
foreseen of some types. -/
structure Recalls (s later : Store) (among : TypeForm → Prop) : Prop where
  alike : s.world.DeclaresAlike later.world
  kept : ∀ a caps, (s.registry .current).find? a = some caps →
    (later.registry .current).find? a = some caps
  foreseen : ∀ a caps, (later.registry .current).find? a = some caps →
    (s.registry .current).find? a = some caps ∨
      ∃ b, among b ∧ b.identity = a.identity ∧ s.foresee b = some caps

section

variable {s later : Store} {forms : List TypeForm} {allowed : Allowance} {among : TypeForm → Prop}
  {a : TypeForm} {c : ClassRef} {caps : Capabilities}

theorem Recalls.refl (s : Store) (among : TypeForm → Prop) : s.Recalls s among :=
  ⟨.refl _, fun _ _ found => found, fun _ _ found => .inl found⟩

/-- What is known does not depend on the rest of a state. -/
theorem Recalls.of_registry
    {last : Store}
    (recalls : s.Recalls later among)
    (alike : later.world.DeclaresAlike last.world)
    (registry : last.registry .current = later.registry .current) :
    s.Recalls last among where
  alike := recalls.alike.trans alike
  kept b caps found := by
    rw [registry]
    exact recalls.kept b caps found
  foreseen b caps found := by
    rw [registry] at found
    exact recalls.foreseen b caps found

/-- What is found out about a type that is not known is remembered. -/
theorem run_remembered_of_unknown
    {resolve : Step Store Capabilities}
    (unknown : (s.registry .current).find? a = none)
    (ran : resolve.run s = (.ok caps, later)) :
    (remembered .current a resolve).run s = (.ok caps, later.remembering a caps) := by
  rw [remembered, Step.run_bind_of_ok (Step.run_current s), unknown]
  exact Step.run_bind_of_ok ran _

/-- What is known is foreseen. -/
theorem foresee_of_known
    (plain : a.isPlain = true)
    (found : (s.registry .current).find? a = some caps) :
    s.foresee a = some caps := by
  rw [foresee, lookup_of_plain plain, run_remembered_of_known _ found]
  rfl

/-- What is found out about a type that is not known is foreseen. -/
theorem foresee_of_unknown
    {reached : Store}
    (plain : a.isPlain = true)
    (unknown : (s.registry .current).find? a = none)
    (ran : (resolveBare .current a).run s = (.ok caps, reached)) :
    s.foresee a = some caps := by
  rw [foresee, lookup_of_plain plain, run_remembered_of_unknown unknown ran]
  rfl

/-- What a later state knows of a type is what was foreseen. -/
theorem Recalls.foresee_of_found
    (recalls : s.Recalls later among)
    (once : SpelledOnce among)
    (isAmong : among a)
    (plain : a.isPlain = true)
    (found : (later.registry .current).find? a = some caps) :
    s.foresee a = some caps := by
  rcases recalls.foreseen a caps found with known | ⟨b, isOther, identity, foreseen⟩
  · exact foresee_of_known plain known
  · rwa [once b a isOther isAmong identity] at foreseen

/-- What a later state does not know was not known before. -/
theorem Recalls.unknown
    (recalls : s.Recalls later among)
    (unknown : (later.registry .current).find? a = none) :
    (s.registry .current).find? a = none := by
  cases found : (s.registry .current).find? a with
  | none => rfl
  | some caps =>
      rw [recalls.kept a caps found] at unknown
      cases unknown

/-- Remembering what is foreseen of a type that is not known loses nothing. -/
theorem Recalls.remembering
    (recalls : s.Recalls later among)
    (isAmong : among a)
    (unknown : (s.registry .current).find? a = none)
    (foreseen : s.foresee a = some caps) :
    s.Recalls (later.remembering a caps) among where
  alike := by
    rw [world_remembering]
    exact recalls.alike
  kept b others found := by
    rw [Store.remembering, registry_changeRegistry]
    by_cases same : b.identity = a.identity
    · rw [find?_congr _ same, unknown] at found
      cases found
    · rw [find?_remember_of_ne _ _ same]
      exact recalls.kept b others found
  foreseen b others found := by
    rw [Store.remembering, registry_changeRegistry] at found
    by_cases same : b.identity = a.identity
    · rw [find?_remember_self _ _ same] at found
      cases found
      exact .inr ⟨a, isAmong, same.symm, foreseen⟩
    · rw [find?_remember_of_ne _ _ same] at found
      exact recalls.foreseen b others found

/-- Classes are found out about as foreseen. -/
theorem Recalls.resolveClass
    (recalls : s.Recalls later among)
    (uncased : (s.world.hooks c).cases = none) :
    ∃ caps reached last,
      (SchemaProbe.resolveClass c).run s = (.ok caps, reached) ∧
        (SchemaProbe.resolveClass c).run later = (.ok caps, last) ∧ s.Recalls last among := by
  obtain ⟨caps, ran, laterRan⟩ := recalls.alike.classCapabilities uncased
  have found : (Step.inWorld (classCapabilities c)).run s = (.ok caps, s) := by
    rw [Step.inWorld, Step.run_within, ran]
  have laterFound : (Step.inWorld (classCapabilities c)).run later = (.ok caps, later) := by
    rw [Step.inWorld, Step.run_within, laterRan]
  rw [SchemaProbe.resolveClass, Step.run_bind_of_ok found, Step.run_bind_of_ok laterFound]
  cases caps.lacksReader with
  | false => exact ⟨caps, s, later, rfl, rfl, recalls⟩
  | true => exact ⟨caps, _, _, rfl, rfl, recalls.of_registry (.refl _) rfl⟩

/-- Looking up a class finds what is foreseen. -/
theorem Recalls.lookupClass
    (recalls : s.Recalls later among)
    (once : SpelledOnce among)
    (isAmong : among (.cls c))
    (uncased : (s.world.hooks c).cases = none) :
    ∃ caps reached last,
      (SchemaProbe.lookupClass .current c).run s = (.ok caps, reached) ∧
        (SchemaProbe.lookupClass .current c).run later = (.ok caps, last) ∧
        s.foresee (.cls c) = some caps ∧ s.Recalls last among := by
  have foreseen {caps : Capabilities} {reached : Store}
      (ran : (SchemaProbe.lookupClass .current c).run s = (.ok caps, reached)) :
      s.foresee (.cls c) = some caps := by
    cases found : (s.registry .current).find? (.cls c) with
    | some known =>
        rw [SchemaProbe.lookupClass, run_remembered_of_known _ found] at ran
        cases ran
        exact foresee_of_known rfl found
    | none => exact foresee_of_unknown rfl found ran
  -- What is found out about a class that neither state knows.
  obtain ⟨caps, reached, last, ran, laterRan, lastRecalls⟩ : ∃ caps reached last,
      (if c == .builtin .object then pure (.named (.cls c) anyName)
        else SchemaProbe.resolveClass c).run s = (.ok caps, reached) ∧
      (if c == .builtin .object then pure (.named (.cls c) anyName)
        else SchemaProbe.resolveClass c).run later = (.ok caps, last) ∧
      s.Recalls last among := by
    split
    · exact ⟨_, s, later, rfl, rfl, recalls⟩
    · exact recalls.resolveClass uncased
  cases laterFound : (later.registry .current).find? (.cls c) with
  | none =>
      have unknown := recalls.unknown laterFound
      have found := run_remembered_of_unknown unknown ran
      exact ⟨caps, _, _, found, run_remembered_of_unknown laterFound laterRan, foreseen found,
        lastRecalls.remembering isAmong unknown (foreseen found)⟩
  | some known =>
      have isForeseen := recalls.foresee_of_found once isAmong rfl laterFound
      obtain ⟨own, ownReached, ownRan⟩ : ∃ own reached,
          (SchemaProbe.lookupClass .current c).run s = (.ok own, reached) := by
        cases found : (s.registry .current).find? (.cls c) with
        | some own => exact ⟨own, s, run_remembered_of_known _ found⟩
        | none => exact ⟨caps, _, run_remembered_of_unknown found ran⟩
      have same := foreseen ownRan
      rw [isForeseen] at same
      cases same
      exact ⟨known, _, later, ownRan, run_remembered_of_known _ laterFound, isForeseen, recalls⟩

end

end Store

/-! ## Names of types that are read -/

/-- Whether what is known about a type, if the type is read, is known of one type form:
it goes by the name of what the type form is read as, and is not described where that
may be null. -/
def Capabilities.IsNamedFor (caps : Capabilities) (a : TypeForm) : Prop :=
  caps.reader.isSome = true →
    caps.type = a ∧ caps.name = a.stripNull.1.schemaName ∧
      (a.stripNull.2 = true → caps.description = none)

section

variable {s reached : Store} {a : TypeForm} {c : ClassRef} {caps : Capabilities}

/-- What is named after a type form that is no union with null is named for it. -/
theorem Capabilities.isNamedFor_of_name
    (required : a.stripNull = (a, false))
    (isType : caps.type = a)
    (isName : caps.name = a.schemaName) :
    caps.IsNamedFor a := by
  intro _
  rw [required]
  exact ⟨isType, isName, fun absent => nomatch absent⟩

/-- What is found out about a union is named for it. -/
theorem isNamedFor_unionCapabilities
    (style : UnionStyle)
    (members : List TypeForm) :
    (unionCapabilities (.union style members)).IsNamedFor (.union style members) := by
  intro reads
  unfold unionCapabilities at reads ⊢
  split
  · rename_i inner stripped
    rw [stripped]
    exact ⟨rfl, rfl, fun _ => rfl⟩
  · rename_i other stripped
    rw [stripped] at reads
    cases reads

/-- What is found out about a class is named for it. -/
theorem isNamedFor_of_resolveClass
    (ran : (resolveClass c).run s = (.ok caps, reached)) :
    caps.IsNamedFor (.cls c) := by
  obtain ⟨found, between, classRan, noted⟩ := Step.run_bind_eq_ok_iff.mp ran
  have named : found.type = .cls c ∧ found.name = c.schemaName := by
    have inWorld := Step.run_within Store.world (fun world s => { s with world := world })
      (classCapabilities c) s
    cases ended : (classCapabilities c).run s.world with
    | mk outcome world =>
        rw [ended] at inWorld
        rw [Step.inWorld, inWorld] at classRan
        cases classRan
        rw [classCapabilities, Step.run_bind_of_ok (Step.run_current _)] at ended
        split at ended
        · cases ended
          exact ⟨rfl, rfl⟩
        · split at ended
          · cases ended
            exact ⟨rfl, rfl⟩
          · obtain ⟨cases, later, _, result⟩ := Step.run_bind_eq_ok_iff.mp ended
            cases result
            exact ⟨rfl, rfl⟩
  obtain rfl : found = caps := by
    split at noted <;> cases noted <;> rfl
  exact Capabilities.isNamedFor_of_name rfl named.1 named.2

/-- What looking up a class finds is named for it, if what is known is. -/
theorem isNamedFor_of_lookupClass
    (known : ∀ own, (s.registry .current).find? (.cls c) = some own → own.IsNamedFor (.cls c))
    (ran : (lookupClass .current c).run s = (.ok caps, reached)) :
    caps.IsNamedFor (.cls c) := by
  cases found : (s.registry .current).find? (.cls c) with
  | some own =>
      rw [lookupClass, Store.run_remembered_of_known _ found] at ran
      cases ran
      exact known _ found
  | none =>
      rw [lookupClass, remembered, Step.run_bind_of_ok (Step.run_current s), found] at ran
      obtain ⟨own, between, resolved, result⟩ := Step.run_bind_eq_ok_iff.mp ran
      cases result
      split at resolved
      · cases resolved
        intro reads
        cases reads
      · exact isNamedFor_of_resolveClass resolved

/-- What applies something to arguments is no union with null. -/
theorem TypeForm.stripNull_of_alias
    {origin : Origin}
    (applies : a.aliasOrigin? = some origin) :
    a.stripNull = (a, false) := by
  cases a with
  | annotated inner notes => cases applies
  | union style members => cases applies
  | _ => rfl

end

/-- What applies something to arguments is found out at once and named for it, or is the
class that it applies. -/
theorem resolveApplied_cases
    {a : TypeForm}
    {c : ClassRef}
    (scope : Scope)
    (args : List TypeForm)
    (applies : a.aliasOrigin? = some (.cls c)) :
    (∃ caps, resolveApplied scope a (.cls c) args = pure caps ∧ caps.IsNamedFor a ∧
        ∀ d, caps.reader ≠ some (.fields d)) ∨
      resolveApplied scope a (.cls c) args = resolveApplied.asOrigin scope a c := by
  have named (reader : Reader) (placeholder : Value) (notFields : ∀ d, reader ≠ .fields d) :
      (Capabilities.readBy a reader placeholder).IsNamedFor a ∧
        ∀ d, (Capabilities.readBy a reader placeholder).reader ≠ some (.fields d) :=
    ⟨Capabilities.isNamedFor_of_name (TypeForm.stripNull_of_alias applies) rfl rfl,
      fun d same => notFields d (Option.some.inj same)⟩
  have notTuple (args : List TypeForm) (d : ClassRef) : tupleReader args ≠ .fields d := by
    unfold tupleReader
    split <;> exact Reader.noConfusion
  cases c with
  | builtin b =>
      simp only [resolveApplied]
      split
      · exact .inl ⟨_, rfl, named _ _ fun _ => Reader.noConfusion⟩
      · split
        · exact .inl ⟨_, rfl, named _ _ (notTuple args)⟩
        · split
          · exact .inl ⟨_, rfl, named _ _ fun _ => Reader.noConfusion⟩
          · exact .inr rfl
  | _ => exact .inr rfl

/-- What is found out about a type without notes comes from the declared classes
alone, or from looking up its class; at once it is found out under its own name, and
without fields. -/
theorem resolveBare_cases
    {a : TypeForm}
    (plain : a.isPlain = true)
    (accepted : a.hasCapabilities = true) :
    (∃ caps, resolveBare .current a = pure caps ∧ caps.IsNamedFor a ∧
        ∀ d, caps.reader ≠ some (.fields d)) ∨
      (∃ values, a = .literal values) ∨
      (∃ c, a = .cls c) ∨
      ∃ c, a.aliasOrigin? = some (.cls c) ∧
        resolveBare .current a = resolveApplied.asOrigin .current a c := by
  have applied {a : TypeForm} {c : ClassRef} (args : List TypeForm)
      (resolves : resolveBare .current a = resolveApplied .current a (.cls c) args)
      (applies : a.aliasOrigin? = some (.cls c)) :
      (∃ caps, resolveBare .current a = pure caps ∧ caps.IsNamedFor a ∧
        ∀ d, caps.reader ≠ some (.fields d)) ∨
        (∃ values, a = .literal values) ∨ (∃ c, a = .cls c) ∨
        ∃ c, a.aliasOrigin? = some (.cls c) ∧
          resolveBare .current a = resolveApplied.asOrigin .current a c := by
    rw [resolves]
    rcases resolveApplied_cases .current args applies with isPure | asOrigin
    · exact .inl isPure
    · exact .inr (.inr (.inr ⟨c, applies, asOrigin⟩))
  have unread (name : String) : (Capabilities.named a name).IsNamedFor a ∧
      ∀ d, (Capabilities.named a name).reader ≠ some (.fields d) := by
    constructor
    · intro reads
      cases reads
    · intro d reads
      cases reads
  cases a with
  | any => exact .inl ⟨_, rfl, unread _⟩
  | «variable» name => exact .inl ⟨_, rfl, unread _⟩
  | cls c => exact .inr (.inr (.inl ⟨c, rfl⟩))
  | union style members =>
      refine .inl ⟨_, rfl, isNamedFor_unionCapabilities style members, fun d reads => ?_⟩
      unfold unionCapabilities at reads
      split at reads <;> cases reads
  | literal values => exact .inr (.inl ⟨values, rfl⟩)
  | bare b => exact applied [] rfl rfl
  | generic origin args =>
      cases origin with
      | cls c => exact applied args rfl rfl
      | _ => cases accepted
  | callable params result => exact applied (params ++ [result]) rfl rfl
  | annotated inner notes => cases plain
  | _ => cases accepted

namespace Store

section

variable {s later : Store} {forms : List TypeForm} {allowed : Allowance} {among : TypeForm → Prop}
  {a : TypeForm}

/-- Whether a state was reached from another one by looking up types of a universe. -/
structure Follows
    (s later : Store)
    (forms : List TypeForm)
    (allowed : Allowance)
    (among : TypeForm → Prop) :
    Prop where
  ready : later.Ready forms allowed
  grows : s.GrowsTo later
  recalls : s.Recalls later among

/-- What is found out about a type of the universe is foreseen. -/
theorem Recalls.resolveBare
    (recalls : s.Recalls later among)
    (once : SpelledOnce among)
    (covers : s.world.Covers forms allowed)
    (within : ∀ b ∈ forms, among b)
    (member : a ∈ forms)
    (accepted : a.hasCapabilities = true) :
    ∃ caps reached last,
      (SchemaProbe.resolveBare .current a).run s = (.ok caps, reached) ∧
        (SchemaProbe.resolveBare .current a).run later = (.ok caps, last) ∧
        s.Recalls last among := by
  have classes (c : ClassRef) (isForm : .cls c ∈ forms) :=
    recalls.lookupClass once (within _ isForm) (covers.cases c isForm)
  rcases resolveBare_cases (covers.plain a member) accepted with
    ⟨caps, isPure, _, _⟩ | ⟨values, rfl⟩ | ⟨c, rfl⟩ | ⟨c, applies, asOrigin⟩
  · rw [isPure]
    exact ⟨caps, s, later, rfl, rfl, recalls⟩
  · refine ⟨literalCapabilities s.world (.literal values) values, s, later, rfl, ?_, recalls⟩
    have labels : later.world.label = s.world.label := funext recalls.alike.label
    have same : literalCapabilities later.world (.literal values) values =
        literalCapabilities s.world (.literal values) values := by
      rw [literalCapabilities, literalCapabilities, labels]
    rw [← same]
    rfl
  · obtain ⟨caps, reached, last, ran, laterRan, _, lastRecalls⟩ := classes c member
    exact ⟨caps, reached, last, ran, laterRan, lastRecalls⟩
  · obtain ⟨caps, reached, last, ran, laterRan, _, lastRecalls⟩ :=
      classes c (covers.origin_mem member applies)
    refine ⟨{ caps with type := a, name := a.schemaName }, reached, last, ?_, ?_, lastRecalls⟩
    · rw [asOrigin, resolveApplied.asOrigin, Step.run_bind_of_ok ran]
      rfl
    · rw [asOrigin, resolveApplied.asOrigin, Step.run_bind_of_ok laterRan]
      rfl

/-- Looking up a type of the universe finds what is foreseen, and nothing else. -/
theorem Follows.lookup
    (follows : s.Follows later forms allowed among)
    (once : SpelledOnce among)
    (within : ∀ b ∈ forms, among b)
    (member : a ∈ forms)
    (accepted : a.hasCapabilities = true) :
    ∃ caps last, (SchemaProbe.lookup .current a).run later = (.ok caps, last) ∧
      (last.registry .current).find? a = some caps ∧ s.foresee a = some caps ∧
      s.Follows last forms allowed among := by
  have plain := follows.ready.covers.plain a member
  have covers := covers_congr follows.ready.covers follows.grows.reading.symm
  obtain ⟨caps, last, ran, learns, found⟩ := lookup_learns follows.ready member accepted
  refine ⟨caps, last, ran, found, ?_⟩
  suffices foreseen : s.foresee a = some caps ∧ s.Recalls last among from
    ⟨foreseen.1, learns.ready, follows.grows.trans learns.grows, foreseen.2⟩
  rw [lookup_of_plain plain] at ran
  cases laterFound : (later.registry .current).find? a with
  | some known =>
      rw [run_remembered_of_known _ laterFound] at ran
      cases ran
      exact ⟨follows.recalls.foresee_of_found once (within a member) plain laterFound,
        follows.recalls⟩
  | none =>
      have unknown := follows.recalls.unknown laterFound
      obtain ⟨own, reached, between, ownRan, laterRan, recalls⟩ :=
        follows.recalls.resolveBare once covers within member accepted
      rw [run_remembered_of_unknown laterFound laterRan] at ran
      cases ran
      have foreseen := foresee_of_unknown plain unknown ownRan
      exact ⟨foreseen, recalls.remembering (within a member) unknown foreseen⟩

/-- What is foreseen of the types of a universe is named for them, if what is known of
them is. -/
theorem Ready.isNamedFor_of_foresee
    {caps : Capabilities}
    (ready : s.Ready forms allowed)
    (named : ∀ own, (s.registry .current).find? a = some own → own.IsNamedFor a)
    (member : a ∈ forms)
    (accepted : a.hasCapabilities = true)
    (foreseen : s.foresee a = some caps) :
    caps.IsNamedFor a := by
  have plain := ready.covers.plain a member
  cases found : (s.registry .current).find? a with
  | some own =>
      rw [foresee_of_known plain found] at foreseen
      cases foreseen
      exact named _ found
  | none =>
      obtain ⟨own, reached, ran, _⟩ := resolveBare_learns ready member accepted
      rw [foresee_of_unknown plain found ran] at foreseen
      cases foreseen
      rcases resolveBare_cases plain accepted with
        ⟨caps, isPure, isNamed, _⟩ | ⟨values, rfl⟩ | ⟨c, rfl⟩ | ⟨c, applies, asOrigin⟩
      · rw [isPure] at ran
        cases ran
        exact isNamed
      · cases ran
        exact Capabilities.isNamedFor_of_name rfl rfl rfl
      · exact isNamedFor_of_lookupClass named ran
      · rw [asOrigin] at ran
        obtain ⟨caps, between, _, result⟩ := Step.run_bind_eq_ok_iff.mp ran
        cases result
        exact Capabilities.isNamedFor_of_name (TypeForm.stripNull_of_alias applies) rfl rfl

end

end Store

end SchemaProbe

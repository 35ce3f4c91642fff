import SchemaProbe.Proofs.DeclaringEarly
import SchemaProbe.Proofs.DescribingEarly

namespace SchemaProbe

/-!
# The order of definitions

In a session classes are defined and types are described, in whatever order.  Once all
classes are defined, a type is described in the same way as in any other session that
defines the same classes, whatever was described before and in whatever order the classes
were defined.
-/

open Step

/-! ## Sessions -/

/-- Describes a written type. -/
def TypeTerm.describe (t : TypeTerm) : Step Store Shape := do
  SchemaProbe.describe (← Step.inWorld (t.resolve .strict))

/-- Describes a written type to a depth. -/
def TypeTerm.describeTo (depth : Nat) (t : TypeTerm) : Step Store Shape := do
  SchemaProbe.describeTo depth (← Step.inWorld (t.resolve .strict))

/-- What is done in a session. -/
inductive Action
  | define (d : ClassDeclaration)
  | describe (t : TypeTerm)

namespace Action

/-- The class that is defined. -/
def definition? : Action → Option ClassDeclaration
  | .define d => some d
  | .describe _ => none

/-- The state after a session, if each of its classes can be defined.  How types are
described does not matter. -/
def after : List Action → Store → Option Store
  | [], s => some s
  | .define d :: rest, s =>
    match (Step.inWorld d.declare).run s with
    | (.ok _, reached) => after rest reached
    | (.error _, _) => none
  | .describe t :: rest, s => after rest (t.describe.run s).2

end Action

/-- The classes that are defined in a session, in this order. -/
def definitions (actions : List Action) : List ClassDeclaration :=
  actions.filterMap Action.definition?

/-- What is kept by defining a class and by describing a type holds after a session. -/
theorem Action.after_induction
    {motive : List ClassDeclaration → Store → Prop}
    {actions : List Action}
    {s reached : Store}
    (past : List ClassDeclaration)
    (describes : ∀ past s t, .describe t ∈ actions → motive past s →
      motive past (t.describe.run s).2)
    (defines : ∀ past s d reached, .define d ∈ actions → (∀ e ∈ past, e.name ≠ d.name) →
      (Step.inWorld d.declare).run s = (.ok (), reached) → motive past s →
        motive (d :: past) reached)
    (distinct : ((past.reverse ++ definitions actions).map (·.name)).Nodup)
    (start : motive past s)
    (ran : after actions s = some reached) :
    motive ((definitions actions).reverse ++ past) reached := by
  induction actions generalizing past s with
  | nil =>
      cases ran
      exact start
  | cons action rest inductionHypothesis =>
      have restDescribes past s t (member : .describe t ∈ rest) :=
        describes past s t (List.mem_cons_of_mem _ member)
      have restDefines past s d reached (member : .define d ∈ rest) :=
        defines past s d reached (List.mem_cons_of_mem _ member)
      cases action with
      | describe t =>
          exact inductionHypothesis past restDescribes restDefines distinct
            (describes past s t List.mem_cons_self start) ran
      | define d =>
          rw [after] at ran
          split at ran
          · rename_i between declared
            change ((past.reverse ++ d :: definitions rest).map (·.name)).Nodup at distinct
            have fresh (e : ClassDeclaration) (isPast : e ∈ past) : e.name ≠ d.name := by
              rw [List.map_append, List.nodup_append] at distinct
              exact distinct.2.2 e.name (List.mem_map_of_mem (List.mem_reverse.mpr isPast)) d.name
                List.mem_cons_self
            have moved : past.reverse ++ d :: definitions rest =
                (d :: past).reverse ++ definitions rest := by
              rw [List.reverse_cons, List.append_assoc, List.singleton_append]
            rw [moved] at distinct
            have ended := inductionHypothesis (d :: past) restDescribes restDefines distinct
              (defines past s d between List.mem_cons_self fresh declared start) ran
            change motive ((d :: definitions rest).reverse ++ past) reached
            rw [List.reverse_cons, List.append_assoc, List.singleton_append]
            exact ended
          · cases ran

section

variable {among : TypeForm → Prop} {ofName : String → Option TypeForm} {last base w : World}
  {s reached : Store} {past : List ClassDeclaration} {d : ClassDeclaration} {r : ClassRecord}

/-- Describing a worded type leaves a state on the way. -/
theorem Store.IsOnWay.describeTerm
    {t : TypeTerm}
    (words : TypeForm.Vocabulary among ofName)
    (onWay : s.IsOnWay among ofName base)
    (worded : TypeTerm.AreWorded among ofName t.parts) :
    (t.describe.run s).2.IsOnWay among ofName base := by
  have resolved : TiedAt (.onWay among ofName base base False)
      (Same (TypeForm.IsMet among base.declared)) (Step.inWorld (t.resolve .strict))
      (Step.inWorld (t.resolve .strict)) s s :=
    onWay_resolve words worded s s ⟨onWay, onWay, rfl, .inl rfl⟩
  unfold TypeTerm.describe
  cases resolved with
  | ok firstRun _ ties same =>
      rw [run_bind_of_ok firstRun]
      exact ties.first.describe words same.2
  | error firstRun _ ties _ =>
      rw [run_bind_of_error firstRun]
      exact ties.first
  | lapsed _ lapsed => exact lapsed.elim

/-! ## What is defined -/

/-- The class that a declaration makes when it is the first of its name. -/
def ClassDeclaration.cls (d : ClassDeclaration) : UserClass :=
  ⟨1, d.name, d.home⟩

/-- Whether a state is on the way and just some classes are defined in it, under their
names. -/
structure Store.Defines
    (among : TypeForm → Prop)
    (ofName : String → Option TypeForm)
    (past : List ClassDeclaration)
    (s : Store) :
    Prop where
  onWay : s.IsOnWay among ofName s.world
  bound : ∀ d ∈ past, s.world.names.lookup d.name = some (.cls (.user d.cls))
  names : ∀ name a, s.world.names.lookup name = some a → ∃ d ∈ past, d.name = name
  declared : ∀ u, s.world.declared u → ∃ d ∈ past, d.cls = u

/-- Describing a worded type defines nothing. -/
theorem Store.Defines.describe
    {t : TypeTerm}
    (words : TypeForm.Vocabulary among ofName)
    (defines : s.Defines among ofName past)
    (worded : TypeTerm.AreWorded among ofName t.parts) :
    (t.describe.run s).2.Defines among ofName past ∧
      s.world.SameInEnd ofName (t.describe.run s).2.world := by
  have onWay := defines.onWay.describeTerm words worded
  have same := onWay.world.same
  refine ⟨⟨onWay.rebase, ?_, ?_, fun u declared => ?_⟩, same⟩
  · rw [same.names]
    exact defines.bound
  · rw [same.names]
    exact defines.names
  · exact defines.declared u ((same.declares_iff u).mp declared)

/-- Whether a class of a declaration was made at a stage of a world, and it is in the world
what it was then. -/
structure World.HoldsFrom
    (among : TypeForm → Prop)
    (ofName : String → Option TypeForm)
    (later w : World)
    (d : ClassDeclaration)
    (r : ClassRecord) :
    Prop where
  onWay : w.IsOnWay among ofName w.declared
  stage : World.IsStage ofName later w
  fresh : w.nextClass d.name d.home = d.cls
  makes : d.MakesIn w r
  record : (later.record? d.cls).map (ClassRecord.final ofName) = some (r.final ofName)

/-- What a world holds is held by every world of which it is a stage. -/
theorem World.HoldsFrom.mono
    {between : World}
    (holds : between.HoldsFrom among ofName w d r)
    (stage : World.IsStage ofName last between) :
    last.HoldsFrom among ofName w d r := by
  obtain ⟨q, isRecord, same⟩ := Option.map_eq_some_iff.mp holds.record
  exact ⟨holds.onWay, stage.trans holds.stage, holds.fresh, holds.makes,
    (stage.records _ q isRecord).trans (congrArg some same)⟩

/-- A class of a new name is the first of its name. -/
theorem Store.Defines.nextClass_eq
    (defines : s.Defines among ofName past)
    (same : s.world.SameInEnd ofName w)
    (fresh : ∀ e ∈ past, e.name ≠ d.name) :
    w.nextClass d.name d.home = d.cls ∧ w.record? d.cls = none := by
  have other (u : UserClass) (declared : w.Declares (.user u)) : u.name ≠ d.name := by
    obtain ⟨e, isPast, rfl⟩ := defines.declared u ((same.declares_iff u).mp declared)
    exact fresh e isPast
  have earlier : (w.classes.filter fun r => r.cls.name == d.name && r.cls.home == d.home) = [] := by
    refine List.filter_eq_nil_iff.mpr fun r member named => ?_
    have declared : w.Declares (.user r.cls) :=
      List.find?_isSome.mpr ⟨r, member, beq_self_eq_true _⟩
    exact other r.cls declared (beq_iff_eq.mp (Bool.and_eq_true_iff.mp named).1)
  constructor
  · unfold World.nextClass
    rw [earlier]
    rfl
  · by_contra found
    exact other d.cls (Option.isSome_iff_ne_none.mpr found) rfl

/-- A class of a new name that is declared on the way is held from then on. -/
theorem Store.Defines.define
    (words : TypeForm.Vocabulary among ofName)
    (worded : d.IsWorded among ofName)
    (named : ofName d.name = some (.cls (.user d.cls)))
    (defines : s.Defines among ofName past)
    (fresh : ∀ e ∈ past, e.name ≠ d.name)
    (ran : (Step.inWorld d.declare).run s = (.ok (), reached)) :
    reached.Defines among ofName (d :: past) ∧
      ∃ w r, s.world.SameInEnd ofName w ∧ r.cls = d.cls ∧ w.record? r.cls = none ∧
        reached.world = w.declaring d.form.fieldNames r ∧
          reached.world.HoldsFrom among ofName w d r := by
  obtain ⟨later, declared, rfl⟩ : ∃ later, d.declare.run s.world = (.ok (), later) ∧
      reached = { s with world := later } := by
    obtain ⟨isOk, rfl⟩ := Prod.mk.inj ran
    exact ⟨_, Prod.ext isOk rfl, rfl⟩
  obtain ⟨w, r, leads, makes, rfl⟩ :=
    ClassDeclaration.exists_of_declare words defines.onWay.world.onWay worded declared
  obtain ⟨next, unknown⟩ := defines.nextClass_eq leads.same fresh
  have isClass : r.cls = d.cls := makes.cls_eq.trans next
  have isName : r.cls.name = d.name := congrArg UserClass.name isClass
  rw [← isClass] at unknown
  have classNamed : ofName r.cls.name = some (.cls (.user r.cls)) := by
    rw [isName, isClass, named]
  obtain ⟨onWay, stage, record⟩ :=
    leads.onWay.declaring words worded makes unknown classNamed d.form.fieldNames
  have lookup (name : String) : (w.declaring d.form.fieldNames r).names.lookup name =
      if d.name = name then some (.cls (.user d.cls)) else s.world.names.lookup name := by
    rw [World.lookup_declaring, isName, isClass, leads.same.names]
  refine ⟨⟨?_, fun e member => ?_, fun name a found => ?_, fun u isDeclared => ?_⟩,
    w, r, leads.same, isClass, unknown, rfl, ?_⟩
  · exact defines.onWay.extend (stage.trans leads.same.symm.isStage_self) onWay.of_declared
  · rw [lookup]
    rcases List.mem_cons.mp member with rfl | isPast
    · rw [if_pos rfl]
    · rw [if_neg (Ne.symm (fresh e isPast))]
      exact defines.bound e isPast
  · rw [lookup] at found
    split at found
    · rename_i isOwn
      exact ⟨d, List.mem_cons_self, isOwn⟩
    · obtain ⟨e, isPast, isOther⟩ := defines.names name a found
      exact ⟨e, List.mem_cons_of_mem _ isPast, isOther⟩
  · rcases (onWay.declares u).mp isDeclared with before | rfl
    · obtain ⟨e, isPast, isOther⟩ := defines.declared u before
      exact ⟨e, List.mem_cons_of_mem _ isPast, isOther⟩
    · exact ⟨d, List.mem_cons_self, isClass.symm⟩
  · exact ⟨leads.onWay.of_declared, stage, next, makes, isClass ▸ record⟩

/-! ## After a session -/

/-- Whether the classes that are defined in sessions are worded and have names of their
own, and what is described in between is worded. -/
structure Action.AreWorded
    (among : TypeForm → Prop)
    (ofName : String → Option TypeForm)
    (actions : List Action) :
    Prop where
  defines : ∀ d, .define d ∈ actions → d.IsWorded among ofName
  named : ∀ d, .define d ∈ actions → ofName d.name = some (.cls (.user d.cls))
  describes : ∀ t, .describe t ∈ actions → TypeTerm.AreWorded among ofName t.parts
  distinct : ((definitions actions).map (·.name)).Nodup

/-- Nothing is defined in the beginning. -/
theorem Store.defines_initial
    (core : ∀ name a, World.coreName? name = some a → ofName name = some a) :
    Store.initial.Defines among ofName [] := by
  have unrecorded (u : UserClass) : Store.initial.world.record? u = none := rfl
  have unbound (name : String) : Store.initial.world.names.lookup name = none := rfl
  have undeclared (u : UserClass) : ¬Store.initial.world.declared u := by
    rw [World.declared, World.Declares, unrecorded]
    exact Bool.false_ne_true
  have absent {u : UserClass} {r : ClassRecord} (found : Store.initial.world.record? u = some r) :
      False :=
    Option.some_ne_none r (found.symm.trans (unrecorded u))
  have onWay : Store.initial.world.IsOnWay among ofName Store.initial.world.declared := by
    refine ⟨fun _ => Iff.rfl, isClosed_initial, fun _ _ found => (absent found).elim,
      fun _ _ found => (absent found).elim, fun _ _ found => (absent found).elim,
      fun _ member => absurd member List.not_mem_nil, fun name a found => ?_,
      fun u declared => absurd declared (undeclared u)⟩
    rw [World.typeOf?, unbound, Option.none_or] at found
    refine ⟨core name a found, ?_⟩
    obtain ⟨b, -, rfl⟩ := Option.map_eq_some_iff.mp found
    exact TypeForm.isOver_of_none rfl
  refine ⟨⟨onWay.refl, rfl, rfl, fun key caps cached => ?_⟩,
    fun d member => absurd member List.not_mem_nil, fun name a found => ?_,
    fun u declared => absurd declared (undeclared u)⟩
  · have uncached : Store.initial.shared.cache.lookup key = none := rfl
    rw [uncached] at cached
    cases cached
  · rw [unbound] at found
    cases found

/-- After a session its classes are defined, and each of them is held as it was made. -/
theorem Action.after_defines
    {actions : List Action}
    (words : TypeForm.Vocabulary among ofName)
    (core : ∀ name a, World.coreName? name = some a → ofName name = some a)
    (worded : AreWorded among ofName actions)
    (ran : after actions .initial = some s) :
    s.Defines among ofName (definitions actions).reverse ∧
      ∀ d ∈ definitions actions, ∃ w r, s.world.HoldsFrom among ofName w d r := by
  have ended := after_induction
    (motive := fun past s => s.Defines among ofName past ∧
      ∀ d ∈ past, ∃ w r, s.world.HoldsFrom among ofName w d r)
    [] (fun past s t member before => ?_) (fun past s d reached member fresh ran before => ?_)
    worded.distinct ⟨Store.defines_initial core, fun d member => absurd member List.not_mem_nil⟩ ran
  · rw [List.append_nil] at ended
    exact ⟨ended.1, fun d member => ended.2 d (List.mem_reverse.mpr member)⟩
  · obtain ⟨defines, same⟩ := before.1.describe words (worded.describes t member)
    refine ⟨defines, fun d isPast => ?_⟩
    obtain ⟨w, r, holds⟩ := before.2 d isPast
    exact ⟨w, r, holds.mono same.symm.isStage_self⟩
  · obtain ⟨defines, w, r, same, -, -, -, holds⟩ := before.1.define words
      (worded.defines d member) (worded.named d member) fresh ran
    refine ⟨defines, fun e isPast => ?_⟩
    rcases List.mem_cons.mp isPast with rfl | isOlder
    · exact ⟨w, r, holds⟩
    · obtain ⟨v, q, held⟩ := before.2 e isOlder
      exact ⟨v, q, held.mono (holds.stage.trans same.symm.isStage_self)⟩

/-- Where classes are held that are declared at a stage, the world after declaring one is a
stage. -/
theorem World.IsStage.declaring
    (stage : World.IsStage ofName last w)
    (fresh : w.record? r.cls = none)
    (bound : last.names.lookup r.cls.name = some (.cls (.user r.cls)))
    (record : (last.record? r.cls).map (ClassRecord.final ofName) = some (r.final ofName))
    (own : List String)
    (final : ((w.declaring own r).record? r.cls).map (ClassRecord.final ofName) =
      some (r.final ofName)) :
    World.IsStage ofName last (w.declaring own r) := by
  refine ⟨fun name a found => ?_, fun c q found => ?_⟩
  · rw [World.lookup_declaring] at found
    split at found
    · rename_i same
      rw [← same, bound, ← found]
    · exact stage.names name a found
  · by_cases same : r.cls = c
    · subst same
      rw [found] at final
      rw [record, ← final]
      rfl
    · rw [World.record?_declaring fresh, if_neg same] at found
      exact stage.records c q found

/-- After a session whose classes are held by a world, all that there is a stage of that
world. -/
theorem Action.after_isStage
    {actions : List Action}
    (words : TypeForm.Vocabulary among ofName)
    (core : ∀ name a, World.coreName? name = some a → ofName name = some a)
    (worded : AreWorded among ofName actions)
    (bound : ∀ d, .define d ∈ actions → last.names.lookup d.name = some (.cls (.user d.cls)))
    (holds : ∀ d, .define d ∈ actions → ∃ w r, last.HoldsFrom among ofName w d r)
    (ran : after actions .initial = some s) :
    World.IsStage ofName last s.world := by
  have ended := after_induction
    (motive := fun past s => s.Defines among ofName past ∧ World.IsStage ofName last s.world)
    [] (fun past s t member before => ?_) (fun past s d reached member fresh ran before => ?_)
    worded.distinct ⟨Store.defines_initial core, ?_⟩ ran
  · exact ended.2
  · obtain ⟨defines, same⟩ := before.1.describe words (worded.describes t member)
    exact ⟨defines, same.isStage before.2⟩
  · obtain ⟨defines, w, r, same, isClass, unknown, isReached, held⟩ := before.1.define words
      (worded.defines d member) (worded.named d member) fresh ran
    refine ⟨defines, ?_⟩
    obtain ⟨v, q, holdsFrom⟩ := holds d member
    have stage := same.isStage before.2
    have final := held.makes.final_eq words (worded.defines d member) held.onWay holdsFrom.onWay
      stage holdsFrom.stage holdsFrom.makes (held.fresh.trans holdsFrom.fresh.symm)
    rw [isReached]
    refine stage.declaring unknown ?_ ?_ d.form.fieldNames ?_
    · rw [isClass]
      exact bound d member
    · rw [isClass, holdsFrom.record, final]
    · rw [← isReached, isClass]
      exact held.record
  · constructor
    · intro name a found
      have unbound : Store.initial.world.names.lookup name = none := rfl
      rw [unbound] at found
      cases found
    · intro c q found
      have unrecorded : Store.initial.world.record? c = none := rfl
      rw [unrecorded] at found
      cases found

/-- What is defined after a session is all that there is, if no more is defined in the
end. -/
theorem Store.Defines.isComplete
    {last : Store}
    {all : List ClassDeclaration}
    (defines : s.Defines among ofName past)
    (lastDefines : last.Defines among ofName all)
    (subset : ∀ d ∈ all, d ∈ past)
    (stage : World.IsStage ofName last.world s.world)
    (names : ∀ name, (ofName name).isSome = true →
      (World.coreName? name).isSome = true ∨ ∃ d ∈ past, d.name = name) :
    World.IsComplete ofName last.world s.world := by
  refine ⟨stage, fun name => ?_, fun u declared => ?_, fun name known => ?_⟩
  · cases found : s.world.names.lookup name with
    | some a => exact (stage.names name a found).symm
    | none =>
        cases isLast : last.world.names.lookup name with
        | none => rfl
        | some a =>
            obtain ⟨d, member, rfl⟩ := lastDefines.names name a isLast
            rw [defines.bound d (subset d member)] at found
            cases found
  · obtain ⟨d, member, rfl⟩ := lastDefines.declared u declared
    exact defines.onWay.world.onWay.closed.names d.name _ (defines.bound d (subset d member))
  · rw [World.typeOf?, Option.isSome_or, Bool.or_eq_true]
    rcases names name known with isCore | ⟨d, member, rfl⟩
    · exact .inr isCore
    · rw [defines.bound d member]
      exact .inl rfl

/-! ## Descriptions in the end -/

/-- A description has a guard of its own. -/
theorem TypeTerm.describeTo_withGuard
    (type : TypeTerm)
    (depth : Nat)
    (s : Store)
    (guard : CycleGuard) :
    ((type.describeTo depth).run (s.withGuard guard)).1 = ((type.describeTo depth).run s).1 := by
  have resolved : (Step.inWorld (type.resolve .strict)).run (s.withGuard guard) =
      (((Step.inWorld (type.resolve .strict)).run s).1,
        ((Step.inWorld (type.resolve .strict)).run s).2.withGuard guard) :=
    rfl
  unfold TypeTerm.describeTo
  cases ended : (Step.inWorld (type.resolve .strict)).run s with
  | mk outcome reached =>
      rw [ended] at resolved
      cases outcome with
      | error interrupt => rw [run_bind_of_error resolved, run_bind_of_error ended]
      | ok a =>
          rw [run_bind_of_ok resolved, run_bind_of_ok ended]
          rfl

/-- A written type is described to some depth. -/
theorem TypeTerm.exists_describe_eq (type : TypeTerm) (s : Store) :
    ∃ depth, type.describe.run s = (type.describeTo depth).run s := by
  unfold TypeTerm.describe TypeTerm.describeTo
  cases resolved : (Step.inWorld (type.resolve .strict)).run s with
  | mk outcome reached =>
      cases outcome with
      | error interrupt =>
          exact ⟨0, by rw [run_bind_of_error resolved, run_bind_of_error resolved]⟩
      | ok a =>
          refine ⟨reached.depthFor a.weight, ?_⟩
          rw [run_bind_of_ok resolved, run_bind_of_ok resolved]
          rfl

/-- A worded type is described in the same way where all is declared, to a depth and to a
greater one. -/
theorem TypeTerm.describeTo_agrees
    {t : Store}
    {other : World}
    {type : TypeTerm}
    (words : TypeForm.Vocabulary among ofName)
    (onWay : s.IsOnWay among ofName base)
    (otherOnWay : t.IsOnWay among ofName other)
    (complete : base.AreComplete among ofName other)
    (worded : TypeTerm.AreWorded among ofName type.parts)
    (depth extra : Nat) :
    ((type.describeTo depth).run s).1 = ((type.describeTo (depth + extra)).run t).1 ∨
      extra ≠ 0 ∧ ((type.describeTo depth).run s).1 = .error .exhausted := by
  have tied : Tied (.onWay among ofName base other (extra ≠ 0)) (Same anything)
      (type.describeTo depth) (type.describeTo (depth + extra)) :=
    (onWay_resolve words worded).bind_same fun a met => onWay_describeTo words id depth met
  rw [← describeTo_withGuard type depth s .empty, ← describeTo_withGuard type _ t .empty]
  cases tied (s.withGuard .empty) (t.withGuard .empty)
    ⟨onWay.withGuard _, otherOnWay.withGuard _, rfl, .inr complete⟩ with
  | ok firstRun secondRun _ same =>
      obtain ⟨rfl, -⟩ := same
      rw [firstRun, secondRun]
      exact .inl rfl
  | error firstRun secondRun _ _ =>
      rw [firstRun, secondRun]
      exact .inl rfl
  | lapsed firstRun lapses =>
      rw [firstRun]
      exact .inr ⟨lapses, rfl⟩

/-- What the names of classes stand for once they are defined; other names are those of
built-in classes. -/
def namesOf (ds : List ClassDeclaration) (name : String) : Option TypeForm :=
  ((ds.find? fun d => d.name == name).map fun d => .cls (.user d.cls)).or (World.coreName? name)

/-- The class that is found by a name has that name. -/
theorem name_of_find?
    {ds : List ClassDeclaration}
    {name : String}
    (found : (ds.find? fun d => d.name == name) = some d) :
    d ∈ ds ∧ d.name = name :=
  ⟨List.mem_of_find?_eq_some found, by simpa using List.find?_some found⟩

/-- Names that stand for something are those of classes or of built-in classes. -/
theorem exists_of_namesOf
    {ds : List ClassDeclaration}
    {name : String}
    (known : (namesOf ds name).isSome = true) :
    (World.coreName? name).isSome = true ∨ ∃ d ∈ ds, d.name = name := by
  unfold namesOf at known
  cases found : ds.find? fun d => d.name == name with
  | none =>
      rw [found] at known
      exact .inl known
  | some d => exact .inr ⟨d, name_of_find? found⟩

/-- What names stand for are classes. -/
theorem namesClasses_namesOf (ds : List ClassDeclaration) : TypeForm.NamesClasses (namesOf ds) := by
  intro name a known
  rcases Option.or_eq_some_iff.mp known with isDeclared | ⟨-, isCore⟩
  · obtain ⟨d, -, rfl⟩ := Option.map_eq_some_iff.mp isDeclared
    exact ⟨_, rfl⟩
  · obtain ⟨b, -, rfl⟩ := Option.map_eq_some_iff.mp isCore
    exact ⟨_, rfl⟩

/-- Whether classes have names of their own, which no built-in class has, and what they are
declared by is worded, so that no two type forms that come up are the same type in two
spellings. -/
structure AreWordedTogether
    (among : TypeForm → Prop)
    (ds : List ClassDeclaration) :
    Prop where
  words : TypeForm.Vocabulary among (namesOf ds)
  distinct : (ds.map (·.name)).Nodup
  unlike : ∀ d ∈ ds, World.coreName? d.name = none
  worded : ∀ d ∈ ds, d.IsWorded among (namesOf ds)

section

variable {ds : List ClassDeclaration} (together : AreWordedTogether among ds)

include together

/-- The name of a built-in class stands for that class. -/
theorem AreWordedTogether.core
    {name : String}
    {a : TypeForm}
    (isCore : World.coreName? name = some a) :
    namesOf ds name = some a := by
  unfold namesOf
  cases found : ds.find? fun d => d.name == name with
  | none => exact isCore
  | some d =>
      obtain ⟨member, rfl⟩ := name_of_find? found
      rw [together.unlike d member] at isCore
      cases isCore

/-- The name of a class stands for that class. -/
theorem AreWordedTogether.named
    (member : d ∈ ds) :
    namesOf ds d.name = some (.cls (.user d.cls)) := by
  unfold namesOf
  cases found : ds.find? fun e => e.name == d.name with
  | none => exact absurd (beq_self_eq_true d.name) (List.find?_eq_none.mp found d member)
  | some e =>
      obtain ⟨isFound, sameName⟩ := name_of_find? found
      obtain rfl := List.inj_on_of_nodup_map together.distinct isFound member sameName
      rfl

/-- A session that defines worded classes is worded if what it describes is. -/
theorem AreWordedTogether.actions
    {actions : List Action}
    (perm : (definitions actions).Perm ds)
    (described : ∀ t, .describe t ∈ actions → TypeTerm.AreWorded among (namesOf ds) t.parts) :
    Action.AreWorded among (namesOf ds) actions := by
  have member (d : ClassDeclaration) (isDefined : .define d ∈ actions) : d ∈ ds :=
    perm.mem_iff.mp (List.mem_filterMap.mpr ⟨_, isDefined, rfl⟩)
  exact ⟨fun d isDefined => together.worded d (member d isDefined),
    fun d isDefined => together.named (member d isDefined), described,
    (perm.map _).nodup_iff.mpr together.distinct⟩

/-- After two sessions that define the same worded classes all is declared in both. -/
theorem AreWordedTogether.areComplete
    {first second : List Action}
    {t : Store}
    (defines : (definitions first).Perm ds ∧ (definitions second).Perm ds)
    (described : ∀ u, .describe u ∈ first ++ second →
      TypeTerm.AreWorded among (namesOf ds) u.parts)
    (ran : Action.after first .initial = some s)
    (otherRan : Action.after second .initial = some t) :
    s.IsOnWay among (namesOf ds) s.world ∧ t.IsOnWay among (namesOf ds) t.world ∧
      s.world.AreComplete among (namesOf ds) t.world := by
  have firstWorded := together.actions defines.1 fun u member =>
    described u (List.mem_append_left _ member)
  have secondWorded := together.actions defines.2 fun u member =>
    described u (List.mem_append_right _ member)
  have core name a (isCore : World.coreName? name = some a) := together.core isCore
  obtain ⟨firstDefines, holds⟩ := Action.after_defines together.words core firstWorded ran
  obtain ⟨secondDefines, -⟩ := Action.after_defines together.words core secondWorded otherRan
  have inBoth (d : ClassDeclaration) : d ∈ definitions first ↔ d ∈ definitions second :=
    defines.1.mem_iff.trans defines.2.mem_iff.symm
  have isFirst (d : ClassDeclaration) (isDefined : .define d ∈ second) : d ∈ definitions first :=
    (inBoth d).mpr (List.mem_filterMap.mpr ⟨_, isDefined, rfl⟩)
  have stage : World.IsStage (namesOf ds) s.world t.world :=
    Action.after_isStage together.words core secondWorded
      (fun d isDefined => firstDefines.bound d (List.mem_reverse.mpr (isFirst d isDefined)))
      (fun d isDefined => holds d (isFirst d isDefined)) otherRan
  have named {actions : List Action} (perm : (definitions actions).Perm ds) (name : String)
      (known : (namesOf ds name).isSome = true) :
      (World.coreName? name).isSome = true ∨
        ∃ d ∈ (definitions actions).reverse, d.name = name :=
    (exists_of_namesOf known).imp_right fun ⟨d, member, same⟩ =>
      ⟨d, List.mem_reverse.mpr (perm.mem_iff.mpr member), same⟩
  -- what is defined in the first session is all that there is in the end
  refine ⟨firstDefines.onWay, secondDefines.onWay, s.world, firstDefines.onWay.world.onWay, ?_, ?_⟩
  · exact firstDefines.isComplete firstDefines (fun _ member => member) (.refl _ _)
      (named defines.1)
  · exact secondDefines.isComplete firstDefines
      (fun d member => List.mem_reverse.mpr ((inBoth d).mp (List.mem_reverse.mp member))) stage
      (named defines.2)

end

end

/-- Once all classes of a set are defined, a type is described in the same way in all
sessions that define them, in whatever order and whatever is described in between. -/
theorem describe_definitionOrder
    {among : TypeForm → Prop}
    {ds : List ClassDeclaration}
    {first second : List Action}
    {s t : Store}
    {type : TypeTerm}
    (together : AreWordedTogether among ds)
    (defines : (definitions first).Perm ds ∧ (definitions second).Perm ds)
    (described : ∀ u, .describe u ∈ first ++ second →
      TypeTerm.AreWorded among (namesOf ds) u.parts)
    (ran : Action.after first .initial = some s)
    (otherRan : Action.after second .initial = some t)
    (worded : TypeTerm.AreWorded among (namesOf ds) type.parts) :
    (∀ depth, ((type.describeTo depth).run s).1 = ((type.describeTo depth).run t).1) ∧
      ((type.describe.run s).1 ≠ .error .exhausted → (type.describe.run t).1 ≠ .error .exhausted →
        (type.describe.run s).1 = (type.describe.run t).1) := by
  obtain ⟨onWay, otherOnWay, complete⟩ := together.areComplete defines described ran otherRan
  have agrees := type.describeTo_agrees together.words onWay otherOnWay complete worded
  have agreesToo := type.describeTo_agrees together.words otherOnWay onWay complete.symm worded
  refine ⟨fun depth => (agrees depth 0).resolve_right fun lapsed => lapsed.1 rfl, ?_⟩
  obtain ⟨depth, isDepth⟩ := type.exists_describe_eq s
  obtain ⟨otherDepth, isOtherDepth⟩ := type.exists_describe_eq t
  rw [isDepth, isOtherDepth]
  intro ends endsToo
  rcases Nat.le_total depth otherDepth with deeper | deeper
  · obtain ⟨extra, rfl⟩ := Nat.exists_eq_add_of_le deeper
    exact (agrees depth extra).resolve_right fun lapsed => ends lapsed.2
  · obtain ⟨extra, rfl⟩ := Nat.exists_eq_add_of_le deeper
    exact ((agreesToo otherDepth extra).resolve_right fun lapsed => endsToo lapsed.2).symm

/-- A field that is declared by its name and its type alone. -/
def FieldDeclaration.plain
    (name : String)
    (type : TypeTerm)
    (isQuoted : Bool) :
    FieldDeclaration :=
  ⟨name, type, isQuoted, none, none, none, none, false, true⟩

/-- A class that is declared with one field. -/
def ClassDeclaration.withField
    (name : String)
    (style : FieldStyle)
    (field : FieldDeclaration) :
    ClassDeclaration :=
  ⟨name, "shapes", none, [], .none, .fields style [field] none⟩

/-- A struct whose objects may have a seed. -/
def plantDeclaration : ClassDeclaration :=
  .withField "Plant" .struct (.plain "seed" (.optional (.named "Seed")) false)

/-- A dataclass whose objects have a plant, which is quoted. -/
def seedDeclaration : ClassDeclaration :=
  .withField "Seed" .dataclass (.plain "plant" (.named "Plant") true)

/-- Plants are defined and described before there are seeds. -/
def plantsFirst : List Action :=
  [.define plantDeclaration, .describe (.named "Plant"), .define seedDeclaration]

/-- Seeds are defined and described before there are plants. -/
def seedsFirst : List Action :=
  [.define seedDeclaration, .describe (.named "Seed"), .define plantDeclaration]

/-- The names of plants and seeds stand for them. -/
abbrev plantNames : String → Option TypeForm :=
  namesOf [plantDeclaration, seedDeclaration]

/-- The type forms that come up when plants and seeds are defined and described. -/
def plantForms : List TypeForm :=
  [.any, .builtin .str, .nullType, .cls (.user plantDeclaration.cls),
    .cls (.user seedDeclaration.cls), .text "Plant", .text "Seed", .reference "Plant",
    .reference "Seed", .union .named [.reference "Seed", .nullType],
    .union .named [.cls (.user seedDeclaration.cls), .nullType]]

/-- No type form of plants and seeds is another one in another spelling. -/
theorem spelledAlike_plantForms : SpelledAlike (· ∈ plantForms) where
  once := by
    have distinct : (plantForms.map TypeForm.identity).Nodup := by decide +kernel
    exact fun _ _ isFirst isSecond same => List.inj_on_of_nodup_map distinct isFirst isSecond same
  byKey := by
    have distinct : (plantForms.map TypeForm.key).Nodup := by decide +kernel
    exact fun _ _ isFirst isSecond same => List.inj_on_of_nodup_map distinct isFirst isSecond same

/-- What makes some of the type forms of plants and seeds out of all of them keeps to them. -/
theorem mem_plantForms_of_map
    {change : TypeForm → TypeForm}
    {forms : List TypeForm}
    (isMap : plantForms.map change = forms)
    (subset : forms ⊆ plantForms) :
    ∀ a, a ∈ plantForms → change a ∈ plantForms :=
  fun _ member => subset (isMap ▸ List.mem_map_of_mem member)

theorem settled_plantForms :
    plantForms.map (TypeForm.settled plantNames) =
      [.any, .builtin .str, .nullType, .cls (.user plantDeclaration.cls),
        .cls (.user seedDeclaration.cls), .cls (.user plantDeclaration.cls),
        .cls (.user seedDeclaration.cls), .cls (.user plantDeclaration.cls),
        .cls (.user seedDeclaration.cls),
        .union .named [.cls (.user seedDeclaration.cls), .nullType],
        .union .named [.cls (.user seedDeclaration.cls), .nullType]] :=
  rfl

theorem stripNull_plantForms :
    plantForms.map (fun a => a.stripNull.1) =
      [.any, .builtin .str, .nullType, .cls (.user plantDeclaration.cls),
        .cls (.user seedDeclaration.cls), .text "Plant", .text "Seed", .reference "Plant",
        .reference "Seed", .reference "Seed", .cls (.user seedDeclaration.cls)] :=
  rfl

/-- The type forms of plants and seeds are all that comes up. -/
theorem vocabulary_plantForms : TypeForm.Vocabulary (· ∈ plantForms) plantNames where
  alike := spelledAlike_plantForms
  nulls := by simp [plantForms]
  arguments := by simp [plantForms, TypeForm.argument, TypeForm.builtin, TypeForm.nullType]
  members := by
    intro style members member
    simp only [plantForms, List.mem_cons, TypeForm.union.injEq, List.not_mem_nil, or_false,
      reduceCtorEq, false_or, TypeForm.builtin, TypeForm.nullType] at member
    rcases member with ⟨-, rfl⟩ | ⟨-, rfl⟩ <;>
      simp [plantForms, TypeForm.builtin, TypeForm.nullType]
  settles := mem_plantForms_of_map settled_plantForms (by simp [plantForms])
  classes := namesClasses_namesOf _
  withoutNotes := mem_plantForms_of_map (rfl : plantForms.map TypeForm.withoutNotes = plantForms)
    (List.Subset.refl _)
  plain := mem_plantForms_of_map (rfl : plantForms.map TypeForm.plain = plantForms)
    (List.Subset.refl _)
  stripNull := mem_plantForms_of_map stripNull_plantForms (by simp [plantForms])
  any := by simp [plantForms]
  text := by simp [plantForms]
  sources := by
    intro a b member isSource
    simp only [plantForms, List.mem_cons, List.not_mem_nil, or_false] at member
    rcases member with rfl | rfl | rfl | rfl | rfl | rfl | rfl | rfl | rfl | rfl | rfl <;>
      cases isSource
  args := by simp [plantForms, TypeForm.builtin, TypeForm.nullType]
  literals := by simp [plantForms, TypeForm.builtin, TypeForm.nullType]

theorem areWorded_plantName :
    TypeTerm.AreWorded (· ∈ plantForms) plantNames (TypeTerm.named "Plant").parts := by
  have stands : plantNames "Plant" = some (.cls (.user plantDeclaration.cls)) := rfl
  exact TypeTerm.areWorded_named stands (by simp [plantForms]) (by simp [plantForms])

theorem areWorded_seedName :
    TypeTerm.AreWorded (· ∈ plantForms) plantNames (TypeTerm.named "Seed").parts := by
  have stands : plantNames "Seed" = some (.cls (.user seedDeclaration.cls)) := rfl
  exact TypeTerm.areWorded_named stands (by simp [plantForms]) (by simp [plantForms])

/-- A seed that may be missing is read with its name or with its class. -/
theorem read_optionalSeed
    {m : Sense}
    {a : TypeForm}
    (stage : m.IsStage plantNames)
    (read : (TypeTerm.optional (.named "Seed")).read m = .ok a) :
    a = .union .named [.reference "Seed", .nullType] ∨
      a = .union .named [.cls (.user seedDeclaration.cls), .nullType] := by
  obtain ⟨b, isRead, united⟩ := exists_of_bind_eq_ok read
  rcases stage "Seed" b isRead with rfl | isName
  · cases united
    exact .inl rfl
  · cases isName
    cases united
    exact .inr rfl

/-- The field of plants is worded. -/
theorem isWorded_seedField :
    (FieldDeclaration.plain "seed" (.optional (.named "Seed")) false).IsWorded (· ∈ plantForms)
      plantNames where
  type := by
    refine areWorded_seedName.optional fun m stage a read => ?_
    rcases read_optionalSeed stage read with rfl | rfl <;> simp [plantForms]
  default := TypeTerm.areWorded_nil
  names := by
    intro m stage a read
    rcases read_optionalSeed stage read with rfl | rfl <;> decide
  quoted := nofun

/-- The field of seeds is worded. -/
theorem isWorded_plantField :
    (FieldDeclaration.plain "plant" (.named "Plant") true).IsWorded (· ∈ plantForms) plantNames where
  type := areWorded_plantName
  default := TypeTerm.areWorded_nil
  names := by
    intro m stage a read
    rcases stage "Plant" a read with rfl | isName
    · decide
    · cases isName
      decide
  quoted := by
    intro _ m stage a read
    have member : TypeForm.reference "Plant" ∈ plantForms := by simp [plantForms]
    rcases stage "Plant" a read with rfl | isName
    · exact member
    · cases isName
      exact member

/-- Plants and seeds are worded. -/
theorem areWordedTogether_plants :
    AreWordedTogether (· ∈ plantForms) [plantDeclaration, seedDeclaration] where
  words := vocabulary_plantForms
  distinct := by decide
  unlike := by decide
  worded := by
    refine List.forall_mem_cons.mpr ⟨⟨?_, nofun, TypeTerm.areWorded_nil, nofun⟩,
      List.forall_mem_singleton.mpr ⟨?_, nofun, TypeTerm.areWorded_nil, nofun⟩⟩
    · exact ⟨_, _, _, rfl, List.forall_mem_singleton.mpr isWorded_seedField⟩
    · exact ⟨_, _, _, rfl, List.forall_mem_singleton.mpr isWorded_plantField⟩

/-- Plants are described in the same way whether plants or seeds are defined and described
first. -/
theorem describe_definitionOrder_plants :
    ∃ s t shape, Action.after plantsFirst .initial = some s ∧
      Action.after seedsFirst .initial = some t ∧
        ((TypeTerm.named "Plant").describe.run s).1 = .ok shape ∧
        ((TypeTerm.named "Plant").describe.run t).1 = .ok shape ∧ shape.kindName = "keyed" := by
  have described : ∀ u, .describe u ∈ plantsFirst ++ seedsFirst →
      TypeTerm.AreWorded (· ∈ plantForms) plantNames u.parts := by
    intro u member
    simp only [plantsFirst, seedsFirst, List.cons_append, List.nil_append, List.mem_cons,
      List.not_mem_nil, or_false, reduceCtorEq, false_or, Action.describe.injEq] at member
    rcases member with rfl | rfl
    · exact areWorded_plantName
    · exact areWorded_seedName
  have ends (actions : List Action) (either : actions = plantsFirst ∨ actions = seedsFirst) :
      ∃ s, Action.after actions .initial = some s ∧
        ((TypeTerm.named "Plant").describe.run s).1.toOption.map Shape.kindName = some "keyed" := by
    rcases either with rfl | rfl
    · exact Option.map_eq_some_iff.mp (by decide +kernel)
    · exact Option.map_eq_some_iff.mp (by decide +kernel)
  obtain ⟨s, ran, isKeyed⟩ := ends plantsFirst (.inl rfl)
  obtain ⟨t, otherRan, otherIsKeyed⟩ := ends seedsFirst (.inr rfl)
  have isDefined : (definitions plantsFirst).Perm [plantDeclaration, seedDeclaration] := .refl _
  have isDefinedToo : (definitions seedsFirst).Perm [plantDeclaration, seedDeclaration] :=
    .swap plantDeclaration seedDeclaration []
  obtain ⟨-, same⟩ := describe_definitionOrder areWordedTogether_plants ⟨isDefined, isDefinedToo⟩
    described ran otherRan areWorded_plantName
  cases result : ((TypeTerm.named "Plant").describe.run s).1 with
  | error interrupt =>
      rw [result] at isKeyed
      cases isKeyed
  | ok shape =>
      cases otherResult : ((TypeTerm.named "Plant").describe.run t).1 with
      | error interrupt =>
          rw [otherResult] at otherIsKeyed
          cases otherIsKeyed
      | ok other =>
          rw [result, otherResult] at same
          obtain rfl := Except.ok.inj (same nofun nofun)
          rw [result] at isKeyed
          exact ⟨s, t, shape, ran, otherRan, result, otherResult, Option.some.inj isKeyed⟩

/-- Whether a type is described as the same tree after two sessions, if all classes can be
defined in them and it can be described. -/
def TypeTerm.agreesAfter (first second : List Action) (type : TypeTerm) : Option Bool := do
  let s ← Action.after first .initial
  let t ← Action.after second .initial
  let shape ← (type.describe.run s).1.toOption
  let other ← (type.describe.run t).1.toOption
  pure (shape.agrees other)

/-- The literal of two numbers. -/
def pairLiteral (first second : Int) : TypeTerm :=
  .literal [.known (.int first), .known (.int second)]

/-- A struct with a choice of two numbers. -/
def choiceDeclaration : ClassDeclaration :=
  .withField "Choice" .struct (.plain "choice" (pairLiteral 1 2) false)

/-- A struct with a text. -/
def titleDeclaration : ClassDeclaration :=
  .withField "Title" .struct (.plain "title" (.known (.builtin .str)) false)

/-- A struct that may have a choice of the same two numbers, the other way round. -/
def turnedDeclaration : ClassDeclaration :=
  .withField "Turned" .struct (.plain "choice" (.optional (pairLiteral 2 1)) false)

/-- A struct with a number, whose class is quoted. -/
def countDeclaration : ClassDeclaration :=
  .withField "Count" .struct (.plain "count" (.named "int") true)

/-- A struct that has the name of a built-in class. -/
def namesakeDeclaration : ClassDeclaration :=
  .withField "int" .struct (.plain "title" (.known (.builtin .str)) false)

/-- The order of definitions matters where a type was described that is an annotation in
another spelling, where a part of another annotation is, and where a class is named like a
built-in one. -/
theorem not_agreesAfter :
    (TypeTerm.named "Choice").agreesAfter
        [.define titleDeclaration, .describe (pairLiteral 2 1), .define choiceDeclaration]
        [.define choiceDeclaration, .define titleDeclaration] = some false ∧
      (TypeTerm.named "Choice").agreesAfter
        [.define turnedDeclaration, .describe (.named "Turned"), .define choiceDeclaration]
        [.define choiceDeclaration, .define turnedDeclaration] = some false ∧
      (TypeTerm.named "Count").agreesAfter
        [.define countDeclaration, .define namesakeDeclaration]
        [.define namesakeDeclaration, .define countDeclaration] = some false := by
  decide +kernel

end SchemaProbe

import SchemaProbe.Proofs.CacheCoherence
import SchemaProbe.Proofs.EarlyReading

namespace SchemaProbe

/-!
# What is found out early

Looking up a type while classes are still being declared finds out what is found out in
the end, if it finds out anything, so that nothing that is remembered early is wrong later.
This rests on type forms that come up being written alike: what is remembered of one of
them is never what was found out about another.
-/

open Step

/-! ## Answers -/

/-- The classes that a world declares. -/
def World.declared (w : World) (u : UserClass) : Prop :=
  w.Declares (.user u)

/-- What looking up a type form ends with in a world where nothing is remembered and nothing
is registered but what is from the start. -/
def World.answer (w : World) (a : TypeForm) : Except Interrupt Capabilities :=
  { Store.initial with world := w }.answer .current a

/-- Without a registry of its own, a state asks the shared one. -/
theorem Store.registry_of_shared
    {s : Store}
    (shared : s.own = none)
    (scope : Scope) :
    s.registry scope = s.shared := by
  cases scope with
  | shared => rfl
  | current => rw [Store.registry, shared, Option.getD_none]

/-- Without a registry of its own, a state changes the shared one. -/
theorem Store.changeRegistry_of_shared
    {s : Store}
    (shared : s.own = none)
    (scope : Scope)
    (change : CapabilityRegistry → CapabilityRegistry) :
    s.changeRegistry scope change = { s with shared := change s.shared } := by
  unfold Store.changeRegistry
  rw [shared]
  cases scope <;> rfl

/-- What is registered from the start, and how it is found. -/
abbrev defaultRegistrations : List (Key × Capabilities) :=
  CapabilityRegistry.defaults.explicit

/-- Nothing is registered from the start that has a reader. -/
theorem reader_of_registered
    {key : Key}
    {caps : Capabilities}
    (registered : defaultRegistrations.lookup key = some caps) :
    caps.reader = none := by
  have unread : ∀ e ∈ defaultRegistrations, e.2.reader = none := by
    decide +kernel
  exact unread _ (Table.mem_of_lookup registered)

section

variable {among : TypeForm → Prop} {ofName : String → Option TypeForm} {last base w : World}

/-- Whether what is known about a type is what is known in the end, whatever is declared
later, and the type is read by what comes up. -/
structure World.Teaches
    (among : TypeForm → Prop)
    (ofName : String → Option TypeForm)
    (w : World)
    (a : TypeForm)
    (caps : Capabilities) :
    Prop where
  answers : ∀ last, World.IsStage ofName last w → last.IsOnWay among ofName last.declared →
    last.answer a = .ok caps
  familiar : ∀ reader, caps.reader = some reader → reader.IsFamiliar among ofName w.declared

/-- Whether a state is one in which some classes have been declared: its world is on the way,
and what it remembers is what is known in the end. -/
structure Store.IsOnWay
    (among : TypeForm → Prop)
    (ofName : String → Option TypeForm)
    (base : World)
    (s : Store) :
    Prop where
  world : base.LeadsTo among ofName base.declared s.world
  shared : s.own = none
  explicit : s.shared.explicit = defaultRegistrations
  cache : ∀ key caps, s.shared.cache.lookup key = some caps →
    ∃ a : TypeForm, a.IsMet among base.declared ∧ a.identity = key ∧
      base.Teaches among ofName a caps

/-- Whether looking up a type on the way ends with what is known in the end, if with
anything, and just so when all is declared. -/
structure Store.LooksUpTo
    (among : TypeForm → Prop)
    (ofName : String → Option TypeForm)
    (base : World)
    (s : Store)
    (a : TypeForm)
    (outcome : Except Interrupt Capabilities)
    (reached : Store) :
    Prop where
  onWay : reached.IsOnWay among ofName base
  guard : reached.guard = s.guard
  teaches : ∀ caps, outcome = .ok caps → base.Teaches among ofName a caps
  complete : ∀ last, World.IsComplete ofName last base →
    last.IsOnWay among ofName last.declared → outcome = last.answer a

variable {s reached : Store} {a b : TypeForm}

/-- What is known of a type is what is known in the end. -/
theorem Store.IsOnWay.teaches_of_known
    (words : TypeForm.Vocabulary among ofName)
    (onWay : s.IsOnWay among ofName base)
    (met : a.IsMet among base.declared)
    {caps : Capabilities}
    (known : s.shared.find? a = some caps) :
    base.Teaches among ofName a caps := by
  rcases Option.or_eq_some_iff.mp known with cached | ⟨-, registered⟩
  · obtain ⟨b, isMet, same, teaches⟩ := onWay.cache _ caps cached
    obtain rfl := words.alike.once b a isMet.comesUp met.comesUp same
    exact teaches
  · rw [onWay.explicit] at registered
    constructor
    · exact fun last _ _ => answer_of_registered registered
    · intro reader reads
      rw [reader_of_registered registered] at reads
      cases reads

/-- What is found out on the way about a type that is not known is remembered on the way. -/
theorem Store.LooksUpTo.remember
    {caps : Capabilities}
    (looks : s.LooksUpTo among ofName base a (.ok caps) reached)
    (met : a.IsMet among base.declared)
    (scope : Scope) :
    s.LooksUpTo among ofName base a (.ok caps)
      (reached.changeRegistry scope (·.remember a caps)) := by
  have onWay := looks.onWay
  rw [Store.changeRegistry_of_shared onWay.shared]
  refine ⟨⟨onWay.world, onWay.shared, onWay.explicit, fun key found cached => ?_⟩, looks.guard,
    looks.teaches, looks.complete⟩
  by_cases same : key = a.identity
  · subst same
    cases (Table.lookup_set_self _ _ _).symm.trans cached
    exact ⟨a, met, rfl, looks.teaches caps rfl⟩
  · exact onWay.cache key found ((Table.lookup_set_of_ne _ _ same).symm.trans cached)

/-- A type is looked up on the way if it is found out about on the way where it is not
registered. -/
theorem Store.IsOnWay.remembered
    {resolve : Step Store Capabilities}
    (words : TypeForm.Vocabulary among ofName)
    (onWay : s.IsOnWay among ofName base)
    (met : a.IsMet among base.declared)
    (scope : Scope)
    (resolves : defaultRegistrations.lookup a.identity = none →
      s.LooksUpTo among ofName base a (resolve.run s).1 (resolve.run s).2) :
    s.LooksUpTo among ofName base a ((remembered scope a resolve).run s).1
      ((remembered scope a resolve).run s).2 := by
  generalize ran : (SchemaProbe.remembered scope a resolve).run s = result
  obtain ⟨outcome, reached⟩ := result
  have unregistered (unknown : (s.registry scope).find? a = none) :
      defaultRegistrations.lookup a.identity = none := by
    rw [Store.registry_of_shared onWay.shared] at unknown
    rw [← onWay.explicit]
    exact (Option.or_eq_none_iff.mp unknown).2
  rcases remembered_cases ran with
    ⟨caps, known, rfl, rfl⟩ | ⟨unknown, ⟨interrupt, rfl, ended⟩ |
      ⟨found, between, rfl, ended, rfl⟩⟩
  · rw [Store.registry_of_shared onWay.shared] at known
    have teaches := onWay.teaches_of_known words met known
    refine ⟨onWay, rfl, fun found isFound => ?_, fun last complete lastOnWay => ?_⟩
    · cases isFound
      exact teaches
    · exact (teaches.answers last complete.stage lastOnWay).symm
  · have looks := resolves (unregistered unknown)
    rw [ended] at looks
    exact looks
  · have looks := resolves (unregistered unknown)
    rw [ended] at looks
    exact looks.remember met scope

/-! ## What is found out -/

/-- What is not registered and comes from nothing else is answered as it is found out. -/
theorem World.answer_of_sourceless
    {resolve : Step Store Capabilities}
    (looked : ∀ scope, lookup scope a = SchemaProbe.remembered scope a resolve)
    (unregistered : defaultRegistrations.lookup a.identity = none)
    (w : World) :
    w.answer a = (resolve.run { Store.initial with world := w }).1 := by
  have registrations : (({ Store.initial with world := w } : Store).registry
      .current).explicit.lookup a.identity = none :=
    unregistered
  rw [World.answer, Store.answer, looked, outcome_remembered, find?_forgetting, registrations]
  rfl

/-- What is inside a type form that comes up comes up. -/
theorem TypeForm.IsMet.inside
    {classes : UserClass → Prop}
    (words : TypeForm.Vocabulary among ofName)
    (met : a.IsMet among classes) :
    ∀ b ∈ a.inside, b.IsMet among classes := by
  have anything : TypeForm.any.IsMet among classes := ⟨words.any, isOver_of_none rfl⟩
  cases a with
  | generic origin args =>
      refine List.forall_mem_cons.mpr ⟨anything, fun b member => ?_⟩
      exact ⟨words.args origin args met.comesUp b member,
        (isOver_generic_iff.mp met.isOver).2 b member⟩
  | union style members =>
      exact List.forall_mem_singleton.mpr ⟨words.stripNull _ met.comesUp, met.isOver.stripNull⟩
  | _ => exact List.forall_mem_singleton.mpr anything

/-- A reader that asks for what is written in it is familiar if that comes up. -/
theorem Reader.isFamiliar_of_asked
    {classes : UserClass → Prop}
    {reader : Reader}
    {asked : List TypeForm}
    (isAsked : reader.asked? = some asked)
    (met : ∀ b ∈ asked, b.IsMet among classes) :
    reader.IsFamiliar among ofName classes := by
  cases reader with
  | sequence item into =>
      cases isAsked
      exact met item List.mem_cons_self
  | positions items =>
      cases isAsked
      exact met
  | mapping value cls =>
      cases isAsked
      exact met value List.mem_cons_self
  | nullable inner =>
      cases isAsked
      exact met inner List.mem_cons_self
  | oneOf values =>
      cases isAsked
      exact met _ List.mem_cons_self
  | _ => cases isAsked

/-- What a type form comes from comes up with it. -/
theorem TypeForm.IsMet.source
    {classes : UserClass → Prop}
    (words : TypeForm.Vocabulary among ofName)
    (met : a.IsMet among classes)
    (comes : a.source? = some b) :
    b.IsMet among classes := by
  refine ⟨words.sources a b met.comesUp comes, ?_⟩
  have applies {origin : Origin} (isApplied : a.aliasOrigin? = some origin)
      (isClass : ∀ c ∈ origin.userClasses, classes c)
      (noteless : ∀ inner notes, a ≠ .annotated inner notes) : b.IsOver classes := by
    rw [source?_of_noteless noteless] at comes
    obtain ⟨c, isOrigin, rfl⟩ := Option.map_eq_some_iff.mp comes
    unfold originClass? at isOrigin
    rw [isApplied] at isOrigin
    split at isOrigin
    · cases isOrigin
    · split at isOrigin
      · rename_i same
        cases same
        cases isOrigin
        intro u member
        cases c with
        | user v => exact isClass u member
        | _ => cases member
      · cases isOrigin
  cases a with
  | annotated inner notes =>
      cases comes
      exact met.isOver
  | generic origin args => exact applies rfl (isOver_generic_iff.mp met.isOver).1 nofun
  | bare b => exact applies rfl nofun nofun
  | callable params result => exact applies rfl nofun nofun
  | _ => cases comes

/-- A literal that comes up is read by what comes up. -/
theorem TypeForm.Vocabulary.oneOf
    {classes : UserClass → Prop}
    {values : List Value}
    (words : TypeForm.Vocabulary among ofName)
    (comesUp : among (.literal values)) :
    (Reader.oneOf values).IsFamiliar among ofName classes := by
  have builtin (c : ClassRef) (isBuiltin : ∀ u, c ≠ .user u) : (TypeForm.cls c).IsOver classes := by
    intro u member
    cases c with
    | user v => exact absurd rfl (isBuiltin v)
    | _ => cases member
  cases values with
  | nil => exact ⟨words.text, builtin _ nofun⟩
  | cons v rest =>
      obtain ⟨isBuiltin, isClass⟩ := words.literals _ comesUp v List.mem_cons_self
      exact ⟨isClass, builtin _ isBuiltin⟩

/-- A class that is declared on the way is answered as it is read. -/
theorem World.IsOnWay.answer_cls
    {classes : UserClass → Prop}
    {c : ClassRef}
    (words : TypeForm.Vocabulary among ofName)
    (onWay : w.IsOnWay among ofName classes)
    (looked : ∀ scope,
      lookup scope (.cls c) = SchemaProbe.remembered scope (.cls c) (resolveClass c))
    (unregistered : defaultRegistrations.lookup (TypeForm.cls c).identity = none) :
    w.answer (.cls c) = (w.capabilities? c).mapError .fault := by
  obtain ⟨events, ran⟩ := run_resolveClass c { Store.initial with world := w }
  obtain ⟨reached, read, -⟩ := onWay.exists_run (onWay.classCapabilities_reads words c)
  rw [World.answer_of_sourceless looked unregistered, ran]
  exact congrArg Prod.fst read

/-- A class whose capabilities are read is read as classes are, if at all. -/
theorem World.reader?_of_capabilities
    {c : ClassRef}
    {caps : Capabilities}
    {reader : Reader}
    (found : w.capabilities? c = .ok caps)
    (reads : caps.reader = some reader) :
    w.reader? c = some reader := by
  unfold World.capabilities? at found
  dsimp only at found
  split at found
  · cases found
    cases reads
  · split at found
    · cases found
      cases reads
    · obtain ⟨cases, -, isFound⟩ := exists_of_bind_eq_ok found
      cases isFound
      exact reads

/-- What is known about a declared class whose capabilities can be read is what is known in
the end. -/
theorem World.LeadsTo.teaches_cls
    {c : ClassRef}
    {caps : Capabilities}
    (words : TypeForm.Vocabulary among ofName)
    (leads : base.LeadsTo among ofName base.declared w)
    (looked : ∀ scope,
      lookup scope (.cls c) = SchemaProbe.remembered scope (.cls c) (resolveClass c))
    (unregistered : defaultRegistrations.lookup (TypeForm.cls c).identity = none)
    (declared : w.Declares c)
    (found : w.capabilities? c = .ok caps) :
    base.Teaches among ofName (.cls c) caps where
  answers last stage lastOnWay := by
    rw [lastOnWay.answer_cls words looked unregistered, leads.onWay.capabilities?_of_ok words
      (leads.same.isStage stage) declared found]
    rfl
  familiar reader reads :=
    leads.onWay.isFamiliar words declared (World.reader?_of_capabilities found reads)

/-- What is written in a type form is found out on the way. -/
theorem Store.IsOnWay.looksUpTo_written
    {result : Except Fault Capabilities}
    (words : TypeForm.Vocabulary among ofName)
    (onWay : s.IsOnWay among ofName base)
    (met : a.IsMet among base.declared)
    (asks : Capabilities.AsksAmong a.inside result)
    (answers : ∀ w : World, w.answer a =
      ((Step.ofExcept result).run ({ Store.initial with world := w } : Store)).1) :
    s.LooksUpTo among ofName base a ((Step.ofExcept result).run s).1
      ((Step.ofExcept result).run s).2 := by
  simp only [Step.run_ofExcept] at answers ⊢
  refine ⟨onWay, rfl, fun caps isFound => ⟨fun last _ _ => (answers last).trans isFound, ?_⟩,
    fun last _ _ => (answers last).symm⟩
  intro reader reads
  obtain ⟨asked, isAsked, subset⟩ := asks caps (eq_ok_of_mapError isFound) reader reads
  exact Reader.isFamiliar_of_asked isAsked fun b member => met.inside words b (subset member)

/-- A class that comes up is found out about on the way. -/
theorem Store.IsOnWay.looksUpTo_cls
    {c : ClassRef}
    (words : TypeForm.Vocabulary among ofName)
    (onWay : s.IsOnWay among ofName base)
    (met : (TypeForm.cls c).IsMet among base.declared)
    (looked : ∀ scope,
      SchemaProbe.lookup scope (.cls c) = SchemaProbe.remembered scope (.cls c) (resolveClass c))
    (unregistered : defaultRegistrations.lookup (TypeForm.cls c).identity = none) :
    s.LooksUpTo among ofName base (.cls c) ((resolveClass c).run s).1
      ((resolveClass c).run s).2 := by
  obtain ⟨events, ran⟩ := run_resolveClass c s
  have leads := onWay.world
  obtain ⟨reached, read, leadsOn⟩ :=
    leads.onWay.exists_run (leads.onWay.classCapabilities_reads words c)
  have declared : s.world.Declares c := by
    cases c with
    | user u => exact (leads.onWay.declares u).mpr (met.isOver u (List.mem_singleton_self _))
    | _ => trivial
  rw [ran, read]
  refine ⟨⟨leads.trans leadsOn, onWay.shared, onWay.explicit, onWay.cache⟩, rfl,
    fun caps isFound => ?_, fun last complete lastOnWay => ?_⟩
  · exact leads.teaches_cls words looked unregistered declared (eq_ok_of_mapError isFound)
  · have isComplete := leads.same.isComplete complete
    rw [lastOnWay.answer_cls words looked unregistered, leads.onWay.capabilities?_congr words
      isComplete.stage declared (isComplete.cases? declared)]

/-- A literal that comes up is found out about on the way. -/
theorem Store.IsOnWay.looksUpTo_literal
    {values : List Value}
    {resolve : Step Store Capabilities}
    (words : TypeForm.Vocabulary among ofName)
    (onWay : s.IsOnWay among ofName base)
    (met : (TypeForm.literal values).IsMet among base.declared)
    (resolves : ∀ s : Store, resolve.run s =
      (.ok (literalCapabilities s.world (.literal values) values), s))
    (answers : ∀ w : World, w.answer (.literal values) =
      (resolve.run { Store.initial with world := w }).1) :
    s.LooksUpTo among ofName base (.literal values) (resolve.run s).1 (resolve.run s).2 := by
  have alike (last : World) (stage : World.IsStage ofName last base) :
      literalCapabilities last (.literal values) values =
        literalCapabilities s.world (.literal values) values := by
    have labels : values.map last.label = values.map s.world.label :=
      List.map_congr_left fun v member =>
        (onWay.world.same.isStage stage).label
          ((words.literals values met.comesUp v member).1.declares_labelling _)
    unfold literalCapabilities
    rw [labels]
  simp only [resolves] at answers ⊢
  refine ⟨onWay, rfl, fun caps isFound => ?_, fun last complete _ => ?_⟩
  · cases isFound
    refine ⟨fun last stage _ => ?_, fun reader reads => ?_⟩
    · rw [answers, alike last stage]
    · cases reads
      exact words.oneOf met.comesUp
  · rw [answers, alike last complete.stage]

/-- Looking up a type on the way ends with what is known in the end, if with anything, and
just so when all is declared. -/
theorem Store.IsOnWay.lookup
    (words : TypeForm.Vocabulary among ofName)
    (onWay : s.IsOnWay among ofName base)
    (met : a.IsMet among base.declared)
    (scope : Scope) :
    s.LooksUpTo among ofName base a ((SchemaProbe.lookup scope a).run s).1
      ((SchemaProbe.lookup scope a).run s).2 := by
  induction a using TypeForm.source_induction with
  | own a sourceless =>
      obtain ⟨resolve, foundOut, looked⟩ := exists_lookup_of_sourceless sourceless
      rw [looked]
      refine onWay.remembered words met scope fun unregistered => ?_
      cases foundOut with
      | written asks =>
          exact onWay.looksUpTo_written words met asks
            (World.answer_of_sourceless looked unregistered)
      | cls c => exact onWay.looksUpTo_cls words met looked unregistered
      | literal values =>
          exact onWay.looksUpTo_literal words met (fun _ => rfl)
            (World.answer_of_sourceless looked unregistered)
  | derived a b comes inductionHypothesis =>
      rw [lookup_of_source comes]
      refine onWay.remembered words met scope fun unregistered => ?_
      rw [run_bind_pure]
      have looks := inductionHypothesis (met.source words comes)
      have answers (last : World) : last.answer a = (last.answer b).map a.adopt :=
        answer_of_source comes unregistered
      have sameReader (found : Capabilities) : (a.adopt found).reader = found.reader := by
        unfold TypeForm.adopt
        split <;> rfl
      refine ⟨looks.onWay, looks.guard, fun caps isFound => ?_, fun last complete lastOnWay => ?_⟩
      · cases source : ((SchemaProbe.lookup scope b).run s).1 with
        | error interrupt =>
            rw [source] at isFound
            cases isFound
        | ok found =>
            rw [source] at isFound
            cases isFound
            have teaches := looks.teaches found source
            refine ⟨fun last stage lastOnWay => ?_, ?_⟩
            · rw [answers, teaches.answers last stage lastOnWay]
              rfl
            · rw [sameReader]
              exact teaches.familiar
      · rw [answers, looks.complete last complete lastOnWay]

/-! ## Knowing more -/

/-- What comes up over some classes comes up over more. -/
theorem TypeForm.IsMet.mono
    {classes others : UserClass → Prop}
    (met : a.IsMet among classes)
    (more : ∀ u, classes u → others u) :
    a.IsMet among others :=
  ⟨met.comesUp, met.isOver.mono more⟩

/-- A familiar reader stays familiar where more is declared. -/
theorem Reader.IsFamiliar.mono
    {classes others : UserClass → Prop}
    {reader : Reader}
    (familiar : reader.IsFamiliar among ofName classes)
    (more : ∀ u, classes u → others u) :
    reader.IsFamiliar among ofName others := by
  cases reader with
  | fields c => exact fun u same => more u (familiar u same)
  | positions items => exact fun item member => (familiar item member).mono more
  | member c => exact familiar
  | program maker body => exact familiar
  | _ => exact TypeForm.IsMet.mono familiar more

/-- What is on the way stays on the way where more is declared: what is remembered is what
is known in the end, whatever is declared before. -/
theorem Store.IsOnWay.extend
    {new : World}
    (onWay : s.IsOnWay among ofName base)
    (stage : World.IsStage ofName new base)
    (newOnWay : new.IsOnWay among ofName new.declared) :
    ({ s with world := new } : Store).IsOnWay among ofName new := by
  have more (u : UserClass) (declared : base.declared u) : new.declared u := stage.declares declared
  refine ⟨newOnWay.refl, onWay.shared, onWay.explicit, fun key caps cached => ?_⟩
  obtain ⟨a, met, same, teaches⟩ := onWay.cache key caps cached
  exact ⟨a, met.mono more, same,
    fun last isStage lastOnWay => teaches.answers last (isStage.trans stage) lastOnWay,
    fun reader reads => (teaches.familiar reader reads).mono more⟩

/-- A world on the way is on the way with the classes that it declares. -/
theorem World.IsOnWay.of_declared
    {classes : UserClass → Prop}
    (onWay : w.IsOnWay among ofName classes) :
    w.IsOnWay among ofName w.declared := by
  have declared : w.declared = classes := funext fun u => propext (onWay.declares u)
  rw [declared]
  exact onWay

/-- A state on the way is one from its own world. -/
theorem Store.IsOnWay.rebase (onWay : s.IsOnWay among ofName base) :
    s.IsOnWay among ofName s.world :=
  onWay.extend onWay.world.same.symm.isStage_self onWay.world.onWay.of_declared

end

end SchemaProbe

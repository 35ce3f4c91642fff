import SchemaProbe.Proofs.Agreeing
import SchemaProbe.Proofs.Probing
import SchemaProbe.Proofs.Recutting

namespace SchemaProbe

/-!
# Probing below a type and below the type or null

A probe below a type and one below the type or null go on abreast: from states that
know the same of all other types they ask for the same types in the same order, and
give the same trees but for where these are cut.  Below the type or null it is referred
back to itself; below the type it is entered, and what it is read as is referred back to.
-/

open List

/-- Whether a type is looked into, and how it is read. -/
structure Capabilities.LooksInto (caps : Capabilities) (reader : Reader) : Prop where
  isNone : caps.kind = none
  isProbed : caps.bypassesProbe = false
  reads : caps.reader = some reader

/-- What is found out about a type or null is what it is read as. -/
theorem looksInto_unionCapabilities
    {a inner : TypeForm}
    (strips : a.stripNull = (inner, true)) :
    (unionCapabilities a).type = a ∧ (unionCapabilities a).LooksInto (.nullable inner) := by
  rw [unionCapabilities, strips]
  exact ⟨rfl, rfl, rfl, rfl⟩

/-! ## Guards abreast -/

/-- Whether the guard of a probe below a type knows what one below the type or null
knows.  The type or null is always entered anew below the type. -/
structure Progress.Abreast (cut : Cut) (μ ν : Progress) : Prop where
  same : ∀ key, key ≠ cut.nullable.key → μ key = (ν key).map (Option.map (Shape.recut cut))
  trees : ∀ key shape, key ≠ cut.nullable.key → ν key = some (some shape) →
    shape.IsCutFor cut key
  bare : ν cut.bare.key = some none
  nullable : ν cut.nullable.key = some none
  anew : μ cut.nullable.key = none ∨
    ∃ shape, μ cut.nullable.key = some (some shape) ∧ shape.hasRecursive = true

namespace Progress.Abreast

variable {cut : Cut} {μ ν : Progress} {type : TypeForm}

/-- Another type is known to both guards. -/
theorem set
    {key : Key}
    (abreast : μ.Abreast cut ν)
    (shape : Option Shape)
    (other : key ≠ cut.nullable.key)
    (notBare : key ≠ cut.bare.key)
    (isCut : ∀ s, shape = some s → s.IsCutFor cut key) :
    (μ.set key (shape.map (Shape.recut cut))).Abreast cut (ν.set key shape) := by
  refine ⟨fun k elsewhere => ?_, fun k s elsewhere known => ?_, ?_, ?_, ?_⟩
  · by_cases sameKey : k = key
    · subst sameKey
      rw [Progress.set_self, Progress.set_self]
      rfl
    · rw [Progress.set_of_ne _ _ sameKey, Progress.set_of_ne _ _ sameKey, abreast.same k elsewhere]
  · by_cases sameKey : k = key
    · subst sameKey
      rw [Progress.set_self] at known
      exact isCut s (Option.some.inj known)
    · rw [Progress.set_of_ne _ _ sameKey] at known
      exact abreast.trees k s elsewhere known
  · rw [Progress.set_of_ne _ _ notBare.symm, abreast.bare]
  · rw [Progress.set_of_ne _ _ other.symm, abreast.nullable]
  · rw [Progress.set_of_ne _ _ other.symm]
    exact abreast.anew

/-- The type or null was entered below the type, and is left again. -/
theorem setNullable
    {shape : Shape}
    (abreast : μ.Abreast cut ν)
    (refersBack : shape.hasRecursive = true) :
    (μ.set cut.nullable.key (some shape)).Abreast cut ν where
  same key other := by rw [Progress.set_of_ne _ _ other, abreast.same key other]
  trees := abreast.trees
  bare := abreast.bare
  nullable := abreast.nullable
  anew := .inr ⟨shape, Progress.set_self _ _ _, refersBack⟩

/-- Both guards have the same answer for another type. -/
theorem answer?
    (abreast : μ.Abreast cut ν)
    (plain : type.isPlain = true)
    (other : type.key ≠ cut.nullable.key) :
    μ.answer? type = (ν.answer? type).map (Shape.recut cut) ∧
      ∀ shape, ν.answer? type = some shape → shape.IsCutFor cut type.key := by
  have identity := TypeForm.identity_of_isPlain plain
  rw [Progress.answer?, Progress.answer?, identity, abreast.same type.key other]
  cases known : ν type.key with
  | none =>
      refine ⟨rfl, fun _ absent => ?_⟩
      cases absent
  | some state =>
      cases state with
      | none =>
          have isBack : (Shape.back type).recut cut = .back type := by
            rw [Shape.back, Shape.recut, if_neg other]
          refine ⟨(congrArg some isBack).symm, ?_⟩
          rintro _ ⟨rfl⟩
          exact .back other
      | some shape =>
          simp only [Option.map_some, Shape.hasRecursive_recut]
          cases refersBack : shape.hasRecursive with
          | true =>
              refine ⟨rfl, fun _ absent => ?_⟩
              cases absent
          | false =>
              refine ⟨rfl, ?_⟩
              rintro _ ⟨rfl⟩
              exact abreast.trees type.key shape other known

/-- The type or null is referred back to below itself. -/
theorem answer?_nullable (abreast : μ.Abreast cut ν) :
    ν.answer? cut.nullable = some (.back cut.nullable) := by
  rw [Progress.answer?, TypeForm.identity_of_isPlain cut.plain, abreast.nullable]

/-- The type or null is entered anew below the type. -/
theorem answer?_anew
    (abreast : μ.Abreast cut ν)
    (identity : type.identity = cut.nullable.key) :
    μ.answer? type = none := by
  rw [Progress.answer?, identity]
  rcases abreast.anew with unknown | ⟨shape, known, refersBack⟩
  · rw [unknown]
  · rw [known]
    simp only [refersBack, if_true]

/-- The type is in progress below itself. -/
theorem busy_bare (abreast : μ.Abreast cut ν) : μ cut.bare.key = some none := by
  rw [abreast.same _ cut.bare_ne, abreast.bare]
  rfl

end Progress.Abreast

/-! ## States abreast -/

namespace Store

/-- Whether a probe below a type is where one below the type or null is, which stays in
its universe. -/
structure Abreast (cut : Cut) (others : List TypeForm) (s t : Store) : Prop where
  agrees : s.AgreesBut cut.nullable.key t
  guards : s.guard.progress.Abreast cut t.guard.progress
  bare : ∃ caps reader, (s.registry .current).find? cut.bare = some caps ∧
    caps.type = cut.bare ∧ caps.LooksInto reader
  nullable : ∃ caps inner, (t.registry .current).find? cut.nullable = some caps ∧
    caps.type = cut.nullable ∧ caps.LooksInto (.nullable inner)
  wraps : ∀ caps, (s.registry .current).find? cut.nullable = some caps →
    ∃ inner, caps.LooksInto (.nullable inner)
  within : t.ReadsWithin others

namespace Abreast

variable {cut : Cut} {others : List TypeForm} {s t reached later : Store}

/-- Both go on to states that agree and know what was known. -/
theorem step
    (abreast : s.Abreast cut others t)
    (agrees : reached.AgreesBut cut.nullable.key later)
    (guards : reached.guard.progress.Abreast cut later.guard.progress)
    (grows : s.GrowsTo reached)
    (growsLater : t.GrowsTo later)
    (wraps : ∀ caps, (reached.registry .current).find? cut.nullable = some caps →
      ∃ inner, caps.LooksInto (.nullable inner))
    (within : later.ReadsWithin others) :
    reached.Abreast cut others later where
  agrees := agrees
  guards := guards
  bare := by
    obtain ⟨caps, reader, found, isBare⟩ := abreast.bare
    exact ⟨caps, reader, grows.found _ caps found, isBare⟩
  nullable := by
    obtain ⟨caps, inner, found, isNullable⟩ := abreast.nullable
    exact ⟨caps, inner, growsLater.found _ caps found, isNullable⟩
  wraps := wraps
  within := within

/-- Settling declared classes keeps both abreast. -/
theorem settle
    (abreast : s.Abreast cut others t)
    (settles : s.SettlesTo reached)
    (settlesLater : t.SettlesTo later) :
    reached.Abreast cut others later := by
  refine abreast.step ?_ ?_ ⟨settles.world.reading, ?_⟩ ⟨settlesLater.world.reading, ?_⟩ ?_ ?_
  · exact ((AgreesBut.of_settlesTo settles).symm.trans abreast.agrees).trans
      (.of_settlesTo settlesLater)
  · rw [settles.guard, settlesLater.guard]
    exact abreast.guards
  · intro a caps found
    rw [settles.registry, found]
  · intro a caps found
    rw [settlesLater.registry, found]
  · rw [settles.registry]
    exact abreast.wraps
  · exact abreast.within.of_registry settlesLater.registry

/-- What the guards know is all that matters of them. -/
theorem withGuards
    {guard guardLater : CycleGuard}
    (abreast : s.Abreast cut others t)
    (guards : guard.progress.Abreast cut guardLater.progress) :
    { s with guard := guard }.Abreast cut others { t with guard := guardLater } :=
  ⟨⟨abreast.agrees.reading, abreast.agrees.alike, abreast.agrees.found⟩, guards, abreast.bare,
    abreast.nullable, abreast.wraps, abreast.within⟩

/-- What happened on the way does not matter. -/
theorem withEvents
    (abreast : s.Abreast cut others t)
    (events eventsLater : List Event) :
    { s with events := events }.Abreast cut others { t with events := eventsLater } :=
  ⟨⟨abreast.agrees.reading, abreast.agrees.alike, abreast.agrees.found⟩, abreast.guards,
    abreast.bare, abreast.nullable, abreast.wraps, abreast.within⟩

end Abreast

end Store

/-! ## Probes abreast -/

/-- Whether a probe of a type ends as one below the type or null does, but for where its
tree is cut. -/
def EndsAbreast
    (cut : Cut)
    (others : List TypeForm)
    (key : Key)
    (ended endedLater : Except Interrupt (Shape × Value) × Store) :
    Prop :=
  ∃ shape value other s t, ended = (.ok (shape.recut cut, value), s) ∧
    endedLater = (.ok (shape, other), t) ∧ shape.IsCutFor cut key ∧ s.Abreast cut others t

section

variable {cut : Cut} {forms others : List TypeForm} {allowed : Allowance} {depth deep : Nat}
  {s t reached later : Store} {a : TypeForm}

/-- The type is referred back to below itself. -/
theorem run_nestedProbe_bare
    {caps : Capabilities}
    {reader : Reader}
    (known : (s.registry .current).find? cut.bare = some caps)
    (isBare : caps.type = cut.bare)
    (looksInto : caps.LooksInto reader)
    (busy : s.guard.progress cut.bare.key = some none)
    (plain : a.isPlain = true)
    (same : a.key = cut.bare.key)
    (positive : 0 < depth)
    (path : Path) :
    ∃ value events, (nestedProbe (probe depth) a path).run s =
      (.ok (.back cut.bare, value), { s with events := events }) := by
  obtain ⟨depth, rfl⟩ : ∃ d, depth = d + 1 := Nat.exists_eq_succ_of_ne_zero (by omega)
  have identity := TypeForm.identity_eq_of_key plain cut.barePlain same
  have found := (Store.find?_congr (s.registry .current) identity).trans known
  have answered : s.guard.progress.answer? caps.type = some (.back cut.bare) := by
    rw [isBare, Progress.answer?, TypeForm.identity_of_isPlain cut.barePlain, busy]
  obtain ⟨value, events, ran⟩ :=
    run_probe_of_answer (Store.run_lookup_of_known plain found) looksInto.isNone
      looksInto.isProbed looksInto.reads answered depth path
  exact ⟨value, events, run_nestedProbe_of_ok ran⟩

/-- Looking up the type or null below the type finds what it is read as. -/
theorem lookup_nullable
    (abreast : s.Abreast cut others t)
    (ready : s.Ready forms allowed)
    (member : a ∈ forms)
    (same : a.key = cut.nullable.key) :
    ∃ caps inner known, (lookup .current a).run s = (.ok caps, known) ∧
      s.Learns known forms allowed ∧ (known.registry .current).find? a = some caps ∧
      caps.LooksInto (.nullable inner) ∧ s.AgreesBut cut.nullable.key known := by
  have plain := ready.covers.plain a member
  have identity := TypeForm.identity_eq_of_key plain cut.plain same
  obtain ⟨inner, strips⟩ : ∃ inner, a.stripNull = (inner, true) := by
    refine ⟨_, Prod.ext rfl ?_⟩
    rw [← TypeForm.isNullable_key plain, same, cut.isNullable]
  obtain ⟨caps, known, ran, learns, found⟩ :=
    lookup_learns ready member (TypeForm.hasCapabilities_of_stripNull plain strips)
  rcases run_lookup_union plain strips with ⟨own, before, again⟩ | ⟨_, again⟩
  · rw [ran] at again
    cases again
    obtain ⟨wrapped, looksInto⟩ :=
      abreast.wraps _ ((Store.find?_congr (s.registry .current) identity).symm.trans before)
    exact ⟨caps, wrapped, s, ran, learns, found, looksInto, .refl _ s⟩
  · rw [ran] at again
    cases again
    refine ⟨_, inner, _, ran, learns, found, (looksInto_unionCapabilities strips).2,
      .of_remembering _ ?_⟩
    rw [TypeForm.identity_of_isPlain plain, same]

/-- A type or null that is entered asks for what it is read as, and is left with the
tree of that, which may be missing. -/
theorem run_probe_wrapping
    {caps : Capabilities}
    {inner : TypeForm}
    {known : Store}
    (bounded : Bounded forms allowed (depth + 1) known)
    (member : a ∈ forms)
    (lookedUp : (lookup .current a).run s = (.ok caps, known))
    (found : (known.registry .current).find? a = some caps)
    (looksInto : caps.LooksInto (.nullable inner))
    (unanswered : known.guard.progress.answer? caps.type = none)
    (path : Path) :
    ∃ between way shape value last left other,
      Bounded forms allowed depth between ∧
        (known.entering caps.type).SettlesTo between ∧
        (nestedProbe (probe depth) inner way).run between = (.ok (shape, value), last) ∧
        last.SettlesTo left ∧
        (probe (depth + 1) a path).run s = (.ok (shape.optional true, other),
          { left with guard := left.guard.complete caps.type (shape.optional true) other }) := by
  have sound := bounded.ready.known a member caps found
  obtain ⟨events, ran⟩ := run_probe_of_unanswered lookedUp looksInto.isNone looksInto.isProbed
    looksInto.reads unanswered depth path
  let start : Store := { known with events := events }
  have noted := Store.learns_note bounded.ready events
  have entering := (bounded.of_learns noted).entering member sound.identity
    (Progress.not_busy_of_answer_none unanswered)
  have noProgram : ∀ maker body, Reader.nullable inner ≠ .program maker body :=
    fun _ _ => Reader.noConfusion
  have answers : Answers forms allowed depth (nestedProbe (probe depth)) :=
    nestedProbe_answers depth
  obtain ⟨other, between, shapes, last, left, read, settles, asked, settlesLater⟩ :=
    probeReading_recorded answers.responds entering
      (Store.sound_congr sound (.refl known.world)) looksInto.isNone looksInto.isProbed
      looksInto.reads noProgram path
  have startSettles : (known.entering caps.type).SettlesTo (start.entering caps.type) :=
    .note _ events
  obtain ⟨shape, rest, rfl⟩ := exists_cons_of_length_pos
    (by rw [asked.length_eq]; exact Nat.one_pos)
  cases asked with
  | @cons _ _ _ _ _ _ _ way value answered none =>
      cases none
      exact ⟨between, way, shape, value, last, left, other,
        entering.of_learns (settles.learns entering.ready), startSettles.trans settles, answered,
        settlesLater, ran.trans (run_probeGuarded read)⟩

/-- Setting what is known about a type again forgets what it was before. -/
theorem Progress.set_set
    (μ : Progress)
    (key : Key)
    (first second : Option Shape) :
    (μ.set key first).set key second = μ.set key second := by
  funext other
  unfold Progress.set
  split <;> rfl

/-- Below the type, the type or null is entered and refers back to the type. -/
theorem run_probe_nullable
    (bounded : Bounded forms allowed (depth + 1) s)
    (abreast : s.Abreast cut others t)
    (member : a ∈ forms)
    (same : a.key = cut.nullable.key)
    (path : Path) :
    ∃ value reached, (probe (depth + 1) a path).run s =
        (.ok ((Shape.back cut.bare).optional true, value), reached) ∧
      reached.Abreast cut others t := by
  have plain := bounded.ready.covers.plain a member
  obtain ⟨caps, inner, known, lookedUp, learns, found, looksInto, agreesKnown⟩ :=
    lookup_nullable abreast bounded.ready member same
  have sound := learns.ready.known a member caps found
  have isKey : caps.type.key = cut.nullable.key := by
    rw [← TypeForm.identity_of_isPlain sound.plain, sound.identity,
      TypeForm.identity_of_isPlain plain, same]
  have identity : caps.type.identity = cut.nullable.key := by
    rw [TypeForm.identity_of_isPlain sound.plain, isKey]
  have unanswered : known.guard.progress.answer? caps.type = none := by
    rw [learns.guard, abreast.guards.answer?_anew identity]
  obtain ⟨between, way, shape, value, last, left, other, entering, settles, asked, settlesLater,
      ran⟩ :=
    run_probe_wrapping (bounded.of_learns learns) member lookedUp found looksInto unanswered path
  -- What the type or null is read as is the type, which is in progress.
  have strips : caps.type.stripNull = (inner, true) :=
    (sound.fits _ looksInto.isNone looksInto.isProbed looksInto.reads).2
  have innerPlain : inner.isPlain = true := by
    have isPlain := TypeForm.isPlain_stripNull sound.plain
    rwa [strips] at isPlain
  have guardThere : between.guard.progress = s.guard.progress.set cut.nullable.key none := by
    rw [settles.guard, ← identity, ← learns.guard]
    exact CycleGuard.progress_enter known.guard caps.type
  have sameRegistry : between.registry .current = known.registry .current := settles.registry
  obtain ⟨own, reader, ownFound, isBare, ownLooksInto⟩ := abreast.bare
  obtain ⟨back, noted, backRan⟩ :=
    run_nestedProbe_bare (by rw [sameRegistry]; exact learns.grows.found _ _ ownFound) isBare
      ownLooksInto
      (by rw [guardThere, Progress.set_of_ne _ _ cut.bare_ne, abreast.guards.busy_bare])
      innerPlain (cut.key_inner sound.plain isKey strips)
      (Nat.lt_of_le_of_lt (Nat.zero_le _) entering.idle) way
  rw [backRan] at asked
  cases asked
  -- What was found out on the way is about the type or null alone.
  have agreesEntering : s.AgreesBut cut.nullable.key (known.entering caps.type) :=
    agreesKnown.congr_right rfl rfl
  have agreesLast : s.AgreesBut cut.nullable.key { between with events := noted } :=
    (agreesEntering.trans (.of_settlesTo settles)).congr_right rfl rfl
  have agreesLeft := agreesLast.trans (.of_settlesTo settlesLater)
  have leftRegistry : left.registry .current = known.registry .current :=
    settlesLater.registry.trans sameRegistry
  have isNullable : (known.registry .current).find? cut.nullable = some caps := by
    rw [← found]
    exact Store.find?_congr _ (TypeForm.identity_eq_of_key cut.plain plain same.symm)
  let tree := (Shape.back cut.bare).optional true
  let reached : Store := { left with guard := left.guard.complete caps.type tree other }
  have agreesReached : s.AgreesBut cut.nullable.key reached := agreesLeft.congr_right rfl rfl
  refine ⟨other, reached, ran,
    abreast.step (agreesReached.symm.trans abreast.agrees) ?_ ?_ (.refl t) ?_ abreast.within⟩
  · have guards : reached.guard.progress = s.guard.progress.set cut.nullable.key (some tree) := by
      change (left.guard.complete caps.type tree other).progress = _
      rw [CycleGuard.progress_complete, settlesLater.guard, identity]
      change (between.guard.progress).set cut.nullable.key (some tree) = _
      rw [guardThere, Progress.set_set]
    rw [guards]
    exact abreast.guards.setNullable rfl
  · refine ⟨agreesLeft.reading, fun b others before => ?_⟩
    change (left.registry .current).find? b = some others
    rw [leftRegistry, learns.grows.found b others before]
  · intro others isFound
    change (left.registry .current).find? cut.nullable = some others at isFound
    rw [leftRegistry, isNullable] at isFound
    cases isFound
    exact ⟨inner, looksInto⟩

/-- Whether probes of types below the two go on abreast, to two depths. -/
def NestedAbreast
    (cut : Cut)
    (forms others : List TypeForm)
    (allowed : Allowance)
    (depth deep : Nat) :
    Prop :=
  ∀ a, a ∈ forms → a ∈ others → ∀ path way s t, Bounded forms allowed depth s →
    Bounded others allowed deep t → s.Abreast cut others t →
      EndsAbreast cut others a.key ((nestedProbe (probe depth) a path).run s)
        ((nestedProbe (probe deep) a way).run t)

/-- A nested probe of a type of the universe stays bounded. -/
theorem Bounded.of_run
    {path : Path}
    {shape : Shape}
    {value : Value}
    (bounded : Bounded forms allowed depth s)
    (member : a ∈ forms)
    (ran : (nestedProbe (probe depth) a path).run s = (.ok (shape, value), reached)) :
    Bounded forms allowed depth reached := by
  obtain ⟨_, _, _, answered, probed⟩ := nestedProbe_answers depth a member path s bounded
  rw [ran] at answered
  cases answered
  exact bounded.of_probed probed

/-- Types that are asked for one after the other are probed abreast. -/
theorem Asked.abreast
    {requests : List TypeForm}
    {shapes trees : List Shape}
    (nested : NestedAbreast cut forms others allowed depth deep)
    (asked : Asked (nestedProbe (probe depth)) s requests shapes reached)
    (alsoAsked : Asked (nestedProbe (probe deep)) t requests trees later)
    (covered : ∀ request ∈ requests, request ∈ forms)
    (alsoCovered : ∀ request ∈ requests, request ∈ others)
    (bounded : Bounded forms allowed depth s)
    (alsoBounded : Bounded others allowed deep t)
    (abreast : s.Abreast cut others t) :
    shapes = trees.map (Shape.recut cut) ∧
      Forall₂ (fun request tree => Shape.IsCutFor cut request.key tree) requests trees ∧
      reached.Abreast cut others later := by
  induction asked generalizing t trees with
  | nil =>
      cases alsoAsked
      exact ⟨rfl, .nil, abreast⟩
  | @cons _ _ _ a rest shape _ path value ran _ inductionHypothesis =>
      cases alsoAsked with
      | @cons _ _ _ _ _ tree _ way _ alsoRan restAsked =>
          have member := covered a mem_cons_self
          have alsoMember := alsoCovered a mem_cons_self
          obtain ⟨found, _, _, _, _, ended, alsoEnded, isCut, abreastLater⟩ :=
            nested a member alsoMember path way _ t bounded alsoBounded abreast
          rw [ran] at ended
          rw [alsoRan] at alsoEnded
          cases ended
          cases alsoEnded
          obtain ⟨restShapes, restCut, lastAbreast⟩ :=
            inductionHypothesis restAsked
              (fun request later => covered request (mem_cons_of_mem _ later))
              (fun request later => alsoCovered request (mem_cons_of_mem _ later))
              (bounded.of_run member ran) (alsoBounded.of_run alsoMember alsoRan) abreastLater
          exact ⟨by rw [restShapes, map_cons], .cons isCut restCut, lastAbreast⟩

/-- What is known about another type is laid out so that its tree can be cut. -/
theorem recorded_abreast
    {caps : Capabilities}
    {reader : Reader}
    {trees : List Shape}
    (ready : t.Ready others allowed)
    (within : caps.ReadsWithin others)
    (looksInto : caps.LooksInto reader)
    (plain : caps.type.isPlain = true)
    (fits : reader.Fits caps allowed)
    (other : caps.type.key ≠ cut.nullable.key)
    (each : Forall₂ (fun request tree => Shape.IsCutFor cut request.key tree)
      (t.layout caps reader).requests trees) :
    (t.layout caps reader).recorded caps.type (trees.map (Shape.recut cut)) =
        ((t.layout caps reader).recorded caps.type trees).recut cut ∧
      ((t.layout caps reader).recorded caps.type trees).IsCutFor cut caps.type.key := by
  constructor
  · refine Layout.recorded_recut each fun value cases isScalar => ?_
    obtain ⟨⟨c, rfl⟩, _⟩ := scalar_of_layout fits isScalar
    exact TypeForm.identity_class_ne_of_isNullable cut.isNullable c
  · refine Layout.recorded_isCutFor plain other (fun plans isRecord p isPlan => ?_) (fun inner wraps => ?_)
      each
    · cases reader with
      | fields c =>
          have member := within c looksInto.reads
          simp only [Store.layout] at isRecord
          split at isRecord
          · rename_i found
            cases isRecord
            exact ⟨World.isFaithful_of_mem_plansOf? found p isPlan,
              ready.covers.plain _ (ready.covers.plans c member plans found p isPlan)⟩
          · cases isRecord
      | _ => cases isRecord
    · cases reader with
      | nullable x =>
          cases wraps
          exact fits.2
      | fields c =>
          simp only [Store.layout] at wraps
          split at wraps <;> cases wraps
      | _ => cases wraps

/-- Another type is read abreast. -/
theorem probeReading_abreast
    {key : Key}
    {caps : Capabilities}
    {reader : Reader}
    (programFree : allowed.programs = [])
    (nested : NestedAbreast cut forms others allowed depth deep)
    (bounded : Bounded forms allowed depth s)
    (alsoBounded : Bounded others allowed deep t)
    (abreast : s.Abreast cut others t)
    (sound : caps.Sound s forms allowed key)
    (alsoSound : caps.Sound t others allowed key)
    (within : caps.ReadsWithin others)
    (looksInto : caps.LooksInto reader)
    (other : caps.type.key ≠ cut.nullable.key)
    (path way : Path) :
    EndsAbreast cut others caps.type.key
      ((probeReading (nestedProbe (probe depth)) caps reader path).run s)
      ((probeReading (nestedProbe (probe deep)) caps reader way).run t) := by
  have fits := alsoSound.fits reader looksInto.isNone looksInto.isProbed looksInto.reads
  have noProgram : ∀ maker body, reader ≠ .program maker body := by
    rintro maker body rfl
    have isExempt : caps.type.identity ∈ allowed.programs := fits
    rw [programFree] at isExempt
    cases isExempt
  obtain ⟨value, between, shapes, last, reached, ran, settles, asked, settlesLater⟩ :=
    probeReading_recorded (nestedProbe_answers depth).responds bounded sound looksInto.isNone
      looksInto.isProbed looksInto.reads noProgram path
  obtain ⟨otherValue, alsoBetween, trees, alsoLast, later, alsoRan, alsoSettles, alsoAsked,
      alsoSettlesLater⟩ :=
    probeReading_recorded (nestedProbe_answers deep).responds alsoBounded alsoSound
      looksInto.isNone looksInto.isProbed looksInto.reads noProgram way
  have sameLayout : s.layout caps reader = t.layout caps reader :=
    (Store.layout_congr abreast.agrees.reading caps reader).symm
  have covered := sound.closed reader looksInto.isNone looksInto.isProbed looksInto.reads
  rw [sameLayout] at ran asked covered
  obtain ⟨rfl, isCut, abreastLast⟩ :=
    asked.abreast nested alsoAsked covered
      (alsoSound.closed reader looksInto.isNone looksInto.isProbed looksInto.reads)
      (bounded.of_learns (settles.learns bounded.ready))
      (alsoBounded.of_learns (alsoSettles.learns alsoBounded.ready))
      (abreast.settle settles alsoSettles)
  obtain ⟨recut, cutFor⟩ :=
    recorded_abreast alsoBounded.ready within looksInto alsoSound.plain fits other isCut
  rw [recut] at ran
  exact ⟨_, value, otherValue, reached, later, ran, alsoRan, cutFor,
    abreastLast.settle settlesLater alsoSettlesLater⟩

/-- Another type is entered and left abreast. -/
theorem probeGuarded_abreast
    {caps : Capabilities}
    {reader : Reader}
    (programFree : allowed.programs = [])
    (nested : NestedAbreast cut forms others allowed depth deep)
    (bounded : Bounded forms allowed (depth + 1) s)
    (alsoBounded : Bounded others allowed (deep + 1) t)
    (abreast : s.Abreast cut others t)
    (member : a ∈ forms)
    (alsoMember : a ∈ others)
    (sound : caps.Sound s forms allowed a.identity)
    (alsoSound : caps.Sound t others allowed a.identity)
    (within : caps.ReadsWithin others)
    (looksInto : caps.LooksInto reader)
    (other : caps.type.key ≠ cut.nullable.key)
    (unanswered : s.guard.progress.answer? caps.type = none)
    (alsoUnanswered : t.guard.progress.answer? caps.type = none)
    (path way : Path) :
    EndsAbreast cut others caps.type.key
      ((probeGuarded (nestedProbe (probe depth)) caps reader path).run s)
      ((probeGuarded (nestedProbe (probe deep)) caps reader way).run t) := by
  have identity := TypeForm.identity_of_isPlain sound.plain
  have notBusy := Progress.not_busy_of_answer_none alsoUnanswered
  have notBare : caps.type.key ≠ cut.bare.key := by
    intro same
    rw [identity, same] at notBusy
    exact notBusy abreast.guards.bare
  have entered : (s.entering caps.type).Abreast cut others (t.entering caps.type) := by
    refine abreast.withGuards ?_
    rw [CycleGuard.progress_enter, CycleGuard.progress_enter, identity]
    exact abreast.guards.set none other notBare fun _ absent => nomatch absent
  obtain ⟨shape, value, otherValue, reached, later, ran, alsoRan, isCut, abreastLater⟩ :=
    probeReading_abreast programFree nested
      (bounded.entering member sound.identity (Progress.not_busy_of_answer_none unanswered))
      (alsoBounded.entering alsoMember sound.identity notBusy) entered
      (Store.sound_congr sound (.refl s.world)) (Store.sound_congr alsoSound (.refl t.world))
      within looksInto other path way
  refine ⟨shape, value, otherValue, _, _, run_probeGuarded ran, run_probeGuarded alsoRan, isCut,
    abreastLater.withGuards ?_⟩
  rw [CycleGuard.progress_complete, CycleGuard.progress_complete, identity]
  refine abreastLater.guards.set (some shape) other notBare ?_
  rintro _ ⟨rfl⟩
  exact isCut

/-- The type or null is probed abreast: below itself it is referred back to. -/
theorem probe_nullable_abreast
    (bounded : Bounded forms allowed (depth + 1) s)
    (abreast : s.Abreast cut others t)
    (member : a ∈ forms)
    (same : a.key = cut.nullable.key)
    (path way : Path) :
    EndsAbreast cut others a.key ((probe (depth + 1) a path).run s)
      ((probe (deep + 1) a way).run t) := by
  have plain := bounded.ready.covers.plain a member
  have identity := TypeForm.identity_eq_of_key plain cut.plain same
  obtain ⟨value, reached, ran, abreastLater⟩ :=
    run_probe_nullable bounded abreast member same path
  obtain ⟨caps, inner, known, isNullable, looksInto⟩ := abreast.nullable
  have found := (Store.find?_congr (t.registry .current) identity).trans known
  obtain ⟨otherValue, events, alsoRan⟩ :=
    run_probe_of_answer (Store.run_lookup_of_known plain found) looksInto.isNone
      looksInto.isProbed looksInto.reads
      (by rw [isNullable, abreast.guards.answer?_nullable]) deep way
  have isBack : (Shape.back cut.nullable).recut cut = (Shape.back cut.bare).optional true := by
    rw [Shape.back, Shape.recut, if_pos rfl]
  refine ⟨_, value, otherValue, reached, _, ?_, alsoRan, ?_, abreastLater.withEvents reached.events _⟩
  · rw [isBack, ran]
  · rw [same]
    exact .nullable

/-- Another type is looked up abreast. -/
theorem lookup_abreast
    (ready : s.Ready forms allowed)
    (alsoReady : t.Ready others allowed)
    (abreast : s.Abreast cut others t)
    (member : a ∈ forms)
    (alsoMember : a ∈ others)
    (accepted : a.hasCapabilities = true)
    (other : a.key ≠ cut.nullable.key) :
    ∃ caps known later, (lookup .current a).run s = (.ok caps, known) ∧
      (lookup .current a).run t = (.ok caps, later) ∧
      s.Learns known forms allowed ∧ t.Learns later others allowed ∧
      (known.registry .current).find? a = some caps ∧
      (later.registry .current).find? a = some caps ∧
      caps.ReadsWithin others ∧ known.Abreast cut others later := by
  have plain := ready.covers.plain a member
  obtain ⟨caps, known, later, ran, alsoRan, agrees, kept⟩ :=
    abreast.agrees.lookup ready.covers
      (TypeForm.identity_class_ne_of_isNullable cut.isNullable) member accepted
      (by rwa [TypeForm.identity_of_isPlain plain])
  obtain ⟨_, _, again, learns, found⟩ := lookup_learns ready member accepted
  rw [ran] at again
  cases again
  obtain ⟨_, _, again, alsoLearns, alsoFound⟩ := lookup_learns alsoReady alsoMember accepted
  rw [alsoRan] at again
  cases again
  obtain ⟨capsWithin, laterWithin⟩ :=
    abreast.within.lookup alsoReady.covers alsoMember accepted caps later alsoRan
  refine ⟨caps, known, later, ran, alsoRan, learns, alsoLearns, found, alsoFound, capsWithin,
    abreast.step agrees ?_ learns.grows alsoLearns.grows ?_ laterWithin⟩
  · rw [learns.guard, alsoLearns.guard]
    exact abreast.guards
  · rw [kept cut.nullable (TypeForm.identity_of_isPlain cut.plain)]
    exact abreast.wraps

/-- The node of another type that is not looked into is not cut. -/
theorem Capabilities.leaf_isCut
    (caps : Capabilities)
    (key : Key)
    (other : caps.type.key ≠ cut.nullable.key) :
    caps.leaf.recut cut = caps.leaf ∧ caps.leaf.IsCutFor cut key := by
  have avoids := ShapeHeader.avoids_of_ne other false none
  rw [Capabilities.leaf]
  split
  · exact ⟨rfl, .of_isCut (.single avoids) rfl⟩
  · exact ⟨rfl, .of_isCut (.unconstrained avoids) rfl⟩

/-- Every type is probed abreast if nested probes are. -/
theorem probe_abreast
    (programFree : allowed.programs = [])
    (nested : NestedAbreast cut forms others allowed depth deep)
    (bounded : Bounded forms allowed (depth + 1) s)
    (alsoBounded : Bounded others allowed (deep + 1) t)
    (abreast : s.Abreast cut others t)
    (member : a ∈ forms)
    (alsoMember : a ∈ others)
    (accepted : a.hasCapabilities = true)
    (path way : Path) :
    EndsAbreast cut others a.key ((probe (depth + 1) a path).run s)
      ((probe (deep + 1) a way).run t) := by
  by_cases same : a.key = cut.nullable.key
  · exact probe_nullable_abreast bounded abreast member same path way
  obtain ⟨caps, known, later, lookedUp, alsoLookedUp, learns, alsoLearns, found, alsoFound, within,
    knownAbreast⟩ := lookup_abreast bounded.ready alsoBounded.ready abreast member alsoMember
      accepted same
  have sound := learns.ready.known a member caps found
  have alsoSound := alsoLearns.ready.known a alsoMember caps alsoFound
  have sameKey : a.key = caps.type.key := by
    rw [← TypeForm.identity_of_isPlain (bounded.ready.covers.plain a member), ← sound.identity,
      TypeForm.identity_of_isPlain sound.plain]
  rw [sameKey] at same ⊢
  by_cases isInner : ∃ reader, caps.LooksInto reader
  · obtain ⟨reader, looksInto⟩ := isInner
    obtain ⟨sameAnswer, isCut⟩ := knownAbreast.guards.answer? sound.plain same
    cases alsoAnswered : later.guard.progress.answer? caps.type with
    | some shape =>
        rw [alsoAnswered] at sameAnswer
        obtain ⟨value, events, ran⟩ := run_probe_of_answer lookedUp looksInto.isNone
          looksInto.isProbed looksInto.reads sameAnswer depth path
        obtain ⟨otherValue, eventsLater, alsoRan⟩ := run_probe_of_answer alsoLookedUp
          looksInto.isNone looksInto.isProbed looksInto.reads alsoAnswered deep way
        exact ⟨shape, value, otherValue, _, _, ran, alsoRan, isCut shape alsoAnswered,
          knownAbreast.withEvents events eventsLater⟩
    | none =>
        rw [alsoAnswered] at sameAnswer
        obtain ⟨events, ran⟩ := run_probe_of_unanswered lookedUp looksInto.isNone
          looksInto.isProbed looksInto.reads sameAnswer depth path
        obtain ⟨eventsLater, alsoRan⟩ := run_probe_of_unanswered alsoLookedUp looksInto.isNone
          looksInto.isProbed looksInto.reads alsoAnswered deep way
        rw [ran, alsoRan]
        have noted := Store.learns_note learns.ready events
        have alsoNoted := Store.learns_note alsoLearns.ready eventsLater
        exact probeGuarded_abreast programFree nested
          ((bounded.of_learns learns).of_learns noted)
          ((alsoBounded.of_learns alsoLearns).of_learns alsoNoted)
          (knownAbreast.withEvents events eventsLater) member alsoMember
          (Store.sound_congr sound noted.grows.reading)
          (Store.sound_congr alsoSound alsoNoted.grows.reading) within looksInto same sameAnswer
          alsoAnswered path way
  · have isLeaf (reader : Reader) (isNone : caps.kind = none)
        (isProbed : caps.bypassesProbe = false) : caps.reader ≠ some reader :=
      fun reads => isInner ⟨reader, isNone, isProbed, reads⟩
    obtain ⟨value, ran⟩ := run_probe_of_leaf lookedUp isLeaf depth path
    obtain ⟨otherValue, alsoRan⟩ := run_probe_of_leaf alsoLookedUp isLeaf deep way
    obtain ⟨recut, isCut⟩ := caps.leaf_isCut caps.type.key same
    exact ⟨caps.leaf, value, otherValue, known, later, by rw [recut, ran], alsoRan, isCut,
      knownAbreast⟩

/-- Nested probes go on abreast to all depths. -/
theorem nestedProbe_abreast
    (programFree : allowed.programs = [])
    (depth deep : Nat) :
    NestedAbreast cut forms others allowed depth deep := by
  -- By induction on one depth; neither is used up, as fewer types are idle.
  induction depth generalizing deep with
  | zero => exact fun _ _ _ _ _ _ _ bounded => absurd bounded.idle (Nat.not_lt_zero _)
  | succ depth inductionHypothesis =>
      intro a member alsoMember path way s t bounded alsoBounded abreast
      cases deep with
      | zero => exact absurd alsoBounded.idle (Nat.not_lt_zero _)
      | succ deep =>
          cases accepted : a.hasCapabilities with
          | true =>
              obtain ⟨shape, value, otherValue, reached, later, ran, alsoRan, isCut, abreastLater⟩ :=
                probe_abreast programFree (inductionHypothesis deep) bounded alsoBounded abreast
                  member alsoMember accepted path way
              exact ⟨shape, value, otherValue, reached, later, run_nestedProbe_of_ok ran,
                run_nestedProbe_of_ok alsoRan, isCut, abreastLater⟩
          | false =>
              obtain ⟨f, failed, surface⟩ := lookup_fails bounded.ready member accepted
              obtain ⟨g, alsoFailed, alsoSurface⟩ :=
                lookup_fails alsoBounded.ready alsoMember accepted
              exact ⟨.any none, _, _, _, _, run_nestedProbe_of_surface failed surface depth path,
                run_nestedProbe_of_surface alsoFailed alsoSurface deep way, .of_isCut .any rfl,
                abreast.withEvents _ _⟩

end

end SchemaProbe

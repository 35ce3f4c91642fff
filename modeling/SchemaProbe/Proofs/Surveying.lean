import SchemaProbe.Proofs.Describing
import SchemaProbe.Proofs.Foreseeing
import SchemaProbe.Proofs.Terminating

namespace SchemaProbe

/-!
# Descriptions find what is foreseen

Everything that describing a type comes across is of its universe, and the states
on the way know only what is foreseen of it.  One survey of a universe therefore
serves all descriptions in it: whichever of its types were described before, the
description of a type is its unfolding by what the survey knows.
-/

open Step

namespace Store

/-- Whether a state knows of some types just what is foreseen of them, where the same
is declared and what was known is kept. -/
structure Surveys (s last : Store) (among : TypeForm → Prop) : Prop where
  world : last.world = s.world
  kept : ∀ a caps, (s.registry .current).find? a = some caps →
    (last.registry .current).find? a = some caps
  known : ∀ a, among a → (last.registry .current).find? a = s.foresee a

section

variable {s later last : Store} {forms : List TypeForm} {allowed : Allowance}
  {among : TypeForm → Prop} {a : TypeForm} {c : ClassRef}

/-- What is no type has nothing to be foreseen. -/
theorem Ready.foresee_eq_none
    (ready : s.Ready forms allowed)
    (member : a ∈ forms)
    (noType : a.hasCapabilities = false) :
    s.foresee a = none := by
  obtain ⟨f, failed, _⟩ := lookup_fails ready member noType
  rw [foresee, failed]
  rfl

/-- What is foreseen of a type of the universe is sound. -/
theorem Ready.sound_of_foresee
    {caps : Capabilities}
    (ready : s.Ready forms allowed)
    (member : a ∈ forms)
    (foreseen : s.foresee a = some caps) :
    caps.Sound s forms allowed a.identity := by
  cases accepted : a.hasCapabilities with
  | false =>
      rw [ready.foresee_eq_none member accepted] at foreseen
      cases foreseen
  | true =>
      obtain ⟨found, reached, ran, learns, isFound⟩ := lookup_learns ready member accepted
      rw [foresee, ran] at foreseen
      cases foreseen
      exact sound_congr (learns.ready.known a member _ isFound) learns.grows.reading.symm

/-- A state follows itself. -/
theorem Ready.follows
    (ready : s.Ready forms allowed)
    (among : TypeForm → Prop) :
    s.Follows s forms allowed among :=
  ⟨ready, .refl s, .refl s among⟩

/-- Looking up some types of the universe in turn makes all of them known. -/
theorem Ready.exists_follows
    {asked : List TypeForm}
    (ready : s.Ready forms allowed)
    (once : SpelledOnce (· ∈ forms))
    (among : ∀ b ∈ asked, b ∈ forms) :
    ∃ later, s.Follows later forms allowed (· ∈ forms) ∧
      ∀ b ∈ asked, b.hasCapabilities = true → ((later.registry .current).find? b).isSome := by
  induction asked with
  | nil => exact ⟨s, ready.follows _, fun _ member => nomatch member⟩
  | cons b rest inductionHypothesis =>
      obtain ⟨between, follows, known⟩ :=
        inductionHypothesis fun c member => among c (List.mem_cons_of_mem b member)
      have member := among b List.mem_cons_self
      cases accepted : b.hasCapabilities with
      | false =>
          refine ⟨between, follows, fun c isAsked has => ?_⟩
          rcases List.mem_cons.mp isAsked with rfl | further
          · rw [accepted] at has
            cases has
          · exact known c further has
      | true =>
          obtain ⟨caps, later, ran, learns, found⟩ := lookup_learns follows.ready member accepted
          obtain ⟨_, last, again, _, _, laterFollows⟩ :=
            follows.lookup once (fun _ isForm => isForm) member accepted
          rw [ran] at again
          cases again
          refine ⟨later, laterFollows, fun c isAsked has => ?_⟩
          rcases List.mem_cons.mp isAsked with rfl | further
          · rw [found]
            rfl
          · obtain ⟨other, otherFound⟩ := Option.isSome_iff_exists.mp (known c further has)
            rw [learns.grows.found c other otherFound]
            rfl

/-- Every universe can be surveyed. -/
theorem Ready.exists_surveys
    (ready : s.Ready forms allowed)
    (once : SpelledOnce (· ∈ forms)) :
    ∃ last, s.Surveys last (· ∈ forms) := by
  obtain ⟨later, follows, known⟩ := ready.exists_follows once fun _ isForm => isForm
  refine ⟨{ later with world := s.world }, rfl, follows.recalls.kept, fun a member => ?_⟩
  change (later.registry .current).find? a = s.foresee a
  cases accepted : a.hasCapabilities with
  | false =>
      rw [follows.ready.find?_eq_none member accepted, ready.foresee_eq_none member accepted]
  | true =>
      obtain ⟨caps, found⟩ := Option.isSome_iff_exists.mp (known a member accepted)
      rw [found, follows.recalls.foresee_of_found once member (ready.covers.plain a member) found]

/-- A survey of a universe knows it. -/
theorem Surveys.ready
    (surveys : s.Surveys last among)
    (ready : s.Ready forms allowed)
    (within : ∀ b ∈ forms, among b) :
    last.Ready forms allowed where
  covers := by
    rw [surveys.world]
    exact ready.covers
  known a member caps found := by
    rw [surveys.known a (within a member)] at found
    refine sound_congr (ready.sound_of_foresee member found) ?_
    rw [surveys.world]
    exact .refl _

/-- A survey of some types is one of fewer. -/
theorem Surveys.mono
    {fewer : TypeForm → Prop}
    (surveys : s.Surveys last among)
    (subset : ∀ b, fewer b → among b) :
    s.Surveys last fewer :=
  ⟨surveys.world, surveys.kept, fun b isFewer => surveys.known b (subset b isFewer)⟩

/-- A survey knows whatever is found out on the way. -/
theorem Follows.growsTo_survey
    (follows : s.Follows later forms allowed among)
    (surveys : s.Surveys last among) :
    later.GrowsTo last where
  reading := by
    rw [surveys.world]
    exact follows.grows.reading.symm
  found a caps found := by
    rcases follows.recalls.foreseen a caps found with known | ⟨b, isAmong, identity, foreseen⟩
    · exact surveys.kept a caps known
    · rw [← find?_congr _ identity, surveys.known b isAmong, foreseen]

/-- What is known does not depend on the rest of a state. -/
theorem Follows.of_registry
    (follows : s.Follows later forms allowed among)
    (reading : later.world.SameReading last.world)
    (alike : later.world.DeclaresAlike last.world)
    (registry : last.registry .current = later.registry .current) :
    s.Follows last forms allowed among where
  ready :=
    { covers := covers_congr follows.ready.covers reading
      known := fun a member caps found => by
        rw [registry] at found
        exact sound_congr (follows.ready.known a member caps found) reading }
  grows := follows.grows.trans ⟨reading, fun a caps found => by rw [registry, found]⟩
  recalls := follows.recalls.of_registry alike registry

/-- What is found out in a universe is known of every other one that contains what it
is about. -/
theorem Follows.of_ready
    {others : List TypeForm}
    (follows : s.Follows later others allowed among)
    (once : SpelledOnce among)
    (ready : s.Ready forms allowed)
    (within : ∀ b ∈ forms, among b) :
    s.Follows later forms allowed among where
  ready :=
    { covers := covers_congr ready.covers follows.grows.reading
      known := fun a member caps found => by
        have foreseen := follows.recalls.foresee_of_found once (within a member)
          (ready.covers.plain a member) found
        exact sound_congr (ready.sound_of_foresee member foreseen) follows.grows.reading }
  grows := follows.grows
  recalls := follows.recalls

/-- Types have the same node wherever they are met where none with cases is foreseen. -/
theorem Surveys.kindsAgree
    {root : TypeForm}
    (surveys : s.Surveys last (· ∈ forms))
    (ready : s.Ready forms allowed)
    (member : root ∈ forms)
    (uncased : ∀ b ∈ forms, ∀ caps, s.foresee b = some caps → caps.cases = none) :
    KindsAgree last.entry [] root := by
  have lastReady := surveys.ready ready fun _ isForm => isForm
  apply KindsAgree.of_leaves
  intro above a type value cases visits isInner
  have isForm := visits.mem lastReady.lawful member
  have foreseen := surveys.known a isForm
  rw [entry] at isInner
  cases found : (last.registry .current).find? a with
  | none =>
      rw [found] at isInner
      cases isInner
  | some caps =>
      rw [found] at foreseen isInner
      have sound := lastReady.known a isForm caps found
      have noCases := uncased a isForm caps foreseen.symm
      simp only [entryOf] at isInner
      split at isInner
      · rename_i reader isNone probed reads
        have fits := sound.fits reader isNone probed reads
        rw [Entry.inner.injEq] at isInner
        obtain ⟨_, hasCases, _⟩ := scalar_of_layout fits isInner.2
        rw [noCases] at hasCases
        cases hasCases
      · cases isInner

/-- A conventional type leads to types that have the same node wherever they are met
where none with cases is foreseen. -/
theorem Conventional.kindsAgree
    {root : TypeForm}
    (conventional : s.Conventional allowed root)
    (surveys : s.Surveys last (s.LeadsTo root))
    (uncased : ∀ b, s.LeadsTo root b → ∀ caps, s.foresee b = some caps → caps.cases = none) :
    KindsAgree last.entry [] root := by
  obtain ⟨forms, ready, universal, _⟩ := conventional.exists_universe (.refl s)
  have sameForms : s.LeadsTo root = (· ∈ forms) := funext fun b => propext (universal b).symm
  rw [sameForms] at surveys
  exact surveys.kindsAgree ready ((universal root).mpr .root) fun b member =>
    uncased b ((universal b).mp member)

end

end Store

/-! ## What describing a type comes across -/

section

variable {s : Store} {forms : List TypeForm} {allowed : Allowance} {among : TypeForm → Prop}
  {reader : Reader} {need : Need}

/-- Whether something that is found is foreseen: a state that follows, a type form of
the universe, a reader that stays inside it, or the key of one of its types. -/
def Finding.IsForeseen
    (s : Store)
    (forms : List TypeForm)
    (allowed : Allowance)
    (among : TypeForm → Prop) :
    Finding → Prop
  | .state later => s.Follows later forms allowed among
  | .form a => a ∈ forms
  | .reader r => ∃ caps, r.Fits caps allowed ∧
      ∀ request ∈ (s.layout caps r).requests, request ∈ forms
  | .key k => ∃ a ∈ forms, a.identity = k

/-- Finding the plans of a class finds nothing else out. -/
theorem Store.Follows.decodingPlans
    {later : Store}
    (follows : s.Follows later forms allowed among)
    (c : ClassRef) :
    s.Follows { later with world := ((SchemaProbe.decodingPlans c).run later.world).2 } forms
      allowed among :=
  have settles := later.world.settlesTo_decodingPlans c
  follows.of_registry settles.reading settles.declaresAlike rfl

/-- The readers of a universe without programs ask for type forms of the universe. -/
theorem Finding.IsForeseen.needs
    (programFree : allowed.programs = [])
    (isReader : (Finding.reader reader).IsForeseen s forms allowed among)
    (member : need ∈ reader.needs) :
    ∃ find, need = .forms find ∧ ∀ later, s.Follows later forms allowed among →
      s.Follows ((inWorld find).run later).2 forms allowed among ∧
        ∀ found reached, (inWorld find).run later = (.ok found, reached) →
          ∀ a ∈ found, a ∈ forms := by
  obtain ⟨caps, fits, closed⟩ := isReader
  have ofPure (items : List TypeForm) (same : need = .forms (pure items))
      (covered : ∀ a ∈ items, a ∈ forms) :
      ∃ find, need = .forms find ∧ ∀ later, s.Follows later forms allowed among →
        s.Follows ((inWorld find).run later).2 forms allowed among ∧
          ∀ found reached, (inWorld find).run later = (.ok found, reached) →
            ∀ a ∈ found, a ∈ forms := by
    refine ⟨_, same, fun later follows => ⟨follows, fun found reached ran => ?_⟩⟩
    cases ran
    exact covered
  cases reader with
  | fields c =>
      obtain rfl := List.mem_singleton.mp member
      refine ⟨_, rfl, fun later follows => ?_⟩
      have settles := follows.decodingPlans c
      cases planned : (decodingPlans c).run later.world with
      | mk outcome world =>
          rw [planned] at settles
          rw [inWorld, run_within]
          cases outcome with
          | error interrupt =>
              rw [run_bind_of_error planned]
              exact ⟨settles, fun found reached ran => by cases ran⟩
          | ok plans =>
              rw [run_bind_of_ok planned]
              refine ⟨settles, fun found reached ran => ?_⟩
              cases ran
              have plansFound : s.world.plansOf? c = some plans := by
                rw [← follows.grows.reading.plansOf?, World.plansOf?, planned]
                rfl
              rw [Store.layout, plansFound] at closed
              exact closed
  | sequence item into => exact ofPure _ (List.mem_singleton.mp member) closed
  | positions items => exact ofPure _ (List.mem_singleton.mp member) closed
  | mapping value cls => exact ofPure _ (List.mem_singleton.mp member) closed
  | nullable inner => exact ofPure _ (List.mem_singleton.mp member) closed
  | oneOf values => exact ofPure _ (List.mem_singleton.mp member) closed
  | member c =>
      obtain rfl := List.mem_singleton.mp member
      refine ⟨_, rfl, fun later follows => ⟨follows, fun found reached ran => ?_⟩⟩
      cases ran
      rw [follows.grows.reading.memberClass]
      exact closed
  | program maker body =>
      have isExempt : caps.type.identity ∈ allowed.programs := fits
      rw [programFree] at isExempt
      cases isExempt

/-- Describing a type of the universe comes across nothing else. -/
theorem isForeseen_of_finds
    {start : Store}
    {root : TypeForm}
    {finding : Finding}
    (programFree : allowed.programs = [])
    (once : SpelledOnce among)
    (within : ∀ b ∈ forms, among b)
    (follows : s.Follows start forms allowed among)
    (member : root ∈ forms)
    (finds : start.Finds root finding) :
    finding.IsForeseen s forms allowed among := by
  have expands {later reached : Store} {a : TypeForm} {caps : Capabilities} {reader : Reader}
      (laterFollows : s.Follows later forms allowed among) (isForm : a ∈ forms)
      (expands : later.Expands a caps reader reached) :
      caps.Sound s forms allowed a.identity := by
    cases accepted : a.hasCapabilities with
    | false =>
        obtain ⟨f, failed, _⟩ := lookup_fails laterFollows.ready isForm accepted
        rw [expands.found] at failed
        cases failed
    | true =>
        obtain ⟨found, last, ran, isFound, _, lastFollows⟩ :=
          laterFollows.lookup once within isForm accepted
        rw [expands.found] at ran
        cases ran
        exact Store.sound_congr (lastFollows.ready.known a isForm _ isFound)
          lastFollows.grows.reading.symm
  induction finds with
  | start => exact follows
  | root => exact member
  | beside _ laterFollows =>
      exact laterFollows.of_registry (.refl _) (.refl _) (Store.beside_registry _ _ _ _)
  | @lookup later a _ _ laterFollows isForm =>
      change s.Follows ((lookup .current a).run later).2 forms allowed among
      cases accepted : a.hasCapabilities with
      | false =>
          obtain ⟨f, failed, _⟩ := lookup_fails laterFollows.ready isForm accepted
          rw [failed]
          exact laterFollows
      | true =>
          obtain ⟨found, last, ran, _, _, lastFollows⟩ :=
            laterFollows.lookup once within isForm accepted
          rw [ran]
          exact lastFollows
  | reader _ _ isExpanded laterFollows isForm =>
      have sound := expands laterFollows isForm isExpanded
      exact ⟨_, sound.fits _ isExpanded.isNoScalar isExpanded.isProbed isExpanded.reads,
        sound.closed _ isExpanded.isNoScalar isExpanded.isProbed isExpanded.reads⟩
  | key _ _ isExpanded laterFollows isForm =>
      exact ⟨_, isForm, (expands laterFollows isForm isExpanded).identity.symm⟩
  | search _ _ isNeed laterFollows isReader =>
      obtain ⟨find, same, finds⟩ := isReader.needs programFree isNeed
      cases same
      exact (finds _ laterFollows).1
  | form _ _ isNeed ran among laterFollows isReader =>
      obtain ⟨find, same, finds⟩ := isReader.needs programFree isNeed
      cases same
      exact (finds _ laterFollows).2 _ _ ran _ among
  | delegation _ _ isNeed _ isReader =>
      obtain ⟨find, absent, _⟩ := isReader.needs programFree isNeed
      cases absent
  | delegate _ _ isNeed _ _ isReader =>
      obtain ⟨find, absent, _⟩ := isReader.needs programFree isNeed
      cases absent

/-- The state that is reached by describing a type of the universe follows. -/
theorem Store.Follows.describeTo
    {start : Store}
    {a : TypeForm}
    {depth : Nat}
    (follows : s.Follows start forms allowed among)
    (programFree : allowed.programs = [])
    (once : SpelledOnce among)
    (within : ∀ b ∈ forms, among b)
    (member : a ∈ forms)
    (deep : forms.length < depth) :
    s.Follows ((SchemaProbe.describeTo depth a).run start).2 forms allowed among := by
  have foreseen {finding : Finding} (finds : start.Finds a finding) :=
    isForeseen_of_finds programFree once within follows member finds
  have finite (key : Key) (found : start.Finds a (.key key)) :
      key ∈ forms.map TypeForm.identity := by
    obtain ⟨b, isForm, rfl⟩ := foreseen found
    exact List.mem_map_of_mem isForm
  have bounded (reader : Reader) (found : start.Finds a (.reader reader)) :
      reader.isBounded = true := by
    refine List.all_eq_true.mpr fun need isNeed => ?_
    obtain ⟨find, rfl, _⟩ := Finding.IsForeseen.needs programFree (foreseen found) isNeed
    rfl
  have alike := describeTo_alikeAt finite (Store.readsAlike_of_bounded bounded 0)
    (by rwa [List.length_map])
  exact foreseen alike.holds_run.1

/-- Whichever types of a universe were described before, the description of one of
them is its plain unfolding by what a survey of the universe knows, where types with
cases have the same node wherever they are met. -/
theorem Store.Follows.describe
    {start : Store}
    {a : TypeForm}
    (follows : s.Follows start forms allowed (· ∈ forms))
    (ready : s.Ready forms allowed)
    (programFree : allowed.programs = [])
    (once : SpelledOnce (· ∈ forms))
    (conventional : s.Conventional allowed a)
    (within : ∀ b, s.LeadsTo a b → b ∈ forms)
    (accepted : a.hasCapabilities = true) :
    ∃ shape reached, (SchemaProbe.describe a).run start = (.ok shape, reached) ∧
      s.Follows reached forms allowed (· ∈ forms) ∧
      (∃ kinds, Unfolds reached.entry kinds [] a shape) ∧
      ∀ last, s.Surveys last (· ∈ forms) → KindsAgree last.entry [] a →
        Unfolds last.entry (fun _ => none) [] a shape := by
  -- The universe of the type alone bounds how deep its description goes.
  obtain ⟨own, ownReady, universal, size⟩ := conventional.exists_universe follows.grows
  have ownWithin (b : TypeForm) (isOwn : b ∈ own) : b ∈ forms := within b ((universal b).mp isOwn)
  have member : a ∈ own := (universal a).mpr .root
  have ownFollows := follows.of_ready once ownReady ownWithin
  obtain ⟨depth, isDepth, enough⟩ := start.exists_depthFor size
  obtain ⟨shape, reached, ran, reachedReady, _, probed⟩ :=
    describeTo_probed ownFollows.ready programFree member accepted enough
  have reachedFollows : s.Follows reached own allowed (· ∈ forms) := by
    have described := ownFollows.describeTo programFree once ownWithin member enough
    rwa [ran] at described
  have proper (s : Store) : Proper s.entry own [] := fun _ _ _ _ _ _ met => by cases met
  refine ⟨shape, reached, ?_, reachedFollows.of_ready once ready fun _ isForm => isForm, ?_,
    fun last surveys agree => ?_⟩
  · rw [SchemaProbe.describe, Step.run_bind_of_ok (Step.run_current start), isDepth, ran]
  · exact ⟨_, probeWith_unfolds_kinds reachedReady.lawful member (proper reached)
      (probed reached reachedReady (.refl reached))⟩
  · have lastReady := surveys.ready ownReady ownWithin
    exact probeWith_unfolds lastReady.lawful member (proper last) agree
      (probed last lastReady (reachedFollows.growsTo_survey surveys))

end

end SchemaProbe

import SchemaProbe.Proofs.Abreast
import SchemaProbe.Proofs.Describing

namespace SchemaProbe

/-!
# Describing a type and the type or null

The description of a type or null enters the type or null and asks for the type; from
there on it goes on abreast with the description of the type.  So it is the description
of the type, which may be missing, but for where it is cut, and both descriptions leave
behind the same knowledge of all types but the type or null.
-/

open List

/-- Whether what is known of a type or null, if anything, was found out about it as one
that is read as a type. -/
def Store.KnowsAsNullable (s : Store) (a inner : TypeForm) : Prop :=
  ∀ caps, (s.registry .current).find? a = some caps →
    ∃ b, b.isPlain = true ∧ b.stripNull = (inner, true) ∧ caps = unionCapabilities b

section

variable {s t : Store} {forms others : List TypeForm} {allowed : Allowance} {a x : TypeForm}
  {depth deep : Nat}

/-- Looking up a type or null finds what is found out about it, however it is written. -/
theorem lookup_knownAsNullable
    (ready : s.Ready others allowed)
    (member : a ∈ others)
    (strips : a.stripNull = (x, true))
    (known : s.KnowsAsNullable a x)
    (within : s.ReadsWithin others) :
    ∃ b reached, (lookup .current a).run s = (.ok (unionCapabilities b), reached) ∧
      b.isPlain = true ∧ b.stripNull = (x, true) ∧
      (reached.registry .current).find? a = some (unionCapabilities b) ∧
      s.AgreesBut a.key reached ∧ s.Learns reached others allowed ∧ reached.ReadsWithin others := by
  have plain := ready.covers.plain a member
  have accepted := TypeForm.hasCapabilities_of_stripNull plain strips
  obtain ⟨caps, reached, ran, learns, found⟩ := lookup_learns ready member accepted
  obtain ⟨_, reachedWithin⟩ := within.lookup ready.covers member accepted caps reached ran
  rcases run_lookup_union plain strips with ⟨own, before, again⟩ | ⟨_, again⟩
  · rw [ran] at again
    cases again
    obtain ⟨b, otherPlain, otherStrips, rfl⟩ := known caps before
    exact ⟨b, _, ran, otherPlain, otherStrips, found, .refl _ _, learns, reachedWithin⟩
  · rw [ran] at again
    cases again
    exact ⟨a, _, ran, plain, strips, found,
      .of_remembering _ (TypeForm.identity_of_isPlain plain), learns, reachedWithin⟩

/-- Entering a type below a guard that knows nothing, and below one that knows just the
type or null to be in progress, is where both go on abreast. -/
theorem Progress.Abreast.start (cut : Cut) :
    ((Progress.busy []).set cut.bare.key none).Abreast cut
      (((Progress.busy []).set cut.nullable.key none).set cut.bare.key none) where
  same key other := by
    by_cases isBare : key = cut.bare.key
    · subst isBare
      rw [Progress.set_self, Progress.set_self]
      rfl
    · rw [Progress.set_of_ne _ _ isBare, Progress.set_of_ne _ _ isBare,
        Progress.set_of_ne _ _ other]
      rfl
  trees key shape other known := by
    by_cases isBare : key = cut.bare.key
    · subst isBare
      rw [Progress.set_self] at known
      cases known
    · rw [Progress.set_of_ne _ _ isBare, Progress.set_of_ne _ _ other] at known
      cases known
  bare := Progress.set_self _ _ _
  nullable := by rw [Progress.set_of_ne _ _ cut.bare_ne.symm, Progress.set_self]
  anew := .inl (by rw [Progress.set_of_ne _ _ cut.bare_ne.symm]; rfl)

/-- Whether the probe of a type ends as that of the type below the type or null does, but
for where its tree is cut, and knows the same but for what is known of the type or null.
Nothing is cut in the tree of a type that is not looked into. -/
def EndsCut
    (cut : Cut)
    (own : Capabilities)
    (looked alsoLooked : Store)
    (ended endedLater : Except Interrupt (Shape × Value) × Store) :
    Prop :=
  ∃ shape value other s t, ended = (.ok (shape.recut cut, value), s) ∧
    endedLater = (.ok (shape, other), t) ∧ shape.IsCut cut false ∧
    (shape.hasRecursive = true → ∃ reader, own.LooksInto reader) ∧
    s.AgreesBut cut.nullable.key t ∧ looked.GrowsTo s ∧ alsoLooked.GrowsTo t

/-- Below a guard that knows nothing and one that knows just the type or null to be in
progress, the type is probed abreast. -/
theorem probe_endsCut
    (cut : Cut)
    {own : Capabilities}
    {looked alsoLooked : Store}
    (programFree : allowed.programs = [])
    (lookedUp : (lookup .current x).run s = (.ok own, looked))
    (alsoLookedUp : (lookup .current x).run t = (.ok own, alsoLooked))
    (bounded : Bounded forms allowed (depth + 1) looked)
    (alsoBounded : Bounded others allowed (deep + 1) alsoLooked)
    (member : x ∈ forms)
    (alsoMember : x ∈ others)
    (found : (looked.registry .current).find? x = some own)
    (alsoFound : (alsoLooked.registry .current).find? x = some own)
    (isBare : own.type = cut.bare)
    (agrees : looked.AgreesBut cut.nullable.key alsoLooked)
    (wraps : ∀ caps, (looked.registry .current).find? cut.nullable = some caps →
      ∃ inner, caps.LooksInto (.nullable inner))
    (nullable : (alsoLooked.registry .current).find? cut.nullable =
      some (unionCapabilities cut.nullable))
    (ownWithin : own.ReadsWithin others)
    (within : alsoLooked.ReadsWithin others)
    (nothing : looked.guard.progress = .busy [])
    (entered : alsoLooked.guard.progress = (Progress.busy []).set cut.nullable.key none)
    (path way : Path) :
    EndsCut cut own looked alsoLooked ((probe (depth + 1) x path).run s)
      ((probe (deep + 1) x way).run t) := by
  have sound := bounded.ready.known x member own found
  have alsoSound := alsoBounded.ready.known x alsoMember own alsoFound
  have identity : own.type.identity = cut.bare.key := by
    rw [isBare, TypeForm.identity_of_isPlain cut.barePlain]
  have sameIdentity : x.identity = cut.bare.identity := by rw [← sound.identity, isBare]
  by_cases isInner : ∃ reader, own.LooksInto reader
  · obtain ⟨reader, looksInto⟩ := isInner
    have unanswered : looked.guard.progress.answer? own.type = none := by
      rw [Progress.answer?, identity, nothing]
      rfl
    have alsoUnanswered : alsoLooked.guard.progress.answer? own.type = none := by
      rw [Progress.answer?, identity, entered, Progress.set_of_ne _ _ cut.bare_ne]
      rfl
    obtain ⟨events, ran⟩ := run_probe_of_unanswered lookedUp looksInto.isNone
      looksInto.isProbed looksInto.reads unanswered depth path
    obtain ⟨eventsLater, alsoRan⟩ := run_probe_of_unanswered alsoLookedUp looksInto.isNone
      looksInto.isProbed looksInto.reads alsoUnanswered deep way
    let start : Store := { looked with events := events }
    let alsoStart : Store := { alsoLooked with events := eventsLater }
    have noted := Store.learns_note bounded.ready events
    have alsoNoted := Store.learns_note alsoBounded.ready eventsLater
    have abreast :
        (start.entering own.type).Abreast cut others (alsoStart.entering own.type) := by
      refine ⟨⟨agrees.reading, agrees.alike, agrees.found⟩, ?_, ?_, ?_, wraps, within⟩
      · change (looked.guard.enter own.type).progress.Abreast cut
          (alsoLooked.guard.enter own.type).progress
        rw [CycleGuard.progress_enter, CycleGuard.progress_enter, identity, nothing, entered]
        exact .start cut
      · exact ⟨own, reader, (Store.find?_congr _ sameIdentity).symm.trans found, isBare, looksInto⟩
      · obtain ⟨inner, strips, _⟩ := cut.strips
        exact ⟨_, inner, nullable, looksInto_unionCapabilities strips⟩
    have other : own.type.key ≠ cut.nullable.key := by
      rw [isBare]
      exact cut.bare_ne
    obtain ⟨shape, value, otherValue, reached, later, read, alsoRead, isCut, abreastLater⟩ :=
      probeReading_abreast programFree (nestedProbe_abreast programFree depth deep)
        ((bounded.of_learns noted).entering member sound.identity
          (Progress.not_busy_of_answer_none unanswered))
        ((alsoBounded.of_learns alsoNoted).entering alsoMember alsoSound.identity
          (Progress.not_busy_of_answer_none alsoUnanswered)) abreast
        (Store.sound_congr sound (.refl looked.world))
        (Store.sound_congr alsoSound (.refl alsoLooked.world)) ownWithin looksInto other path way
    obtain ⟨_, _, _, again, probed⟩ :=
      probeGuarded_probed (nestedProbe_answers depth) (bounded.of_learns noted) member found
        looksInto.isNone looksInto.isProbed looksInto.reads unanswered path
    rw [run_probeGuarded read] at again
    cases again
    obtain ⟨_, _, _, again, alsoProbed⟩ :=
      probeGuarded_probed (nestedProbe_answers deep) (alsoBounded.of_learns alsoNoted) alsoMember
        alsoFound looksInto.isNone looksInto.isProbed looksInto.reads alsoUnanswered way
    rw [run_probeGuarded alsoRead] at again
    cases again
    refine ⟨shape, value, otherValue, _, _, ran.trans (run_probeGuarded read),
      alsoRan.trans (run_probeGuarded alsoRead), isCut.isCut,
      fun _ => ⟨reader, looksInto⟩,
      ⟨abreastLater.agrees.reading, abreastLater.agrees.alike, abreastLater.agrees.found⟩,
      noted.grows.trans probed.grows, alsoNoted.grows.trans alsoProbed.grows⟩
  · have isLeaf (reader : Reader) (isNone : own.kind = none)
        (isProbed : own.bypassesProbe = false) : own.reader ≠ some reader :=
      fun reads => isInner ⟨reader, isNone, isProbed, reads⟩
    obtain ⟨value, ran⟩ := run_probe_of_leaf lookedUp isLeaf depth path
    obtain ⟨otherValue, alsoRan⟩ := run_probe_of_leaf alsoLookedUp isLeaf deep way
    have other : own.type.key ≠ cut.nullable.key := by
      rw [isBare]
      exact cut.bare_ne
    have leaf := own.leaf_isCut own.type.key other
    refine ⟨own.leaf, value, otherValue, looked, alsoLooked, ?_, alsoRan, leaf.2.isCut,
      fun refersBack => ?_, agrees, .refl looked, .refl alsoLooked⟩
    · rw [ran, leaf.1]
    · unfold Capabilities.leaf at refersBack
      split at refersBack <;> cases refersBack

/-- Whether a tree, and the state in which it is found below a type or null, are those
that a description of the type gives, but for where the tree is cut. -/
structure DescribedCut
    (cut : Cut)
    (own : Capabilities)
    (shape : Shape)
    (reached later : Store) :
    Prop where
  isCut : shape.IsCut cut false
  looksInto : shape.hasRecursive = true → ∃ reader, own.LooksInto reader
  agrees : reached.AgreesBut cut.nullable.key later
  bare : (reached.registry .current).find? cut.bare = some own
  nullable : (later.registry .current).find? cut.nullable = some (unionCapabilities cut.nullable)

/-- With nothing in progress, the probe of a type or null gives the tree of the type, which
may be missing, but for where it is cut. -/
theorem probe_nullable_endsCut
    (programFree : allowed.programs = [])
    (bounded : Bounded forms allowed (depth + 1) s)
    (alsoBounded : Bounded others allowed (deep + 1) s)
    (nothing : s.guard.progress = .busy [])
    (member : x ∈ forms)
    (alsoMember : x ∈ others)
    (nullableMember : a ∈ others)
    (strips : a.stripNull = (x, true))
    (accepted : x.hasCapabilities = true)
    (known : s.KnowsAsNullable a x)
    (within : s.ReadsWithin others)
    (path way : Path) :
    ∃ cut own shape value other reached later,
      (∃ looked, (lookup .current x).run s = (.ok own, looked)) ∧
        cut.nullable.stripNull = (x, true) ∧
        (probe (depth + 1) x path).run s = (.ok (shape.recut cut, value), reached) ∧
        (probe (deep + 1) a way).run s = (.ok (shape.optional true, other), later) ∧
        DescribedCut cut own shape reached later := by
  have plain := alsoBounded.ready.covers.plain a nullableMember
  have xPlain := bounded.ready.covers.plain x member
  obtain ⟨b, looked, lookedUp, otherPlain, otherStrips, found, agreesLooked, learns,
    lookedWithin⟩ := lookup_knownAsNullable alsoBounded.ready nullableMember strips known within
  obtain ⟨isType, looksInto⟩ := looksInto_unionCapabilities otherStrips
  have sameKey : a.key = b.key := TypeForm.key_eq_of_stripNull plain otherPlain strips otherStrips rfl
  have isNullable : b.key.isNullable = true := by
    rw [TypeForm.isNullable_key otherPlain, otherStrips]
  obtain ⟨between, nested, shape, inside, last, left, other, entering, settles, asked,
      settlesLater, ran⟩ :=
    run_probe_wrapping (alsoBounded.of_learns learns) nullableMember lookedUp found looksInto
      (by rw [Progress.answer?, learns.guard, nothing]; rfl) way
  obtain ⟨deep, rfl⟩ : ∃ d, deep = d + 1 :=
    Nat.exists_eq_succ_of_ne_zero (Nat.ne_of_gt (Nat.lt_of_le_of_lt (Nat.zero_le _) entering.idle))
  -- The type is looked up by itself and below the type or null.
  have agrees : s.AgreesBut b.key between := by
    rw [← sameKey]
    have entered : s.AgreesBut a.key (looked.entering (unionCapabilities b).type) :=
      agreesLooked.congr_right rfl rfl
    exact entered.trans (.of_settlesTo settles)
  obtain ⟨own, ownKnown, alsoKnown, ownLookedUp, alsoLookedUp, agreesKnown, kept⟩ :=
    agrees.lookup bounded.ready.covers (TypeForm.identity_class_ne_of_isNullable isNullable) member
      accepted (TypeForm.identity_inner_ne otherPlain otherStrips)
  obtain ⟨_, _, again, ownLearns, ownFound⟩ := lookup_learns bounded.ready member accepted
  rw [ownLookedUp] at again
  cases again
  obtain ⟨_, _, again, alsoLearns, alsoFound⟩ := lookup_learns entering.ready alsoMember accepted
  rw [alsoLookedUp] at again
  cases again
  have sound := ownLearns.ready.known x member own ownFound
  let cut : Cut := ⟨b, own.type, otherPlain, sound.plain, x, otherStrips, by
    rw [← TypeForm.identity_of_isPlain xPlain, ← sound.identity,
      TypeForm.identity_of_isPlain sound.plain]⟩
  have sameIdentity : cut.nullable.identity = a.identity :=
    TypeForm.identity_eq_of_key otherPlain plain sameKey.symm
  have nullableThere : (alsoKnown.registry .current).find? cut.nullable =
      some (unionCapabilities cut.nullable) := by
    refine alsoLearns.grows.found _ _ ?_
    rw [settles.registry, Store.find?_congr _ sameIdentity]
    exact found
  obtain ⟨ownWithin, alsoWithin⟩ :=
    (lookedWithin.of_registry settles.registry).lookup entering.ready.covers alsoMember accepted
      own alsoKnown alsoLookedUp
  obtain ⟨tree, value, alsoValue, reached, later, xRan, alsoRan, isCut, reads, agreesLater, grows,
      growsLater⟩ :=
    probe_endsCut cut programFree ownLookedUp alsoLookedUp (bounded.of_learns ownLearns)
      (entering.of_learns alsoLearns) member alsoMember ownFound alsoFound rfl agreesKnown
      (fun caps isFound => by
        rw [kept cut.nullable (TypeForm.identity_of_isPlain otherPlain),
          Store.find?_congr _ sameIdentity] at isFound
        obtain ⟨c, _, wraps, rfl⟩ := known caps isFound
        exact ⟨x, (looksInto_unionCapabilities wraps).2⟩)
      nullableThere ownWithin alsoWithin (by rw [ownLearns.guard, nothing])
      (by
        rw [alsoLearns.guard, settles.guard]
        change (looked.guard.enter (unionCapabilities b).type).progress = _
        rw [CycleGuard.progress_enter, learns.guard, nothing, isType,
          TypeForm.identity_of_isPlain otherPlain])
      path nested
  rw [run_nestedProbe_of_ok alsoRan] at asked
  cases asked
  refine ⟨cut, own, _, value, other, reached, _, ⟨ownKnown, ownLookedUp⟩, otherStrips, xRan, ran,
    isCut, reads, ?_, ?_, ?_⟩
  · have agreesLeft := agreesLater.trans (.of_settlesTo settlesLater)
    exact agreesLeft.congr_right rfl rfl
  · refine grows.found _ own ?_
    rw [Store.find?_congr _ sound.identity, ownFound]
  · change (left.registry .current).find? cut.nullable = _
    rw [settlesLater.registry]
    exact growsLater.found _ _ nullableThere

/-- Describing a type or null gives the tree of the type, which may be missing, but for
where it is cut. -/
theorem describeTo_endsCut
    (ready : s.Ready forms allowed)
    (alsoReady : s.Ready others allowed)
    (programFree : allowed.programs = [])
    (member : x ∈ forms)
    (alsoMember : x ∈ others)
    (nullableMember : a ∈ others)
    (strips : a.stripNull = (x, true))
    (accepted : x.hasCapabilities = true)
    (known : s.KnowsAsNullable a x)
    (within : s.ReadsWithin others)
    (enough : forms.length < depth + 1)
    (alsoEnough : others.length < deep + 1) :
    ∃ cut own shape reached later,
      (∃ looked, (lookup .current x).run s = (.ok own, looked)) ∧
        cut.nullable.stripNull = (x, true) ∧
        (describeTo (depth + 1) x).run s = (.ok (shape.recut cut), reached) ∧
        (describeTo (deep + 1) a).run s = (.ok (shape.optional true), later) ∧
        DescribedCut cut own shape reached later := by
  let start : Store := { s with events := s.events ++ [.probeStarted], guard := .empty }
  have noted := Store.learns_note ready (s.events ++ [.probeStarted])
  have alsoNoted := Store.learns_note alsoReady (s.events ++ [.probeStarted])
  have bounded : Bounded forms allowed (depth + 1) start :=
    bounded_empty noted.ready programFree enough
  have alsoBounded : Bounded others allowed (deep + 1) start :=
    bounded_empty alsoNoted.ready programFree alsoEnough
  obtain ⟨cut, own, shape, value, other, reached, later, ⟨_, lookedUp⟩, isCutOf, ran, alsoRan,
      described⟩ :=
    probe_nullable_endsCut programFree bounded alsoBounded CycleGuard.progress_empty member
      alsoMember nullableMember strips accepted known (within.of_registry rfl) [] []
  -- The guard and the log are no matter for what is found out.
  have plain := alsoReady.covers.plain a nullableMember
  have unchanged : s.AgreesBut a.key start := ⟨.refl _, .refl _, fun _ _ => rfl⟩
  have isNullable : a.key.isNullable = true := by
    rw [TypeForm.isNullable_key plain, strips]
  obtain ⟨_, looked, _, before, again, _⟩ :=
    unchanged.lookup ready.covers (TypeForm.identity_class_ne_of_isNullable isNullable) member
      accepted (TypeForm.identity_inner_ne plain strips)
  rw [lookedUp] at again
  cases again
  exact ⟨cut, own, shape, _, _, ⟨looked, before⟩, isCutOf, run_describeTo ran,
    run_describeTo alsoRan, described.isCut, described.looksInto,
    ⟨described.agrees.reading, described.agrees.alike, described.agrees.found⟩, described.bare,
    described.nullable⟩

end

end SchemaProbe

import SchemaProbe.Proofs.Readings
import SchemaProbe.Proofs.MemoUnfolding

namespace SchemaProbe

/-!
# Probing is unfolding with a memo

A probe of a type of a universe ends: each type that it enters is one less to
meet.  What it gives, and what its guard knows afterwards, is what unfolding with
a memo gives by what the state that was reached knows about types.
-/

/-- What a guard knows about types. -/
def CycleGuard.progress (g : CycleGuard) : Progress :=
  fun key => (g.entries.lookup key).map GuardEntry.shape?

namespace CycleGuard

theorem progress_empty : CycleGuard.empty.progress = .busy [] := by
  funext key
  simp [progress, empty, Progress.busy]

theorem progress_enter
    (g : CycleGuard)
    (type : TypeForm) :
    (g.enter type).progress = g.progress.set type.identity none := by
  funext key
  by_cases same : key = type.identity
  · subst same
    rw [Progress.set_self, progress, enter, Table.lookup_set_self]
    rfl
  · rw [Progress.set_of_ne _ _ same, progress, enter, Table.lookup_set_of_ne _ _ same]
    rfl

theorem progress_complete
    (g : CycleGuard)
    (type : TypeForm)
    (shape : Shape)
    (placeholder : Value) :
    (g.complete type shape placeholder).progress =
      g.progress.set type.identity (some shape) := by
  funext key
  by_cases same : key = type.identity
  · subst same
    rw [Progress.set_self, progress, complete, Table.lookup_set_self]
    rfl
  · rw [Progress.set_of_ne _ _ same, progress, complete, Table.lookup_set_of_ne _ _ same]
    rfl

end CycleGuard

/-- Whether a type is being expanded. -/
def Progress.isBusy (μ : Progress) (key : Key) : Bool :=
  match μ key with
  | some none => true
  | _ => false

theorem Progress.isBusy_iff
    {μ : Progress}
    {key : Key} :
    μ.isBusy key = true ↔ μ key = some none := by
  unfold isBusy
  split
  · rename_i busy
    simp [busy]
  · rename_i notBusy
    simpa using notBusy

/-- How many types of a universe are not being expanded. -/
def Progress.idle (μ : Progress) (forms : List TypeForm) : Nat :=
  remaining (fun a => .inner a .unknown) forms μ.isBusy

/-- Entering a type leaves fewer. -/
theorem Progress.idle_set_lt
    {μ : Progress}
    {forms : List TypeForm}
    {a : TypeForm}
    (member : a ∈ forms)
    (notBusy : μ a.identity ≠ some none) :
    (μ.set a.identity none).idle forms < μ.idle forms := by
  refine remaining_lt member rfl ?_ ?_ ?_
  · rw [Bool.eq_false_iff, ne_eq, isBusy_iff]
    exact notBusy
  · rw [isBusy_iff, set_self]
  · intro other busy
    rw [isBusy_iff] at busy ⊢
    by_cases same : other = a.identity
    · subst same
      rw [set_self]
    · rw [set_of_ne _ _ same, busy]

/-- How many types are idle depends on those that are being expanded. -/
theorem Progress.idle_congr
    {μ later : Progress}
    {forms : List TypeForm}
    (same : ∀ key, later key = some none ↔ μ key = some none) :
    later.idle forms = μ.idle forms := by
  have busy : later.isBusy = μ.isBusy := by
    funext key
    rw [Bool.eq_iff_iff, isBusy_iff, isBusy_iff, same]
  rw [idle, idle, busy]

/-! ## How a probe goes on -/

section

variable {s known read : Store} {a : TypeForm} {caps : Capabilities} {reader : Reader}
  {shape : Shape} {value : Value}

/-- A type that is not looked into is probed at once. -/
theorem run_probe_of_leaf
    (lookedUp : (lookup .current a).run s = (.ok caps, known))
    (isLeaf : ∀ reader, caps.kind = none → caps.bypassesProbe = false → caps.reader ≠ some reader)
    (depth : Nat)
    (path : Path) :
    ∃ value, (probe (depth + 1) a path).run s = (.ok (caps.leaf, value), known) := by
  rw [probe, Step.run_bind_of_ok lookedUp, Capabilities.leaf]
  cases isKind : caps.kind with
  | some kind => exact ⟨_, rfl⟩
  | none =>
      cases isProbed : caps.bypassesProbe with
      | true => exact ⟨caps.placeholder, rfl⟩
      | false =>
          cases reads : caps.reader with
          | none => exact ⟨caps.placeholder, rfl⟩
          | some reader => exact absurd reads (isLeaf reader isKind isProbed)

section

variable (lookedUp : (lookup .current a).run s = (.ok caps, known)) (isNone : caps.kind = none)
  (isProbed : caps.bypassesProbe = false) (reads : caps.reader = some reader)

include lookedUp isNone isProbed reads

/-- A type that is looked into is probed at once where the guard has an answer. -/
theorem run_probe_of_answer
    (answered : known.guard.progress.answer? caps.type = some shape)
    (depth : Nat)
    (path : Path) :
    ∃ value events,
      (probe (depth + 1) a path).run s = (.ok (shape, value), { known with events := events }) := by
  rw [probe, Step.run_bind_of_ok lookedUp, isNone, isProbed, reads]
  simp only
  rw [Step.run_bind_of_ok (Step.run_current known)]
  rw [Progress.answer?, CycleGuard.progress] at answered
  cases remembers : known.guard.get? caps.type with
  | none =>
      rw [CycleGuard.get?] at remembers
      rw [remembers] at answered
      cases answered
  | some state =>
      have isState := remembers
      rw [CycleGuard.get?] at isState
      rw [isState] at answered
      cases state with
      | inProgress =>
          cases answered
          exact ⟨_, _, rfl⟩
      | completed done placeholder =>
          simp only [Option.map_some, GuardEntry.shape?] at answered
          cases refersBack : done.hasRecursive with
          | true =>
              rw [refersBack, if_pos rfl] at answered
              cases answered
          | false =>
              rw [refersBack, if_neg Bool.false_ne_true] at answered
              cases answered
              simp only [refersBack, Bool.false_eq_true, if_false]
              exact ⟨placeholder, known.events, rfl⟩

/-- A type that is looked into is entered where the guard has no answer. -/
theorem run_probe_of_unanswered
    (unanswered : known.guard.progress.answer? caps.type = none)
    (depth : Nat)
    (path : Path) :
    ∃ events, (probe (depth + 1) a path).run s =
      (probeGuarded (nestedProbe (probe depth)) caps reader path).run
        { known with events := events } := by
  rw [probe, Step.run_bind_of_ok lookedUp, isNone, isProbed, reads]
  simp only
  rw [Step.run_bind_of_ok (Step.run_current known)]
  rw [Progress.answer?, CycleGuard.progress] at unanswered
  cases remembers : known.guard.get? caps.type with
  | none => exact ⟨known.events, rfl⟩
  | some state =>
      rw [CycleGuard.get?] at remembers
      rw [remembers] at unanswered
      cases state with
      | inProgress => cases unanswered
      | completed done placeholder =>
          simp only [Option.map_some, GuardEntry.shape?] at unanswered
          cases refersBack : done.hasRecursive with
          | true =>
              simp only [refersBack, if_true]
              exact ⟨_, rfl⟩
          | false =>
              rw [refersBack, if_neg Bool.false_ne_true] at unanswered
              cases unanswered

end

/-- A nested probe that ends well is the probe. -/
theorem run_nestedProbe_of_ok
    {probe : NestedProbe}
    {path : Path}
    (ran : (probe a path).run s = (.ok (shape, value), known)) :
    (nestedProbe probe a path).run s = (.ok (shape, value), known) := by
  have attempted : (Step.attempt (probe a path)).run s = (.ok (.ok (shape, value)), known) := by
    rw [Step.run_attempt, ran]
  rw [nestedProbe, Step.recover, Step.run_bind_of_ok attempted]
  rfl

/-- A nested probe of what is no type is noted and gives the unconstrained node. -/
theorem run_nestedProbe_of_surface
    {f : Fault}
    (failed : (lookup .current a).run s = (.error (.fault f), s))
    (surface : f.kind = .surface)
    (depth : Nat)
    (path : Path) :
    (nestedProbe (probe (depth + 1)) a path).run s =
      (.ok (.any none, .null), { s with events := s.events ++ [.unprobeable path f.message] }) := by
  have attempted : (Step.attempt (probe (depth + 1) a path)).run s = (.ok (.error f), s) := by
    have ran : (probe (depth + 1) a path).run s = (.error (.fault f), s) := by
      rw [probe]
      exact Step.run_bind_of_error failed _
    rw [Step.run_attempt, ran]
  rw [nestedProbe, Step.recover, Step.run_bind_of_ok attempted]
  simp only [surface, beq_self_eq_true, if_true]
  rfl

/-- The state in which a type is in progress. -/
def Store.entering (s : Store) (type : TypeForm) : Store :=
  { s with guard := s.guard.enter type }

/-- A type that is entered is left again with what its reading gave. -/
theorem run_probeGuarded
    {nested : NestedProbe}
    {path : Path}
    (ran : (probeReading nested caps reader path).run (s.entering caps.type) =
      (.ok (shape, value), read)) :
    (probeGuarded nested caps reader path).run s =
      (.ok (shape, value), { read with guard := read.guard.complete caps.type shape value }) := by
  have entered :
      (Step.changeGuard fun g => g.enter caps.type).run s = (.ok (), s.entering caps.type) :=
    rfl
  rw [probeGuarded, Step.run_bind_of_ok entered, Step.run_bind_of_ok ran]
  rfl

end

/-! ## Probes -/

/-- Whether a shape came out of a type form as it does by unfolding with a memo,
by what the state reached or any later one knows. -/
structure Probed
    (forms : List TypeForm)
    (allowed : Allowance)
    (depth : Nat)
    (s : Store)
    (a : TypeForm)
    (shape : Shape)
    (reached : Store) :
    Prop where
  ready : reached.Ready forms allowed
  grows : s.GrowsTo reached
  known : reached.Knows a
  mirrors : ∀ last : Store, last.Ready forms allowed → reached.GrowsTo last →
    probeWith last.entry depth a s.guard.progress = some (shape, reached.guard.progress)

section

variable {forms : List TypeForm} {allowed : Allowance} {s reached : Store} {a : TypeForm}
  {shape : Shape} {depth : Nat}

/-- A probe leaves the same types in progress. -/
theorem Probed.busy
    (probed : Probed forms allowed depth s a shape reached)
    (key : Key) :
    reached.guard.progress key = some none ↔ s.guard.progress key = some none :=
  (probeWith_extendsTo (probed.mirrors reached probed.ready (.refl reached))).busy key

/-- What is found stands for the same from then on. -/
theorem entry_of_found
    {last : Store}
    {caps : Capabilities}
    (found : (reached.registry .current).find? a = some caps)
    (grows : reached.GrowsTo last) :
    last.entry a = last.entryOf caps := by
  rw [Store.entry, grows.found a caps found]

/-- A type that is not looked into is probed at once. -/
theorem probed_leaf
    {caps : Capabilities}
    (learns : s.Learns reached forms allowed)
    (found : (reached.registry .current).find? a = some caps)
    (isLeaf : ∀ last : Store, last.entryOf caps = .leaf shape) :
    Probed forms allowed (depth + 1) s a shape reached where
  ready := learns.ready
  grows := learns.grows
  known _ := by
    rw [found]
    rfl
  mirrors last _ grows := by
    rw [probeWith, entry_of_found found grows, isLeaf, learns.guard]

/-- What is no type is probed to the unconstrained node. -/
theorem probed_foreign
    (ready : s.Ready forms allowed)
    (member : a ∈ forms)
    (noType : a.hasCapabilities = false)
    (events : List Event) :
    Probed forms allowed (depth + 1) s a (.any none) { s with events := events } where
  ready := (Store.learns_note ready events).ready
  grows := (Store.learns_note ready events).grows
  known accepted := by
    rw [noType] at accepted
    cases accepted
  mirrors last lastReady _ := by
    rw [probeWith, Store.entry, lastReady.find?_eq_none member noType]

/-- Type forms that are asked for one after the other are visited by unfolding
with a memo. -/
theorem visitAll_of_asked
    {nested : NestedProbe}
    {last final : Store}
    {requests : List TypeForm}
    {shapes : List Shape}
    {Holds : Store → Prop}
    (asked : Asked nested s requests shapes last)
    (covered : ∀ request ∈ requests, request ∈ forms)
    (holds : Holds s)
    (answers : ∀ a ∈ forms, ∀ path t, Holds t → ∃ shape value reached,
      (nested a path).run t = (.ok (shape, value), reached) ∧ Holds reached ∧
        Probed forms allowed depth t a shape reached)
    (finalReady : final.Ready forms allowed)
    (grows : last.GrowsTo final) :
    visitAll (probeWith final.entry depth) requests s.guard.progress =
        some (shapes, last.guard.progress) ∧
      s.GrowsTo final := by
  induction asked with
  | nil => exact ⟨rfl, grows⟩
  | cons ran _ inductionHypothesis =>
      rename_i path value _
      obtain ⟨shape, _, reached, answered, reachedHolds, probed⟩ :=
        answers _ (covered _ List.mem_cons_self) path _ holds
      obtain ⟨results, rfl⟩ := Prod.mk.inj (answered.symm.trans ran)
      cases results
      obtain ⟨visited, growsLater⟩ :=
        inductionHypothesis (fun request later => covered request (List.mem_cons_of_mem _ later))
          reachedHolds grows
      refine ⟨?_, probed.grows.trans growsLater⟩
      rw [visitAll, probed.mirrors final finalReady growsLater, Option.bind_some, visited]
      rfl

/-- What a nested probe needs: the state knows its universe, allowed types are in
progress, and fewer types are idle than the bound. -/
structure Bounded (forms : List TypeForm) (allowed : Allowance) (depth : Nat) (s : Store) : Prop where
  ready : s.Ready forms allowed
  exempted : ∀ key ∈ allowed.programs, s.guard.progress key = some none
  idle : s.guard.progress.idle forms < depth

theorem Bounded.of_probed
    {bound : Nat}
    (bounded : Bounded forms allowed bound s)
    (probed : Probed forms allowed depth s a shape reached) :
    Bounded forms allowed bound reached where
  ready := probed.ready
  exempted key isExempt := (probed.busy key).mpr (bounded.exempted key isExempt)
  idle := by
    rw [Progress.idle_congr probed.busy]
    exact bounded.idle

theorem Bounded.of_learns
    (bounded : Bounded forms allowed depth s)
    (learns : s.Learns reached forms allowed) :
    Bounded forms allowed depth reached where
  ready := learns.ready
  exempted key isExempt := by
    rw [learns.guard]
    exact bounded.exempted key isExempt
  idle := by
    rw [learns.guard]
    exact bounded.idle

/-- Whether nested probes of a universe end as unfolding with a memo does. -/
def Answers
    (forms : List TypeForm)
    (allowed : Allowance)
    (depth : Nat)
    (nested : NestedProbe) :
    Prop :=
  ∀ a ∈ forms, ∀ path s, Bounded forms allowed depth s → ∃ shape value reached,
    (nested a path).run s = (.ok (shape, value), reached) ∧
      Probed forms allowed depth s a shape reached

/-- Nested probes keep their own bound. -/
theorem Answers.responds
    {nested : NestedProbe}
    (answers : Answers forms allowed depth nested) :
    Responds nested forms allowed (Bounded forms allowed depth) where
  ready _ bounded := bounded.ready
  learns _ _ bounded learns := bounded.of_learns learns
  answers a member path s bounded := by
    obtain ⟨shape, value, reached, ran, probed⟩ := answers a member path s bounded
    exact ⟨shape, value, reached, ran, bounded.of_probed probed, probed.grows, probed.known⟩

/-- What a state knows of its universe does not depend on its guard. -/
theorem Store.Ready.withGuard
    (ready : s.Ready forms allowed)
    (guard : CycleGuard) :
    { s with guard := guard }.Ready forms allowed where
  covers := ready.covers
  known b member caps found := Store.sound_congr (ready.known b member caps found) (.refl s.world)

/-- A type that is in progress is one less to meet. -/
theorem Bounded.entering
    {type : TypeForm}
    (bounded : Bounded forms allowed (depth + 1) s)
    (member : a ∈ forms)
    (identity : type.identity = a.identity)
    (notBusy : s.guard.progress type.identity ≠ some none) :
    Bounded forms allowed depth (s.entering type) := by
  have progress : (s.entering type).guard.progress = s.guard.progress.set a.identity none := by
    rw [← identity]
    exact CycleGuard.progress_enter s.guard type
  refine ⟨bounded.ready.withGuard _, ?_, ?_⟩
  · intro key isExempt
    rw [progress]
    by_cases same : key = a.identity
    · subst same
      exact Progress.set_self _ _ _
    · rw [Progress.set_of_ne _ _ same]
      exact bounded.exempted key isExempt
  · rw [progress]
    rw [identity] at notBusy
    have fewer := Progress.idle_set_lt member notBusy
    have enough := bounded.idle
    omega

/-- A type that is entered is expanded as by unfolding with a memo. -/
theorem probeGuarded_probed
    {nested : NestedProbe}
    {caps : Capabilities}
    {reader : Reader}
    (answers : Answers forms allowed depth nested)
    (bounded : Bounded forms allowed (depth + 1) s)
    (member : a ∈ forms)
    (found : (s.registry .current).find? a = some caps)
    (isNone : caps.kind = none)
    (isProbed : caps.bypassesProbe = false)
    (reads : caps.reader = some reader)
    (unanswered : s.guard.progress.answer? caps.type = none)
    (path : Path) :
    ∃ shape value reached,
      (probeGuarded nested caps reader path).run s = (.ok (shape, value), reached) ∧
        Probed forms allowed (depth + 1) s a shape reached := by
  have sound := bounded.ready.known a member caps found
  have notBusy := Progress.not_busy_of_answer_none unanswered
  have noProgram : ∀ maker body, reader ≠ .program maker body := by
    rintro maker body rfl
    have isExempt : caps.type.identity ∈ allowed.programs := sound.fits _ isNone isProbed reads
    exact notBusy (bounded.exempted _ isExempt)
  have entering := bounded.entering member sound.identity notBusy
  obtain ⟨value, between, shapes, last, read, ran, settles, asked, settlesLater⟩ :=
    probeReading_recorded answers.responds entering
      (Store.sound_congr sound (.refl s.world)) isNone isProbed reads noProgram path
  have sameLayout : (s.entering caps.type).layout caps reader = s.layout caps reader :=
    Store.layout_congr (.refl s.world) caps reader
  rw [sameLayout] at ran asked
  have learns := settles.learns entering.ready
  have betweenBounded := entering.of_learns learns
  have covered := sound.closed reader isNone isProbed reads
  obtain ⟨lastBounded, growsAsking, -⟩ := asked.holds answers.responds covered betweenBounded
  have learnsLater := settlesLater.learns lastBounded.ready
  let shape := (s.layout caps reader).recorded caps.type shapes
  have growsReading : s.GrowsTo read := by
    have enters : s.GrowsTo (s.entering caps.type) := ⟨.refl s.world, fun _ _ found => found⟩
    exact enters.trans (learns.grows.trans (growsAsking.trans learnsLater.grows))
  refine ⟨shape, value, { read with guard := read.guard.complete caps.type shape value }, ?_,
    learnsLater.ready.withGuard _, ⟨growsReading.reading, growsReading.found⟩, fun _ => ?_, ?_⟩
  · exact run_probeGuarded ran
  · exact Option.isSome_iff_exists.mpr ⟨caps, growsReading.found a caps found⟩
  · intro final finalReady grows
    have growsRead : read.GrowsTo final := ⟨grows.reading, grows.found⟩
    obtain ⟨visited, _⟩ :=
      visitAll_of_asked asked covered betweenBounded
        (fun b bMember path t tBounded => by
          obtain ⟨shape, value, reached, ran, probed⟩ := answers b bMember path t tBounded
          exact ⟨shape, value, reached, ran, tBounded.of_probed probed, probed⟩)
        finalReady (learnsLater.grows.trans growsRead)
    have entry : final.entry a = .inner caps.type (s.layout caps reader) := by
      rw [entry_of_found found (growsReading.trans growsRead), Store.entryOf, isNone, isProbed,
        reads]
      exact congrArg (Entry.inner caps.type)
        (Store.layout_congr (growsReading.trans growsRead).reading caps reader)
    have progress : between.guard.progress = s.guard.progress.set caps.type.identity none := by
      rw [learns.guard]
      exact CycleGuard.progress_enter s.guard caps.type
    rw [progress] at visited
    rw [probeWith, entry]
    simp only [unanswered]
    rw [expandWith, visited, Option.map_some, CycleGuard.progress_complete, learnsLater.guard]

/-- A type that is looked into is probed at once where its guard has an
answer. -/
theorem probed_answer
    {caps : Capabilities}
    {reader : Reader}
    (ready : s.Ready forms allowed)
    (found : (s.registry .current).find? a = some caps)
    (isNone : caps.kind = none)
    (isProbed : caps.bypassesProbe = false)
    (reads : caps.reader = some reader)
    (answered : s.guard.progress.answer? caps.type = some shape)
    (events : List Event) :
    Probed forms allowed (depth + 1) s a shape { s with events := events } where
  ready := (Store.learns_note ready events).ready
  grows := (Store.learns_note ready events).grows
  known _ := Option.isSome_iff_exists.mpr ⟨caps, found⟩
  mirrors last _ grows := by
    have growing : s.GrowsTo last := ⟨grows.reading, grows.found⟩
    have entry : last.entry a = .inner caps.type (last.layout caps reader) := by
      rw [entry_of_found found growing, Store.entryOf, isNone, isProbed, reads]
    rw [probeWith, entry]
    simp only [answered]

/-- A probe of a type of the universe ends as unfolding with a memo does, if
nested probes do. -/
theorem probe_probed
    (answers : Answers forms allowed depth (nestedProbe (probe depth)))
    (bounded : Bounded forms allowed (depth + 1) s)
    (member : a ∈ forms)
    (accepted : a.hasCapabilities = true)
    (path : Path) :
    ∃ shape value reached, (probe (depth + 1) a path).run s = (.ok (shape, value), reached) ∧
      Probed forms allowed (depth + 1) s a shape reached := by
  obtain ⟨caps, known, lookedUp, learns, found⟩ :=
    lookup_learns bounded.ready member accepted
  have knownBounded := bounded.of_learns learns
  have after {shape : Shape} {reached : Store}
      (probed : Probed forms allowed (depth + 1) known a shape reached) :
      Probed forms allowed (depth + 1) s a shape reached :=
    ⟨probed.ready, learns.grows.trans probed.grows, probed.known, by
      rw [← learns.guard]
      exact probed.mirrors⟩
  by_cases looksInto : ∃ reader, caps.kind = none ∧ caps.bypassesProbe = false ∧
      caps.reader = some reader
  · obtain ⟨reader, isNone, isProbed, reads⟩ := looksInto
    cases answered : known.guard.progress.answer? caps.type with
    | some shape =>
        obtain ⟨value, events, ran⟩ :=
          run_probe_of_answer lookedUp isNone isProbed reads answered depth path
        exact ⟨shape, value, _, ran,
          after (probed_answer learns.ready found isNone isProbed reads answered events)⟩
    | none =>
        obtain ⟨events, ran⟩ :=
          run_probe_of_unanswered lookedUp isNone isProbed reads answered depth path
        have noted := Store.learns_note learns.ready events
        obtain ⟨shape, value, reached, guardedRan, probed⟩ :=
          probeGuarded_probed answers (knownBounded.of_learns noted) member
            (noted.grows.found a caps found) isNone isProbed reads answered path
        exact ⟨shape, value, reached, ran.trans guardedRan,
          after ⟨probed.ready, noted.grows.trans probed.grows, probed.known, probed.mirrors⟩⟩
  · have isLeaf (reader : Reader) (isNone : caps.kind = none)
        (isProbed : caps.bypassesProbe = false) : caps.reader ≠ some reader :=
      fun reads => looksInto ⟨reader, isNone, isProbed, reads⟩
    obtain ⟨value, ran⟩ := run_probe_of_leaf lookedUp isLeaf depth path
    refine ⟨caps.leaf, value, known, ran, probed_leaf learns found fun last => ?_⟩
    rw [Store.entryOf]
    split
    · rename_i reader isNone isProbed reads
      exact absurd reads (isLeaf reader isNone isProbed)
    · rfl

/-- Nested probes end as unfolding with a memo does, whatever the bound. -/
theorem nestedProbe_answers (depth : Nat) :
    Answers forms allowed depth (nestedProbe (probe depth)) := by
  induction depth with
  | zero =>
      intro a member path s bounded
      exact absurd bounded.idle (Nat.not_lt_zero _)
  | succ depth inductionHypothesis =>
      intro a member path s bounded
      cases accepted : a.hasCapabilities with
      | true =>
          obtain ⟨shape, value, reached, ran, probed⟩ :=
            probe_probed inductionHypothesis bounded member accepted path
          exact ⟨shape, value, reached, run_nestedProbe_of_ok ran, probed⟩
      | false =>
          obtain ⟨f, failed, surface⟩ := lookup_fails bounded.ready member accepted
          exact ⟨_, _, _, run_nestedProbe_of_surface failed surface depth path,
            probed_foreign bounded.ready member accepted _⟩

end

end SchemaProbe

import Mathlib.Data.List.Perm.Subperm
import SchemaProbe.Description
import SchemaProbe.Proofs.ProbingAlike

namespace SchemaProbe

/-!
# Describing comes to an end

The types that are being probed inside each other are all different.  When only
finitely many can be found, the chain of nested probes is therefore no longer
than there are types, and one more for a type that is referred back to.  The
types that are done give no such bound, since those that refer back to others
are probed anew at every place.
-/

open Step

/-! ## What describing a type can find -/

/-- Something that describing a type can come across: a state, a type form that
is asked for, a reader, or the key of a type that is looked into. -/
inductive Finding
  | state (s : Store)
  | form (a : TypeForm)
  | reader (reader : Reader)
  | key (key : Key)

/-- What describing a type can come across from a state on: type forms that are
looked up, what their readers find out and ask for, and the readers that those
delegate to. -/
inductive Store.Finds (start : Store) (root : TypeForm) : Finding → Prop
  | start : Finds start root (.state start)
  | root : Finds start root (.form root)
  | beside {s : Store} {events : List Event} {guard : CycleGuard} :
      Finds start root (.state s) → Finds start root (.state (s.beside events guard))
  | lookup {s : Store} {a : TypeForm} :
      Finds start root (.state s) → Finds start root (.form a) →
        Finds start root (.state ((SchemaProbe.lookup .current a).run s).2)
  | reader {s reached : Store} {a : TypeForm} {caps : Capabilities} {reader : Reader} :
      Finds start root (.state s) → Finds start root (.form a) →
        s.Expands a caps reader reached → Finds start root (.reader reader)
  | key {s reached : Store} {a : TypeForm} {caps : Capabilities} {reader : Reader} :
      Finds start root (.state s) → Finds start root (.form a) →
        s.Expands a caps reader reached → Finds start root (.key caps.type.identity)
  | search {s : Store} {reader : Reader} {find : Step World (List TypeForm)} :
      Finds start root (.state s) → Finds start root (.reader reader) →
        .forms find ∈ reader.needs → Finds start root (.state ((inWorld find).run s).2)
  | form {s reached : Store} {reader : Reader} {find : Step World (List TypeForm)}
      {forms : List TypeForm} {a : TypeForm} :
      Finds start root (.state s) → Finds start root (.reader reader) →
        .forms find ∈ reader.needs → (inWorld find).run s = (.ok forms, reached) →
          a ∈ forms → Finds start root (.form a)
  | delegation {s : Store} {reader : Reader} {type : TypeTerm} :
      Finds start root (.state s) → Finds start root (.reader reader) →
        .delegate type ∈ reader.needs → Finds start root (.state ((sharedReader type).run s).2)
  | delegate {s reached : Store} {reader other : Reader} {type : TypeTerm} :
      Finds start root (.state s) → Finds start root (.reader reader) →
        .delegate type ∈ reader.needs → (sharedReader type).run s = (.ok other, reached) →
          Finds start root (.reader other)

/-! ## What is found comes to an end -/

/-- The reader of another type is found in the end. -/
theorem sharedReader_ends (type : TypeTerm) :
    Alike (.ending Store) anything (sharedReader type) (sharedReader type) := by
  have resolves : Alike (.ending Store) anything (inWorld (type.resolve .strict))
      (inWorld (type.resolve .strict)) :=
    (TypeTerm.resolve_alike Regime.ending_resolves .strict type).within (fun _ _ => trivial)
      (fun _ _ _ _ => trivial) fun _ allowed => allowed
  refine resolves.bind fun a _ => ?_
  refine (lookup_alike Regime.ending_looks .shared a).bind fun caps _ => ?_
  split
  · exact .pure trivial
  · exact .fail (Regime.ending_allowsFaults Store _)

/-- Finding the reader of another type does not depend on the log. -/
theorem sharedReader_ignoresEvents (type : TypeTerm) : (sharedReader type).IgnoresEvents := by
  refine (IgnoresEvents.inWorld _).bind fun a => ?_
  refine (lookup_ignoresEvents .shared a).bind fun caps => ?_
  split
  · exact .pure _
  · exact .fail _

/-! ## The regime of a description -/

/-- What holds while a description is under way: the state is among what is found,
and something is known of its guard. -/
def Store.finding
    (start : Store)
    (root : TypeForm)
    (allowed : Interrupt → Prop)
    (guards : CycleGuard → Prop) :
    Regime Store where
  holds s := start.Finds root (.state s) ∧ guards s.guard
  allows := allowed

/-- Whether exactly the types above are being probed. -/
def CycleGuard.IsExpanding (above : List Key) (g : CycleGuard) : Prop :=
  ∀ key, g.entries.lookup key = some .inProgress ↔ key ∈ above

/-- What holds while exactly the types above are being probed. -/
abbrev Store.expanding
    (start : Store)
    (root : TypeForm)
    (allowed : Interrupt → Prop)
    (above : List Key) :
    Regime Store :=
  start.finding root allowed (CycleGuard.IsExpanding above)

section

variable {start : Store} {root : TypeForm} {allowed : Interrupt → Prop} {guards : CycleGuard → Prop}

/-- Noting something keeps what holds. -/
theorem Store.finding_notes
    (s : Store)
    (events : List Event)
    (holds : (start.finding root allowed guards).holds s) :
    (start.finding root allowed guards).holds (s.withEvents events) :=
  have found : start.Finds root (.state (s.beside events s.guard)) := .beside holds.1
  ⟨found, holds.2⟩

/-- A step that finds something and leaves the guard alone ends like itself. -/
theorem Store.finding_alike
    {good : α → Prop}
    {step : Step Store α}
    (faults : (start.finding root allowed guards).AllowsFaults)
    (ignores : step.IgnoresEvents)
    (ends : Alike (.ending Store) anything step step)
    (finds : ∀ s, start.Finds root (.state s) → start.Finds root (.state (step.run s).2))
    (isGood : ∀ s a reached, start.Finds root (.state s) → step.run s = (.ok a, reached) →
      good a) :
    Alike (start.finding root allowed guards) good step step := by
  intro s holds
  refine .of_run ⟨finds s holds.1, ?_⟩ ?_ ?_
  · rw [ignores.guard_eq s]
    exact holds.2
  · intro interrupt interrupted
    cases interrupt with
    | fault f => exact faults f
    | exhausted => exact absurd rfl ((ends s trivial).allows_run interrupted)
  · intro a ended
    exact isGood s a _ holds.1 (Prod.ext ended rfl)

/-- Looking up what is found ends like itself. -/
theorem Store.finding_lookup
    {a : TypeForm}
    (faults : (start.finding root allowed guards).AllowsFaults)
    (found : start.Finds root (.form a)) :
    Alike (start.finding root allowed guards) anything (lookup .current a) (lookup .current a) :=
  finding_alike faults (lookup_ignoresEvents .current a)
    ((lookup_alike Regime.ending_looks .current a).mono fun _ _ => trivial)
    (fun _ isFound => .lookup isFound found) fun _ _ _ _ _ => trivial

/-- What a reader that is found relies on is found, if it is not that a sequence
ends. -/
theorem Store.finding_isMet
    {reader : Reader}
    {need : Need}
    (faults : (start.finding root allowed guards).AllowsFaults)
    (isRead : start.Finds root (.reader reader))
    (member : need ∈ reader.needs)
    (isOther : need ≠ .endOfSequence) :
    need.IsMet (start.finding root allowed guards) (fun a => start.Finds root (.form a))
      fun reader => start.Finds root (.reader reader) := by
  have ends := Reader.needs_alike Regime.ending_resolves reader need member
  cases need with
  | forms find =>
      refine finding_alike faults (.inWorld find) ?_ (fun s isFound => .search isFound isRead member)
        fun s forms reached isFound ran a among => .form isFound isRead member ran among
      exact ends.within (fun _ _ => trivial) (fun _ _ _ _ => trivial) fun _ allowed => allowed
  | delegate type =>
      exact finding_alike faults (sharedReader_ignoresEvents type) (sharedReader_ends type)
        (fun s isFound => .delegation isFound isRead member)
        fun s other reached isFound ran => .delegate isFound isRead member ran
  | endOfSequence => exact absurd rfl isOther

/-- What readers that are found rely on is found, unless it is the end of a
sequence that need not have one. -/
theorem Store.finding_reads
    (faults : (start.finding root allowed guards).AllowsFaults)
    (endless : ∀ reader, start.Finds root (.reader reader) → .endOfSequence ∈ reader.needs →
      allowed .exhausted) :
    (start.finding root allowed guards).Reads (fun a => start.Finds root (.form a))
      fun reader => start.Finds root (.reader reader) := by
  intro reader isRead need member
  by_cases isOther : need = .endOfSequence
  · subst isOther
    exact endless reader isRead member
  · exact finding_isMet faults isRead member isOther

/-- What stands in for a type that is found is found like itself. -/
theorem Store.finding_placeholderOf
    {a : TypeForm}
    (faults : (start.finding root allowed guards).AllowsFaults)
    (found : start.Finds root (.form a)) :
    Alike (start.finding root allowed guards) anything (placeholderOf a) (placeholderOf a) :=
  placeholderOf_alike faults (finding_lookup faults found)

/-- A reader that is found records alike what is probed alike. -/
theorem Store.finding_recorder
    {first second : NestedProbe}
    {reader : Reader}
    (faults : (start.finding root allowed guards).AllowsFaults)
    (endless : ∀ reader, start.Finds root (.reader reader) → .endOfSequence ∈ reader.needs →
      allowed .exhausted)
    (nested : NestedAlike (start.finding root allowed guards) (fun a => start.Finds root (.form a))
      first second)
    (isRead : start.Finds root (.reader reader))
    (path : Path) :
    Alike ((start.finding root allowed guards).beside Recording) anything
      (reader.run (recorder first) (Recorder.decoder path))
      (reader.run (recorder second) (Recorder.decoder path)) :=
  Reader.runTo_alike faults (recorder_answersAlike faults nested)
    (finding_reads faults endless) delegationDepth isRead _

/-- A reader that is found checks keys like itself. -/
theorem Store.finding_keyChecker
    {reader : Reader}
    (faults : (start.finding root allowed guards).AllowsFaults)
    (endless : ∀ reader, start.Finds root (.reader reader) → .endOfSequence ∈ reader.needs →
      allowed .exhausted)
    (isRead : start.Finds root (.reader reader)) :
    Alike ((start.finding root allowed guards).beside KeyCheck) anything
      (reader.run (keyChecker placeholderOf) (Recorder.decoder []))
      (reader.run (keyChecker placeholderOf) (Recorder.decoder [])) :=
  Reader.runTo_alike faults
    (keyChecker_answersAlike faults fun _ found => finding_placeholderOf faults found)
    (finding_reads faults endless) delegationDepth isRead _

end

/-- What holds while a description is under way that may end in any way. -/
abbrev Store.following
    (start : Store)
    (root : TypeForm)
    (guards : CycleGuard → Prop) :
    Regime Store :=
  start.finding root (fun _ => True) guards

section

variable {start : Store} {root : TypeForm} {guards : CycleGuard → Prop}

theorem Store.following_allowsFaults : (start.following root guards).AllowsFaults :=
  fun _ => trivial

/-- What readers that are found rely on is found. -/
theorem Store.following_reads :
    (start.following root guards).Reads (fun a => start.Finds root (.form a))
      fun reader => start.Finds root (.reader reader) :=
  finding_reads following_allowsFaults fun _ _ _ => trivial

end

section

variable {start : Store} {root : TypeForm} {allowed : Interrupt → Prop} {above : List Key}

/-- Whether an interrupt is a fault, and not the end of a bound. -/
def Interrupt.IsFault (interrupt : Interrupt) : Prop :=
  interrupt ≠ .exhausted

/-- Entering a type that is not being probed adds it to those that are. -/
theorem Store.expanding_enter
    {s : Store}
    {a : TypeForm}
    (holds : (start.expanding root allowed above).holds s) :
    (start.expanding root allowed (a.identity :: above)).holds (s.withGuard (s.guard.enter a)) := by
  refine ⟨.beside holds.1, fun key => ?_⟩
  change (Table.set s.guard.entries a.identity .inProgress).lookup key = some .inProgress ↔ _
  by_cases same : key = a.identity
  · simp [same, Table.lookup_set_self]
  · rw [Table.lookup_set_of_ne _ _ same, holds.2 key, List.mem_cons, or_iff_right same]

/-- Leaving a type takes it from those that are being probed. -/
theorem Store.expanding_complete
    {s : Store}
    {a : TypeForm}
    (absent : a.identity ∉ above)
    (shape : Shape)
    (value : Value)
    (holds : (start.expanding root allowed (a.identity :: above)).holds s) :
    (start.expanding root allowed above).holds (s.withGuard (s.guard.complete a shape value)) := by
  refine ⟨.beside holds.1, fun key => ?_⟩
  change (Table.set s.guard.entries a.identity (.completed shape value)).lookup key =
    some .inProgress ↔ _
  by_cases same : key = a.identity
  · simp [same, Table.lookup_set_self, absent]
  · rw [Table.lookup_set_of_ne _ _ same, holds.2 key, List.mem_cons, or_iff_right same]

/-- Whether the types that are found are read alike when what is inside them is
probed to a depth and to a greater one, whichever types are above. -/
def Store.ReadsAlike (start : Store) (root : TypeForm) (extra : Nat) : Prop :=
  ∀ reader, start.Finds root (.reader reader) → ∀ above depth caps path,
    NestedAlike (start.expanding root Interrupt.IsFault above) (fun a => start.Finds root (.form a))
        (nestedProbe (probe depth)) (nestedProbe (probe (depth + extra))) →
      Alike (start.expanding root Interrupt.IsFault above).faultless anything
        (probeReading (nestedProbe (probe depth)) caps reader path)
        (probeReading (nestedProbe (probe (depth + extra))) caps reader path)

end

section

variable {start : Store} {root : TypeForm} {keys above : List Key}

/-- A fault is no end of a bound. -/
theorem Store.finding_allowsFaults {guards : CycleGuard → Prop} :
    (start.finding root Interrupt.IsFault guards).AllowsFaults :=
  fun _ absent => nomatch absent

/-- Probing what is found ends, and alike to all depths that are beyond the
number of types that are not yet above. -/
theorem Store.probe_expanding
    {extra : Nat}
    (finite : ∀ key, start.Finds root (.key key) → key ∈ keys)
    (reading : start.ReadsAlike root extra)
    (depth : Nat)
    (distinct : above.Nodup)
    (among : above ⊆ keys)
    (deep : keys.length < depth + above.length) :
    NestedAlike (start.expanding root Interrupt.IsFault above)
      (fun a => start.Finds root (.form a)) (probe depth) (probe (depth + extra)) := by
  induction depth generalizing above with
  | zero =>
      have fits := (distinct.subperm among).length_le
      omega
  | succ depth inductionHypothesis =>
      intro a found path s holds
      rw [Nat.add_right_comm]
      refine probe_alikeAt finding_notes (finding_lookup finding_allowsFaults found s holds)
        fun caps reader reached events expands reachedHolds isFree => ?_
      -- the type joins those above, which stay different types that can be found
      have isKey : caps.type.identity ∈ keys := finite _ (.key holds.1 found expands)
      have absent : caps.type.identity ∉ above := fun isAbove =>
        isFree ((reachedHolds.2 _).mpr isAbove)
      have nested := inductionHypothesis (List.nodup_cons.mpr ⟨absent, distinct⟩)
        (List.cons_subset.mpr ⟨isKey, among⟩) (by rw [List.length_cons]; omega)
      refine probeGuarded_alikeAt (expanding_enter (finding_notes _ events reachedHolds))
        (reading reader (.reader holds.1 found expands) _ depth caps path fun b bFound path =>
          nestedProbe_alike finding_allowsFaults finding_notes (nested b bFound path))
        (fun t shape value => expanding_complete absent shape value) fun endless => ?_
      exact absurd rfl endless

/-- Types whose readers need no sequence to end are read alike. -/
theorem Store.readsAlike_of_bounded
    (bounded : ∀ reader, start.Finds root (.reader reader) → reader.isBounded = true)
    (extra : Nat) :
    start.ReadsAlike root extra := by
  have endless (reader : Reader) (isRead : start.Finds root (.reader reader))
      (unbounded : .endOfSequence ∈ reader.needs) : Interrupt.IsFault .exhausted :=
    nomatch List.all_eq_true.mp (bounded reader isRead) _ unbounded
  intro reader isRead above depth caps path nested
  exact probeReading_alike finding_notes
    (fun s holds => finding_recorder finding_allowsFaults endless nested isRead path
      (.start, s) holds)
    fun s holds => finding_keyChecker finding_allowsFaults endless isRead (.start, s) holds

/-- Describing a type ends, and alike to all depths that are beyond the number of
types that can be found. -/
theorem describeTo_alikeAt
    {s : Store}
    {a : TypeForm}
    {extra depth : Nat}
    (finite : ∀ key, s.Finds a (.key key) → key ∈ keys)
    (reading : s.ReadsAlike a extra)
    (deep : keys.length < depth) :
    AlikeAt (s.expanding a Interrupt.IsFault []) anything (describeTo depth a)
      (describeTo (depth + extra) a) s := by
  refine .bind_of_run ?_ (run_update _ s) (run_update _ s)
  refine .bind_of_run ?_ (run_update _ _) (run_update _ _)
  have probes := Store.probe_expanding finite reading depth .nil (List.nil_subset _)
    (by simpa using deep)
  refine (probes a .root [] _ ⟨.beside .start, fun key => ?_⟩).bind
    fun found reached holds _ => ?_
  · simp [CycleGuard.empty, Store.beside]
  · exact .ok rfl rfl (Store.finding_notes _ _ holds) trivial

/-- Describing a type comes to an end if finitely many types can be found and no
reader that is found loops to the end of a sequence or delegates.  Nested probes
use up one more depth than there are types at most: each depth beyond the number
of types gives the same, and none of them is used up. -/
theorem describe_terminates
    {s : Store}
    {a : TypeForm}
    {depth : Nat}
    (finite : ∀ key, s.Finds a (.key key) → key ∈ keys)
    (bounded : ∀ reader, s.Finds a (.reader reader) → reader.isBounded = true)
    (deep : keys.length < depth) :
    ((describeTo depth a).run s).1 ≠ .error .exhausted ∧
      (describeTo depth a).run s = (describeTo (keys.length + 1) a).run s ∧
      (keys.length < s.depthFor a.weight → (describe a).run s = (describeTo depth a).run s) := by
  have least {more : Nat} (deeper : keys.length < more) :
      (describeTo (keys.length + 1) a).run s = (describeTo more a).run s := by
    obtain ⟨extra, rfl⟩ := Nat.exists_eq_add_of_le (Nat.succ_le_of_lt deeper)
    exact (describeTo_alikeAt finite (Store.readsAlike_of_bounded bounded extra)
      (Nat.lt_succ_self _)).run_eq
  refine ⟨fun interrupted => ?_, (least deep).symm, fun deepEnough => ?_⟩
  · exact (describeTo_alikeAt finite (Store.readsAlike_of_bounded bounded 0)
      deep).allows_run interrupted rfl
  · exact (least deepEnough).symm.trans (least deep)

end

/-! ## A class that decodes itself -/

/-- A class whose objects link to further ones. -/
def chainClass : ClassRef :=
  .user ⟨1, "Chain", "shapes"⟩

/-- The links of a chain. -/
def chainLinks : TypeForm :=
  .generic (.cls (.builtin .list)) [.cls chainClass]

/-- A name that nothing has. -/
def chainTail : TypeForm :=
  .text "Tail"

/-- A chain asks for its links, which may be missing, and for a tail of a type that
there is not, and fails. -/
def chainProgram : Program :=
  [.request "d" .openKeyed (some "c"),
    .request "c"
      (.decodeIfPresent (.generic (.cls (.builtin .list)) [.named "Chain"])
        (some (.literal "links"))) none,
    .request "c" (.decode (.known chainTail) (some (.literal "tail"))) none,
    .fail .runtime "broken" []]

/-- The class of chains as it is declared. -/
def chainRecord : ClassRecord where
  cls := ⟨1, "Chain", "shapes"⟩
  lineage := [chainClass]
  base := none
  params := []
  hooks := { Hooks.none with program := some chainProgram }
  body := .plain

/-- The state in which chains are declared. -/
def chainStore : Store :=
  { Store.initial with
    world :=
      { World.empty with
        classes := [chainRecord]
        names := [("Chain", .cls chainClass)] } }

/-- What is found out about chains. -/
def chainCapabilities : Capabilities :=
  { Capabilities.named (.cls chainClass) "Chain" with
    reader := some (.program (.cls chainClass) chainProgram)
    isReferenceable := true }

/-- What is found out about chains and their links. -/
def chainKnowledge : List (TypeForm × Capabilities) :=
  [(.cls chainClass, chainCapabilities),
    (chainLinks,
      .readBy chainLinks (.sequence (.cls chainClass) (.shape .list)) (.items .list none []))]

/-- The tail of a chain is neither a chain nor its links. -/
theorem chainTail_ne
    {e : TypeForm × Capabilities}
    (member : e ∈ chainKnowledge) :
    chainTail.identity ≠ e.1.identity := by
  simp only [chainKnowledge, List.mem_cons, List.not_mem_nil, or_false] at member
  rcases member with rfl | rfl <;> decide

/-- Chains and their links are different types. -/
theorem chainKnowledge_unique
    {first second : TypeForm × Capabilities}
    (isFirst : first ∈ chainKnowledge)
    (isSecond : second ∈ chainKnowledge)
    (same : first.1.identity = second.1.identity) :
    first = second := by
  simp only [chainKnowledge, List.mem_cons, List.not_mem_nil, or_false] at isFirst isSecond
  rcases isFirst with rfl | rfl <;> rcases isSecond with rfl | rfl
  · rfl
  · exact absurd same (by decide)
  · exact absurd same (by decide)
  · rfl

/-- Whether nothing else was found out about chains. -/
structure Store.KnowsChains (s : Store) : Prop where
  world : s.world = chainStore.world
  known : ∀ e ∈ chainKnowledge, ∀ caps,
    (s.registry .current).find? e.1 = some caps → caps = e.2
  unknown : (s.registry .current).find? chainTail = none

section

variable {s : Store} {e : TypeForm × Capabilities}

/-- Remembering what is found out about chains finds out nothing else. -/
theorem Store.KnowsChains.remembering
    (knows : s.KnowsChains)
    (member : e ∈ chainKnowledge) :
    (s.remembering e.1 e.2).KnowsChains where
  world := by rw [world_remembering, knows.world]
  known other otherMember caps found := by
    rw [Store.remembering, registry_changeRegistry] at found
    by_cases same : other.1.identity = e.1.identity
    · rw [find?_remember_self _ _ same] at found
      cases found
      rw [chainKnowledge_unique otherMember member same]
    · rw [find?_remember_of_ne _ _ same] at found
      exact knows.known other otherMember caps found
  unknown := by
    rw [Store.remembering, registry_changeRegistry, find?_remember_of_ne _ _ (chainTail_ne member)]
    exact knows.unknown

/-- What is found out about chains is found when it is remembered. -/
theorem Store.KnowsChains.remembered
    {resolve : Step Store Capabilities}
    (knows : s.KnowsChains)
    (member : e ∈ chainKnowledge)
    (resolves : ∃ reached, resolve.run s = (.ok e.2, reached) ∧ reached.KnowsChains) :
    ∃ reached, (SchemaProbe.remembered .current e.1 resolve).run s = (.ok e.2, reached) ∧
      reached.KnowsChains := by
  rw [SchemaProbe.remembered, run_bind_of_ok (run_current s)]
  cases found : (s.registry .current).find? e.1 with
  | some caps =>
      rw [knows.known e member caps found]
      exact ⟨s, rfl, knows⟩
  | none =>
      obtain ⟨reached, ran, reachedKnows⟩ := resolves
      refine ⟨reached.remembering e.1 e.2, ?_, reachedKnows.remembering member⟩
      rw [run_bind_of_ok ran]
      rfl

/-- Looking up chains and their links finds what is known. -/
theorem Store.KnowsChains.lookup
    (knows : s.KnowsChains)
    (member : e ∈ chainKnowledge) :
    ∃ reached, (SchemaProbe.lookup .current e.1).run s = (.ok e.2, reached) ∧
      reached.KnowsChains := by
  simp only [chainKnowledge, List.mem_cons, List.not_mem_nil, or_false] at member
  rcases member with rfl | rfl
  · have resolved : (resolveClass chainClass).run s = (.ok chainCapabilities, s) := by
      obtain ⟨w, shared, own, guard, events⟩ := s
      obtain rfl : w = chainStore.world := knows.world
      rfl
    exact knows.remembered (List.mem_cons_self)
      (knows.remembered (List.mem_cons_self) ⟨s, resolved, knows⟩)
  · exact knows.remembered (by simp [chainKnowledge]) ⟨s, rfl, knows⟩

/-- Looking up the tail of a chain fails. -/
theorem Store.KnowsChains.lookup_tail (knows : s.KnowsChains) :
    (SchemaProbe.lookup .current chainTail).run s =
      (.error (.fault (.unresolvedReference chainTail.display)), s) := by
  change (SchemaProbe.remembered .current chainTail _).run s = _
  rw [SchemaProbe.remembered, run_bind_of_ok (run_current s)]
  simp only [knows.unknown]
  rfl

end

/-- Whether something that is found belongs to chains. -/
def Finding.IsOfChains : Finding → Prop
  | .state s => s.KnowsChains
  | .form a => a = chainTail ∨ ∃ e ∈ chainKnowledge, a = e.1
  | .reader r => ∃ e ∈ chainKnowledge, e.2.reader = some r
  | .key k => ∃ e ∈ chainKnowledge, k = e.1.identity

/-- The readers of chains ask for chains, their links and their tail. -/
theorem Finding.IsOfChains.needs
    {reader : Reader}
    {need : Need}
    (isOfChains : (Finding.reader reader).IsOfChains)
    (member : need ∈ reader.needs) :
    ∃ find a, need = .forms find ∧ (Finding.form a).IsOfChains ∧
      ∀ s : Store, s.KnowsChains → (inWorld find).run s = (.ok [a], s) := by
  obtain ⟨e, among, reads⟩ := isOfChains
  simp only [chainKnowledge, List.mem_cons, List.not_mem_nil, or_false] at among
  rcases among with rfl | rfl
  · cases reads
    change need ∈ [_, _] at member
    simp only [List.mem_cons, List.not_mem_nil, or_false] at member
    rcases member with rfl | rfl
    · refine ⟨_, chainLinks, rfl, .inr ⟨_, List.mem_cons_of_mem _ List.mem_cons_self, rfl⟩, ?_⟩
      rintro ⟨w, shared, own, guard, events⟩ ⟨rfl, _, _⟩
      rfl
    · exact ⟨_, chainTail, rfl, .inl rfl, fun _ _ => rfl⟩
  · cases reads
    obtain rfl := List.mem_singleton.mp member
    exact ⟨_, .cls chainClass, rfl, .inr ⟨_, List.mem_cons_self, rfl⟩, fun _ _ => rfl⟩

/-- What is found out about a type of chains that is looked into. -/
theorem Finding.IsOfChains.expands
    {s reached : Store}
    {a : TypeForm}
    {caps : Capabilities}
    {reader : Reader}
    (knows : s.KnowsChains)
    (isOfChains : (Finding.form a).IsOfChains)
    (expands : s.Expands a caps reader reached) :
    ∃ e ∈ chainKnowledge, caps = e.2 := by
  have found := expands.found
  rcases isOfChains with rfl | ⟨e, member, rfl⟩
  · rw [knows.lookup_tail] at found
    cases found
  · obtain ⟨last, ran, _⟩ := knows.lookup member
    rw [ran] at found
    cases found
    exact ⟨e, member, rfl⟩

/-- Describing chains finds nothing but chains, their links and their tail. -/
theorem isOfChains_of_finds
    {finding : Finding}
    (finds : chainStore.Finds (.cls chainClass) finding) :
    finding.IsOfChains := by
  induction finds with
  | start =>
      refine ⟨rfl, fun e member caps found => ?_, rfl⟩
      simp only [chainKnowledge, List.mem_cons, List.not_mem_nil, or_false] at member
      rcases member with rfl | rfl <;> cases found
  | root => exact .inr ⟨_, List.mem_cons_self, rfl⟩
  | beside _ knows =>
      refine ⟨knows.world, fun e member caps found => ?_, ?_⟩
      · exact knows.known e member caps (by rwa [Store.beside_registry] at found)
      · rw [Store.beside_registry]
        exact knows.unknown
  | @lookup s a _ _ knows isForm =>
      change ((SchemaProbe.lookup .current a).run s).2.KnowsChains
      rcases isForm with rfl | ⟨e, member, rfl⟩
      · rw [knows.lookup_tail]
        exact knows
      · obtain ⟨reached, ran, reachedKnows⟩ := knows.lookup member
        rw [ran]
        exact reachedKnows
  | reader _ _ expands knows isForm =>
      obtain ⟨e, member, rfl⟩ := isForm.expands knows expands
      exact ⟨e, member, expands.reads⟩
  | key _ _ expands knows isForm =>
      obtain ⟨e, member, rfl⟩ := isForm.expands knows expands
      refine ⟨e, member, ?_⟩
      simp only [chainKnowledge, List.mem_cons, List.not_mem_nil, or_false] at member
      rcases member with rfl | rfl <;> rfl
  | search _ _ member knows isReader =>
      obtain ⟨find, a, same, _, ran⟩ := isReader.needs member
      cases same
      change ((inWorld _).run _).2.KnowsChains
      rw [ran _ knows]
      exact knows
  | form _ _ member found among knows isReader =>
      obtain ⟨find, a, same, isForm, ran⟩ := isReader.needs member
      cases same
      rw [ran _ knows] at found
      cases found
      obtain rfl := List.mem_singleton.mp among
      exact isForm
  | delegation _ _ member _ isReader =>
      obtain ⟨_, _, absent, _⟩ := isReader.needs member
      cases absent
  | delegate _ _ member _ _ isReader =>
      obtain ⟨_, _, absent, _⟩ := isReader.needs member
      cases absent

/-- Describing chains looks into chains and their links alone. -/
theorem keys_of_chains
    (key : Key)
    (found : chainStore.Finds (.cls chainClass) (.key key)) :
    key ∈ chainKnowledge.map fun e => e.1.identity := by
  obtain ⟨e, member, rfl⟩ := isOfChains_of_finds found
  exact List.mem_map.mpr ⟨e, member, rfl⟩

/-- Chains are decoded without loops and delegation. -/
theorem isBounded_of_chains
    (reader : Reader)
    (found : chainStore.Finds (.cls chainClass) (.reader reader)) :
    reader.isBounded = true := by
  refine List.all_eq_true.mpr fun need member => ?_
  obtain ⟨_, _, rfl, _⟩ := Finding.IsOfChains.needs (isOfChains_of_finds found) member
  rfl

/-- Describing chains comes to an end. -/
theorem describe_terminates_chain :
    ((describe (.cls chainClass)).run chainStore).1 ≠ .error .exhausted := by
  have deep : (chainKnowledge.map fun e => e.1.identity).length <
      chainStore.depthFor (TypeForm.cls chainClass).weight := by
    have cubed : Nat.pow 2 3 ≤
        Nat.pow (2 + (chainStore.weight + (TypeForm.cls chainClass).weight)) 3 :=
      Nat.pow_le_pow_left (Nat.le_add_right _ _) 3
    rw [Store.depthFor, Nat.add_assoc]
    exact Nat.lt_of_lt_of_le (by decide) cubed
  exact (describe_terminates keys_of_chains isBounded_of_chains deep).1

end SchemaProbe

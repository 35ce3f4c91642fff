import SchemaProbe.Proofs.Stopping
import SchemaProbe.Proofs.Terminating
import SchemaProbe.Proofs.Veiling

namespace SchemaProbe

/-!
# Descriptions that keep clear of two types

Two descriptions go side by side from states that know the same of all types but two, as
long as nothing that is met asks for one of these: neither what readers ask for, nor what
they delegate to, nor the types that are found for what they ask for.  Then the types
that are met are read in the same way, and no shape of theirs shows a hidden type.
-/

open Step

/-! ## Nothing that is met asks for a hidden type -/

/-- Whether a shape shows and refers back to types alone that are looked up without asking
for a hidden type. -/
abbrev Shape.Avoids (hidden : Key → Prop) : Shape → Prop :=
  Shape.Shows (TypeForm.Avoids hidden) (TypeForm.Avoids hidden)

/-- Whether a type form is among what describing a type finds, and is looked up without
asking for a hidden type. -/
def Store.Meets (s : Store) (root : TypeForm) (hidden : Key → Prop) (a : TypeForm) : Prop :=
  s.Finds root (.form a) ∧ a.Avoids hidden

/-- Whether nothing that is met while a type is described asks for a hidden type: neither
what readers ask for, nor what they delegate to, nor the types that are found for what
they ask for. -/
structure Store.KeepsClear (s : Store) (root : TypeForm) (hidden : Key → Prop) : Prop where
  asked : ∀ s' reader find forms reached, s.Finds root (.state s') →
    s.Finds root (.reader reader) → .forms find ∈ reader.needs →
      (Step.inWorld find).run s' = (.ok forms, reached) → ∀ a ∈ forms, a.Avoids hidden
  delegated : ∀ s' reader type a reached, s.Finds root (.state s') →
    s.Finds root (.reader reader) → .delegate type ∈ reader.needs →
      (Step.inWorld (type.resolve .strict)).run s' = (.ok a, reached) → a.Avoids hidden
  known : ∀ s' a caps reached, s.Finds root (.state s') → s.Meets root hidden a →
    (lookup .current a).run s' = (.ok caps, reached) → caps.type.Avoids hidden

/-- Whether two guards know the same of all types but hidden ones. -/
def CycleGuard.SameBut (hidden : Key → Prop) (g h : CycleGuard) : Prop :=
  ∀ key, ¬ hidden key → h.entries.lookup key = g.entries.lookup key

/-- Whether the types of a guard that are done, but for hidden ones, have shapes that
avoid hidden types. -/
def CycleGuard.Avoids (hidden : Key → Prop) (g : CycleGuard) : Prop :=
  ∀ key shape value, ¬ hidden key →
    g.entries.lookup key = some (.completed shape value) → shape.Avoids hidden

section

variable {hidden : Key → Prop} {g h : CycleGuard} {a b : TypeForm}

/-- Entries under the same key, or under hidden ones, leave guards the same but for hidden
types. -/
theorem CycleGuard.SameBut.set
    {depth otherDepth : Int}
    {entry otherEntry : GuardEntry}
    (same : g.SameBut hidden h)
    (alike : (a = b ∧ entry = otherEntry) ∨ (hidden a.identity ∧ hidden b.identity)) :
    CycleGuard.SameBut hidden ⟨Table.set g.entries a.identity entry, depth⟩
      ⟨Table.set h.entries b.identity otherEntry, otherDepth⟩ := by
  intro key isVisible
  rcases alike with ⟨rfl, rfl⟩ | ⟨firstHidden, secondHidden⟩
  · by_cases isKey : key = a.identity
    · rw [isKey, Table.lookup_set_self, Table.lookup_set_self]
    · rw [Table.lookup_set_of_ne _ _ isKey, Table.lookup_set_of_ne _ _ isKey]
      exact same key isVisible
  · have isOther {type : TypeForm} (isHidden : hidden type.identity) : key ≠ type.identity :=
      fun isKey => isVisible (by rw [isKey]; exact isHidden)
    rw [Table.lookup_set_of_ne _ _ (isOther firstHidden),
      Table.lookup_set_of_ne _ _ (isOther secondHidden)]
    exact same key isVisible

theorem CycleGuard.SameBut.enter (same : g.SameBut hidden h) (a : TypeForm) :
    (g.enter a).SameBut hidden (h.enter a) :=
  same.set (.inl ⟨rfl, rfl⟩)

theorem CycleGuard.SameBut.complete
    (same : g.SameBut hidden h)
    (a : TypeForm)
    (shape : Shape)
    (value : Value) :
    (g.complete a shape value).SameBut hidden (h.complete a shape value) :=
  same.set (.inl ⟨rfl, rfl⟩)

/-- The entry of a type whose shape avoids hidden types leaves a guard that does. -/
theorem CycleGuard.Avoids.set
    {depth : Int}
    {entry : GuardEntry}
    (avoids : g.Avoids hidden)
    (isDone : ∀ shape value, entry = .completed shape value → shape.Avoids hidden) :
    CycleGuard.Avoids hidden ⟨Table.set g.entries a.identity entry, depth⟩ := by
  intro key shape value isVisible found
  by_cases isKey : key = a.identity
  · rw [isKey, Table.lookup_set_self] at found
    exact isDone shape value (Option.some.inj found)
  · rw [Table.lookup_set_of_ne _ _ isKey] at found
    exact avoids key shape value isVisible found

theorem CycleGuard.Avoids.enter (avoids : g.Avoids hidden) (a : TypeForm) :
    (g.enter a).Avoids hidden :=
  avoids.set fun _ _ absent => nomatch absent

theorem CycleGuard.Avoids.complete
    {shape : Shape}
    (avoids : g.Avoids hidden)
    (isFine : shape.Avoids hidden)
    (a : TypeForm)
    (value : Value) :
    (g.complete a shape value).Avoids hidden :=
  avoids.set fun _ _ isDone => by
    cases isDone
    exact isFine

/-- What a type ends with that is not looked into avoids hidden types if the type does, and
what came out of it before. -/
theorem Capabilities.Ends.avoids
    {caps : Capabilities}
    {result : Shape × Value}
    (ends : caps.Ends g result)
    (isVisible : caps.type.Avoids hidden)
    (isDone : ∀ shape value, g.get? caps.type = some (.completed shape value) →
      shape.Avoids hidden) :
    result.1.Avoids hidden := by
  have header : ∀ b, some caps.type = some b → b.Avoids hidden := by
    rintro _ ⟨rfl⟩
    exact isVisible
  cases ends with
  | scalar kind v => exact .single header
  | unread v => exact .unconstrained header
  | referred v _ => exact .recursive header isVisible
  | done found _ => exact isDone _ _ found

end

/-- The bond of two descriptions that know the same but of two types, where the second
finds nothing but what it can. -/
def Store.apart
    (s : Store)
    (root : TypeForm)
    (first second : Capabilities) :
    Bond Store Store :=
  (Store.veiling first second (CycleGuard.SameBut (first.Hides second))).keeping
    (s.following root (CycleGuard.Avoids (first.Hides second)))

section

variable {s t u : Store} {root a : TypeForm} {first second : Capabilities} {hidden : Key → Prop}
  {reader : Reader} {guards : CycleGuard → Prop}

theorem Store.apart_allowsFaults : (s.apart root first second).AllowsFaults :=
  fun _ => ⟨trivial, trivial⟩

/-- What is noted does not matter. -/
theorem Store.apart_ignoresEvents : (s.apart root first second).IgnoresEvents := by
  rintro t u events others ⟨veils, holds⟩
  exact ⟨veils.beside events others veils.guard, finding_notes u others holds⟩

theorem Store.apart_notes : (s.apart root first second).Notes :=
  fun t u _ ties => apart_ignoresEvents t u _ _ ties

theorem Store.apart_makes : (s.apart root first second).Makes := by
  intro t u ties
  rw [ties.1.same.world]
  exact .refl _

/-- Guards change together. -/
theorem Store.apart_withGuard
    {g h : CycleGuard}
    (ties : (s.apart root first second).ties t u)
    (same : g.SameBut (first.Hides second) h)
    (avoids : h.Avoids (first.Hides second)) :
    (s.apart root first second).ties (t.withGuard g) (u.withGuard h) := by
  obtain ⟨veils, found, -⟩ := ties
  exact ⟨veils.beside t.events u.events same, .beside found, avoids⟩

/-- What a reader that is found relies on asks for types that avoid hidden ones. -/
theorem Store.KeepsClear.isMet
    {need : Need}
    (clear : s.KeepsClear root hidden)
    (isRead : s.Finds root (.reader reader))
    (member : need ∈ reader.needs) :
    need.IsMet (s.following root guards) (s.Meets root hidden)
      fun reader => s.Finds root (.reader reader) := by
  have isMet : need.IsMet (s.following root guards) (fun a => s.Finds root (.form a))
      fun reader => s.Finds root (.reader reader) := following_reads reader isRead need member
  cases need with
  | forms find =>
      intro t holds
      cases isMet t holds with
      | ok ran otherRan reachedHolds found =>
          exact .ok ran otherRan reachedHolds fun a among =>
            ⟨found a among, clear.asked t reader find _ _ holds.1 isRead member ran a among⟩
      | error ran otherRan reachedHolds allowed => exact .error ran otherRan reachedHolds allowed
  | delegate type => exact isMet
  | endOfSequence => exact isMet

/-- Readers that are found delegate to the same. -/
theorem Store.KeepsClear.delegates
    (clear : s.KeepsClear root (first.Hides second))
    (isRead : s.Finds root (.reader reader))
    (type : TypeTerm)
    (member : .delegate type ∈ reader.needs) :
    Tied (s.apart root first second) (Same fun r => s.Finds root (.reader r)) (sharedReader type)
      (sharedReader type) := by
  rintro t u ⟨veils, holds⟩
  have resolves : TiedAt (Store.veiling first second (CycleGuard.SameBut (first.Hides second)))
      (Same (TypeForm.Avoids (first.Hides second))) (Step.inWorld (type.resolve .strict))
      (Step.inWorld (type.resolve .strict)) t u := by
    cases inWorld_veiled (type.resolve .strict) t u veils with
    | ok ran otherRan reachedVeils same =>
        obtain ⟨rfl, -⟩ := same
        exact .ok ran otherRan reachedVeils
          ⟨rfl, clear.delegated u reader type _ _ holds.1 isRead member otherRan⟩
    | error ran otherRan reachedVeils allowed => exact .error ran otherRan reachedVeils allowed
    | lapsed ran lapses => exact .lapsed ran lapses
  have reads : TiedAt (Store.veiling first second (CycleGuard.SameBut (first.Hides second)))
      (Same anything) (sharedReader type) (sharedReader type) t u := by
    refine resolves.bind_same fun a reached other reachedVeils avoids => ?_
    refine (lookup_veiled avoids .shared reached other reachedVeils).bind
      fun caps _ last _ lastVeils same => ?_
    rw [← same]
    split
    · exact .pure lastVeils ⟨rfl, trivial⟩
    · exact .fail lastVeils trivial
  have finds : Alike (s.following root (CycleGuard.Avoids (first.Hides second)))
      (fun r => s.Finds root (.reader r)) (sharedReader type) (sharedReader type) :=
    finding_alike following_allowsFaults (sharedReader_ignoresEvents type) (sharedReader_ends type)
      (fun _ isFound => .delegation isFound isRead member)
      fun _ other reached isFound ran => .delegate isFound isRead member ran
  exact (reads.keeping (finds u holds)).mono fun _ _ both => ⟨both.1.1, both.1.1 ▸ both.2⟩

/-- What readers that are found rely on is the same. -/
theorem Store.KeepsClear.isTied
    (clear : s.KeepsClear root (first.Hides second))
    (holds : (s.following root (CycleGuard.Avoids (first.Hides second))).holds t)
    (isRead : s.Finds root (.reader reader)) :
    reader.IsTied (s.apart root first second) (s.Meets root (first.Hides second))
      fun r => s.Finds root (.reader r) :=
  Reader.isTied_of_needs Store.veiling_findsOut holds reader
    (fun _ member => clear.isMet isRead member) (clear.delegates isRead)

/-- What is met is looked up in the same way, and its type avoids hidden ones. -/
theorem Store.KeepsClear.looksUp
    (clear : s.KeepsClear root (first.Hides second))
    (met : s.Meets root (first.Hides second) a) :
    Tied (s.apart root first second) (Same fun caps => caps.type.Avoids (first.Hides second))
      (lookup .current a) (lookup .current a) := by
  have finds : Alike (s.following root (CycleGuard.Avoids (first.Hides second)))
      (fun caps => caps.type.Avoids (first.Hides second)) (lookup .current a) (lookup .current a) :=
    finding_alike following_allowsFaults (lookup_ignoresEvents .current a)
      ((lookup_alike Regime.ending_looks .current a).mono fun _ _ => trivial)
      (fun _ isFound => .lookup isFound met.1)
      fun t caps reached isFound ran => clear.known t a caps reached isFound met ran
  exact ((lookup_veiled met.2 .current).keeping finds).mono
    fun _ _ both => ⟨both.1, both.1 ▸ both.2⟩

/-- Guards that are tied know the same of types that avoid hidden ones. -/
theorem Store.apart_get?
    {caps : Capabilities}
    (ties : (s.apart root first second).ties t u)
    (isVisible : caps.type.Avoids (first.Hides second)) :
    u.guard.get? caps.type = t.guard.get? caps.type :=
  ties.1.guard _ isVisible.self

/-- What stands in for a type that is met is the same. -/
theorem Store.KeepsClear.placeholders
    (clear : s.KeepsClear root (first.Hides second))
    (met : s.Meets root (first.Hides second) a) :
    Tied (s.apart root first second) (Same anything) (placeholderOf a) (placeholderOf a) := by
  refine placeholderOf_tied apart_allowsFaults (clear.looksUp met) ?_ ?_
  · rintro caps _ ⟨rfl, -⟩
    rfl
  · rintro caps _ t u ⟨rfl, isVisible⟩ ties
    exact apart_get? ties isVisible

/-- Types that are met are read in the same way, and their shapes avoid hidden types. -/
theorem Store.KeepsClear.probesReading
    {nested otherNested : NestedProbe}
    {caps : Capabilities}
    {path : Path}
    (clear : s.KeepsClear root (first.Hides second))
    (probes : NestedTied (s.apart root first second) (s.Meets root (first.Hides second)) nested
      otherNested (Shape.Avoids (first.Hides second)))
    (isRead : s.Finds root (.reader reader))
    (isVisible : caps.type.Avoids (first.Hides second)) :
    Tied (s.apart root first second) (Same fun result => result.1.Avoids (first.Hides second))
      (probeReading nested caps reader path) (probeReading otherNested caps reader path) := by
  have closed {t : Store}
      (holds : (s.following root (CycleGuard.Avoids (first.Hides second))).holds t) (r : Reader)
      (isRead : s.Finds root (.reader r)) :
      r.IsTied (s.apart root first second) (s.Meets root (first.Hides second))
        fun r => s.Finds root (.reader r) :=
    clear.isTied holds isRead
  have reads : Tied (s.apart root first second).faultless
      (Same fun result => result.1.Avoids (first.Hides second))
      (probeReading nested caps reader path) (probeReading otherNested caps reader path) := by
    refine probeReading_tied_fine (Capabilities.finishesFine_shows isVisible) apart_notes ?_ ?_
    · exact fun t u ties => Reader.runTo_tied apart_makes apart_allowsFaults
        (recorder_answersTied_fine apart_allowsFaults (fun _ shows => shows.optional true) probes)
        (closed ties.2) delegationDepth isRead (Recorder.decoder path) (.start, t) (.start, u)
        ⟨⟨rfl, Recording.isFine_start⟩, ties⟩
    · exact fun t u ties => Reader.runTo_tied apart_makes apart_allowsFaults
        (keyChecker_answersTied apart_allowsFaults fun _ met => clear.placeholders met)
        (closed ties.2) delegationDepth isRead (Recorder.decoder []) (.start, t) (.start, u)
        ⟨⟨rfl, trivial⟩, ties⟩
  exact fun t u ties => (reads t u ties).weaken
    ⟨fun _ _ ties => ties, fun _ _ => ⟨trivial, trivial⟩, fun lapses => lapses⟩

/-- Types that are met are probed in the same way, and their shapes avoid hidden types. -/
theorem Store.KeepsClear.probes
    (clear : s.KeepsClear root (first.Hides second))
    (depth : Nat) :
    NestedTied (s.apart root first second) (s.Meets root (first.Hides second)) (probe depth)
      (probe depth) (Shape.Avoids (first.Hides second)) := by
  induction depth with
  | zero => exact fun a _ path t u ties => .error rfl rfl ties ⟨trivial, trivial⟩
  | succ depth inductionHypothesis =>
      intro a met path t u ties
      have nested : NestedTied (s.apart root first second) (s.Meets root (first.Hides second))
          (nestedProbe (probe depth)) (nestedProbe (probe depth))
          (Shape.Avoids (first.Hides second)) := fun b bMet path =>
        nestedProbe_tied Shape.shows_any apart_allowsFaults apart_notes
          (inductionHypothesis b bMet path)
      refine probe_tiedAt apart_notes (clear.looksUp met t u ties) ?_ ?_ ?_ (.refl _) ?_
      · rintro caps _ ⟨rfl, -⟩
        exact ⟨rfl, .rfl⟩
      · rintro caps _ reached later ⟨rfl, isVisible⟩ reachedTies
        exact apart_get? reachedTies isVisible
      · rintro caps _ reached later result ⟨rfl, isVisible⟩ reachedTies ends
        refine ⟨rfl, ends.avoids isVisible fun shape value isDone => ?_⟩
        rw [← apart_get? reachedTies isVisible] at isDone
        exact reachedTies.2.2 _ shape value isVisible.self isDone
      · rintro caps _ reader otherReader reached later events others expands otherExpands
          ⟨rfl, isVisible⟩ reachedTies -
        obtain rfl : reader = otherReader := by
          have same := expands.reads.symm.trans otherExpands.reads
          exact Option.some.inj same
        have isRead : s.Finds root (.reader reader) := .reader ties.2.1 met.1 otherExpands
        have entered := apart_withGuard reachedTies (reachedTies.1.guard.enter caps.type)
          (reachedTies.2.2.enter caps.type)
        refine probeGuarded_tiedAt (clear.probesReading nested isRead isVisible _ _ entered) ?_
          (fun _ _ _ lastTies allowed => ⟨lastTies, allowed⟩) id
        rintro last lastOther result _ lastTies ⟨rfl, avoids⟩
        exact apart_withGuard lastTies (lastTies.1.guard.complete caps.type result.1 result.2)
          (lastTies.2.2.complete avoids caps.type result.2)

end

end SchemaProbe

import SchemaProbe.Proofs.KeepingClear

namespace SchemaProbe

/-!
# Catalogues of types

A catalogue lists types with what is found out about them.  If the types in it ask for
types in it alone, then describing one of them comes across nothing else, so that what
has to be known of everything that is met can be read off a finite list.
-/

open Step

/-- Types of a world with what is found out about them. -/
structure Catalogue where
  world : World
  entries : List (TypeForm × Capabilities)
  unique : (entries.map fun e => e.1.identity).Nodup

namespace Catalogue

/-- Whether a state has the world of a catalogue and knows nothing else of its types. -/
structure Fits (k : Catalogue) (s : Store) : Prop where
  world : s.world = k.world
  known : ∀ e ∈ k.entries, ∀ caps, (s.registry .current).find? e.1 = some caps → caps = e.2

/-- Whether a catalogue has the types that its types ask for, and none of those asks for a
hidden type. -/
structure IsClosed (k : Catalogue) (hidden : Key → Prop) : Prop where
  looksUp : ∀ e ∈ k.entries, ∀ s, k.Fits s →
    ∃ reached, (SchemaProbe.lookup .current e.1).run s = (.ok e.2, reached) ∧ k.Fits reached
  asks : ∀ e ∈ k.entries, ∀ reader, e.2.reader = some reader → ∀ need ∈ reader.needs,
    ∃ find forms, need = .forms find ∧
      (∀ s, k.Fits s → (inWorld find).run s = (.ok forms, s)) ∧
        ∀ a ∈ forms, a.Avoids hidden ∧ ∃ e ∈ k.entries, a = e.1
  shows : ∀ e ∈ k.entries, e.1.Avoids hidden → e.2.type.Avoids hidden

/-- Whether something that is found is in a catalogue. -/
def Covers (k : Catalogue) : Finding → Prop
  | .state s => k.Fits s
  | .form a => ∃ e ∈ k.entries, a = e.1
  | .reader r => ∃ e ∈ k.entries, e.2.reader = some r
  | .key key => ∃ e ∈ k.entries, key = e.2.type.identity

section

variable {k : Catalogue} {s reached : Store} {e other : TypeForm × Capabilities} {a : TypeForm}
  {hidden : Key → Prop} {caps : Capabilities} {reader : Reader}

/-- The entries of a catalogue are those of different types. -/
theorem eq_of_identity
    (isFirst : e ∈ k.entries)
    (isSecond : other ∈ k.entries)
    (same : e.1.identity = other.1.identity) :
    e = other :=
  List.inj_on_of_nodup_map k.unique isFirst isSecond same

/-- Remembering what is in a catalogue leaves a state that it fits. -/
theorem Fits.remembering
    (fits : k.Fits s)
    (member : e ∈ k.entries) :
    k.Fits (s.remembering e.1 e.2) where
  world := by rw [Store.world_remembering, fits.world]
  known other otherMember caps found := by
    rw [Store.remembering, Store.registry_changeRegistry] at found
    by_cases same : other.1.identity = e.1.identity
    · rw [Store.find?_remember_self _ _ same] at found
      cases found
      rw [eq_of_identity otherMember member same]
    · rw [Store.find?_remember_of_ne _ _ same] at found
      exact fits.known other otherMember caps found

/-- What is in a catalogue is found once it is remembered. -/
theorem Fits.remembered
    {resolve : Step Store Capabilities}
    (fits : k.Fits s)
    (member : e ∈ k.entries)
    (resolves : ∃ reached, resolve.run s = (.ok e.2, reached) ∧ k.Fits reached) :
    ∃ reached, (SchemaProbe.remembered .current e.1 resolve).run s = (.ok e.2, reached) ∧
      k.Fits reached := by
  rw [SchemaProbe.remembered, run_bind_of_ok (run_current s)]
  cases found : (s.registry .current).find? e.1 with
  | some caps =>
      rw [fits.known e member caps found]
      exact ⟨s, rfl, fits⟩
  | none =>
      obtain ⟨reached, ran, reachedFits⟩ := resolves
      refine ⟨reached.remembering e.1 e.2, ?_, reachedFits.remembering member⟩
      rw [run_bind_of_ok ran]
      rfl

/-- Looking up a type that is in a catalogue finds what is listed. -/
theorem IsClosed.lookup
    (closed : k.IsClosed hidden)
    (fits : k.Fits s)
    (isListed : k.Covers (.form a))
    (ran : (SchemaProbe.lookup .current a).run s = (.ok caps, reached)) :
    ∃ e ∈ k.entries, a = e.1 ∧ caps = e.2 := by
  obtain ⟨e, member, rfl⟩ := isListed
  obtain ⟨last, found, -⟩ := closed.looksUp e member s fits
  rw [found] at ran
  cases ran
  exact ⟨e, member, rfl, rfl⟩

/-- Describing a type that is in a catalogue comes across nothing else. -/
theorem IsClosed.covers
    {root : TypeForm}
    {finding : Finding}
    (closed : k.IsClosed hidden)
    (fits : k.Fits s)
    (isListed : k.Covers (.form root))
    (finds : s.Finds root finding) :
    k.Covers finding := by
  induction finds with
  | start => exact fits
  | root => exact isListed
  | beside _ fits => exact ⟨fits.world, fits.known⟩
  | @lookup t _ _ _ fits isListed =>
      obtain ⟨e, member, rfl⟩ := isListed
      obtain ⟨reached, ran, reachedFits⟩ := closed.looksUp e member t fits
      rw [ran]
      exact reachedFits
  | reader _ _ expands fits isListed =>
      obtain ⟨e, member, -, rfl⟩ := closed.lookup fits isListed expands.found
      exact ⟨e, member, expands.reads⟩
  | key _ _ expands fits isListed =>
      obtain ⟨e, member, -, rfl⟩ := closed.lookup fits isListed expands.found
      exact ⟨e, member, rfl⟩
  | search _ _ member fits isRead =>
      obtain ⟨e, among, reads⟩ := isRead
      obtain ⟨find, forms, same, ran, -⟩ := closed.asks e among _ reads _ member
      cases same
      rw [ran _ fits]
      exact fits
  | form _ _ member found among fits isRead =>
      obtain ⟨e, listed, reads⟩ := isRead
      obtain ⟨find, forms, same, ran, areListed⟩ := closed.asks e listed _ reads _ member
      cases same
      rw [ran _ fits] at found
      cases found
      exact (areListed _ among).2
  | delegation _ _ member _ isRead =>
      obtain ⟨e, listed, reads⟩ := isRead
      obtain ⟨_, _, absent, -⟩ := closed.asks e listed _ reads _ member
      cases absent
  | delegate _ _ member _ _ isRead =>
      obtain ⟨e, listed, reads⟩ := isRead
      obtain ⟨_, _, absent, -⟩ := closed.asks e listed _ reads _ member
      cases absent

/-- Describing a type that is in a closed catalogue keeps clear of hidden types. -/
theorem IsClosed.keepsClear
    {root : TypeForm}
    (closed : k.IsClosed hidden)
    (fits : k.Fits s)
    (isListed : k.Covers (.form root)) :
    s.KeepsClear root hidden where
  asked t reader find forms reached isState isRead member ran a among := by
    obtain ⟨e, listed, reads⟩ := closed.covers fits isListed isRead
    obtain ⟨_, _, same, finds, areListed⟩ := closed.asks e listed _ reads _ member
    cases same
    rw [finds t (closed.covers fits isListed isState)] at ran
    cases ran
    exact (areListed a among).1
  delegated t reader type a reached _ isRead member _ := by
    obtain ⟨e, listed, reads⟩ := closed.covers fits isListed isRead
    obtain ⟨_, _, absent, -⟩ := closed.asks e listed _ reads _ member
    cases absent
  known t a caps reached isState met ran := by
    obtain ⟨e, listed, rfl, rfl⟩ := closed.lookup (closed.covers fits isListed isState)
      (closed.covers fits isListed met.1) ran
    exact closed.shows e listed met.2

end

end Catalogue

end SchemaProbe

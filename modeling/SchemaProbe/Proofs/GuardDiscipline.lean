import SchemaProbe.Proofs.MarkerOrigins
import SchemaProbe.Proofs.ShapeAgreement
import SchemaProbe.Proofs.Tables

namespace SchemaProbe

/-!
# The discipline of the cycle guard

At every moment of a description the types in progress are those that have been entered and
not left.  They are all different, and the depth of the guard counts them, whatever the
types do while they read themselves and wherever they give up.  So each probe leaves the
guard with the types in progress that it found, and a description leaves none.
-/

open Step

namespace CycleGuard

/-- Whether the types in progress are the ones that have been entered and not left, all of
them different, and the depth counts them. -/
structure IsDisciplined (above : List Key) (g : CycleGuard) : Prop where
  depth : g.depth = above.length
  count : (g.entries.countP fun e => e.2.isInProgress) = above.length
  distinct : above.Nodup
  inProgress : ∀ key, g.entries.lookup key = some .inProgress ↔ key ∈ above

/-- Whether no type is in progress. -/
structure IsIdle (g : CycleGuard) : Prop where
  depth : g.depth = 0
  completed : ∀ e ∈ g.entries, e.2.isInProgress = false

/-- Whether a guard differs from another one by types that have been entered and not left,
all of them different and none in progress before. -/
structure HasEntered (start : CycleGuard) (above : List Key) (g : CycleGuard) : Prop where
  depth : g.depth = start.depth + above.length
  distinct : above.Nodup
  new : ∀ key ∈ above, start.entries.lookup key ≠ some .inProgress
  inProgress : ∀ key, g.entries.lookup key = some .inProgress ↔
    key ∈ above ∨ start.entries.lookup key = some .inProgress
  keys : (start.entries.map Prod.fst).Nodup → (g.entries.map Prod.fst).Nodup

section

variable {start g : CycleGuard} {above : List Key} {a : TypeForm}

/-- Nothing has been entered yet. -/
theorem hasEntered_start (start : CycleGuard) : start.HasEntered [] start where
  depth := (Int.add_zero start.depth).symm
  distinct := .nil
  new := nofun
  inProgress key := by simp
  keys unique := unique

/-- A type that is not in progress is entered below those that have been entered. -/
theorem HasEntered.enter
    (entered : start.HasEntered above g)
    (isFree : g.entries.lookup a.identity ≠ some .inProgress) :
    start.HasEntered (a.identity :: above) (g.enter a) where
  depth := by
    change g.depth + 1 = start.depth + ((above.length + 1 : Nat) : Int)
    rw [entered.depth]
    omega
  distinct :=
    List.nodup_cons.mpr ⟨fun isAbove => isFree ((entered.inProgress _).mpr (.inl isAbove)),
      entered.distinct⟩
  new := List.forall_mem_cons.mpr
    ⟨fun before => isFree ((entered.inProgress _).mpr (.inr before)), entered.new⟩
  inProgress key := by
    change (Table.set g.entries a.identity .inProgress).lookup key = some .inProgress ↔ _
    by_cases same : key = a.identity
    · simp [same, Table.lookup_set_self]
    · rw [Table.lookup_set_of_ne _ _ same, entered.inProgress, List.mem_cons, or_iff_right same]
  keys unique := Table.nodup_keys_set (entered.keys unique) _ _

/-- The innermost type is left. -/
theorem HasEntered.complete
    (entered : start.HasEntered (a.identity :: above) g)
    (shape : Shape)
    (value : Value) :
    start.HasEntered above (g.complete a shape value) where
  depth := by
    change g.depth - 1 = start.depth + (above.length : Int)
    rw [entered.depth, List.length_cons]
    omega
  distinct := (List.nodup_cons.mp entered.distinct).2
  new := (List.forall_mem_cons.mp entered.new).2
  inProgress key := by
    change (Table.set g.entries a.identity (.completed shape value)).lookup key =
      some .inProgress ↔ _
    by_cases same : key = a.identity
    · have isNew := (List.forall_mem_cons.mp entered.new).1
      simp [same, Table.lookup_set_self, (List.nodup_cons.mp entered.distinct).1, isNew]
    · rw [Table.lookup_set_of_ne _ _ same, entered.inProgress, List.mem_cons, or_iff_right same]
  keys unique := Table.nodup_keys_set (entered.keys unique) _ _

/-- What has been entered is known whenever a type is entered and left. -/
theorem keeps_hasEntered (start : CycleGuard) : Keeps start.HasEntered where
  enters _ _ _ entered isFree := entered.enter isFree
  leaves _ _ _ shape value entered := entered.complete shape value

/-- A guard has as many types in progress as there are different keys of such types. -/
theorem countP_inProgress
    (unique : (g.entries.map Prod.fst).Nodup)
    (distinct : above.Nodup)
    (inProgress : ∀ key, g.entries.lookup key = some .inProgress ↔ key ∈ above) :
    (g.entries.countP fun e => e.2.isInProgress) = above.length := by
  have distinctToo : ((g.entries.filter fun e => e.2.isInProgress).map Prod.fst).Nodup :=
    (List.filter_sublist.map Prod.fst).nodup unique
  have same : ((g.entries.filter fun e => e.2.isInProgress).map Prod.fst).Perm above := by
    refine (List.perm_ext_iff_of_nodup distinctToo distinct).mpr fun key => ?_
    rw [← inProgress key, List.mem_map]
    constructor
    · rintro ⟨⟨_, entry⟩, member, rfl⟩
      obtain ⟨isEntry, isInProgress⟩ := List.mem_filter.mp member
      cases entry with
      | inProgress => exact Table.lookup_of_mem unique isEntry
      | completed shape placeholder => cases isInProgress
    · intro found
      exact ⟨_, List.mem_filter.mpr ⟨Table.mem_of_lookup found, rfl⟩, rfl⟩
  rw [List.countP_eq_length_filter, ← same.length_eq, List.length_map]

/-- What has been entered into a guard that had met nothing is all that is in progress. -/
theorem HasEntered.isDisciplined
    (entered : empty.HasEntered above g) :
    g.IsDisciplined above := by
  have inProgress (key : Key) : g.entries.lookup key = some .inProgress ↔ key ∈ above := by
    rw [entered.inProgress]
    exact or_iff_left nofun
  exact ⟨by rw [entered.depth, empty, Int.zero_add],
    countP_inProgress (entered.keys .nil) entered.distinct inProgress, entered.distinct, inProgress⟩

/-- A disciplined guard into which nothing has been entered is idle. -/
theorem IsDisciplined.isIdle
    (disciplined : g.IsDisciplined []) :
    g.IsIdle where
  depth := disciplined.depth
  completed e isEntry := by
    have none := List.countP_eq_zero.mp disciplined.count e isEntry
    exact Bool.eq_false_iff.mpr none

end

end CycleGuard

/-! ## Descriptions -/

section

variable {depth : Nat} {a : TypeForm} {path : Path} {s : Store}

/-- An observer that sees nothing wrong does nothing to a description, which leaves no type
in progress unless it runs out of a bound. -/
theorem Observer.Spares.describeTo_alikeAt
    {o : Observer}
    (spares : o.Spares CycleGuard.IsDisciplined)
    (depth : Nat)
    (a : TypeForm)
    (s : Store) :
    AlikeAt (Regime.guarding (CycleGuard.empty.HasEntered [])) anything (o.describeTo depth a)
      (Observer.idle.describeTo depth a) s := by
  have sparesToo : o.Spares CycleGuard.empty.HasEntered := fun above t entered =>
    spares above t entered.isDisciplined
  have probes := sparesToo.probe_alike (CycleGuard.keeps_hasEntered _) depth [] a trivial []
    s.opening (CycleGuard.hasEntered_start _)
  exact (describeThrough_tiedAt (Regime.bond_notes Regime.guarding_notes) probes.tied).alike

/-- An observer that waits for nothing does nothing. -/
theorem Observer.stopping_nothing : Observer.stopping (fun _ => false) = Observer.idle :=
  funext fun above => Observer.stopping_of_none (by simp)

/-- A type is probed without an observer as it is under one that does nothing, unless the
latter runs out of a bound. -/
theorem Observer.idle_probe_tiedAt
    (depth : Nat)
    (a : TypeForm)
    (path : Path)
    (s : Store) :
    TiedAt (Bond.lapsingUnder (CycleGuard.IsClearOf fun _ => false)) (Same anything)
      (Observer.idle.probe depth [] a path) (SchemaProbe.probe depth a path) s s := by
  rw [← Observer.stopping_nothing]
  exact (Observer.stopping_tied depth List.any_nil a trivial path s s ⟨rfl, fun _ _ => rfl⟩).mono
    fun _ _ same => ⟨same.1, trivial⟩

/-- A type is probed in the same way under an observer that does nothing. -/
theorem Observer.idle_probe_run
    (depth : Nat)
    (a : TypeForm)
    (path : Path)
    (s : Store) :
    ((Observer.idle.probe depth [] a path).run s).1 =
        ((SchemaProbe.probe depth a path).run s).1 ∧
      (((SchemaProbe.probe depth a path).run s).1 ≠ .error .exhausted →
        (Observer.idle.probe depth [] a path).run s = (SchemaProbe.probe depth a path).run s) :=
  Bond.lapsing_run (Observer.idle_probe_tiedAt depth a path s)
    (Observer.idle_tied depth [] a trivial path s s ⟨rfl, trivial⟩)

/-- A type is described in the same way under an observer that does nothing. -/
theorem Observer.idle_describeTo_run
    (depth : Nat)
    (a : TypeForm)
    (s : Store) :
    ((Observer.idle.describeTo depth a).run s).1 = ((SchemaProbe.describeTo depth a).run s).1 ∧
      (((SchemaProbe.describeTo depth a).run s).1 ≠ .error .exhausted →
        (Observer.idle.describeTo depth a).run s = (SchemaProbe.describeTo depth a).run s) := by
  have probes := Observer.idle_tied depth [] a trivial [] s.opening s.opening ⟨rfl, trivial⟩
  exact Bond.lapsing_run
    (describeThrough_tiedAt Bond.lapsing_notes (Observer.idle_probe_tiedAt depth a [] s.opening))
    (describeThrough_tiedAt Bond.lapsing_notes probes)

/-- A probe leaves the guard as deep as it was, with the types in progress that were in
progress. -/
theorem probe_hasEntered
    (ended : ((probe depth a path).run s).1 ≠ .error .exhausted) :
    s.guard.HasEntered [] ((probe depth a path).run s).2.guard := by
  have spares : Observer.idle.Spares s.guard.HasEntered := fun _ _ _ => rfl
  have alike := spares.probe_alike (CycleGuard.keeps_hasEntered _) depth [] a trivial path s
    (CycleGuard.hasEntered_start _)
  rw [← (Observer.idle_probe_run depth a path s).2 ended]
  exact alike.holds_run

/-- At every moment of a description the guard is disciplined: an observer that does nothing
where it is makes no difference, and one that does nothing at all sees the description
itself.  A description that comes to an end leaves no type in progress.  A probe that comes
to an end, in whatever way, leaves the guard as deep as it was and the same types in
progress; its shape refers back to types that were in progress and to types that the probe
entered, and to nothing if it is that of a type that was done and is not entered again. -/
theorem describeTo_keepsGuard
    (depth : Nat)
    (a : TypeForm)
    (s : Store) :
    (∀ o : Observer, o.Spares CycleGuard.IsDisciplined →
        (o.describeTo depth a).run s = (Observer.idle.describeTo depth a).run s) ∧
      ((Observer.idle.describeTo depth a).run s).1 = ((describeTo depth a).run s).1 ∧
      (((describeTo depth a).run s).1 ≠ .error .exhausted →
        (Observer.idle.describeTo depth a).run s = (describeTo depth a).run s ∧
          ((describeTo depth a).run s).2.guard.IsIdle) ∧
      ∀ path,
        (((probe depth a path).run s).1 ≠ .error .exhausted →
          ((probe depth a path).run s).2.guard.depth = s.guard.depth ∧
            ∀ b, ((probe depth a path).run s).2.guard.isInProgress b = s.guard.isInProgress b) ∧
        ∀ shape value, ((probe depth a path).run s).1 = .ok (shape, value) →
          (∀ b ∈ shape.markers,
            s.guard.isInProgress b = true ∨ s.Enters depth a path b.identity) ∧
          ∀ caps done standIn, ((lookup .current a).run s).1 = .ok caps →
            s.guard.get? caps.type = some (.completed done standIn) →
              shape.markers = [] ∨ s.Enters depth a path caps.type.identity := by
  obtain ⟨sameOutcome, sameRun⟩ := Observer.idle_describeTo_run depth a s
  refine ⟨fun o spares => (spares.describeTo_alikeAt depth a s).run_eq, sameOutcome,
    fun ended => ⟨sameRun ended, ?_⟩, fun path => ⟨fun ended => ?_, fun shape value probed => ?_⟩⟩
  · have spares : Observer.idle.Spares CycleGuard.IsDisciplined := fun _ _ _ => rfl
    have left := (spares.describeTo_alikeAt depth a s).holds_run
    rw [sameRun ended] at left
    exact left.isDisciplined.isIdle
  · have left := probe_hasEntered ended
    refine ⟨by rw [left.depth, List.length_nil, Int.natCast_zero, Int.add_zero], fun b => ?_⟩
    rw [Bool.eq_iff_iff, CycleGuard.isInProgress_iff, CycleGuard.isInProgress_iff, left.inProgress]
    exact or_iff_right List.not_mem_nil
  · exact ⟨fun b isMarker => Store.enters_of_mem_markers probed isMarker,
      fun caps done standIn found isDone => Store.markers_of_completed found isDone probed⟩

end

end SchemaProbe

import SchemaProbe.Lookup
import SchemaProbe.Proofs.EventLog
import SchemaProbe.Proofs.Tied

namespace SchemaProbe

/-!
# Looking up side by side

Looking up a type asks the registry for the type, for the type without its notes and
for its class, and finds out and remembers what is not known.  So types are looked up
in the same way from states that are tied if the registries know the same of these
types, remembering keeps the states tied, and the same is found out about classes.
-/

open Step

/-- The class whose cases are listed when a type form is looked up. -/
def TypeForm.listed? : TypeForm → Option ClassRef
  | .annotated inner _ => inner.listed?
  | .cls c | .generic (.cls c) _ => some c
  | .bare b => some (.builtin b)
  | .callable _ _ => some (.builtin .callable)
  | _ => none

/-- The type forms that the registry may be asked for when a type form is looked up. -/
def TypeForm.lookedUp : TypeForm → List TypeForm
  | .annotated inner notes => .annotated inner notes :: inner.lookedUp
  | a => a :: a.listed?.toList.map .cls

theorem TypeForm.mem_lookedUp_self (a : TypeForm) : a ∈ a.lookedUp := by
  cases a <;> exact List.mem_cons_self

theorem TypeForm.cls_mem_lookedUp
    {a : TypeForm}
    {c : ClassRef}
    (listed : a.listed? = some c)
    (bare : ∀ inner notes, a ≠ .annotated inner notes) :
    .cls c ∈ a.lookedUp := by
  rw [TypeForm.lookedUp, listed]
  · exact List.mem_cons_of_mem _ List.mem_cons_self
  · exact bare

/-! ## Registries side by side -/

/-- Whether the registries of two states are related, one by one. -/
structure Store.RelatesBy
    (related : CapabilityRegistry → CapabilityRegistry → Prop)
    (s t : Store) :
    Prop where
  shared : related s.shared t.shared
  own : Option.Rel related s.own t.own

section

variable {related : CapabilityRegistry → CapabilityRegistry → Prop} {s t : Store}
  {change other : CapabilityRegistry → CapabilityRegistry}

/-- The registries that are asked are related. -/
theorem Store.RelatesBy.registry
    (relates : s.RelatesBy related t)
    (scope : Scope) :
    related (s.registry scope) (t.registry scope) := by
  cases scope with
  | shared => exact relates.shared
  | current =>
      have owns := relates.own
      unfold Store.registry
      dsimp only
      generalize s.own = own, t.own = otherOwn at owns
      cases owns with
      | none => exact relates.shared
      | some isRelated => exact isRelated

/-- Changing both registries that are asked keeps them related. -/
theorem Store.RelatesBy.changeRegistry
    (relates : s.RelatesBy related t)
    (scope : Scope)
    (keeps : ∀ r r', related r r' → related (change r) (other r')) :
    (s.changeRegistry scope change).RelatesBy related (t.changeRegistry scope other) := by
  obtain ⟨w, shared, own, guard, events⟩ := s
  obtain ⟨w', shared', own', guard', events'⟩ := t
  obtain ⟨shares, owns⟩ := relates
  cases scope with
  | shared => exact ⟨keeps _ _ shares, owns⟩
  | current =>
      dsimp only at owns
      cases owns with
      | none => exact ⟨keeps _ _ shares, .none⟩
      | some isRelated => exact ⟨shares, .some (keeps _ _ isRelated)⟩

/-- Changing a registry declares nothing. -/
@[simp]
theorem Store.world_changeRegistry
    (s : Store)
    (scope : Scope)
    (change : CapabilityRegistry → CapabilityRegistry) :
    (s.changeRegistry scope change).world = s.world := by
  cases owns : s.own <;> cases scope <;> simp [changeRegistry, owns]

/-- Changing a registry is no news to the guard. -/
@[simp]
theorem Store.guard_changeRegistry
    (s : Store)
    (scope : Scope)
    (change : CapabilityRegistry → CapabilityRegistry) :
    (s.changeRegistry scope change).guard = s.guard := by
  cases owns : s.own <;> cases scope <;> simp [changeRegistry, owns]

end

/-! ## What is found out -/

/-- Whether noting the same keeps states tied. -/
def Bond.Notes (B : Bond Store Store) : Prop :=
  ∀ s t e, B.ties s t →
    B.ties (s.withEvents (s.events ++ [e])) (t.withEvents (t.events ++ [e]))

/-- Noting something ends tied to itself. -/
theorem note_tied
    {B : Bond Store Store}
    (notes : B.Notes)
    (e : Event) :
    Tied B (Same anything) (Step.note e) (Step.note e) :=
  .update fun s t ties => notes s t e ties

/-- Whether states that are tied know of the types in sight what belongs together, and
stay tied when such is remembered. -/
structure Bond.Looks
    (B : Bond Store Store)
    (good : Capabilities → Capabilities → Prop)
    (visible : TypeForm → Prop) :
    Prop where
  surface : ∀ f, f.kind = .surface → B.allows (.fault f)
  notes : B.Notes
  plain : ∀ caps, caps.schema = none → good caps caps
  retyped : ∀ caps other a name, good caps other →
    good { caps with type := a, name := name } { other with type := a, name := name }
  lacking : ∀ caps other, good caps other →
    other.lacksReader = caps.lacksReader ∧ other.name = caps.name
  labels : ∀ s t, B.ties s t → t.world.label = s.world.label
  known : ∀ s t scope a, visible a → B.ties s t →
    Option.Rel good ((s.registry scope).find? a) ((t.registry scope).find? a)
  remembers : ∀ s t scope a caps other, visible a → B.ties s t → good caps other →
    B.ties (s.changeRegistry scope fun r => r.remember a caps)
      (t.changeRegistry scope fun r => r.remember a other)

section

variable {B : Bond Store Store} {good : Capabilities → Capabilities → Prop}
  {visible : TypeForm → Prop}

/-- What is found out is remembered in the same way. -/
theorem remembered_tied
    {a : TypeForm}
    {resolve : Step Store Capabilities}
    (looks : B.Looks good visible)
    (scope : Scope)
    (isVisible : visible a)
    (resolves : Tied B good resolve resolve) :
    Tied B good (remembered scope a resolve) (remembered scope a resolve) := by
  unfold remembered
  refine .current_bind fun s t ties => ?_
  have known := looks.known s t scope a isVisible ties
  generalize (s.registry scope).find? a = found, (t.registry scope).find? a = otherFound at known ⊢
  cases known with
  | some isGood => exact .pure ties isGood
  | none =>
      refine (resolves s t ties).bind fun caps other reached later reachedTies isGood => ?_
      exact .ok rfl rfl (looks.remembers reached later scope a caps other isVisible reachedTies isGood)
        isGood

/-- A class is looked up in the same way. -/
theorem lookupClass_tied
    {c : ClassRef}
    (looks : B.Looks good visible)
    (scope : Scope)
    (isVisible : visible (.cls c))
    (finds : Tied B good (inWorld (classCapabilities c)) (inWorld (classCapabilities c))) :
    Tied B good (lookupClass scope c) (lookupClass scope c) := by
  refine remembered_tied looks scope isVisible ?_
  split
  · exact .pure (looks.plain _ rfl)
  · refine finds.bind fun caps other isGood => ?_
    obtain ⟨lacks, name⟩ := looks.lacking caps other isGood
    rw [lacks, name]
    split
    · exact (note_tied looks.notes _).bind_same fun _ _ => .pure isGood
    · exact .pure isGood

/-- What applies something to arguments is found out in the same way. -/
theorem resolveApplied_tied
    {origin : Origin}
    (looks : B.Looks good visible)
    (scope : Scope)
    (a : TypeForm)
    (classes : ∀ c, origin = .cls c → Tied B good (lookupClass scope c) (lookupClass scope c))
    (args : List TypeForm) :
    Tied B good (resolveApplied scope a origin args) (resolveApplied scope a origin args) := by
  have asOrigin (c : ClassRef) (isOrigin : origin = .cls c) :
      Tied B good (resolveApplied.asOrigin scope a c) (resolveApplied.asOrigin scope a c) :=
    (classes c isOrigin).bind fun caps other isGood =>
      .pure (looks.retyped caps other a a.schemaName isGood)
  have unread (reader : Reader) (placeholder : Value) :
      Tied B good (pure (.readBy a reader placeholder)) (pure (.readBy a reader placeholder)) :=
    .pure (looks.plain _ rfl)
  unfold resolveApplied
  split
  · split
    · exact unread _ _
    · split
      · exact unread _ _
      · split
        · exact unread _ _
        · exact asOrigin _ rfl
  · exact asOrigin _ rfl
  · exact .fail (looks.surface _ rfl)

/-- A type form without notes is found out about in the same way. -/
theorem resolveBare_tied
    {a : TypeForm}
    (looks : B.Looks good visible)
    (scope : Scope)
    (classes : ∀ c, a.listed? = some c → Tied B good (lookupClass scope c) (lookupClass scope c)) :
    Tied B good (resolveBare scope a) (resolveBare scope a) := by
  unfold resolveBare
  split
  · exact .pure (looks.plain _ rfl)
  · exact .pure (looks.plain _ rfl)
  · exact classes _ rfl
  · exact .fail (looks.surface _ rfl)
  · exact .fail (looks.surface _ rfl)
  · refine .pure (looks.plain _ ?_)
    unfold unionCapabilities
    split <;> rfl
  · refine .current_bind fun s t ties => .pure ties ?_
    rw [literalCapabilities, literalCapabilities, looks.labels s t ties]
    exact looks.plain _ rfl
  · exact resolveApplied_tied looks scope _ (fun _ same => classes _ (by cases same; rfl)) _
  · exact resolveApplied_tied looks scope _ (fun _ same => classes _ (by cases same; rfl)) _
  · exact resolveApplied_tied looks scope _ (fun _ same => classes _ (by cases same; rfl)) _
  · exact .fail (looks.surface _ rfl)

/-- A type is looked up in the same way if what it asks the registry for is in sight and
the same is found out about its class. -/
theorem lookup_tied
    {a : TypeForm}
    (looks : B.Looks good visible)
    (scope : Scope)
    (inSight : ∀ b ∈ a.lookedUp, visible b)
    (finds : ∀ c, a.listed? = some c →
      Tied B good (inWorld (classCapabilities c)) (inWorld (classCapabilities c))) :
    Tied B good (lookup scope a) (lookup scope a) := by
  have isVisible : visible a := inSight a a.mem_lookedUp_self
  induction a using lookup.induct with
  | case1 inner notes inductionHypothesis =>
      rw [lookup]
      rw [TypeForm.lookedUp, List.forall_mem_cons] at inSight
      exact remembered_tied looks scope isVisible
        (inductionHypothesis inSight.2 finds (inSight.2 inner inner.mem_lookedUp_self))
  | case2 a bare =>
      rw [lookup]
      · refine remembered_tied looks scope isVisible (resolveBare_tied looks scope fun c listed => ?_)
        exact lookupClass_tied looks scope
          (inSight _ (TypeForm.cls_mem_lookedUp listed fun inner notes => bare inner notes))
          (finds c listed)
      · exact bare

end

end SchemaProbe

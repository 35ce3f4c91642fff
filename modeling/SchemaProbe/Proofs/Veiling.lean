import SchemaProbe.Proofs.KnownShape
import SchemaProbe.Proofs.Requesting
import SchemaProbe.Proofs.ShownTypes

namespace SchemaProbe

/-!
# Types out of sight

Two states can know different things of a few types and still be the same to everything
that does not ask for these.  Type forms that are looked up without asking for a hidden
type are looked up in the same way, what is written resolves in the same way, and so the
types of a shape are known in the same way if no node of it shows a hidden type.
-/

open Step

/-- Whether no type is asked for under a hidden key when a type form is looked up. -/
def TypeForm.Avoids (hidden : Key → Prop) (a : TypeForm) : Prop :=
  ∀ b ∈ a.lookedUp, ¬ hidden b.identity

theorem TypeForm.Avoids.self
    {hidden : Key → Prop}
    {a : TypeForm}
    (avoids : a.Avoids hidden) :
    ¬ hidden a.identity :=
  avoids a a.mem_lookedUp_self

/-! ## States that know the same of types in sight -/

/-- Whether two registries know the same of all types but hidden ones. -/
def CapabilityRegistry.SameBut (hidden : Key → Prop) (r other : CapabilityRegistry) : Prop :=
  ∀ a, ¬ hidden a.identity → other.find? a = r.find? a

/-- Whether two states declare the same and know the same of all types but hidden
ones. -/
structure Store.SameBut (hidden : Key → Prop) (s t : Store) : Prop where
  world : t.world = s.world
  registries : s.RelatesBy (CapabilityRegistry.SameBut hidden) t

/-- Whether a key is that of one of two types. -/
def Capabilities.Hides (first second : Capabilities) (key : Key) : Prop :=
  key = first.type.identity ∨ key = second.type.identity

/-- Whether two states are the same but for what they know of two types: the first state
what is known of the first type, and the second of the second. -/
structure Store.Veils
    (first second : Capabilities)
    (guards : CycleGuard → CycleGuard → Prop)
    (s t : Store) :
    Prop where
  same : s.SameBut (first.Hides second) t
  first : (s.registry .current).find? first.type = some first
  second : (t.registry .current).find? second.type = some second
  guard : guards s.guard t.guard

/-- The bond of states that are the same but for what they know of two types. -/
def Store.veiling
    (first second : Capabilities)
    (guards : CycleGuard → CycleGuard → Prop) :
    Bond Store Store where
  ties := Store.Veils first second guards
  allows _ := True
  lapses := False

section

variable {hidden : Key → Prop} {first second : Capabilities}
  {guards : CycleGuard → CycleGuard → Prop} {s t : Store} {a : TypeForm}

/-- Remembering the same keeps registries the same but for hidden types. -/
theorem CapabilityRegistry.SameBut.remember
    {r other : CapabilityRegistry}
    (same : r.SameBut hidden other)
    (a : TypeForm)
    (caps : Capabilities) :
    (r.remember a caps).SameBut hidden (other.remember a caps) := by
  intro b isVisible
  by_cases isKey : b.identity = a.identity
  · rw [Store.find?_remember_self _ _ isKey, Store.find?_remember_self _ _ isKey]
  · rw [Store.find?_remember_of_ne _ _ isKey, Store.find?_remember_of_ne _ _ isKey]
    exact same b isVisible

/-- Remembering something of a type changes nothing about another one. -/
theorem Store.find?_remembering
    {b : TypeForm}
    (s : Store)
    (scope : Scope)
    (caps : Capabilities)
    (different : b.identity ≠ a.identity) :
    ((s.changeRegistry scope fun r => r.remember a caps).registry .current).find? b =
      (s.registry .current).find? b := by
  obtain ⟨w, shared, own, guard, events⟩ := s
  cases scope <;> cases own <;> first | rfl | exact find?_remember_of_ne _ _ different

/-- What is noted beside, and guards that are related, leave states the same but for two
types. -/
theorem Store.Veils.beside
    {otherGuards : CycleGuard → CycleGuard → Prop}
    {g h : CycleGuard}
    (veils : Store.Veils first second guards s t)
    (events others : List Event)
    (related : otherGuards g h) :
    Store.Veils first second otherGuards (s.beside events g) (t.beside others h) :=
  ⟨⟨veils.same.world, veils.same.registries.shared, veils.same.registries.own⟩, veils.first,
    veils.second, related⟩

/-- Types in sight are looked up in states that are the same but for two types. -/
theorem Store.veiling_looks :
    (Store.veiling first second guards).Looks Eq fun a => ¬ first.Hides second a.identity where
  surface _ _ := trivial
  notes _ _ _ veils := veils.beside _ _ veils.guard
  plain _ _ := rfl
  retyped _ _ _ _ same := by rw [same]
  lacking _ _ same := by rw [same]; exact ⟨rfl, rfl⟩
  labels _ _ veils := by rw [veils.same.world]
  known _ _ scope a isVisible veils := by
    rw [veils.same.registries.registry scope a isVisible]
    generalize CapabilityRegistry.find? _ a = found
    cases found with
    | none => exact .none
    | some caps => exact .some rfl
  remembers s t scope a caps _ isVisible veils same := by
    subst same
    refine ⟨⟨?_, veils.same.registries.changeRegistry scope fun _ _ same => same.remember a caps⟩,
      ?_, ?_, ?_⟩
    · rw [world_changeRegistry, world_changeRegistry, veils.same.world]
    · rw [s.find?_remembering scope caps fun isKey => isVisible (.inl isKey.symm)]
      exact veils.first
    · rw [t.find?_remembering scope caps fun isKey => isVisible (.inr isKey.symm)]
      exact veils.second
    · rw [guard_changeRegistry, guard_changeRegistry]
      exact veils.guard

/-- What is done to the declared classes is done to the same ones. -/
theorem inWorld_veiled (step : Step World α) :
    Tied (Store.veiling first second guards) (Same anything) (inWorld step) (inWorld step) :=
  (Tied.refl step).within (fun _ _ veils => veils.same.world.symm)
    (fun _ _ _ _ veils same =>
      ⟨⟨same.symm, veils.same.registries.shared, veils.same.registries.own⟩, veils.first,
        veils.second, veils.guard⟩)
    (fun _ _ => trivial) False.elim

/-- The same is found out about classes and their fields. -/
theorem Store.veiling_findsOut : (Store.veiling first second guards).FindsOut where
  types _ := inWorld_veiled _
  values _ := inWorld_veiled _
  plans _ := inWorld_veiled _
  endless := trivial

/-- A type form that avoids both types is looked up in the same way. -/
theorem lookup_veiled
    (avoids : a.Avoids (first.Hides second))
    (scope : Scope) :
    Tied (Store.veiling first second guards) Eq (lookup scope a) (lookup scope a) :=
  lookup_tied Store.veiling_looks scope avoids fun _ _ =>
    (inWorld_veiled _).mono fun _ _ same => same.1

/-! ## Shapes whose types are known in the same way -/

/-- No type need avoid anything where there is none. -/
theorem untyped
    {hidden : Key → Prop}
    (a : TypeForm)
    (absent : none = some a) :
    a.Avoids hidden := by
  cases absent

/-- The capabilities of a type that avoids both types are found in the same way. -/
theorem lookup?_veiled (avoids : a.Avoids (first.Hides second)) :
    Tied (Store.veiling first second guards) (Same anything) (lookup? a) (lookup? a) := by
  refine (lookup_veiled avoids .current).attempt_bind (fun caps other same => ?_) fun f => ?_
  · rw [same]
    exact .pure_same trivial
  · dsimp only
    split
    · exact .pure_same trivial
    · exact .fail trivial

/-- A node whose type avoids both types is known in the same way if its parts are. -/
theorem knowNode_veiled
    {type : Option TypeForm}
    {structural : Option Capabilities → Step Store KnownShape}
    (config : SchemaConfig)
    (avoids : ∀ a, type = some a → a.Avoids (first.Hides second))
    (inside : ∀ record, Tied (Store.veiling first second guards) (Same anything)
      (structural record) (structural record)) :
    Tied (Store.veiling first second guards) (Same anything) (knowNode config type structural)
      (knowNode config type structural) := by
  have found : Tied (Store.veiling first second guards) (Same anything) (lookupOptional type)
      (lookupOptional type) := by
    cases type with
    | none => exact .pure_same trivial
    | some a => exact lookup?_veiled (avoids a rfl)
  refine found.bind_same fun record _ => ?_
  cases record with
  | none => exact inside none
  | some caps =>
      dsimp only
      split
      · refine .current_bind fun s t veils => ?_
        rw [veils.same.world]
        exact .pure veils ⟨rfl, trivial⟩
      · split
        · exact (inWorld_veiled _).bind_same fun _ _ => .pure_same trivial
        · exact inside (some caps)

mutual

/-- The types of a shape that avoid both types are known in the same way. -/
theorem Shape.know_veiled
    {given : Option TypeForm}
    (config : SchemaConfig)
    (avoids : ∀ a, given = some a → a.Avoids (first.Hides second))
    (shape : Shape)
    (shows : shape.Shows (·.Avoids (first.Hides second)) (·.Avoids (first.Hides second))) :
    Tied (Store.veiling first second guards) (Same anything) (shape.know config given)
      (shape.know config given) := by
  have either {type : Option TypeForm}
      (isVisible : ∀ a, type = some a → a.Avoids (first.Hides second)) (a : TypeForm)
      (isType : type.or given = some a) :
      a.Avoids (first.Hides second) := by
    cases type with
    | none => exact avoids a isType
    | some other => exact isVisible a isType
  cases shows with
  | @single h kind isVisible =>
      rw [Shape.know]
      exact knowNode_veiled config (either isVisible) fun _ => .pure_same trivial
  | @keyed h isFixed fields isVisible inner =>
      cases isFixed with
      | true =>
          rw [Shape.know]
          exact knowNode_veiled config (either isVisible) fun _ =>
            (Shape.knowFields_veiled config fields inner).bind_same fun _ _ => .pure_same trivial
      | false =>
          cases fields with
          | nil =>
              rw [Shape.know]
              exact knowNode_veiled config (either isVisible) fun _ => .pure_same trivial
          | cons field rest =>
              obtain ⟨name, value⟩ := field
              rw [Shape.know]
              refine knowNode_veiled config (either isVisible) fun _ => ?_
              exact (Shape.know_veiled config untyped value (inner _ List.mem_cons_self)).bind_same
                fun _ _ => .pure_same trivial
  | @unkeyed h element isVisible inner =>
      rw [Shape.know]
      refine knowNode_veiled config (either isVisible) fun _ => ?_
      exact (Shape.know_veiled config untyped element inner).bind_same fun _ _ => .pure_same trivial
  | recursive isVisible isMarker =>
      rw [Shape.know]
      refine knowNode_veiled config (either isVisible) fun _ => ?_
      exact (lookup?_veiled isMarker).bind_same fun _ _ => .pure_same trivial
  | unconstrained isVisible =>
      rw [Shape.know]
      exact knowNode_veiled config (either isVisible) fun _ => .pure_same trivial
termination_by structural shape

/-- The types of fields that avoid both types are known in the same way. -/
theorem Shape.knowFields_veiled
    (config : SchemaConfig)
    (fields : List (String × Shape))
    (shows : ∀ e ∈ fields, e.2.Shows (·.Avoids (first.Hides second)) (·.Avoids (first.Hides second))) :
    Tied (Store.veiling first second guards) (Same anything) (Shape.knowFields config fields)
      (Shape.knowFields config fields) := by
  cases fields with
  | nil => exact .pure_same trivial
  | cons field rest =>
      obtain ⟨name, shape⟩ := field
      rw [Shape.knowFields]
      refine (Shape.know_veiled config untyped shape (shows _ List.mem_cons_self)).bind_same
        fun _ _ => ?_
      exact (Shape.knowFields_veiled config rest
        fun e member => shows e (List.mem_cons_of_mem _ member)).bind_same
          fun _ _ => .pure_same trivial
termination_by structural fields

end

end

end SchemaProbe

import SchemaProbe.Proofs.Catalogues
import SchemaProbe.Proofs.KeepingClear
import SchemaProbe.Proofs.Sources
import SchemaProbe.Proofs.Styles

namespace SchemaProbe

/-!
# Classes with the same fields are described alike

Two classes with the same fields make the same requests, whatever the styles in which they
are declared.  So the two descriptions go side by side from states that know the same of
all types but these two, as long as nothing that is met below asks for one of them: the
trees differ in the type of their roots alone, and the same object schema is made of both.
-/

open Step

/-! ## What survives probing holds of all that is found -/

section

variable {start : Store} {root : TypeForm} {s : Store}

/-- What survives probing holds of the states that describing a type finds. -/
theorem Regime.Persists.holds_of_finds
    {R : Regime Store}
    {w : World}
    (persists : R.Persists w)
    (holds : R.holds start)
    (found : start.Finds root (.state s)) :
    R.holds s := by
  generalize isState : Finding.state s = finding at found
  induction found generalizing s with
  | start =>
      cases isState
      exact holds
  | beside _ inductionHypothesis =>
      cases isState
      exact persists.besides _ _ _ (inductionHypothesis rfl)
  | lookup _ _ inductionHypothesis _ =>
      cases isState
      exact (persists.lookups .current _ _ (inductionHypothesis rfl)).holds_run
  | search _ _ member inductionHypothesis _ =>
      cases isState
      exact (persists.reads _ trivial _ member _ (inductionHypothesis rfl)).holds_run
  | delegation _ _ member inductionHypothesis _ =>
      cases isState
      exact (persists.reads _ trivial _ member _ (inductionHypothesis rfl)).holds_run
  | _ => cases isState

/-- A class of a style stays declared once while a type is described. -/
theorem Store.Finds.declaresOnce
    {style : FieldStyle}
    {c : UserClass}
    {specs : List FieldSpec}
    (found : start.Finds root (.state s))
    (declares : start.world.DeclaresOnce (style.record c specs)) :
    s.world.DeclaresOnce (style.record c specs) :=
  have nothing : start.world.Reaches start.world := .start
  have reaches : start.world.Reaches s.world :=
    World.leading_survives.persists.holds_of_finds nothing found
  reaches.declaresOnce declares (FieldStyle.isSettled_record style c specs)

end

/-! ## Fields are asked for in the same way -/

section

variable {σ : Type} {B : Bond Store Store} {keeps : σ → Prop} {first second : Surface σ}
  {container : Handle} {specs : List FieldSpec} {part opened : σ} {s t : Store}

/-- A class of a style reads itself by opening a container, reading its fields and making
an instance. -/
theorem World.DeclaresOnce.run_fields
    {style : FieldStyle}
    {c : UserClass}
    {decoder : Handle}
    (declares : s.world.DeclaresOnce (style.record c specs))
    (arePlain : ∀ spec ∈ specs, spec.IsPlain)
    (opens : (first.openHandle decoder .openKeyed).run (part, s) = (.ok container, opened, s)) :
    ((Reader.fields (.user c)).run first decoder).run (part, s) =
      (readFields first container (specs.map (·.plan style)) [] >>= fun values => do
        Step.ofExcept ((← Step.current).2.world.construct? (.user c) values)).run (opened, s) := by
  have planned : (inWorld (SchemaProbe.decodingPlans (.user c))).run s =
      (.ok (specs.map (·.plan style)), s) := by
    rw [inWorld, run_within, declares.decodingPlans arePlain]
  rw [run_eq_runWith, Reader.runWith, run_bind_of_ok (run_shared_of_ok planned part),
    run_bind_of_ok opens]

/-- The fields of a class are read in the same way in every style, if their requests are
answered in the same way. -/
theorem readFields_styles
    (style other : FieldStyle)
    (asks : ∀ spec ∈ specs, Tied (B.alongside keeps) (Same anything)
      (first.value container (spec.plan other).request)
      (second.value container (spec.plan other).request)) :
    Tied (B.alongside keeps) (fun _ _ => True)
      (readFields first container (specs.map (·.plan style)) [])
      (readFields second container (specs.map (·.plan other)) []) := by
  have answers : Tied (B.alongside keeps) (Same anything)
      (Step.each (fun p : FieldPlan => first.value container p.request) (specs.map (·.plan style)))
      (Step.each (fun p : FieldPlan => second.value container p.request)
        (specs.map (·.plan other))) := by
    induction specs with
    | nil => exact .pure_same trivial
    | cons spec rest inductionHypothesis =>
        obtain ⟨isAsked, restAsked⟩ := List.forall_mem_cons.mp asks
        exact isAsked.bind_same fun _ _ =>
          (inductionHypothesis restAsked).bind_same fun _ _ => .pure_same trivial
  rw [readFields_eq, readFields_eq]
  exact answers.bind_same fun _ _ => .pure trivial

/-- Making an instance leaves the state alone. -/
theorem leavesAlone_construct
    (c : ClassRef)
    (values : List (String × Value)) :
    LeavesAlone (do Step.ofExcept ((← Step.current).2.world.construct? c values) :
      Step (σ × Store) Value) :=
  fun s => ⟨_, (run_bind_of_ok (run_current s) _).trans (run_ofExcept _ s), mapError_ne_exhausted _⟩

/-- Two classes with the same fields come to an end of their reading in states that are
tied, if their requests are answered in the same way. -/
theorem World.DeclaresOnce.stopTiedAt
    {style other : FieldStyle}
    {c d : UserClass}
    {decoder : Handle}
    (declares : s.world.DeclaresOnce (style.record c specs))
    (otherDeclares : t.world.DeclaresOnce (other.record d specs))
    (arePlain : ∀ spec ∈ specs, spec.IsPlain)
    (opens : (first.openHandle decoder .openKeyed).run (part, s) = (.ok container, opened, s))
    (otherOpens : (second.openHandle decoder .openKeyed).run (part, t) =
      (.ok container, opened, t))
    (asks : ∀ spec ∈ specs, Tied (B.alongside keeps) (Same anything)
      (first.value container (spec.plan other).request)
      (second.value container (spec.plan other).request))
    (isKept : keeps opened)
    (ties : B.ties s t) :
    StopTiedAt (B.alongside keeps) ((Reader.fields (.user c)).run first decoder)
      ((Reader.fields (.user d)).run second decoder) (part, s) (part, t) := by
  have reads : StopTiedAt (B.alongside keeps)
      (readFields first container (specs.map (·.plan style)) [] >>= fun values => do
        Step.ofExcept ((← Step.current).2.world.construct? (.user c) values))
      (readFields second container (specs.map (·.plan other)) [] >>= fun values => do
        Step.ofExcept ((← Step.current).2.world.construct? (.user d) values))
      (opened, s) (opened, t) :=
    (readFields_styles style other asks (opened, s) (opened, t) ⟨⟨rfl, isKept⟩, ties⟩).stops_bind
      (fun values => leavesAlone_construct (.user c) values)
      fun values => leavesAlone_construct (.user d) values
  refine reads.congr ?_ ?_
  · exact declares.run_fields arePlain opens
  · exact otherDeclares.run_fields arePlain otherOpens

end

/-! ## What the surfaces of a probe keep -/

section

variable {B : Bond Store Store} {met : TypeForm → Prop} {first second : NestedProbe}
  {fine : Shape → Prop} {visible referred : TypeForm → Prop} {r : Recording} {plan : FieldPlan}

/-- Whether a recording holds the fields of one container, and shapes that are fine. -/
def Recording.HoldsFields (fine : Shape → Prop) (r : Recording) : Prop :=
  r.IsFine fine ∧ ∃ fields, r = .opened (.keyed fields []) true

/-- What is put into the container is one more field. -/
theorem Recording.HoldsFields.put
    {shape : Shape}
    (holds : r.HoldsFields fine)
    (isFine : fine shape)
    (key : String) :
    (r.change 1 (·.put key (.shape shape))).HoldsFields fine := by
  obtain ⟨allFine, fields, rfl⟩ := holds
  exact ⟨allFine.change (Node.records_put key fun _ => Item.isFine_shape isFine) 1, _, rfl⟩

/-- The fields of one container are the same whatever type they are finished as. -/
theorem Recording.HoldsFields.finish
    (holds : r.HoldsFields (Shape.Shows visible referred)) :
    ∃ fields, (∀ e ∈ fields, e.2.Shows visible referred) ∧
      ∀ type, r.finish type [] = .keyed (.of type) true fields := by
  obtain ⟨allFine, items, rfl⟩ := holds
  let fields := items.map fun e : String × Option Item =>
    (e.1, Recording.finishItem (.opened (.keyed items []) true) ([] : List Path).contains 2 e.2
      ([] ++ [.key e.1]))
  have finished (type : Option TypeForm) :
      (Recording.opened (.keyed items []) true).finish type [] = .keyed (.of type) true fields :=
    rfl
  have untyped : ∀ a, (none : Option TypeForm) = some a → visible a := by
    intro a absent
    cases absent
  have shows := allFine.shows_finish untyped []
  rw [finished] at shows
  cases shows with
  | keyed _ inner => exact ⟨fields, inner, finished⟩

/-- The request for a field is recorded in the same way if its type is found in the same
way. -/
theorem recorder_asks
    (optionals : ∀ shape, fine shape → fine (shape.optional true))
    (nested : NestedTied B met first second fine)
    (path : Path)
    (isMet : met plan.requested) :
    Tied (B.alongside (Recording.HoldsFields fine)) (Same anything)
      ((recorder first).value (.keyed path 1) plan.request)
      ((recorder second).value (.keyed path 1) plan.request) := by
  have puts {shape : Shape} (isFine : fine shape) (key : String) :
      Tied (B.alongside (Recording.HoldsFields fine)) (Same anything)
        (Recorder.change 1 (·.put key (.shape shape)))
        (Recorder.change 1 (·.put key (.shape shape))) :=
    .own_update _ fun _ holds => holds.put isFine key
  unfold FieldPlan.requested at isMet
  unfold FieldPlan.request
  split at isMet
  · rename_i isOptional
    rw [if_pos isOptional]
    have answers : Tied (B.alongside (Recording.HoldsFields fine)) (Same anything)
        (Recorder.onKeyed first (.keyed path 1) (.decodeIfPresent plan.inner (some plan.key)))
        (Recorder.onKeyed second (.keyed path 1) (.decodeIfPresent plan.inner (some plan.key))) :=
      (nested _ isMet _).shared.bind_same fun _ isFine =>
        (puts (optionals _ isFine) plan.key).bind_same fun _ _ => .pure_same trivial
    exact answers.bind_same fun _ _ => .pure_same trivial
  · rename_i isRequired
    rw [if_neg isRequired]
    have answers : Tied (B.alongside (Recording.HoldsFields fine)) (Same anything)
        (Recorder.onKeyed first (.keyed path 1) (.decode plan.form (some plan.key)))
        (Recorder.onKeyed second (.keyed path 1) (.decode plan.form (some plan.key))) :=
      (nested _ isMet _).shared.bind_same fun _ isFine =>
        (puts isFine plan.key).bind_same fun _ _ => .pure_same trivial
    exact answers.bind_same fun _ _ => .pure_same trivial

/-- The request for a field opens no container for any key. -/
theorem keyChecker_asks
    (placeholders : ∀ a, met a → Tied B (Same anything) (placeholderOf a) (placeholderOf a))
    (isMet : met plan.requested) :
    Tied (B.alongside fun check : KeyCheck => check.openPaths = []) (Same anything)
      ((keyChecker placeholderOf).value (.keyed [] 0) plan.request)
      ((keyChecker placeholderOf).value (.keyed [] 0) plan.request) := by
  unfold FieldPlan.requested at isMet
  unfold FieldPlan.request
  split at isMet
  · rename_i isOptional
    rw [if_pos isOptional]
    exact .pure_same trivial
  · rename_i isRequired
    rw [if_neg isRequired]
    have answers : Tied (B.alongside fun check : KeyCheck => check.openPaths = []) (Same anything)
        (KeyChecker.onKeyed placeholderOf (.keyed [] 0) (.decode plan.form (some plan.key)))
        (KeyChecker.onKeyed placeholderOf (.keyed [] 0) (.decode plan.form (some plan.key))) :=
      (placeholders _ isMet).shared.bind_same fun _ _ => .pure_same trivial
    exact answers.bind_same fun _ _ => .pure_same trivial

end

/-! ## Two classes with the same fields -/

/-- Whether a class with fields is declared once, in a style, and nothing else is known of
it than what is found out about it. -/
structure Store.HasClass
    (s : Store)
    (style : FieldStyle)
    (c : UserClass)
    (specs : List FieldSpec) :
    Prop where
  declares : s.world.DeclaresOnce (style.record c specs)
  known : ∀ caps, (s.registry .current).find? (.cls (.user c)) = some caps →
    caps = fieldsCapabilities c

/-- A class that is declared once has its fields where nothing is known of it yet. -/
theorem Store.HasClass.of_unknown
    {s : Store}
    {style : FieldStyle}
    {c : UserClass}
    {specs : List FieldSpec}
    (declares : s.world.DeclaresOnce (style.record c specs))
    (unknown : (s.registry .current).find? (.cls (.user c)) = none) :
    s.HasClass style c specs :=
  ⟨declares, fun _ found => by rw [unknown] at found; cases found⟩

/-- Whether a state has come to know what is found out about a class, and nothing else is
known differently. -/
structure Store.Knowing (s : Store) (c : UserClass) (reached : Store) : Prop where
  found : (reached.registry .current).find? (.cls (.user c)) = some (fieldsCapabilities c)
  world : reached.world = s.world
  guard : reached.guard = s.guard
  others : s.RelatesBy
    (CapabilityRegistry.SameBut (· = (TypeForm.cls (.user c)).identity)) reached

section

variable {s t u reached later : Store} {style other : FieldStyle} {c d : UserClass}
  {specs : List FieldSpec}

/-- Looking up a class with fields finds what it is known for. -/
theorem Store.HasClass.lookup (has : s.HasClass style c specs) :
    ∃ reached, (SchemaProbe.lookup .current (.cls (.user c))).run s =
      (.ok (fieldsCapabilities c), reached) ∧ s.Knowing c reached := by
  have resolved : (resolveClass (.user c)).run s = (.ok (fieldsCapabilities c), s) := by
    have found : (Step.inWorld (classCapabilities (.user c))).run s =
        (.ok (fieldsCapabilities c), s) := by
      rw [Step.inWorld, run_within, has.declares.classCapabilities]
    rw [resolveClass, run_bind_of_ok found]
    rfl
  rw [lookup_cls, lookupClass, if_neg (by exact Bool.false_ne_true)]
  cases known : (s.registry .current).find? (.cls (.user c)) with
  | some caps =>
      obtain rfl := has.known caps known
      refine ⟨s, Store.run_remembered_of_known _ known, known, rfl, rfl, fun _ _ => rfl, ?_⟩
      cases s.own with
      | none => exact .none
      | some own => exact .some fun _ _ => rfl
  | none =>
      refine ⟨s.changeRegistry .current (·.remember (.cls (.user c)) (fieldsCapabilities c)), ?_,
        ?_, world_changeRegistry _ _ _, guard_changeRegistry _ _ _, ?_⟩
      · rw [run_remembered_unknown _ known, resolved]
      · rw [registry_changeRegistry_self, find?_remember_self _ _ rfl]
      · obtain ⟨w, shared, own, guard, events⟩ := s
        cases own with
        | none => exact ⟨fun _ isOther => find?_remember_of_ne _ _ isOther, .none⟩
        | some own =>
            exact ⟨fun _ _ => rfl, .some fun _ isOther => find?_remember_of_ne _ _ isOther⟩

/-- States that have come to know one of two classes each are the same but for these. -/
theorem Store.Knowing.veils
    {guards : CycleGuard → CycleGuard → Prop}
    (first : s.Knowing c reached)
    (second : s.Knowing d later)
    (related : guards reached.guard later.guard) :
    Store.Veils (fieldsCapabilities c) (fieldsCapabilities d) guards reached later := by
  have same {r r' r'' : CapabilityRegistry}
      (knowsFirst : r.SameBut (· = (TypeForm.cls (.user c)).identity) r')
      (knowsSecond : r.SameBut (· = (TypeForm.cls (.user d)).identity) r'') :
      r'.SameBut ((fieldsCapabilities c).Hides (fieldsCapabilities d)) r'' := by
    intro a isVisible
    rw [knowsFirst a fun isFirst => isVisible (.inl isFirst),
      knowsSecond a fun isSecond => isVisible (.inr isSecond)]
  refine ⟨⟨second.world.trans first.world.symm, same first.others.shared second.others.shared, ?_⟩,
    first.found, second.found, related⟩
  have owns := first.others.own
  have otherOwns := second.others.own
  generalize s.own = own, reached.own = reachedOwn, later.own = laterOwn at owns otherOwns
  cases owns with
  | none =>
      cases otherOwns
      exact .none
  | some knowsFirst =>
      cases otherOwns with
      | some knowsSecond => exact .some (same knowsFirst knowsSecond)

/-- Whether two shapes have the same fixed fields, which avoid hidden types, and differ in
the class that they stand for. -/
def Shape.AreRecords (hidden : Key → Prop) (c d : UserClass) (a b : Shape) : Prop :=
  ∃ fields : List (String × Shape), (∀ e ∈ fields, e.2.Avoids hidden) ∧
    a = .keyed (.of (some (.cls (.user c)))) true fields ∧
    b = .keyed (.of (some (.cls (.user d)))) true fields

section

variable (first : s.HasClass style c specs) (second : s.HasClass other d specs)
  (arePlain : ∀ spec ∈ specs, spec.IsPlain)
  (clear : s.KeepsClear (.cls (.user d)) ((fieldsCapabilities c).Hides (fieldsCapabilities d)))

include second arePlain clear in
/-- What a class with fields requests is met. -/
theorem Store.HasClass.meets
    (isState : s.Finds (.cls (.user d)) (.state t))
    (isRead : s.Finds (.cls (.user d)) (.reader (.fields (.user d)))) :
    ∀ spec ∈ specs, s.Meets (.cls (.user d)) ((fieldsCapabilities c).Hides (fieldsCapabilities d))
      (spec.plan other).requested := by
  intro spec member
  have planned : (Step.inWorld (do
      pure ((← decodingPlans (.user d)).map FieldPlan.requested))).run t =
        (.ok ((specs.map (·.plan other)).map FieldPlan.requested), t) := by
    have plans := (isState.declaresOnce second.declares).decodingPlans arePlain
    rw [Step.inWorld, run_within, run_bind_of_ok plans]
    rfl
  have among : (spec.plan other).requested ∈
      (specs.map (·.plan other)).map FieldPlan.requested :=
    List.mem_map_of_mem (List.mem_map_of_mem member)
  exact ⟨.form isState isRead List.mem_cons_self planned among,
    clear.asked t _ _ _ _ isState isRead List.mem_cons_self planned _ among⟩

include first second arePlain clear in
/-- Two classes with the same fields record the same fields, and leave no keys open. -/
theorem Store.HasClass.probesReading
    {depth : Nat}
    (isRead : s.Finds (.cls (.user d)) (.reader (.fields (.user d))))
    (ties : (s.apart (.cls (.user d)) (fieldsCapabilities c) (fieldsCapabilities d)).ties t u) :
    TiedAt (s.apart (.cls (.user d)) (fieldsCapabilities c) (fieldsCapabilities d))
      (fun a b => Shape.AreRecords ((fieldsCapabilities c).Hides (fieldsCapabilities d)) c d a.1 b.1)
      (probeReading (nestedProbe (probe depth)) (fieldsCapabilities c) (.fields (.user c)) [])
      (probeReading (nestedProbe (probe depth)) (fieldsCapabilities d) (.fields (.user d)) [])
      t u := by
  have met (spec : FieldSpec) (member : spec ∈ specs) :=
    second.meets arePlain clear ties.2.1 isRead spec member
  have stops {σ : Type} {firstSurface secondSurface : Surface σ} {keeps : σ → Prop}
      {container : Handle} {part opened : σ} {t u : Store}
      (ties : (s.apart (.cls (.user d)) (fieldsCapabilities c) (fieldsCapabilities d)).ties t u)
      (opens : (firstSurface.openHandle (Recorder.decoder []) .openKeyed).run (part, t) =
        (.ok container, opened, t))
      (otherOpens : (secondSurface.openHandle (Recorder.decoder []) .openKeyed).run (part, u) =
        (.ok container, opened, u))
      (asks : ∀ spec ∈ specs, Tied
        ((s.apart (.cls (.user d)) (fieldsCapabilities c) (fieldsCapabilities d)).alongside keeps)
        (Same anything) (firstSurface.value container (spec.plan other).request)
        (secondSurface.value container (spec.plan other).request))
      (isKept : keeps opened) :=
    World.DeclaresOnce.stopTiedAt
      (by rw [← ties.1.same.world]; exact ties.2.1.declaresOnce first.declares)
      (ties.2.1.declaresOnce second.declares) arePlain opens otherOpens asks isKept ties
  have nested : NestedTied
      (s.apart (.cls (.user d)) (fieldsCapabilities c) (fieldsCapabilities d))
      (s.Meets (.cls (.user d)) ((fieldsCapabilities c).Hides (fieldsCapabilities d)))
      (nestedProbe (probe depth)) (nestedProbe (probe depth))
      (Shape.Avoids ((fieldsCapabilities c).Hides (fieldsCapabilities d))) := fun a isMet path =>
    nestedProbe_tied Shape.shows_any apart_allowsFaults apart_notes (clear.probes depth a isMet path)
  have reads : TiedAt (s.apart (.cls (.user d)) (fieldsCapabilities c) (fieldsCapabilities d))
      ((fieldsCapabilities c).ConcludesAlike (fieldsCapabilities d)
        (Recording.HoldsFields (Shape.Avoids ((fieldsCapabilities c).Hides (fieldsCapabilities d))))
        (· = []))
      (probeReading (nestedProbe (probe depth)) (fieldsCapabilities c) (.fields (.user c)) [])
      (probeReading (nestedProbe (probe depth)) (fieldsCapabilities d) (.fields (.user d)) [])
      t u := by
    have opensRecord (nested : NestedProbe) (v : Store) :
        ((recorder nested).openHandle (Recorder.decoder []) .openKeyed).run (.start, v) =
          (.ok (.keyed [] 1), .opened (.keyed [] []) true, v) :=
      openHandle_of_answer ⟨rfl, rfl, by simp⟩ rfl
    have opensCheck (v : Store) :
        ((keyChecker placeholderOf).openHandle (Recorder.decoder []) .openKeyed).run (.start, v) =
          (.ok (.keyed [] 0), .start, v) :=
      openHandle_of_answer ⟨rfl, rfl, by simp⟩ rfl
    refine probeReading_tiedAt apart_ignoresEvents ?_ rfl fun reached last reachedTies => ?_
    · refine stops ties (opensRecord _ _) (opensRecord _ _) (fun spec member => ?_) ?_
      · exact recorder_asks (fun _ shows => shows.optional true) nested [] (met spec member)
      · exact ⟨Recording.isFine_start.add rfl |>.change (Node.records_setOpened _) 0, [], rfl⟩
    · refine stops reachedTies (opensCheck _) (opensCheck _) (fun spec member => ?_) rfl
      exact keyChecker_asks (fun _ isMet => clear.placeholders isMet) (met spec member)
  refine reads.mono fun a b concluded => ?_
  obtain ⟨recording, _, holds, rfl, isFirst, isSecond⟩ := concluded
  obtain ⟨fields, avoid, finished⟩ := holds.finish
  exact ⟨fields, avoid, isFirst.trans (finished _), isSecond.trans (finished _)⟩

end

end

/-! ## Descriptions -/

section

variable {s : Store} {style other : FieldStyle} {c d : UserClass} {specs : List FieldSpec}

/-- Two classes with the same fields are described with the same tree but for the type of
the root, and the same is known afterwards but for them. -/
theorem Store.HasClass.describesTo
    (first : s.HasClass style c specs)
    (second : s.HasClass other d specs)
    (arePlain : ∀ spec ∈ specs, spec.IsPlain)
    (clear : s.KeepsClear (.cls (.user d)) ((fieldsCapabilities c).Hides (fieldsCapabilities d)))
    (depth : Nat) :
    TiedAt (Store.veiling (fieldsCapabilities c) (fieldsCapabilities d) fun _ _ => True)
      (Shape.AreRecords ((fieldsCapabilities c).Hides (fieldsCapabilities d)) c d)
      (describeTo (depth + 1) (.cls (.user c))) (describeTo (depth + 1) (.cls (.user d))) s s := by
  let root : TypeForm := .cls (.user d)
  let hidden : Key → Prop := (fieldsCapabilities c).Hides (fieldsCapabilities d)
  let u : Store := s.beside (s.events ++ [.probeStarted]) .empty
  have firstHas : u.HasClass style c specs := ⟨first.declares, first.known⟩
  have secondHas : u.HasClass other d specs := ⟨second.declares, second.known⟩
  obtain ⟨reached, found, knows⟩ := firstHas.lookup
  obtain ⟨later, otherFound, otherKnows⟩ := secondHas.lookup
  have isFound : s.Finds root (.state ((SchemaProbe.lookup .current root).run u).2) :=
    .lookup (.beside .start) .root
  rw [otherFound] at isFound
  have isRead : s.Finds root (.reader (.fields (.user d))) :=
    .reader (.beside .start) .root ⟨otherFound, rfl, rfl, rfl⟩
  have nothing : CycleGuard.SameBut hidden reached.guard later.guard := by
    rw [knows.guard, otherKnows.guard]
    exact fun _ _ => rfl
  have undone : later.guard.Avoids hidden := by
    rw [otherKnows.guard]
    exact fun _ _ _ _ absent => nomatch absent
  have ties : (s.apart root (fieldsCapabilities c) (fieldsCapabilities d)).ties reached later :=
    ⟨knows.veils otherKnows nothing, isFound, undone⟩
  have entered : (s.apart root (fieldsCapabilities c) (fieldsCapabilities d)).ties
      (reached.withGuard (reached.guard.enter (.cls (.user c))))
      (later.withGuard (later.guard.enter root)) :=
    apart_withGuard ties (nothing.set (.inr ⟨.inl rfl, .inr rfl⟩)) (undone.enter root)
  have probes : TiedAt (Store.veiling (fieldsCapabilities c) (fieldsCapabilities d) fun _ _ => True)
      (fun a b => Shape.AreRecords hidden c d a.1 b.1) (probe (depth + 1) (.cls (.user c)) [])
      (probe (depth + 1) root []) u u := by
    refine .bind_of_run ?_ found otherFound
    refine .current_bind ?_
    rw [knows.guard, otherKnows.guard]
    refine probeGuarded_tiedAt (first.probesReading second arePlain clear isRead entered) ?_ ?_ id
    · rintro last lastOther a b ⟨veils, -⟩ -
      exact veils.beside last.events lastOther.events trivial
    · rintro interrupt last lastOther ⟨veils, -⟩ -
      exact ⟨⟨veils.same, veils.first, veils.second, trivial⟩, trivial⟩
  refine .bind_of_run ?_ (run_update _ s) (run_update _ s)
  refine .bind_of_run ?_ (run_update _ _) (run_update _ _)
  refine probes.bind fun a b last lastOther veils areRecords => ?_
  exact .ok rfl rfl (veils.beside _ _ trivial) areRecords

end

/-! ## Object schemas -/

/-- What synthesis makes of fields: their properties and the names among them that are
required, and what is shared and referred back to after that. -/
abbrev MadeOfFields :=
  Except Interrupt ((List (String × Schema) × List String) × Synthesis)

/-- Whether a type ends with the object schema that is made of fields, finished by what is
known about the type, or with what interrupted the fields. -/
def Capabilities.FinishesObject
    (config : SchemaConfig)
    (caps : Capabilities)
    (made : MadeOfFields)
    (ended : Except Interrupt Schema × SchemaRegistry × Store) :
    Prop :=
  match made with
  | .ok (parts, σ) =>
    ended.1 = .ok (σ.finish config (some caps) (.object parts.1 parts.2)).1 ∧
      ended.2.1 = (σ.finish config (some caps) (.object parts.1 parts.2)).2.registry
  | .error interrupt => ended.1 = .error interrupt

section

variable {s t : Store} {style other : FieldStyle} {c d : UserClass} {specs : List FieldSpec}

/-- The schema of a class with fields is the object that its fields make, finished. -/
theorem synthesize_record
    (known : (t.registry .current).find? (.cls (.user c)) = some (fieldsCapabilities c))
    (config : SchemaConfig)
    (registry : SchemaRegistry)
    (fields : List (String × Shape)) :
    (fieldsCapabilities c).FinishesObject config
      (((Shape.knowFields config fields).run t).1.map
        (KnownShape.buildFields config · [] [] ⟨registry, []⟩))
      ((synthesize config (.keyed (.of (some (.cls (.user c)))) true fields)
        (some (.cls (.user c)))).run (registry, t)) := by
  let shape : Shape := .keyed (.of (some (.cls (.user c)))) true fields
  have isKnown : ∀ a, some (TypeForm.cls (.user c)) = some a →
      ((t.registry .current).find? a).isSome := by
    rintro _ ⟨rfl⟩
    rw [known]
    rfl
  have isRecord : t.recordOf (some (.cls (.user c))) = some (fieldsCapabilities c) := known
  have looksUp : (shape.know config (some (.cls (.user c)))).run t =
      (Shape.knowFields config fields >>= fun parts =>
        pure (.object (some (fieldsCapabilities c)) parts)).run t := by
    rw [Shape.know]
    refine (knowNode_of_known isKnown).trans ?_
    rw [isRecord]
    rfl
  have builtFrom := shape.synthesize_builtFrom config (some (.cls (.user c))) ⟨registry, []⟩ t
    (t.events ++ [.synthesisStarted])
  rw [looksUp] at builtFrom
  rw [synthesize_run]
  cases ran : (Shape.knowFields config fields).run t with
  | mk outcome last =>
      cases outcome with
      | ok parts =>
          rw [run_bind_of_ok ran] at builtFrom
          obtain ⟨events, ended⟩ := builtFrom
          dsimp only
          rw [ended]
          exact ⟨rfl, rfl⟩
      | error interrupt =>
          rw [run_bind_of_error ran] at builtFrom
          obtain ⟨σ, events, ended⟩ := builtFrom
          dsimp only
          rw [ended]
          rfl

/-- Classes with the same fields are described alike, whatever their styles are: they end in
the same way, and the two trees have the same fields, which are fixed, and differ in the
type of their roots alone.  And for every configuration the same object schema is made of
both, which each shares under its own name or has in place. -/
theorem describe_sameFields
    (first : s.HasClass style c specs)
    (second : s.HasClass other d specs)
    (arePlain : ∀ spec ∈ specs, spec.IsPlain)
    (clear : s.KeepsClear (.cls (.user d)) ((fieldsCapabilities c).Hides (fieldsCapabilities d))) :
    (∃ fields : Except Interrupt (List (String × Shape)),
      ((describe (.cls (.user c))).run s).1 =
          fields.map (.keyed (.of (some (.cls (.user c)))) true) ∧
        ((describe (.cls (.user d))).run s).1 =
          fields.map (.keyed (.of (some (.cls (.user d)))) true)) ∧
      ∀ config registry, ∃ made : MadeOfFields,
        (fieldsCapabilities c).FinishesObject config made
            ((schemaFor config (.cls (.user c))).run (registry, s)) ∧
          (fieldsCapabilities d).FinishesObject config made
            ((schemaFor config (.cls (.user d))).run (registry, s)) := by
  obtain ⟨depth, isDepth⟩ : ∃ depth, s.depthFor (TypeForm.cls (.user c)).weight = depth + 1 :=
    Nat.exists_eq_succ_of_ne_zero (Nat.pow_pos (Nat.add_pos_left (Nat.add_pos_left two_pos _) _)).ne'
  have run_describe (c : UserClass) : (describe (.cls (.user c))).run s =
      (describeTo (depth + 1) (.cls (.user c))).run s := by
    rw [← isDepth]
    rfl
  have run_schemaFor (c : UserClass) (config : SchemaConfig) (registry : SchemaRegistry)
      {outcome : Except Interrupt Shape} {reached : Store}
      (described : (describeTo (depth + 1) (.cls (.user c))).run s = (outcome, reached)) :
      (schemaFor config (.cls (.user c))).run (registry, s) =
        match outcome with
        | .ok shape => (synthesize config shape (some (.cls (.user c)))).run (registry, reached)
        | .error interrupt => (.error interrupt, registry, reached) := by
    have shared : (Step.shared (describe (.cls (.user c)))).run (registry, s) =
        (outcome, registry, reached) := by
      rw [Step.shared, run_within, run_describe, described]
    cases outcome with
    | ok shape => exact run_bind_of_ok shared _
    | error interrupt => exact run_bind_of_error shared _
  rw [run_describe, run_describe]
  cases first.describesTo second arePlain clear depth with
  | ok ran otherRan veils areRecords =>
      obtain ⟨fields, avoid, rfl, rfl⟩ := areRecords
      rw [ran, otherRan]
      refine ⟨⟨.ok fields, rfl, rfl⟩, fun config registry => ?_⟩
      rw [run_schemaFor c config registry ran, run_schemaFor d config registry otherRan]
      have sameParts := (Shape.knowFields_veiled config fields avoid _ _ veils).outcome_eq id
      have made := synthesize_record veils.second config registry fields
      rw [← sameParts] at made
      exact ⟨_, synthesize_record veils.first config registry fields, made⟩
  | @error interrupt _ _ ran otherRan veils _ =>
      rw [ran, otherRan]
      refine ⟨⟨.error interrupt, rfl, rfl⟩, fun config registry => ?_⟩
      rw [run_schemaFor c config registry ran, run_schemaFor d config registry otherRan]
      exact ⟨.error interrupt, rfl, rfl⟩
  | lapsed _ lapses => exact lapses.elim

end

/-! ## A struct and a model of the same fields -/

/-- A size, and a list of sizes that is empty by default. -/
def crateSpecs : List FieldSpec :=
  [⟨"size", "k", .builtin .int, none, none⟩,
    ⟨"parts", "parts", .generic (.cls (.builtin .list)) [.builtin .int], none, some .list⟩]

/-- A class that is declared as a struct. -/
def crateClass : UserClass :=
  ⟨1, "Crate", "shapes"⟩

/-- A class that is declared as a model. -/
def cartonClass : UserClass :=
  ⟨1, "Carton", "shapes"⟩

/-- The state in which crates and cartons are declared with the same fields. -/
def crateStore : Store :=
  { Store.initial with
    world :=
      { World.empty with
        classes :=
          [FieldStyle.struct.record crateClass crateSpecs,
            FieldStyle.model.record cartonClass crateSpecs] } }

/-- What is found out about cartons and what they ask for. -/
def cartonCatalogue : Catalogue where
  world := crateStore.world
  entries :=
    [(.cls (.user cartonClass), fieldsCapabilities cartonClass),
      (.builtin .int,
        { Capabilities.named (.builtin .int) (ClassRef.builtin .int).schemaName with
          kind := some .int, placeholder := .int 0 }),
      (.generic (.cls (.builtin .list)) [.builtin .int],
        .readBy (.generic (.cls (.builtin .list)) [.builtin .int])
          (.sequence (.builtin .int) (.shape .list)) (.items .list none []))]
  unique := by decide

/-- Nothing is known yet of crates and cartons. -/
theorem hasClass_crateStore
    {style : FieldStyle}
    {c : UserClass}
    (member : style.record c crateSpecs ∈ crateStore.world.classes) :
    crateStore.HasClass style c crateSpecs := by
  have numbered : ∀ r ∈ crateStore.world.classes,
      r.cls.id ≤ crateStore.world.count r.cls.name r.cls.home := by
    decide
  exact .of_unknown (.of_nodup (by decide) member (numbered _ member)) rfl

/-- The fields of crates are written without notes and names. -/
theorem isPlain_crateSpecs
    (spec : FieldSpec)
    (member : spec ∈ crateSpecs) :
    spec.IsPlain := by
  simp only [crateSpecs, List.mem_cons, List.not_mem_nil, or_false] at member
  rcases member with rfl | rfl
  · exact ⟨by decide, fun _ => rfl, rfl⟩
  · exact ⟨by decide, fun _ => rfl, rfl⟩

/-- Sizes and lists of sizes are neither crates nor cartons. -/
theorem avoids_sizes
    {a : TypeForm}
    (isSize : a = .builtin .int ∨ a = .generic (.cls (.builtin .list)) [.builtin .int]) :
    a.Avoids ((fieldsCapabilities crateClass).Hides (fieldsCapabilities cartonClass)) := by
  have apart : ∀ b ∈ a.lookedUp, b.identity ≠ (fieldsCapabilities crateClass).type.identity ∧
      b.identity ≠ (fieldsCapabilities cartonClass).type.identity := by
    rcases isSize with rfl | rfl <;> decide
  intro b member isHidden
  obtain ⟨notFirst, notSecond⟩ := apart b member
  exact isHidden.elim notFirst notSecond

/-- Cartons ask for sizes and lists of sizes, which ask for sizes. -/
theorem isClosed_cartonCatalogue :
    cartonCatalogue.IsClosed
      ((fieldsCapabilities crateClass).Hides (fieldsCapabilities cartonClass)) where
  looksUp e member s fits := by
    have listed := member
    simp only [cartonCatalogue, List.mem_cons, List.not_mem_nil, or_false] at member
    obtain ⟨w, shared, own, guard, events⟩ := s
    obtain rfl : w = crateStore.world := fits.world
    rcases member with rfl | rfl | rfl
    · exact fits.remembered listed (fits.remembered listed ⟨_, rfl, fits⟩)
    · exact fits.remembered listed (fits.remembered listed ⟨_, rfl, fits⟩)
    · exact fits.remembered listed ⟨_, rfl, fits⟩
  asks e member reader reads need needed := by
    simp only [cartonCatalogue, List.mem_cons, List.not_mem_nil, or_false] at member
    rcases member with rfl | rfl | rfl
    · cases reads
      obtain rfl := List.mem_singleton.mp needed
      refine ⟨_, [.builtin .int, .generic (.cls (.builtin .list)) [.builtin .int]], rfl, ?_, ?_⟩
      · intro s fits
        have declares : s.world.DeclaresOnce (FieldStyle.model.record cartonClass crateSpecs) := by
          rw [fits.world]
          exact (hasClass_crateStore (List.mem_cons_of_mem _ List.mem_cons_self)).declares
        rw [inWorld, run_within, run_bind_of_ok (declares.decodingPlans isPlain_crateSpecs)]
        rfl
      · intro a among
        simp only [List.mem_cons, List.not_mem_nil, or_false] at among
        refine ⟨avoids_sizes among, ?_⟩
        rcases among with rfl | rfl <;> simp [cartonCatalogue]
    · cases reads
    · cases reads
      obtain rfl := List.mem_singleton.mp needed
      refine ⟨_, [.builtin .int], rfl, fun _ _ => rfl, fun a among => ?_⟩
      obtain rfl := List.mem_singleton.mp among
      exact ⟨avoids_sizes (.inl rfl), _, List.mem_cons_of_mem _ List.mem_cons_self, rfl⟩
  shows e member avoids := by
    simp only [cartonCatalogue, List.mem_cons, List.not_mem_nil, or_false] at member
    rcases member with rfl | rfl | rfl <;> exact avoids

/-- Describing cartons keeps clear of crates and of cartons. -/
theorem keepsClear_cartons :
    crateStore.KeepsClear (.cls (.user cartonClass))
      ((fieldsCapabilities crateClass).Hides (fieldsCapabilities cartonClass)) := by
  have fits : cartonCatalogue.Fits crateStore := by
    refine ⟨rfl, fun e member caps found => ?_⟩
    simp only [cartonCatalogue, List.mem_cons, List.not_mem_nil, or_false] at member
    rcases member with rfl | rfl | rfl <;> cases found
  exact isClosed_cartonCatalogue.keepsClear fits ⟨_, List.mem_cons_self, rfl⟩

/-- Crates and cartons are described alike. -/
theorem describe_sameFields_crate :
    ∃ fields : Except Interrupt (List (String × Shape)),
      ((describe (.cls (.user crateClass))).run crateStore).1 =
          fields.map (.keyed (.of (some (.cls (.user crateClass)))) true) ∧
        ((describe (.cls (.user cartonClass))).run crateStore).1 =
          fields.map (.keyed (.of (some (.cls (.user cartonClass)))) true) := by
  have first : crateStore.HasClass .struct crateClass crateSpecs :=
    hasClass_crateStore List.mem_cons_self
  have second : crateStore.HasClass .model cartonClass crateSpecs :=
    hasClass_crateStore (List.mem_cons_of_mem _ List.mem_cons_self)
  exact (describe_sameFields first second isPlain_crateSpecs keepsClear_cartons).1

/-! ## A class that comes back to itself through another one -/

/-- A class whose objects may have a stitch. -/
def loopClass : UserClass :=
  ⟨1, "Loop", "shapes"⟩

/-- A struct whose objects have a loop. -/
def stitchClass : UserClass :=
  ⟨1, "Stitch", "shapes"⟩

/-- A model whose objects have a loop. -/
def knotClass : UserClass :=
  ⟨1, "Knot", "shapes"⟩

/-- A loop, under a key of its own. -/
def stitchSpecs : List FieldSpec :=
  [⟨"loop", "k", .cls (.user loopClass), none, none⟩]

/-- The state in which stitches and knots are declared with the same field. -/
def stitchStore : Store :=
  { Store.initial with
    world :=
      { World.empty with
        classes :=
          [FieldStyle.struct.record loopClass
              [⟨"stitch", "stitch", .union .named [.cls (.user stitchClass), .builtin .noneType], none,
                none⟩],
            FieldStyle.struct.record stitchClass stitchSpecs,
            FieldStyle.model.record knotClass stitchSpecs] } }

/-- Nothing is known yet of stitches and knots. -/
theorem hasClass_stitchStore
    {style : FieldStyle}
    {c : UserClass}
    (member : style.record c stitchSpecs ∈ stitchStore.world.classes) :
    stitchStore.HasClass style c stitchSpecs := by
  have numbered : ∀ r ∈ stitchStore.world.classes,
      r.cls.id ≤ stitchStore.world.count r.cls.name r.cls.home := by
    decide
  exact .of_unknown (.of_nodup (by decide) member (numbered _ member)) rfl

/-- Where a class is met again in what its fields ask for, the tree refers back to it, and
that of another class with the same fields goes on into it. -/
theorem describe_sameFields_matters :
    ¬ ∀ (s : Store) (style other : FieldStyle) (c d : UserClass) (specs : List FieldSpec),
      s.HasClass style c specs → s.HasClass other d specs → (∀ spec ∈ specs, spec.IsPlain) →
        (∀ spec ∈ specs, ∃ x, spec.form = .cls (.user x) ∧ x ≠ c ∧ x ≠ d) →
          ∃ fields : Except Interrupt (List (String × Shape)),
            ((describe (.cls (.user c))).run s).1 =
                fields.map (.keyed (.of (some (.cls (.user c)))) true) ∧
              ((describe (.cls (.user d))).run s).1 =
                fields.map (.keyed (.of (some (.cls (.user d)))) true) := by
  intro claim
  have arePlain : ∀ spec ∈ stitchSpecs, spec.IsPlain :=
    List.forall_mem_singleton.mpr ⟨by decide, fun _ => rfl, rfl⟩
  obtain ⟨fields, isFirst, isSecond⟩ := claim stitchStore .struct .model stitchClass knotClass
    stitchSpecs (hasClass_stitchStore (by simp [stitchStore]))
    (hasClass_stitchStore (by simp [stitchStore])) arePlain
    (List.forall_mem_singleton.mpr ⟨loopClass, rfl, by decide, by decide⟩)
  have ofFirst : ((describe (.cls (.user stitchClass))).run stitchStore).1.toOption.map
      (fun shape => shape.markers.map TypeForm.schemaName) = some ["Stitch"] := by
    decide +kernel
  have ofSecond : ((describe (.cls (.user knotClass))).run stitchStore).1.toOption.map
      (fun shape => shape.markers.map TypeForm.schemaName) = some ["Loop"] := by
    decide +kernel
  rw [isFirst] at ofFirst
  rw [isSecond] at ofSecond
  cases fields with
  | error interrupt => cases ofFirst
  | ok fields =>
      exact absurd (ofFirst.symm.trans ofSecond) (by decide)

end SchemaProbe

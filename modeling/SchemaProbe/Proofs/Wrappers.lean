import SchemaProbe.Proofs.Describing
import SchemaProbe.Proofs.Markers
import SchemaProbe.Proofs.Tables

namespace SchemaProbe

/-!
# Classes that wrap a value

A class may say by a program that it is decoded from a single value of some type.
Its node is then that of the value's type, but for the type that it stands for.
-/

/-- Whether a statement ends a program without asking for anything. -/
def Statement.isFinal : Statement → Bool
  | .give (.variable _) | .fail _ _ _ => true
  | _ => false

/-- A program that opens a single value, reads it as a type, and ends in some
way. -/
def wrapping
    (name : String)
    (t : TypeTerm)
    (store : Option String)
    (rest : Program) :
    Program :=
  .request "d" .openSingle (some name) :: .request name (.decode t none) store :: rest

/-- The node of a class that wraps a value, by the node of the value's type. -/
def Capabilities.wrap (caps : Capabilities) (inner : Shape) : Shape :=
  match caps.cases with
  | some cases => inner.withCases caps.type cases
  | none => if inner.isRecursive then inner else inner.ofType (some caps.type)

/-! ## Running the program -/

section

variable {σ : Type} {surface : Surface σ} {delegate : Delegate σ}

/-- What a variable is bound to is read without changing anything. -/
theorem run_binding
    (name : String)
    (whole : Frame σ × Store) :
    (Run.binding name : Run σ Reply).run whole =
      match whole.1.bindings.lookup name with
      | some reply => (.ok reply, whole)
      | none => (.error (.fault .unknownEntry), whole) := by
  rw [Run.binding, Step.run_bind_of_ok (Step.run_current whole)]
  cases whole.1.bindings.lookup name <;> rfl

/-- Statements that end a program change nothing. -/
theorem runAll_final
    {rest : Program}
    (final : rest.all Statement.isFinal = true)
    (whole : Frame σ × Store) :
    ∃ outcome : Except Fault Outcome,
      (Statement.runAll surface delegate rest).run whole = (outcome.mapError .fault, whole) := by
  cases rest with
  | nil => exact ⟨.ok (.went none), rfl⟩
  | cons first others =>
      have isFinal : first.isFinal = true := by
        rw [List.all_cons, Bool.and_eq_true] at final
        exact final.1
      cases first with
      | give result =>
          cases result with
          | value t => cases isFinal
          | «variable» name =>
              have bound := run_binding (σ := σ) name whole
              rw [Statement.runAll, Statement.run, Run.result]
              cases isBound : whole.1.bindings.lookup name with
              | none =>
                  rw [isBound] at bound
                  refine ⟨.error .unknownEntry, Step.run_bind_of_error ?_ _⟩
                  exact Step.run_bind_of_error (Step.run_bind_of_error bound _) _
              | some reply =>
                  rw [isBound] at bound
                  refine ⟨.ok (.gave reply.toValue), ?_⟩
                  have gave : (Run.result (.variable name) : Run σ Value).run whole =
                      (.ok reply.toValue, whole) :=
                    Step.run_bind_of_ok bound _
                  have went : (do pure (.gave (← Run.result (.variable name))) : Run σ Outcome).run
                      whole = (.ok (.gave reply.toValue), whole) :=
                    Step.run_bind_of_ok gave _
                  exact Step.run_bind_of_ok went _
      | fail kind message location => exact ⟨.error (.raised kind message location), rfl⟩
      | _ => cases isFinal

/-- A program that has asked for all that it needs ends with a value or a fault,
and changes nothing. -/
theorem result_final
    (maker : Maker)
    (outcome : Outcome)
    (whole : Frame σ × Store) :
    ∃ value : Except Fault Value,
      (outcome.result maker : Run σ Value).run whole = (value.mapError .fault, whole) := by
  cases outcome with
  | gave v => exact ⟨.ok v, rfl⟩
  | went reply =>
      refine ⟨maker.make? whole.2.world whole.1.got, ?_⟩
      rw [Outcome.result, Step.run_bind_of_ok (Step.run_current whole), Step.run_ofExcept]

/-- The variables after a reply was stored. -/
def bindReply
    (bindings : List (String × Reply))
    (store : Option String)
    (reply : Reply) :
    List (String × Reply) :=
  match store with
  | some name => Table.set bindings name reply
  | none => bindings

/-- A request that is answered keeps its reply. -/
theorem run_request
    {on : String}
    {written : Request TypeTerm KeyTerm}
    {settled : Request TypeForm String}
    {store : Option String}
    {frame : Frame σ}
    {h : Handle}
    {reply : Reply}
    {part : σ}
    {s between last : Store}
    (bound : frame.bindings.lookup on = some (.handle h))
    (isKnown : written.isKnownTo h.role = true)
    (settles : (Run.request written : Run σ _).run (frame, s) = (.ok settled, frame, between))
    (asked : (surface.ask h settled).run (frame.surface, between) = (.ok reply, part, last)) :
    ∃ got,
      ((Statement.request on written store).run surface delegate).run (frame, s) =
        (.ok (.went (some reply)), ⟨part, bindReply frame.bindings store reply, got⟩, last) := by
  have binding := run_binding (σ := σ) on (frame, s)
  rw [bound] at binding
  have handle : (Run.handle on : Run σ Handle).run (frame, s) = (.ok h, frame, s) := by
    rw [Run.handle, Step.run_bind_of_ok binding]
    rfl
  have replied : (Run.onSurface (surface.ask h settled)).run (frame, between) =
      (.ok reply, { frame with surface := part }, last) := by
    rw [Run.onSurface, Step.run_within, asked]
  have stored (got : List Value) :
      (Run.store store reply : Run σ Unit).run (⟨part, frame.bindings, got⟩, last) =
        (.ok (), ⟨part, bindReply frame.bindings store reply, got⟩, last) := by
    cases store <;> rfl
  rw [Statement.run, Step.run_bind_of_ok handle, isKnown]
  simp only [Bool.not_true, Bool.false_eq_true, if_false]
  rw [Step.run_bind_of_ok settles, Step.run_bind_of_ok replied]
  cases settled.isCollected with
  | true =>
      refine ⟨frame.got ++ [reply.toValue], ?_⟩
      have collected : (Run.collect reply.toValue : Run σ Unit).run
          ({ frame with surface := part }, last) =
            (.ok (), ⟨part, frame.bindings, frame.got ++ [reply.toValue]⟩, last) :=
        rfl
      rw [if_pos rfl, Step.run_bind_of_ok collected, Step.run_bind_of_ok (stored _)]
      rfl
  | false =>
      refine ⟨frame.got, ?_⟩
      rw [if_neg Bool.false_ne_true]
      exact Step.run_bind_of_ok (stored frame.got) _

end

/-- A program that wraps a value asks for what the value looks like, and records
that. -/
theorem wrapping_recorded
    {nested : NestedProbe}
    {delegate : Delegate Recording}
    {name : String}
    {t : TypeTerm}
    {store : Option String}
    {rest : Program}
    {s last : Store}
    {w : World}
    {a : TypeForm}
    {inner : Shape}
    {value : Value}
    {path : Path}
    (final : rest.all Statement.isFinal = true)
    (resolved : (t.resolve .strict).run s.world = (.ok a, w))
    (answered : (nested a path).run { s with world := w } = (.ok (inner, value), last))
    (maker : Maker) :
    ∃ outcome : Except Fault Value,
      (Program.run (recorder nested) delegate maker (wrapping name t store rest)
          (Recorder.decoder path)).run (.start, s) =
        (outcome.mapError .fault, .opened (.single (some inner) false) false, last) := by
  let start : Frame Recording := .start .start (Recorder.decoder path)
  obtain ⟨got, opened⟩ :
      ∃ got, ((Statement.request "d" .openSingle (some name)).run (recorder nested) delegate).run
          (start, s) =
        (.ok (.went (some (.handle (.single path)))),
          ⟨.opened (.single none false) false,
            bindReply start.bindings (some name) (.handle (.single path)), got⟩, s) :=
    run_request rfl rfl rfl (ask_of_answer ⟨rfl, rfl, by simp⟩ rfl)
  have settles (frame : Frame Recording) :
      (Run.request (.decode t none) : Run Recording (Request TypeForm String)).run (frame, s) =
        (.ok (.decode a none), frame, { s with world := w }) := by
    have inWorld : (Step.inWorld (t.resolve .strict)).run s =
        (.ok a, { s with world := w }) := by
      rw [Step.inWorld, Step.run_within, resolved]
    exact Step.run_bind_of_ok (run_shared_of_ok inWorld frame) _
  have asked :
      ((recorder nested).ask (.single path) (.decode a none)).run
          (.opened (.single none false) false, { s with world := w }) =
        (.ok (.value value), .opened (.single (some inner) false) false, last) := by
    refine ask_of_answer ⟨rfl, rfl, by simp⟩ ?_
    exact Step.run_bind_of_ok (run_shared_of_ok answered _) _
  obtain ⟨more, read⟩ :
      ∃ more, ((Statement.request name (.decode t none) store).run (recorder nested) delegate).run
          (⟨.opened (.single none false) false,
            bindReply start.bindings (some name) (.handle (.single path)), got⟩, s) =
        (.ok (.went (some (.value value))),
          ⟨.opened (.single (some inner) false) false,
            bindReply (bindReply start.bindings (some name) (.handle (.single path))) store
              (.value value), more⟩, last) :=
    run_request (Table.lookup_set_self _ _ _) rfl (settles _) asked
  -- What follows the two requests changes nothing.
  have ends (whole : Frame Recording × Store) :
      ∃ value : Except Fault Value,
        (do
          let outcome ← Statement.runAll (recorder nested) delegate rest
          outcome.result maker : Run Recording Value).run whole =
          (value.mapError .fault, whole) := by
    obtain ⟨ended, ran⟩ := runAll_final final whole
    cases ended with
    | error f => exact ⟨.error f, Step.run_bind_of_error ran _⟩
    | ok outcome =>
        obtain ⟨value, ended⟩ := result_final maker outcome whole
        exact ⟨value, by rw [Step.run_bind_of_ok ran, ended]⟩
  obtain ⟨outcome, ended⟩ := ends
    (⟨.opened (.single (some inner) false) false,
      bindReply (bindReply start.bindings (some name) (.handle (.single path))) store
        (.value value), more⟩, last)
  refine ⟨outcome, ?_⟩
  have body : (do
      let outcome ← Statement.runAll (recorder nested) delegate (wrapping name t store rest)
      outcome.result maker : Run Recording Value).run (start, s) =
        (outcome.mapError .fault,
          ⟨.opened (.single (some inner) false) false,
            bindReply (bindReply start.bindings (some name) (.handle (.single path))) store
              (.value value), more⟩, last) := by
    rw [← ended, wrapping, Statement.runAll, Step.bind_bind, Step.run_bind_of_ok opened,
      Statement.runAll, Step.bind_bind, Step.run_bind_of_ok read]
  rw [Program.run]
  simp only [body, start]

/-- What is recorded of a class that wraps a value is finished into its node. -/
theorem finish_wrapping
    {caps : Capabilities}
    {c : ClassRef}
    (isClass : caps.type = .cls c)
    (inner : Shape) :
    (match caps.cases with
      | some cases =>
        ((Recording.opened (.single (some inner) false) false).finish (some caps.type) []).withCases
          caps.type cases
      | none => (Recording.opened (.single (some inner) false) false).finish (some caps.type) []) =
      caps.wrap inner := by
  have finished :
      (Recording.opened (.single (some inner) false) false).finish (some caps.type) [] =
        Recording.wrapped (some caps.type) (some inner) false :=
    rfl
  rw [finished, Capabilities.wrap]
  cases caps.cases with
  | some cases =>
      simp only
      rw [withCases_wrapped]
      cases inner <;> rfl
  | none =>
      simp only
      rw [isClass]
      cases inner <;> rfl

/-- The node of a class that wraps a value is made of the node of the value's
type; beyond that its reading is at most noted. -/
theorem probeReading_wrapping
    {nested : NestedProbe}
    {caps : Capabilities}
    {c : ClassRef}
    {name : String}
    {t : TypeTerm}
    {store : Option String}
    {rest : Program}
    {s last : Store}
    {w : World}
    {a : TypeForm}
    {inner : Shape}
    {value : Value}
    {path : Path}
    (isClass : caps.type = .cls c)
    (final : rest.all Statement.isFinal = true)
    (resolved : (t.resolve .strict).run s.world = (.ok a, w))
    (answered : (nested a path).run { s with world := w } = (.ok (inner, value), last))
    (maker : Maker) :
    ∃ result events,
      (probeReading nested caps (.program maker (wrapping name t store rest)) path).run s =
        (.ok (caps.wrap inner, result), last.withEvents events) := by
  let reader : Reader := .program maker (wrapping name t store rest)
  let recording : Recording := .opened (.single (some inner) false) false
  obtain ⟨outcome, ran⟩ :
      ∃ outcome : Except Fault Value,
        (reader.run (recorder nested) (Recorder.decoder path)).run (.start, s) =
          (outcome.mapError .fault, recording, last) :=
    wrapping_recorded final resolved answered maker
  have beside :
      (Step.beside Recording.start (reader.run (recorder nested) (Recorder.decoder path))).run s =
        (.ok (outcome.mapError .fault, recording), last) := by
    unfold Step.beside
    simp only [ran]
  have concluded (result : Value) (noted : Store) :
      (concludeReading caps reader recording result).run noted =
        (.ok (caps.wrap inner, result), noted) := by
    rw [← finish_wrapping isClass]
    unfold concludeReading
    cases caps.cases <;> rfl
  rw [probeReading_eq, Step.run_bind_of_ok beside]
  cases outcome with
  | ok result => exact ⟨result, last.events, concluded result last⟩
  | error f =>
      have noted : (Step.note (.failed caps.name path f)).run last =
          (.ok (), last.withEvents (last.events ++ [.failed caps.name path f])) :=
        rfl
      exact ⟨caps.placeholder, _, (Step.run_bind_of_ok noted _).trans (concluded _ _)⟩

/-! ## How much is known of a class that wraps a value -/

theorem total_append
    {α : Type}
    (weight : α → Nat)
    (as bs : List α) :
    total weight (as ++ bs) = total weight as + total weight bs := by
  induction as with
  | nil => simp [total]
  | cons a rest inductionHypothesis =>
      rw [List.cons_append, total, total, inductionHypothesis]
      omega

theorem weight_le_total
    {α : Type}
    {weight : α → Nat}
    {a : α}
    {as : List α}
    (member : a ∈ as) :
    weight a ≤ total weight as := by
  induction as with
  | nil => cases member
  | cons b rest inductionHypothesis =>
      rw [total]
      rcases List.mem_cons.mp member with rfl | later
      · omega
      · have fewer := inductionHypothesis later
        omega

/-- What is found out twice about a type that was not known is remembered
once. -/
theorem Table.set_set_of_absent
    {κ α : Type}
    [BEq κ] [LawfulBEq κ]
    {table : List (κ × α)}
    {key : κ}
    (absent : table.lookup key = none)
    (a : α) :
    Table.set (Table.set table key a) key a = table ++ [(key, a)] := by
  have unknown : ¬(table.any fun e => e.1 == key) = true :=
    mt Table.any_key_iff.mp (Table.lookup_eq_none_iff_not_mem.mp absent)
  rw [Table.set_set, Table.set, if_neg unknown]

/-- Looking up a class finds what is known, or finds it out and remembers it. -/
theorem lookup_class_cases
    {c : ClassRef}
    {caps : Capabilities}
    {s known : Store}
    (lookedUp : (lookup .current (.cls c)).run s = (.ok caps, known))
    (reads : caps.reader.isSome) :
    ((s.registry .current).find? (.cls c) = some caps ∧ known = s) ∨
      ((s.registry .current).find? (.cls c) = none ∧ ∃ between,
        (resolveClass c).run s = (.ok caps, between) ∧
        known = (between.remembering (.cls c) caps).remembering (.cls c) caps) := by
  have isRemembered :
      (remembered .current (.cls c) (lookupClass .current c)).run s = (.ok caps, known) :=
    lookedUp
  rw [remembered, Step.run_bind_of_ok (Step.run_current s)] at isRemembered
  cases found : (s.registry .current).find? (.cls c) with
  | some before =>
      rw [found] at isRemembered
      cases isRemembered
      exact .inl ⟨rfl, rfl⟩
  | none =>
      refine .inr ⟨rfl, ?_⟩
      rw [found] at isRemembered
      obtain ⟨other, between, classLookedUp, later⟩ := Step.run_bind_eq_ok_iff.mp isRemembered
      cases later
      rw [lookupClass, remembered, Step.run_bind_of_ok (Step.run_current s), found] at classLookedUp
      obtain ⟨again, earlier, resolved, later⟩ := Step.run_bind_eq_ok_iff.mp classLookedUp
      cases later
      refine ⟨earlier, ?_, rfl⟩
      split at resolved
      · cases resolved
        cases reads
      · exact resolved

/-- A class that reads itself by a program says so itself. -/
theorem program_of_resolveClass
    {c : ClassRef}
    {caps : Capabilities}
    {s between : Store}
    {maker : Maker}
    {body : Program}
    (resolved : (resolveClass c).run s = (.ok caps, between))
    (reads : caps.reader = some (.program maker body)) :
    (between.world.hooks c).program = some body ∧ between.shared = s.shared ∧
      between.own = s.own := by
  obtain ⟨found, reached, ran, noted⟩ := Step.run_bind_eq_ok_iff.mp resolved
  -- Looking at classes changes the declared classes at most, and so does noting.
  have inWorld := Step.run_within Store.world (fun world s => { s with world := world })
    (classCapabilities c) s
  cases ended : (classCapabilities c).run s.world with
  | mk outcome world =>
      rw [ended] at inWorld
      rw [Step.inWorld, inWorld] at ran
      cases ran
      have hasProgram (isFound : found = caps) : (world.hooks c).program = some body := by
        subst isFound
        rw [classCapabilities, Step.run_bind_of_ok (Step.run_current _)] at ended
        split at ended
        · cases ended
          cases reads
        · split at ended
          · cases ended
            cases reads
          · obtain ⟨cases, later, _, result⟩ := Step.run_bind_eq_ok_iff.mp ended
            cases result
            rcases World.reader?_cases reads with
              ⟨other, program, same⟩ | ⟨_, same⟩ | ⟨_, same | ⟨_, _, _, same⟩ | ⟨_, _, _, _, same⟩⟩
            · cases same
              exact program
            · cases same
            · cases same
            · cases same
            · cases same
      split at noted
      · cases noted
        exact ⟨hasProgram rfl, rfl, rfl⟩
      · cases noted
        exact ⟨hasProgram rfl, rfl, rfl⟩

/-- Whether two worlds declare the same classes and names. -/
structure World.SameDeclarations (w reached : World) : Prop where
  classes : reached.classes = w.classes
  names : reached.names = w.names

/-- What is declared weighs the same where the same is declared. -/
theorem World.SameDeclarations.total_eq
    {w reached : World}
    (same : w.SameDeclarations reached) :
    total (ClassRecord.weight reached) reached.classes = total (ClassRecord.weight w) w.classes := by
  have reading := World.SameReading.of_classes same.classes same.names
  have weights : ClassRecord.weight reached = ClassRecord.weight w := by
    funext r
    rw [ClassRecord.weight, ClassRecord.weight, reading.plansOf?]
  rw [weights, same.classes]

/-- The program of a class is part of what is declared. -/
theorem weight_program_le
    {w : World}
    {c : ClassRef}
    {body : Program}
    (declares : (w.hooks c).program = some body) :
    Statement.weightAll body ≤ total (ClassRecord.weight w) w.classes := by
  cases c with
  | user u =>
      change (((w.record? u).map fun r : ClassRecord => r.hooks).getD Hooks.none).program =
        some body at declares
      cases found : w.record? u with
      | none =>
          rw [found] at declares
          cases declares
      | some r =>
          rw [found] at declares
          have isProgram : r.hooks.program = some body := declares
          have member : r ∈ w.classes := List.mem_of_find?_eq_some found
          have own : Statement.weightAll body ≤ r.weight w := by
            rw [ClassRecord.weight, isProgram, Option.map_some, Option.getD_some]
            omega
          exact Nat.le_trans own (weight_le_total member)
  | _ => cases declares

/-- A type that was not known and is remembered twice adds its weight once. -/
theorem CapabilityRegistry.weight_remember_remember
    {r : CapabilityRegistry}
    {a : TypeForm}
    (unknown : r.find? a = none)
    (caps : Capabilities) :
    ((r.remember a caps).remember a caps).weight = r.weight + caps.weight := by
  have absent : r.cache.lookup a.identity = none := (Option.or_eq_none_iff.mp unknown).1
  have cache : ((r.remember a caps).remember a caps).cache = r.cache ++ [(a.identity, caps)] :=
    Table.set_set_of_absent absent caps
  have explicit : ((r.remember a caps).remember a caps).explicit = r.explicit := rfl
  rw [weight, weight, cache, explicit, total_append]
  simp only [total]
  omega

/-! ## Names that are referred back to -/

/-- Whether a node of a tree refers back to a name that no node between them is
of. -/
inductive Shape.RefersTo (name? : TypeForm → Option String) (name : String) : Shape → Prop
  | back {h : ShapeHeader} {marker : TypeForm} :
      name? marker = some name → RefersTo name? name (.recursive h marker)
  | part {s part : Shape} :
      part ∈ s.parts → s.type.bind name? ≠ some name → RefersTo name? name part →
      RefersTo name? name s

section

variable {name? : TypeForm → Option String} {name : String} {above names : List String}
  {s : Shape}

/-- A node that is referred back to is above. -/
theorem Shape.RefersTo.mem_of_bound
    (refers : s.RefersTo name? name)
    (bound : s.MarkersBound name? above) :
    name ∈ above := by
  induction refers generalizing above with
  | back named =>
      cases bound with
      | back markerNamed member =>
          rw [named] at markerNamed
          cases markerNamed
          exact member
      | node notBack _ => cases notBack
  | @part s part isPart notOwn _ inductionHypothesis =>
      cases bound with
      | back _ _ => cases isPart
      | node _ parts =>
          rcases List.mem_append.mp (inductionHypothesis (parts part isPart)) with isOwn | isAbove
          · exact absurd (Option.mem_toList.mp isOwn) notOwn
          · exact isAbove

/-- A name that no node refers back to is not needed above. -/
theorem Shape.MarkersBound.of_not_refersTo
    (bound : s.MarkersBound name? names)
    (subset : ∀ other ∈ names, other = name ∨ other ∈ above)
    (notReferred : ¬ s.RefersTo name? name) :
    s.MarkersBound name? above := by
  induction bound generalizing above with
  | @back names h marker other named member =>
      rcases subset other member with rfl | isAbove
      · exact absurd (.back named) notReferred
      · exact .back named isAbove
  | @node names s notBack parts inductionHypothesis =>
      refine .node notBack fun part isPart => ?_
      by_cases isOwn : s.type.bind name? = some name
      · -- The node itself is of the name.
        refine (parts part isPart).mono ?_
        intro other member
        rcases List.mem_append.mp member with own | further
        · exact List.mem_append_left _ own
        · rcases subset other further with rfl | isAbove
          · rw [isOwn]
            exact List.mem_append_left _ (List.mem_singleton_self _)
          · exact List.mem_append_right _ isAbove
      · refine inductionHypothesis part isPart ?_ fun refers =>
          notReferred (.part isPart isOwn refers)
        intro other member
        rcases List.mem_append.mp member with own | further
        · exact .inr (List.mem_append_left _ own)
        · rcases subset other further with rfl | isAbove
          · exact .inl rfl
          · exact .inr (List.mem_append_right _ isAbove)

/-- What is bound below a node of a name is bound without it just if nothing
refers back to that name. -/
theorem Shape.MarkersBound.iff_not_refersTo
    (bound : s.MarkersBound name? (name :: above)) :
    s.MarkersBound name? above ↔ name ∈ above ∨ ¬ s.RefersTo name? name := by
  constructor
  · intro still
    by_cases refers : s.RefersTo name? name
    · exact .inl (refers.mem_of_bound still)
    · exact .inr refers
  · rintro (isAbove | notReferred)
    · refine bound.mono fun other member => ?_
      rcases List.mem_cons.mp member with rfl | further
      · exact isAbove
      · exact further
    · exact bound.of_not_refersTo (fun _ member => List.mem_cons.mp member) notReferred

@[simp]
theorem Shape.parts_ofType (type : Option TypeForm) : (s.ofType type).parts = s.parts := by
  cases s <;> rfl

@[simp]
theorem Shape.isRecursive_ofType (type : Option TypeForm) :
    (s.ofType type).isRecursive = s.isRecursive := by
  cases s <;> rfl

@[simp]
theorem Shape.type_ofType (type : Option TypeForm) : (s.ofType type).type = type := by
  cases s <;> rfl

/-- Whether nothing refers back to the node of a value's type that goes by another
name than the class that wraps the value. -/
def Shape.HidesRoot (name? : TypeForm → Option String) (name : String) (inner : Shape) : Prop :=
  inner.isRecursive = false ∧
    ∀ own, inner.type.bind name? = some own → own = name ∨
      ∀ part ∈ inner.parts, ¬ part.RefersTo name? own

/-- What is bound below a node stays bound when the node stands for another type
of a name, if nothing refers back to the node by its own name. -/
theorem Shape.markersBound_ofType_iff
    {type : TypeForm}
    (named : name? type = some name)
    (notBack : s.isRecursive = false) :
    (s.ofType (some type)).MarkersBound name? [] ↔
      s.MarkersBound name? [name] ∧
        ∀ own, s.type.bind name? = some own → own = name ∨
          ∀ part ∈ s.parts, ¬ part.RefersTo name? own := by
  have stamped : (s.ofType (some type)).MarkersBound name? [] ↔
      ∀ part ∈ s.parts, part.MarkersBound name? [name] := by
    constructor
    · intro whole
      cases s with
      | recursive h marker => cases notBack
      | _ =>
          cases whole with
          | node _ parts =>
              intro part isPart
              have below := parts part isPart
              rw [type_ofType, Option.bind_some, named] at below
              exact below
    · intro parts
      refine .node (by rw [isRecursive_ofType, notBack]) ?_
      rw [parts_ofType, type_ofType, Option.bind_some, named]
      exact parts
  have each (own : String) (isOwn : s.type.bind name? = some own)
      (bound : s.MarkersBound name? [name]) (part : Shape) (isPart : part ∈ s.parts) :
      part.MarkersBound name? [name] ↔ own = name ∨ ¬ part.RefersTo name? own := by
    have below : part.MarkersBound name? (own :: [name]) := by
      cases bound with
      | back _ _ => cases notBack
      | node _ parts =>
          have partBound := parts part isPart
          rw [isOwn] at partBound
          exact partBound
    rw [below.iff_not_refersTo, List.mem_singleton]
  rw [stamped]
  constructor
  · intro parts
    have bound : s.MarkersBound name? [name] :=
      .node notBack fun part isPart => (parts part isPart).mono (List.subset_append_right _ _)
    refine ⟨bound, fun own isOwn => ?_⟩
    by_cases same : own = name
    · exact .inl same
    · exact .inr fun part isPart =>
        ((each own isOwn bound part isPart).mp (parts part isPart)).resolve_left same
  · rintro ⟨bound, hides⟩ part isPart
    cases isOwn : s.type.bind name? with
    | none =>
        cases bound with
        | back _ _ => cases notBack
        | node _ parts =>
            have below := parts part isPart
            rw [isOwn] at below
            exact below
    | some own =>
        refine (each own isOwn bound part isPart).mpr ?_
        rcases hides own isOwn with same | notReferred
        · exact .inl same
        · exact .inr (notReferred part isPart)

end

/-- Every node that refers back is bound in the node of a class that wraps a value
just if the class has cases, or every such node is bound below the class and the
node of the value's type can be hidden. -/
theorem Capabilities.markersBound_wrap_iff
    {caps : Capabilities}
    {name? : TypeForm → Option String}
    (named : name? caps.type = some caps.name)
    (inner : Shape) :
    (caps.wrap inner).MarkersBound name? [] ↔
      caps.cases.isSome = true ∨
        inner.MarkersBound name? [caps.name] ∧ inner.HidesRoot name? caps.name := by
  rw [wrap]
  cases caps.cases with
  | some cases =>
      refine ⟨fun _ => .inl rfl, fun _ => .node rfl fun _ isPart => ?_⟩
      cases inner <;> cases isPart
  | none =>
      simp only [Option.isSome_none, Bool.false_eq_true, false_or]
      cases isBack : inner.isRecursive with
      | true =>
          rw [if_pos rfl]
          constructor
          · intro unbound
            cases unbound with
            | back _ member => cases member
            | node notBack _ =>
                rw [isBack] at notBack
                cases notBack
          · rintro ⟨_, notBack, _⟩
            rw [isBack] at notBack
            cases notBack
      | false =>
          rw [if_neg Bool.false_ne_true, Shape.markersBound_ofType_iff named isBack]
          exact ⟨fun ⟨bound, hides⟩ => ⟨bound, isBack, hides⟩,
            fun ⟨bound, _, hides⟩ => ⟨bound, hides⟩⟩

/-! ## Describing a class that wraps a value -/

/-- A state with other declared classes. -/
def Store.inWorld (s : Store) (w : World) : Store :=
  { s with world := w }

/-- Whether a class is known to read a single value as a type form, and nothing
else: looking it up reaches one state, and reading what the type form is another
one. -/
structure Store.Wraps
    (s : Store)
    (c : ClassRef)
    (caps : Capabilities)
    (a : TypeForm)
    (known reading : Store) :
    Prop where
  lookedUp : (lookup .current (.cls c)).run s = (.ok caps, known)
  isClass : caps.type = .cls c
  isNone : caps.kind = none
  isProbed : caps.bypassesProbe = false
  reads : ∃ maker name t store rest w,
    caps.reader = some (.program maker (wrapping name t store rest)) ∧
      rest.all Statement.isFinal = true ∧ (t.resolve .strict).run known.world = (.ok a, w) ∧
      reading = known.inWorld w

/-- A single class is decoded by a program. -/
def Allowance.only (c : ClassRef) : Allowance :=
  ⟨[c.key], fun _ => True⟩

section

variable {s known reading : Store} {c : ClassRef} {caps : Capabilities} {a : TypeForm}
  {forms : List TypeForm}

/-- Looking a class up makes it known. -/
theorem Store.Wraps.found (wraps : s.Wraps c caps a known reading) :
    (reading.registry .current).find? (.cls c) = some caps := by
  obtain ⟨_, _, _, _, _, w, reads, _, _, rfl⟩ := wraps.reads
  change (known.registry .current).find? (.cls c) = some caps
  rcases lookup_class_cases wraps.lookedUp (by rw [reads]; rfl) with
    ⟨found, rfl⟩ | ⟨_, between, _, rfl⟩
  · exact found
  · rw [Store.remembering, Store.registry_changeRegistry, Store.find?_remember_self _ _ rfl]

/-- What a state knows of its universe depends neither on its log nor on its
guard. -/
theorem Store.Ready.beside
    {allowed : Allowance}
    (ready : s.Ready forms allowed)
    (events : List Event)
    (guard : CycleGuard) :
    (s.beside events guard).Ready forms allowed :=
  (Store.learns_note ready events).ready.withGuard guard

/-- A guard that entered a single class knows that it is in progress. -/
theorem progress_enter_cls (c : ClassRef) :
    (CycleGuard.empty.enter (.cls c)).progress = .busy [c.key] := by
  have own : (TypeForm.cls c).identity = c.key := rfl
  rw [CycleGuard.progress_enter, CycleGuard.progress_empty, own]
  funext key
  by_cases same : key = c.key <;> simp [Progress.set, Progress.busy, same]

/-- A class that wraps a value is described by the node of the value's type, which
is found by unfolding with a memo below the class. -/
theorem Store.Wraps.describeTo_probed
    (wraps : s.Wraps c caps a known reading)
    (ready : reading.Ready forms (.only c))
    (member : a ∈ forms)
    {depth : Nat}
    (enough : forms.length < depth) :
    ∃ inner reached, (describeTo (depth + 1) (.cls c)).run s = (.ok (caps.wrap inner), reached) ∧
      reached.Ready forms (.only c) ∧
      reading.GrowsTo reached ∧
      ∃ final, probeWith reached.entry depth a (.busy [c.key]) = some (inner, final) := by
  obtain ⟨maker, name, t, store, rest, w, reads, final, resolved, rfl⟩ := wraps.reads
  -- The class is looked up and entered with the guard of a new description.
  obtain ⟨noted, ranBeside⟩ :=
    lookup_ignoresEvents .current (.cls c) s (s.events ++ [.probeStarted]) .empty
  rw [wraps.lookedUp] at ranBeside
  let guard := CycleGuard.empty.enter caps.type
  let entered : Store := known.beside noted guard
  have progress : guard.progress = .busy [c.key] := by
    rw [← progress_enter_cls, ← wraps.isClass]
  have bounded : Bounded forms (.only c) depth ((known.inWorld w).beside noted guard) := by
    refine ⟨ready.beside _ _, ?_, Nat.lt_of_le_of_lt List.countP_le_length enough⟩
    intro key isExempt
    obtain rfl := List.mem_singleton.mp isExempt
    change guard.progress c.key = some none
    rw [progress]
    simp [Progress.busy]
  -- Then the value's type is probed.
  obtain ⟨inner, value, last, answered, probed⟩ :=
    nestedProbe_answers depth a member [] _ bounded
  obtain ⟨result, events, ran⟩ :=
    probeReading_wrapping (s := entered) wraps.isClass final resolved answered maker
  let completed : Store :=
    { last.withEvents events with guard := last.guard.complete caps.type (caps.wrap inner) result }
  let reached : Store :=
    { completed with events := completed.events ++ [.probeEnded (caps.wrap inner).kindName] }
  have isReached : reached = last.beside reached.events reached.guard := rfl
  have probeRan :
      (probe (depth + 1) (.cls c) []).run (s.beside (s.events ++ [.probeStarted]) .empty) =
        (.ok (caps.wrap inner, result), completed) := by
    have unmet : (known.beside noted .empty).guard.get? caps.type = none := rfl
    have isEntered : (Step.changeGuard fun g => g.enter caps.type).run (known.beside noted .empty) =
        (.ok (), entered) :=
      rfl
    rw [probe, Step.run_bind_of_ok ranBeside, wraps.isNone, wraps.isProbed, reads]
    simp only
    rw [Step.run_bind_of_ok (Step.run_current _), unmet]
    simp only
    rw [probeGuarded, Step.run_bind_of_ok isEntered, Step.run_bind_of_ok ran]
    rfl
  have grows : last.GrowsTo reached := ⟨.refl last.world, fun _ _ found => found⟩
  refine ⟨inner, reached, ?_, isReached ▸ probed.ready.beside _ _, ?_, last.guard.progress, ?_⟩
  · have started : (Step.note .probeStarted).run s =
        (.ok (), s.withEvents (s.events ++ [.probeStarted])) :=
      rfl
    have cleared :
        (Step.changeGuard fun _ => .empty).run (s.withEvents (s.events ++ [.probeStarted])) =
          (.ok (), s.beside (s.events ++ [.probeStarted]) .empty) :=
      rfl
    rw [describeTo, Step.run_bind_of_ok started, Step.run_bind_of_ok cleared,
      Step.run_bind_of_ok probeRan]
    rfl
  · have begun : (known.inWorld w).GrowsTo ((known.inWorld w).beside noted guard) :=
      ⟨.refl _, fun _ _ found => found⟩
    exact begun.trans (probed.grows.trans grows)
  · have mirrored := probed.mirrors reached (isReached ▸ probed.ready.beside _ _) grows
    rw [← progress]
    exact mirrored

/-- Finding a class out adds no more than its program to what is known. -/
theorem Store.Wraps.weight_known_le
    (wraps : s.Wraps c caps a known reading)
    (same : s.world.SameDeclarations known.world) :
    known.weight ≤ 2 * s.weight + 2 := by
  obtain ⟨maker, name, t, store, rest, w, reads, _, _, _⟩ := wraps.reads
  rcases lookup_class_cases wraps.lookedUp (by rw [reads]; rfl) with
    ⟨_, rfl⟩ | ⟨unknown, between, resolved, rfl⟩
  · omega
  · obtain ⟨declares, sharedSame, ownSame⟩ := program_of_resolveClass resolved reads
    have worldSame : ((between.remembering (.cls c) caps).remembering (.cls c) caps).world =
        between.world := by
      cases owns : between.own <;> simp [Store.remembering, Store.changeRegistry, owns]
    rw [worldSame] at same
    have classes := same.total_eq
    have program := weight_program_le declares
    rw [classes] at program
    have body : caps.weight = 3 + Statement.weightAll (wrapping name t store rest) := by
      rw [Capabilities.weight, wraps.isClass, reads]
      simp only [TypeForm.weight, Option.map_some, Option.getD_some, Reader.weight]
      omega
    rw [Store.weight, worldSame, classes, Store.weight]
    unfold Store.registry at unknown
    cases owns : s.own with
    | none =>
        rw [owns] at ownSame unknown
        have remembered := CapabilityRegistry.weight_remember_remember unknown caps
        simp only [Option.getD_none] at remembered
        simp only [Store.remembering, Store.changeRegistry, ownSame, sharedSame]
        simp only [remembered, Option.map_none, Option.getD_none]
        omega
    | some own =>
        rw [owns] at ownSame unknown
        have remembered := CapabilityRegistry.weight_remember_remember unknown caps
        simp only [Option.getD_some] at remembered
        simp only [Store.remembering, Store.changeRegistry, ownSame, sharedSame]
        simp only [remembered, Option.map_some, Option.getD_some]
        omega

/-- Probes may nest deep enough wherever neither looking the class up nor reading
what it wraps declares anything, and the value's type is not far heavier than all
that is declared. -/
theorem Store.Wraps.deep
    (wraps : s.Wraps c caps a known reading)
    (found : s.world.SameDeclarations known.world)
    (read : known.world.SameDeclarations reading.world)
    (size : a.weight ≤ (1 + s.weight) * (1 + s.weight)) :
    2 * (1 + reading.weight + a.weight) + 1 < s.depthFor (TypeForm.cls c).weight := by
  have known_le := wraps.weight_known_le found
  obtain ⟨_, _, _, _, _, w, _, _, _, rfl⟩ := wraps.reads
  have reading_eq : (known.inWorld w).weight = known.weight := by
    have classes := read.total_eq
    rw [Store.weight, Store.weight, ← classes]
    rfl
  have cube : s.depthFor (TypeForm.cls c).weight =
      (s.weight + 3) * (s.weight + 3) * (s.weight + 3) := by
    change (2 + s.weight + 1) ^ 3 = _
    rw [Nat.pow_succ, Nat.pow_succ, Nat.pow_one, show 2 + s.weight + 1 = s.weight + 3 by omega]
  have cubed : (s.weight + 3) * (s.weight + 3) * 3 ≤
      (s.weight + 3) * (s.weight + 3) * (s.weight + 3) :=
    Nat.mul_le_mul_left _ (by omega)
  have squared : (s.weight + 3) * (s.weight + 3) =
      (1 + s.weight) * (1 + s.weight) + 4 * s.weight + 8 := by
    simp only [Nat.add_mul, Nat.mul_add]
    omega
  rw [cube, reading_eq]
  omega

/-- What a class that wraps a value is known as stays known. -/
theorem Store.Wraps.entry_eq
    (wraps : s.Wraps c caps a known reading)
    {reached : Store}
    (grows : reading.GrowsTo reached)
    {b : TypeForm}
    (same : b.identity = c.key) :
    reached.entry b = .inner (.cls c) .unknown := by
  have found := grows.found _ _ wraps.found
  obtain ⟨_, _, _, _, _, _, reads, _⟩ := wraps.reads
  have identity : b.identity = (TypeForm.cls c).identity := same
  rw [reached.entry_congr identity, Store.entry, found]
  simp only [Store.entryOf, wraps.isNone, wraps.isProbed, reads, wraps.isClass]
  rfl

/-- A class that wraps a value is no type that may be null. -/
theorem Store.Wraps.proper
    (wraps : s.Wraps c caps a known reading)
    {reached : Store}
    (ready : reached.Ready forms (.only c))
    (grows : reading.GrowsTo reached) :
    Proper reached.entry forms [c.key] := by
  intro b member type x shape isInner met
  have identity : b.identity = c.key := by
    rw [← List.mem_singleton.mp met]
    exact ready.key?_entry member (by rw [isInner]; rfl)
  rw [wraps.entry_eq grows identity] at isInner
  cases isInner

/-- Below a class that wraps a value the class is named. -/
theorem Store.Wraps.named
    (wraps : s.Wraps c caps a known reading)
    {reached : Store}
    (grows : reading.GrowsTo reached) :
    reached.Named forms [c.key] [caps.name] a := by
  intro b _ met
  have identity : b.identity = (TypeForm.cls c).identity := List.mem_singleton.mp met
  refine .inl ⟨caps.name, List.mem_singleton_self _, ?_⟩
  rw [Store.bare_of_not_nullable (by rw [wraps.entry_eq grows identity]; exact id), Store.name?,
    Store.find?_congr _ identity, grows.found _ _ wraps.found, Option.map_some]

/-- All types are known in the node of a class that wraps a value. -/
theorem Shape.IsKnown.wrap
    {reached : Store}
    {inner : Shape}
    (isKnown : inner.IsKnown reached)
    (typeKnown : ((reached.registry .current).find? caps.type).isSome) :
    (caps.wrap inner).IsKnown reached := by
  rw [Capabilities.wrap]
  cases caps.cases with
  | some cases =>
      refine .node ?_ ?_ ?_
      · intro other isType
        cases inner <;> (cases isType; exact typeKnown)
      · intro h other isBack
        cases inner <;> cases isBack
      · intro part isPart
        cases inner <;> cases isPart
  | none =>
      cases isBack : inner.isRecursive with
      | true => exact isKnown
      | false =>
          simp only [Bool.false_eq_true, if_false]
          refine .node ?_ ?_ ?_
          · intro other isType
            rw [Shape.type_ofType] at isType
            cases isType
            exact typeKnown
          · intro h other isOther
            have notBack := inner.isRecursive_ofType (some caps.type)
            rw [isBack, isOther] at notBack
            cases notBack
          · rw [Shape.parts_ofType]
            cases isKnown with
            | node _ _ parts => exact parts

/-- The schema of a known tree in which every node that refers back is bound
leaves no reference that leads nowhere. -/
theorem synthesize_resolves_of_bound
    {config : SchemaConfig}
    {shape : Shape}
    {given : Option TypeForm}
    {registry shared : SchemaRegistry}
    {last : Store}
    {schema : Schema}
    {declared : List Schema}
    (isKnown : shape.IsKnown s)
    (givenKnown : ∀ b, given = some b → ((s.registry .current).find? b).isSome)
    (bound : shape.MarkersBound s.name? [])
    (returned : (synthesize config shape given).run (registry, s) = (.ok schema, shared, last))
    (declares : ∀ b record own, (s.registry .current).find? b = some record →
      record.schema = some (.declared own) → record.describe own ∈ declared)
    (resolves : registry.Resolves sharedName declared) :
    schema.Resolves sharedName declared shared.names ∧ shared.Resolves sharedName declared := by
  obtain ⟨tree, found, knownRun, rfl, rfl⟩ := synthesize_returned returned
  obtain ⟨_, explained⟩ := shape.explained_of_know config given isKnown givenKnown bound knownRun
  obtain ⟨schemaResolves, registryResolves, _⟩ :=
    KnownShape.build_resolves config explained.bound
      (fun record _ => sharedName_sharedHome record.name)
      (fun own member => by
        obtain ⟨b, record, written, isFound, isDeclared, rfl⟩ := explained.declares own member
        exact declares b record written isFound isDeclared)
      resolves
  exact ⟨schemaResolves, registryResolves⟩

end

/-- A class that wraps a value is described by the tree of the value's type, which
goes by the name of the class.  Every node that refers back is bound just if the
class has cases, or if the tree of the value's type is bound below the class and
nothing in it refers back to its root by another name; then the schema of the
class leaves no reference that leads nowhere. -/
theorem describe_wrapper
    {s known reading : Store}
    {c : ClassRef}
    {caps : Capabilities}
    {a : TypeForm}
    (wraps : s.Wraps c caps a known reading)
    (conventional : reading.Conventional (.only c) a)
    (deep : 2 * (1 + reading.weight + a.weight) + 1 < s.depthFor (TypeForm.cls c).weight) :
    ∃ inner reached, (describe (.cls c)).run s = (.ok (caps.wrap inner), reached) ∧
      reading.GrowsTo reached ∧
      (∃ kinds, Unfolds reached.entry kinds [c.key] a inner) ∧
      (KindsAgree reached.entry [c.key] a →
        Unfolds reached.entry (fun _ => none) [c.key] a inner) ∧
      (reached.NullablesNamed (reading.LeadsTo a) →
        inner.MarkersBound reached.name? [caps.name]) ∧
      ((caps.wrap inner).MarkersBound reached.name? [] ↔
        caps.cases.isSome = true ∨
          inner.MarkersBound reached.name? [caps.name] ∧
            inner.HidesRoot reached.name? caps.name) ∧
      ∀ config registry schema shared last,
        (schemaFor config (.cls c)).run (registry, s) = (.ok schema, shared, last) →
        (caps.wrap inner).MarkersBound reached.name? [] →
        ∀ declared, (∀ b record own, (reached.registry .current).find? b = some record →
            record.schema = some (.declared own) → record.describe own ∈ declared) →
          registry.Resolves sharedName declared →
          schema.Resolves sharedName declared shared.names ∧
            shared.Resolves sharedName declared := by
  obtain ⟨forms, ready, universal, size⟩ := conventional.exists_universe (.refl _)
  have member : a ∈ forms := (universal a).mpr .root
  obtain ⟨depth, isDepth⟩ : ∃ depth, s.depthFor (TypeForm.cls c).weight = depth + 1 :=
    Nat.exists_eq_succ_of_ne_zero (by omega)
  obtain ⟨inner, reached, ran, reachedReady, grows, final, mirrored⟩ :=
    wraps.describeTo_probed ready member (by omega : forms.length < depth)
  have lawful := reachedReady.lawful
  have proper := wraps.proper reachedReady grows
  have unfolds := probeWith_unfolds_kinds lawful member proper mirrored
  have described : (describe (.cls c)).run s = (.ok (caps.wrap inner), reached) := by
    rw [describe, Step.run_bind_of_ok (Step.run_current s), isDepth, ran]
  have found := grows.found _ _ wraps.found
  have named : reached.name? caps.type = some caps.name := by
    rw [wraps.isClass, Store.name?, found, Option.map_some]
  have typeKnown : ((reached.registry .current).find? caps.type).isSome := by
    rw [wraps.isClass, found]
    rfl
  refine ⟨inner, reached, described, grows, ⟨_, unfolds⟩,
    fun agree => probeWith_unfolds lawful member proper agree mirrored, ?_,
    Capabilities.markersBound_wrap_iff named inner, ?_⟩
  · intro nullables
    have among : reached.WrapsNamed (reached.Reaches a) := fun b reaches =>
      nullables.wraps b ((universal b).mp (reaches.mem reachedReady member))
    exact unfolds.markersBound reachedReady among member proper .root (wraps.named grows)
  · intro config registry schema shared last returned bound declared declares resolves
    have begun : (Step.shared (describe (.cls c))).run (registry, s) =
        (.ok (caps.wrap inner), registry, reached) := by
      rw [Step.shared, Step.run_within, described]
    rw [schemaFor, Step.run_bind_of_ok begun] at returned
    refine synthesize_resolves_of_bound ((unfolds.isKnown reachedReady member).wrap typeKnown) ?_
      bound returned declares resolves
    rintro b ⟨rfl⟩
    rw [found]
    rfl

/-- A class that wraps a node. -/
def wrapperClass : ClassRef :=
  .user ⟨2, "Wrapper", "shapes"⟩

/-- Reads a single node and nothing else. -/
def wrapperProgram : Program :=
  wrapping "c" (.named "Node") (some "v") []

/-- The wrapper of nodes as it is declared. -/
def wrapperRecord : ClassRecord where
  cls := ⟨2, "Wrapper", "shapes"⟩
  lineage := [wrapperClass]
  base := none
  params := []
  hooks := { Hooks.none with program := some wrapperProgram }
  body := .plain

/-- What is found out about the wrapper of nodes. -/
def wrapperCapabilities : Capabilities :=
  { Capabilities.named (.cls wrapperClass) "Wrapper" with
    reader := some (.program (.cls wrapperClass) wrapperProgram)
    isReferenceable := true }

/-- The state in which the wrapper of nodes was looked up. -/
def wrapperStore : Store :=
  ((nodeStore [wrapperRecord]).remembering (.cls wrapperClass) wrapperCapabilities).remembering
    (.cls wrapperClass) wrapperCapabilities

theorem wraps_node :
    (nodeStore [wrapperRecord]).Wraps wrapperClass wrapperCapabilities (.cls nodeClass) wrapperStore
      wrapperStore where
  lookedUp := rfl
  isClass := rfl
  isNone := rfl
  isProbed := rfl
  reads := ⟨_, _, _, _, _, _, rfl, rfl, rfl, rfl⟩

/-- A universe without programs stays one when a class that it gives no arguments
to is decoded by a program. -/
theorem World.Covers.only
    {w : World}
    {forms : List TypeForm}
    (covers : w.Covers forms .programFree)
    {c : ClassRef}
    (unapplied : ∀ a ∈ forms, ∀ d, a.aliasOrigin? = some (.cls d) → d.key ≠ c.key) :
    w.Covers forms (.only c) where
  any := covers.any
  text := covers.text
  plain := covers.plain
  asks := covers.asks
  unapplied a member d isOrigin isProgram :=
    unapplied a member d isOrigin (List.mem_singleton.mp isProgram)
  cases := covers.cases
  program d member _ := covers.program d member List.not_mem_nil
  schema := covers.schema
  arguments := covers.arguments
  member := covers.member
  plans := covers.plans

/-- A wrapper of nodes is described by the tree of a node. -/
theorem describe_wrapper_node :
    ∃ inner reached,
      (describe (.cls wrapperClass)).run (nodeStore [wrapperRecord]) =
          (.ok (wrapperCapabilities.wrap inner), reached) ∧
        ∃ kinds, Unfolds reached.entry kinds [wrapperClass.key] (.cls nodeClass) inner := by
  have covers : wrapperStore.world.Covers nodeForms (.only wrapperClass) := by
    refine (covers_nodeForms _ rfl).only fun a member d isOrigin => ?_
    simp only [nodeForms, List.mem_cons, List.not_mem_nil, or_false] at member
    rcases member with rfl | rfl | rfl | rfl | rfl <;> cases isOrigin
    decide
  have unknown : ∀ b ∈ nodeForms, (wrapperStore.registry .current).find? b = none :=
    Store.unknown_of_all rfl
  obtain ⟨inner, reached, ran, _, unfolds, _⟩ :=
    describe_wrapper wraps_node (.of_unknown covers unknown (by simp [nodeForms]))
      (wraps_node.deep ⟨rfl, rfl⟩ ⟨rfl, rfl⟩ (Nat.mul_pos (by omega) (by omega)))
  exact ⟨inner, reached, ran, unfolds⟩

end SchemaProbe

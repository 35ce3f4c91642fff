import SchemaProbe.Proofs.Probing
import SchemaProbe.Proofs.ProbingAlike
import SchemaProbe.Description

namespace SchemaProbe

/-!
# The two passes of a probe

A type reads itself once from the recording surface and, if it opened a keyed
container, once more from the key-checking surface.  The first pass decides
which nodes there are, the second one which of the keyed ones are open.  What a
container recorded shows in the tree of the type where the container stands.
-/

/-! ## The passes -/

/-- The first pass: a reader on the recording surface, and what was recorded. -/
def firstPass
    (nested : NestedProbe)
    (reader : Reader)
    (path : Path) :
    Step Store (Except Interrupt Value × Recording) :=
  Step.beside Recording.start (reader.run (recorder nested) (Recorder.decoder path))

/-- The second pass: a reader on the key-checking surface, and what was found
open. -/
def secondPass (reader : Reader) : Step Store (Except Interrupt Value × KeyCheck) :=
  Step.beside KeyCheck.start (reader.run (keyChecker placeholderOf) (Recorder.decoder []))

section

variable {s between last : Store} {nested : NestedProbe} {caps : Capabilities} {reader : Reader}
  {path : Path} {outcome : Except Interrupt Value} {recording : Recording} {shape : Shape}
  {value : Value}

/-- Checking keys finds what the second pass found open. -/
theorem secondPass_of_checkKeys
    {name : String}
    {openPaths : List Path}
    (checked : (checkKeys name reader).run s = (.ok openPaths, last)) :
    ∃ result check after, (secondPass reader).run s = (.ok (result, check), after) ∧
      openPaths = check.openPaths := by
  cases passed : (reader.run (keyChecker placeholderOf) (Recorder.decoder [])).run (.start, s) with
  | mk result reached =>
      obtain ⟨check, after⟩ := reached
      have second :
          (Step.beside KeyCheck.start
            (reader.run (keyChecker placeholderOf) (Recorder.decoder []))).run s =
              (.ok (result, check), after) := by
        unfold Step.beside
        simp only [passed]
      refine ⟨result, check, after, second, ?_⟩
      have notExhausted : result ≠ .error .exhausted := by
        rintro rfl
        rw [checkKeys, Step.run_bind_of_ok second] at checked
        cases checked
      obtain ⟨events, ran⟩ := checkKeys_of_run name passed notExhausted
      rw [ran] at checked
      cases checked
      rfl

/-- What came out of the two passes: the shape of a type is a scalar, or it is what
was recorded, with the keyed containers open that the second pass found so.  The
second pass counts only if a keyed container was opened. -/
def Recording.Concludes
    (recording : Recording)
    (type : TypeForm)
    (check : KeyCheck)
    (shape : Shape) :
    Prop :=
  (∃ header kind, shape = .single header kind) ∨
    ∃ openPaths, shape = recording.finish (some type) openPaths ∧
      ∀ p, p ∈ openPaths ↔ recording.sawKeyed = true ∧ p ∈ check.openPaths

/-- A recording is concluded by the second pass. -/
theorem concludeReading_concludes
    {result : Value}
    (concluded : (concludeReading caps reader recording result).run s = (.ok (shape, value), last)) :
    ∃ checked check after, (secondPass reader).run s = (.ok (checked, check), after) ∧
      recording.Concludes caps.type check shape := by
  rw [concludeReading] at concluded
  obtain ⟨openPaths, reached, found, made⟩ := Step.run_bind_eq_ok_iff.mp concluded
  have isShape : (∃ header kind, shape = .single header kind) ∨
      shape = recording.finish (some caps.type) openPaths := by
    cases isCases : caps.cases with
    | none =>
        rw [isCases] at made
        cases made
        exact .inr rfl
    | some cases =>
        rw [isCases] at made
        cases made
        exact .inl ⟨_, _, rfl⟩
  cases saw : recording.sawKeyed with
  | true =>
      rw [saw] at found
      obtain ⟨checked, check, after, second, rfl⟩ := secondPass_of_checkKeys found
      exact ⟨checked, check, after, second,
        isShape.imp_right fun same => ⟨_, same, fun p => by simp [saw]⟩⟩
  | false =>
      rw [saw] at found
      cases found
      exact ⟨_, _, _, rfl, isShape.imp_right fun same => ⟨_, same, fun p => by simp [saw]⟩⟩

/-- A probe that comes to an end has made both passes.  Between them, a fault of the
first one is noted. -/
theorem probeReading_passes
    (first : (firstPass nested reader path).run s = (.ok (outcome, recording), between))
    (probed : (probeReading nested caps reader path).run s = (.ok (shape, value), last)) :
    outcome ≠ .error .exhausted ∧
      ∃ events result check after,
        (∀ v, outcome = .ok v → events = between.events) ∧
          (secondPass reader).run (between.withEvents events) = (.ok (result, check), after) ∧
            recording.Concludes caps.type check shape := by
  have passed :
      (Step.beside Recording.start
        (reader.run (recorder nested) (Recorder.decoder path))).run s =
          (.ok (outcome, recording), between) :=
    first
  rw [probeReading_eq, Step.run_bind_of_ok passed] at probed
  cases outcome with
  | ok v =>
      have concluded : (concludeReading caps reader recording v).run between =
          (.ok (shape, value), last) :=
        probed
      obtain ⟨checked, check, after, second, concludes⟩ := concludeReading_concludes concluded
      exact ⟨nofun, between.events, checked, check, after, fun _ _ => rfl, second, concludes⟩
  | error interrupt =>
      cases interrupt with
      | exhausted => cases probed
      | fault f =>
          have noted : (Step.note (.failed caps.name path f)).run between =
              (.ok (), between.withEvents (between.events ++ [.failed caps.name path f])) :=
            rfl
          replace probed := (Step.run_bind_of_ok noted _).symm.trans probed
          obtain ⟨checked, check, after, second, concludes⟩ := concludeReading_concludes probed
          exact ⟨nofun, _, checked, check, after, nofun, second, concludes⟩

/-- Describing a type that is looked into is probing it by its reader. -/
theorem describeTo_reads
    {a : TypeForm}
    {known : Store}
    {depth : Nat}
    (expands : (s.beside (s.events ++ [.probeStarted]) .empty).Expands a caps reader known)
    (described : (describeTo (depth + 1) a).run s = (.ok shape, last)) :
    ∃ value after, (probeReading (nestedProbe (probe depth)) caps reader []).run
      (known.entering caps.type) = (.ok (shape, value), after) := by
  have guard : known.guard = .empty := by
    have same := (lookup_ignoresEvents .current a).guard_eq
      (s.beside (s.events ++ [.probeStarted]) .empty)
    rwa [expands.found] at same
  have noted : (Step.note .probeStarted).run s =
      (.ok (), s.withEvents (s.events ++ [.probeStarted])) :=
    rfl
  have cleared : (Step.changeGuard fun _ => .empty).run
      (s.withEvents (s.events ++ [.probeStarted])) =
        (.ok (), s.beside (s.events ++ [.probeStarted]) .empty) :=
    rfl
  rw [describeTo, Step.run_bind_of_ok noted, Step.run_bind_of_ok cleared] at described
  obtain ⟨⟨probed, value⟩, reached, probeEnded, restEnded⟩ :=
    Step.run_bind_eq_ok_iff.mp described
  have same : probed = shape := by
    cases restEnded
    rfl
  subst same
  rw [probe, Step.run_bind_of_ok expands.found] at probeEnded
  simp only [expands.isNoScalar, expands.isProbed, expands.reads] at probeEnded
  rw [Step.run_bind_of_ok (Step.run_current known), guard] at probeEnded
  have entered : (Step.changeGuard fun g => g.enter caps.type).run known =
      (.ok (), known.entering caps.type) :=
    rfl
  have probeGuardedEnded :
      (probeGuarded (nestedProbe (probe depth)) caps reader []).run known =
        (.ok (probed, value), reached) :=
    probeEnded
  rw [probeGuarded, Step.run_bind_of_ok entered] at probeGuardedEnded
  obtain ⟨⟨read, result⟩, after, readEnded, completed⟩ :=
    Step.run_bind_eq_ok_iff.mp probeGuardedEnded
  cases completed
  exact ⟨_, after, readEnded⟩

end

/-! ## Where containers show -/

/-- Where what a decoder or a container recorded shows in the tree of a type, and as
which node: keys lead to fields, and `0` to the element of a sequence, which is
that of its first element. -/
inductive Recording.Shows (r : Recording) (root : Shape) : Nat → Path → Shape → Prop
  | root : Shows r root 0 [] root
  | opened {id next : Nat} {p : Path} {s : Shape} :
      Shows r root id p s → r.nodes[id]? = some (.decoder (some next)) → Shows r root next p s
  | field {id child : Nat} {p : Path} {header : ShapeHeader} {isFixed : Bool}
      {fields : List (String × Shape)} {items : List (String × Option Item)}
      {nullKeys : List String} {key : String} {s : Shape} :
      Shows r root id p (.keyed header isFixed fields) →
        r.nodes[id]? = some (.keyed items nullKeys) →
        items.lookup key = some (some (.node child)) → fields.lookup key = some s →
          Shows r root child (p ++ [.key key]) s
  | element {id child : Nat} {p : Path} {header : ShapeHeader} {rest : List Item}
      {isOptional : Bool} {s : Shape} :
      Shows r root id p (.unkeyed header s) →
        r.nodes[id]? = some (.unkeyed (.node child :: rest) isOptional) →
          Shows r root child (p ++ [.index 0]) s

section

variable {r : Recording} {isOpen : Path → Bool} {root s : Shape} {id : Nat} {p : Path}

/-- What a node is finished into, but for its header, or nothing that has parts. -/
def Recording.IsFinished
    (r : Recording)
    (isOpen : Path → Bool)
    (id : Nat)
    (p : Path)
    (s : Shape) :
    Prop :=
  (∃ header, s = .unconstrained header) ∨ (∃ header kind, s = .single header kind) ∨
    ∃ header type depth, s = (r.finishNode isOpen type depth id p).withHeader header

theorem Shape.withHeader_header (s : Shape) : s.withHeader s.header = s := by
  cases s <;> rfl

theorem Shape.withHeader_withHeader
    (first second : ShapeHeader)
    (s : Shape) :
    (s.withHeader first).withHeader second = s.withHeader second := by
  cases s <;> rfl

/-- Whether a node may be missing does not matter for what it is finished from. -/
theorem Recording.IsFinished.optional
    (finished : r.IsFinished isOpen id p s)
    (isOptional : Bool) :
    r.IsFinished isOpen id p (if isOptional then s.optional true else s) := by
  cases isOptional with
  | false => exact finished
  | true =>
      obtain ⟨header, rfl⟩ | ⟨header, kind, rfl⟩ | ⟨header, type, depth, rfl⟩ := finished
      · exact .inl ⟨_, rfl⟩
      · exact .inr (.inl ⟨_, kind, rfl⟩)
      · let node := (r.finishNode isOpen type depth id p).withHeader header
        refine .inr (.inr ⟨{ node.header with isOptional := true }, type, depth, ?_⟩)
        exact Shape.withHeader_withHeader header _ _

/-- What is left under a key or as an element by a node is that node, finished. -/
theorem Recording.isFinished_item
    (r : Recording)
    (isOpen : Path → Bool)
    (child depth : Nat)
    (p : Path) :
    r.IsFinished isOpen child p (r.finishItem isOpen depth (some (.node child)) p) := by
  cases depth with
  | zero => exact .inl ⟨_, rfl⟩
  | succ depth => exact .inr (.inr ⟨_, none, depth, (Shape.withHeader_header _).symm⟩)

/-- What shows in a tree that was finished is finished. -/
theorem Recording.Shows.isFinished
    (shows : r.Shows root id p s)
    (rootFinished : r.IsFinished isOpen 0 [] root) :
    r.IsFinished isOpen id p s := by
  induction shows with
  | root => exact rootFinished
  | opened _ isDecoder inductionHypothesis =>
      obtain unknown | scalar | ⟨header, type, depth, rfl⟩ := inductionHypothesis
      · exact .inl unknown
      · exact .inr (.inl scalar)
      · cases depth with
        | zero => exact .inl ⟨header, rfl⟩
        | succ depth => exact .inr (.inr ⟨header, type, depth, by rw [finishNode, isDecoder]⟩)
  | @field id child p _ _ fields items nullKeys key s _ isKeyed isNode isField inductionHypothesis =>
      obtain ⟨_, isUnknown⟩ | ⟨_, _, isScalar⟩ | ⟨header, type, depth, same⟩ := inductionHypothesis
      · cases isUnknown
      · cases isScalar
      · cases depth with
        | zero => cases same
        | succ depth =>
            rw [finishNode, isKeyed] at same
            cases same
            have found := (Table.lookup_map_entries (fun key item =>
              if nullKeys.contains key then
                (r.finishItem isOpen depth item (p ++ [.key key])).optional true
              else r.finishItem isOpen depth item (p ++ [.key key])) key items).symm.trans isField
            rw [isNode] at found
            cases found
            exact (isFinished_item r isOpen child depth _).optional _
  | @element id child p _ rest isOptional s _ isUnkeyed inductionHypothesis =>
      obtain ⟨_, isUnknown⟩ | ⟨_, _, isScalar⟩ | ⟨header, type, depth, same⟩ := inductionHypothesis
      · cases isUnknown
      · cases isScalar
      · cases depth with
        | zero => cases same
        | succ depth =>
            rw [finishNode, isUnkeyed] at same
            cases same
            rw [List.map_cons, commonElement]
            refine IsFinished.optional ?_ isOptional
            split
            · exact isFinished_item r isOpen child depth _
            · exact .inl ⟨_, rfl⟩

/-- A scalar shows alone. -/
theorem Recording.Shows.eq_of_single
    {header : ShapeHeader}
    {kind : PrimitiveKind}
    (shows : r.Shows (.single header kind) id p s) :
    s = .single header kind := by
  induction shows with
  | root => rfl
  | opened _ _ inductionHypothesis => exact inductionHypothesis
  | field _ _ _ _ inductionHypothesis => cases inductionHypothesis
  | element _ _ inductionHypothesis => cases inductionHypothesis

/-- A keyed container is open in the tree of a type if the second pass found one open
where it stands, and if there was a second pass. -/
theorem Recording.Shows.isFixed_iff
    {type : TypeForm}
    {check : KeyCheck}
    {header : ShapeHeader}
    {isFixed : Bool}
    {fields : List (String × Shape)}
    {items : List (String × Option Item)}
    {nullKeys : List String}
    (concludes : r.Concludes type check root)
    (shows : r.Shows root id p (.keyed header isFixed fields))
    (isKeyed : r.nodes[id]? = some (.keyed items nullKeys)) :
    isFixed = false ↔ r.sawKeyed = true ∧ p ∈ check.openPaths := by
  obtain ⟨_, _, rfl⟩ | ⟨openPaths, rfl, isOpen⟩ := concludes
  · cases shows.eq_of_single
  · have finished : r.IsFinished openPaths.contains id p (.keyed header isFixed fields) :=
      shows.isFinished (.inr (.inr ⟨_, some type, _, (Shape.withHeader_header _).symm⟩))
    obtain ⟨_, isUnknown⟩ | ⟨_, _, isScalar⟩ | ⟨_, _, depth, same⟩ := finished
    · cases isUnknown
    · cases isScalar
    · cases depth with
      | zero => cases same
      | succ depth =>
          rw [finishNode, isKeyed] at same
          cases same
          rw [← isOpen p, Bool.not_eq_false', List.contains_iff_mem]

end

end SchemaProbe

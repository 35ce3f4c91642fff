import Mathlib
import SchemaProbe.Proofs.Passes

namespace SchemaProbe

/-!
# Loops over keys

The key-checking surface has no keys, so the second pass of a probe never enters
a loop over them.  A keyed container that a program opens there is open only if
the rest of the program asks one of the same path for all its keys, whatever
the first pass does with it.
-/

mutual

/-- A statement that does nothing for the keys of a container. -/
def Statement.skipKeys : Statement → Statement
  | .forKeys on key _ => .forKeys on key []
  | .untilEnd on body => .untilEnd on (Statement.skipKeysAll body)
  | .branch subject expected agreed otherwise =>
    .branch subject expected (Statement.skipKeysAll agreed) (Statement.skipKeysAll otherwise)
  | .attempt body handler =>
    .attempt (Statement.skipKeysAll body) (Statement.skipKeysAll handler)
  | other => other

/-- Statements that do nothing for the keys of a container. -/
def Statement.skipKeysAll : List Statement → List Statement
  | [] => []
  | first :: rest => first.skipKeys :: Statement.skipKeysAll rest

end

section

variable {placeholder : Placeholder} {delegate : Delegate KeyCheck}

/-- A container has no keys when they are checked. -/
theorem keys_keyChecker
    {h : Handle}
    {keys : List Value}
    {s reached : KeyCheck × Store}
    (ended : ((keyChecker placeholder).keys h).run s = (.ok keys, reached)) :
    keys = [] := by
  obtain ⟨role, path, relative, slot⟩ := h
  cases role with
  | keyed => cases ended; rfl
  | _ => cases ended

/-- A loop over the keys of a container comes to nothing when keys are checked. -/
theorem forKeys_keyChecker
    (on key : String)
    (body others : List Statement) :
    (Statement.forKeys on key body).run (keyChecker placeholder) delegate =
      (Statement.forKeys on key others).run (keyChecker placeholder) delegate := by
  rw [Statement.run, Statement.run]
  refine congrArg _ (funext fun h => Step.ext_run fun s => ?_)
  rw [Step.run_bind, Step.run_bind]
  cases asked : (Run.onSurface ((keyChecker placeholder).keys h)).run s with
  | mk outcome reached =>
      cases outcome with
      | error interrupt => rfl
      | ok keys =>
          have outcome := congrArg Prod.fst asked
          have ended : ((keyChecker placeholder).keys h).run (s.1.surface, s.2) = (.ok keys, _) :=
            Prod.ext outcome rfl
          rw [keys_keyChecker ended]
          rfl

mutual

/-- A statement runs the same without its loops over keys when keys are checked. -/
theorem Statement.run_skipKeys (statement : Statement) :
    statement.skipKeys.run (keyChecker placeholder) delegate =
      statement.run (keyChecker placeholder) delegate := by
  cases statement with
  | forKeys on key body => exact forKeys_keyChecker on key [] body
  | untilEnd on body =>
      rw [skipKeys, Statement.run, Statement.run, Statement.runAll_skipKeys body]
  | branch subject expected agreed otherwise =>
      rw [skipKeys, Statement.run, Statement.run, Statement.runAll_skipKeys agreed,
        Statement.runAll_skipKeys otherwise]
  | attempt body handler =>
      rw [skipKeys, Statement.run, Statement.run, Statement.runAll_skipKeys body,
        Statement.runAll_skipKeys handler]
  | _ => rfl

/-- Statements run the same without their loops over keys when keys are checked. -/
theorem Statement.runAll_skipKeys (body : List Statement) :
    Statement.runAll (keyChecker placeholder) delegate (Statement.skipKeysAll body) =
      Statement.runAll (keyChecker placeholder) delegate body := by
  cases body with
  | nil => rfl
  | cons first rest =>
      rw [skipKeysAll, Statement.runAll, Statement.runAll, Statement.run_skipKeys first,
        Statement.runAll_skipKeys rest]

end

end

section

variable {s known between last : Store} {a : TypeForm} {caps : Capabilities} {maker : Maker}
  {body : Program} {depth : Nat} {v : Value} {recording : Recording} {shape : Shape}

/-- The second pass of a program is that of the program without its loops over
keys. -/
theorem secondPass_skipKeys
    (maker : Maker)
    (body : Program) :
    secondPass (.program maker (Statement.skipKeysAll body)) = secondPass (.program maker body) := by
  rw [secondPass, secondPass, run_eq_runWith, run_eq_runWith, Reader.runWith, Reader.runWith,
    Program.run, Program.run, Statement.runAll_skipKeys]

/-- A keyed container that a program opened is open in the description of its class
exactly if a container where it stands is asked for all its keys when the program
runs a second time without its loops over keys; what was asked in the loops, there
or by the first pass, makes no difference. -/
theorem describe_open_iff
    (expands : (s.beside (s.events ++ [.probeStarted]) .empty).Expands a caps
      (.program maker body) known)
    (first : (firstPass (nestedProbe (probe depth)) (.program maker body) []).run
      (known.entering caps.type) = (.ok (.ok v, recording), between))
    (described : (describeTo (depth + 1) a).run s = (.ok shape, last)) :
    ∃ result check after,
      (secondPass (.program maker (Statement.skipKeysAll body))).run between =
          (.ok (result, check), after) ∧
        ∀ id p header isFixed fields items nullKeys,
          recording.Shows shape id p (.keyed header isFixed fields) →
          recording.nodes[id]? = some (.keyed items nullKeys) →
            (isFixed = false ↔ recording.sawKeyed = true ∧ p ∈ check.openPaths) := by
  obtain ⟨value, after, probed⟩ := describeTo_reads expands described
  obtain ⟨_, events, result, check, reached, unnoted, second, concludes⟩ :=
    probeReading_passes first probed
  rw [unnoted v rfl, ← secondPass_skipKeys] at second
  exact ⟨result, check, reached, second, fun id p header isFixed fields items nullKeys shows
    isKeyed => shows.isFixed_iff concludes isKeyed⟩

end

/-- A class whose objects are maps of maps. -/
def mapsClass : ClassRef :=
  .user ⟨1, "Maps", "shapes"⟩

/-- Maps are read in a loop over the keys of the outer one, in which there is a loop
over the keys of an inner one. -/
def mapsProgram : Program :=
  [.request "d" .openKeyed (some "outer"),
    .forKeys "outer" "key"
      [.request "outer" (.nestedKeyed (some (.variable "key"))) (some "inner"),
        .forKeys "inner" "name"
          [.request "inner" (.decode (.known (.builtin .int)) (some (.variable "name"))) none]]]

/-- The record of a class that is decoded by a program. -/
def programRecord (u : UserClass) (body : Program) : ClassRecord where
  cls := u
  lineage := [.user u]
  base := none
  params := []
  hooks := { Hooks.none with program := some body }
  body := .plain

/-- What is found out about a class that is decoded by a program. -/
def programCapabilities (u : UserClass) (body : Program) : Capabilities :=
  { Capabilities.named (.cls (.user u)) u.name with
    reader := some (.program (.cls (.user u)) body)
    isReferenceable := true }

/-- The state in which maps are declared. -/
def mapsStore : Store :=
  { Store.initial with
    world :=
      { World.empty with
        classes := [programRecord ⟨1, "Maps", "shapes"⟩ mapsProgram]
        names := [("Maps", .cls mapsClass)] } }

/-- What the first pass records of maps: the outer container is the second node, the
inner one the third. -/
def mapsRecording : Recording :=
  ⟨[.decoder (some 1), .keyed [("", some (.node 2))] [],
    .keyed [("", some (.shape (.single (.of (some (.builtin .int))) .int)))] []], true⟩

/-- The shape of maps. -/
def mapsShape : Shape :=
  .keyed (.of (some (.cls mapsClass))) false
    [("", .keyed (.of none) true [("", .single (.of (some (.builtin .int))) .int)])]

/-- The state in which maps are known. -/
def mapsKnown : Store :=
  ((lookup .current (.cls mapsClass)).run
    (mapsStore.beside (mapsStore.events ++ [.probeStarted]) .empty)).2

/-- The first pass of a description of maps. -/
def mapsPass : Except Interrupt (Except Interrupt Value × Recording) × Store :=
  (firstPass (nestedProbe (probe 2)) (.program (.cls mapsClass) mapsProgram) []).run
    (mapsKnown.entering (.cls mapsClass))

/-- What is found out about maps. -/
theorem mapsStore_expands :
    (mapsStore.beside (mapsStore.events ++ [.probeStarted]) .empty).Expands (.cls mapsClass)
      (programCapabilities ⟨1, "Maps", "shapes"⟩ mapsProgram)
      (.program (.cls mapsClass) mapsProgram) mapsKnown :=
  ⟨Prod.ext rfl rfl, rfl, rfl, rfl⟩

set_option maxRecDepth 20000 in
/-- The first pass of a description of maps finds one key at each level. -/
theorem mapsPass_eq :
    (firstPass (nestedProbe (probe 2)) (.program (.cls mapsClass) mapsProgram) []).run
        (mapsKnown.entering (programCapabilities ⟨1, "Maps", "shapes"⟩ mapsProgram).type) =
      (.ok (.ok (.object mapsClass (some [.int 0])), mapsRecording), mapsPass.2) := by
  refine Prod.ext ?_ rfl
  cbv

set_option maxRecDepth 20000 in
/-- The description of maps. -/
theorem describeTo_maps :
    (describeTo 3 (.cls mapsClass)).run mapsStore =
      (.ok mapsShape, ((describeTo 3 (.cls mapsClass)).run mapsStore).2) := by
  refine Prod.ext ?_ rfl
  cbv

/-- The inner one of maps of maps is described with fixed fields, because the loop in
which it is asked for its keys does not count. -/
theorem describe_open_iff_maps :
    (describeTo 3 (.cls mapsClass)).run mapsStore =
        (.ok mapsShape, ((describeTo 3 (.cls mapsClass)).run mapsStore).2) ∧
      ∃ result check after,
        (secondPass (.program (.cls mapsClass) (Statement.skipKeysAll mapsProgram))).run
            mapsPass.2 = (.ok (result, check), after) ∧
          [.key ""] ∉ check.openPaths := by
  obtain ⟨result, check, after, second, isOpen⟩ :=
    describe_open_iff mapsStore_expands mapsPass_eq describeTo_maps
  refine ⟨describeTo_maps, result, check, after, second, fun member => ?_⟩
  have shows : mapsRecording.Shows mapsShape 2 [.key ""]
      (.keyed (.of none) true [("", .single (.of (some (.builtin .int))) .int)]) :=
    .field (.opened .root rfl) rfl rfl rfl
  have fixed := isOpen 2 _ _ _ _ _ _ shows rfl
  exact Bool.false_ne_true (fixed.mpr ⟨rfl, member⟩).symm

end SchemaProbe

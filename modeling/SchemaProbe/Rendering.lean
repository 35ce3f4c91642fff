import SchemaProbe.TypeForm.Name
import SchemaProbe.Shape

namespace SchemaProbe

/-!
# Rendering shapes

A shape is drawn as a tree: one label for each node, and guides in front of it
that lead to its parent.  A label with line breaks takes several lines; the
guides go on beside the later ones.
-/

/-- The word for a node in a drawing. -/
def Shape.word : Shape → String
  | .single _ kind => kind.name
  | .keyed _ true _ => "Struct"
  | .keyed _ false _ => "Map"
  | .unkeyed _ _ => "List"
  | .recursive _ marker => "-> " ++ marker.schemaName
  | .unconstrained _ => "Any"

/-- The label of a node under a key: its word, its type and its cases. -/
def Shape.label (key : String) (s : Shape) : String :=
  let mark := if s.isOptional then "?" else ""
  let type :=
    match s.type with
    | some a => if s.isRecursive then "" else " (" ++ a.schemaName ++ ")"
    | none => ""
  let cases :=
    match s.cases with
    | some values => " " ++ (Value.list values).display
    | none => ""
  key ++ mark ++ ": " ++ s.word ++ type ++ cases

/-- Whether a character does not reach the page. -/
def isUnprinted (c : Char) : Bool :=
  [7, 8, 11, 12, 13].contains c.toNat

/-- Characters with tabs filled up to the next column that is a multiple of
eight. -/
def fillTabs (column : Nat) : List Char → List Char
  | [] => []
  | c :: rest =>
    if c == '\t' then
      let width := 8 - column % 8
      List.replicate width ' ' ++ fillTabs (column + width) rest
    else c :: fillTabs (column + 1) rest

/-- Splits characters at line breaks. -/
def splitLines : List Char → List (List Char)
  | [] => [[]]
  | c :: rest =>
    if c == '\n' then [] :: splitLines rest
    else
      match splitLines rest with
      | [] => [[c]]
      | line :: others => (c :: line) :: others

/-- The lines of a label. -/
def labelLines (label : String) : List String :=
  (splitLines (label.toList.filter fun c => !isUnprinted c)).map fun line =>
    String.ofList (fillTabs 0 line)

/-- Lines behind guides, one guide for the first line and one for the others. -/
def behind (first later : String) : List String → List String
  | [] => []
  | line :: rest => (first ++ line) :: rest.map fun other => later ++ other

/-- The guides of a node that has later siblings, or is the last one. -/
def guides (isLast : Bool) : String × String :=
  if isLast then ("└── ", "    ") else ("├── ", "│   ")

namespace Shape

mutual

/-- The lines of a tree: the label of the node and, behind guides, the lines of
what it contains. -/
def lines (key : String) : Shape → List String
  | .single h kind => labelLines ((Shape.single h kind).label key)
  | .keyed h isFixed fields =>
    labelLines ((Shape.keyed h isFixed fields).label key) ++ fieldLines fields
  | .unkeyed h element =>
    labelLines ((Shape.unkeyed h element).label key)
      ++ behind (guides true).1 (guides true).2 (lines "[0]" element)
  | .recursive h marker => labelLines ((Shape.recursive h marker).label key)
  | .unconstrained h => labelLines ((Shape.unconstrained h).label key)

/-- The lines of fields, each behind its guides. -/
def fieldLines : List (String × Shape) → List String
  | [] => []
  | (name, s) :: rest =>
    behind (guides rest.isEmpty).1 (guides rest.isEmpty).2 (lines name s) ++ fieldLines rest

end

/-- The number of branches that leave the root. -/
def branchCount : Shape → Nat
  | .keyed _ _ fields => fields.length
  | .unkeyed _ _ => 1
  | _ => 0

end Shape

end SchemaProbe

import SchemaProbe.Fault

namespace SchemaProbe

/-!
# Events

What happens while a type is probed and its schema is synthesised, in the order
in which it happens.
-/

/-- A path in one text: keys after points, positions in brackets. -/
def formatPath : Path → String
  | [] => "<root>"
  | first :: rest =>
    let later := rest.map fun step =>
      match step with
      | .key name => "." ++ name
      | .index position => "[" ++ toString position ++ "]"
    (match first with
      | .key name => name
      | .index position => "[" ++ toString position ++ "]") ++ String.join later

/-- The display form of a path as a tuple of its steps. -/
def pathTuple (path : Path) : String :=
  tupleText (path.map fun step =>
    match step with
    | .key name => Text.quoted name
    | .index position => toString position)

/-- Something that happens. -/
inductive Event
  | probeStarted
  | probeEnded (kind : String)
  | synthesisStarted
  | withoutReader (name : String)
  | recursion (path : Path) (name : String)
  | probedAgain (name : String) (path : Path)
  | failed (name : String) (path : Path) (fault : Fault)
  | unprobeable (path : Path) (message : String)
  | checkFailed (name : String) (fault : Fault)
  | openKeys (name : String) (paths : List Path)
  | backReference (name : String)
  | overwritten (name : String)
  deriving Repr, DecidableEq

end SchemaProbe

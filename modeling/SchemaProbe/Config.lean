import SchemaProbe.Schema
import SchemaProbe.Text.LetterCase
import SchemaProbe.Text.Words
import SchemaProbe.World

namespace SchemaProbe

/-!
# Configuration

How dates are written, how the names of fields become the names of properties,
and whether schemas are shared under their names.
-/

/-- How dates are written. -/
inductive DateFormat
  | iso8601
  | epochSeconds
  | epochMilliseconds
  deriving Repr, DecidableEq

namespace DateFormat

/-- Every date format. -/
def all : List DateFormat :=
  [.iso8601, .epochSeconds, .epochMilliseconds]

/-- The word for a date format. -/
def name : DateFormat → String
  | .iso8601 => "iso8601"
  | .epochSeconds => "epoch_seconds"
  | .epochMilliseconds => "epoch_milliseconds"

/-- The date format that a value names. -/
def ofValue? (v : Value) : Except Fault DateFormat :=
  match all.find? fun f => v.equals (.text f.name) with
  | some f => .ok f
  | none => .error (.invalidChoice v.display "DateFormat")

end DateFormat

/-- How the words of a name are joined. -/
inductive KeyStrategy
  | asDeclared
  | snakeCase
  | camelCase
  | kebabCase
  deriving Repr, DecidableEq

namespace KeyStrategy

/-- Every strategy. -/
def all : List KeyStrategy :=
  [.asDeclared, .snakeCase, .camelCase, .kebabCase]

/-- The word for a strategy. -/
def name : KeyStrategy → String
  | .asDeclared => "as_declared"
  | .snakeCase => "snake_case"
  | .camelCase => "camel_case"
  | .kebabCase => "kebab_case"

/-- The strategy that a value names. -/
def ofValue? (v : Value) : Except Fault KeyStrategy :=
  match all.find? fun s => v.equals (.text s.name) with
  | some s => .ok s
  | none => .error (.invalidChoice v.display "KeyStrategy")

/-- Small words joined by a mark. -/
def joinLower (mark : Char) (words : List (List Char)) : List Char :=
  [mark].intercalate (words.map Text.lowerChars)

/-- Words joined in camel case: the first one small, the others capitalised. -/
def joinCamel : List (List Char) → List Char
  | [] => []
  | first :: rest => Text.lowerChars first ++ (rest.map Text.capitalizeChars).flatten

/-- The characters of a name under a strategy.  A name without words stays as it
is. -/
def applyChars (s : KeyStrategy) (name : List Char) : List Char :=
  match s, Text.words name with
  | .asDeclared, _ => name
  | _, [] => name
  | .snakeCase, words => joinLower '_' words
  | .kebabCase, words => joinLower '-' words
  | .camelCase, words => joinCamel words

/-- A name under a strategy. -/
def apply (s : KeyStrategy) (name : String) : String :=
  String.ofList (s.applyChars name.toList)

end KeyStrategy

/-- How names of fields become names of properties: by a strategy, or by any
function. -/
inductive KeyEncoder
  | strategy (s : KeyStrategy)
  | custom (f : String → String)

namespace KeyEncoder

/-- The name of the property of a field. -/
def encode : KeyEncoder → String → String
  | .strategy s => s.apply
  | .custom f => f

/-- The word for an encoder. -/
def name : KeyEncoder → String
  | .strategy s => s.name
  | .custom _ => "custom"

/-- The encoder that writes names in capitals. -/
def upperCase : KeyEncoder :=
  .custom fun name => String.ofList (Text.upperChars name.toList)

/-- The encoder that writes names in small letters. -/
def lowerCase : KeyEncoder :=
  .custom fun name => String.ofList (Text.lowerChars name.toList)

/-- The encoder that writes names backwards. -/
def backwards : KeyEncoder :=
  .custom fun name => String.ofList name.toList.reverse

/-- The encoder that writes a text in front of names. -/
def inFront (text : String) : KeyEncoder :=
  .custom fun name => text ++ name

/-- The encoder that writes one text for all names. -/
def constant (text : String) : KeyEncoder :=
  .custom fun _ => text

end KeyEncoder

/-- The configuration of synthesis. -/
structure SchemaConfig where
  dateFormat : DateFormat
  keyEncoder : KeyEncoder
  extractsReferences : Bool

namespace SchemaConfig

/-- The configuration where nothing is said. -/
def default : SchemaConfig :=
  ⟨.iso8601, .strategy .asDeclared, true⟩

/-- The schema of a date; a day without a time has a format of its own where
dates are texts. -/
def dateSchema (config : SchemaConfig) (w : World) (type : Option TypeForm) : Schema :=
  match config.dateFormat with
  | .epochSeconds => .primitive .number (some "double")
  | .epochMilliseconds => .primitive .integer (some "int64")
  | .iso8601 =>
    let isDay :=
      match type with
      | some (.cls c) => w.inherits c .date && !w.inherits c .datetime
      | _ => false
    .primitive .string (some (if isDay then "date" else "date-time"))

end SchemaConfig

end SchemaProbe

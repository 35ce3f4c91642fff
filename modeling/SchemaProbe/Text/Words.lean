import SchemaProbe.Text.CharacterSet

namespace SchemaProbe.Text

/-!
# Words of an identifier

An identifier in camel case, snake case, kebab case or with an acronym in it
is a sequence of words.  A word ends where a small letter or a digit is
followed by a capital, where a run of capitals gives way to a capitalised
word, and at every separator.  Only the unaccented Latin letters mark the
first two kinds of boundary.
-/

/-- Whether a word ends between two neighbouring characters, given the
character after them. -/
def endsWord
    (before after : Char)
    (following : Option Char) :
    Bool :=
  after.isUpper &&
    (before.isLower || before.isDigit ||
      (before.isUpper && following.any Char.isLower))

/-- An identifier with a space at each boundary that has no separator. -/
def spaced : List Char → List Char
  | [] => []
  | [c] => [c]
  | before :: after :: rest =>
    if endsWord before after rest.head? then
      before :: ' ' :: spaced (after :: rest)
    else before :: spaced (after :: rest)

/-- Whether a character stands between words and belongs to none. -/
def isSeparator (c : Char) : Bool :=
  isBlank c || c == '_' || c == '-'

/-- The pieces between separators, empty ones left out; `current` is the
piece read so far. -/
def pieces (current : List Char) : List Char → List (List Char)
  | [] => if current.isEmpty then [] else [current]
  | c :: rest =>
    if isSeparator c then
      if current.isEmpty then pieces [] rest else current :: pieces [] rest
    else pieces (current ++ [c]) rest

/-- The words of an identifier. -/
def words (name : List Char) : List (List Char) :=
  pieces [] (spaced name)

end SchemaProbe.Text

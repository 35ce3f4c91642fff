import SchemaProbe.TypeForm.Display

namespace SchemaProbe

/-!
# Component names

Every type form has a name that is safe as the last segment of a reference:
letters, digits and underscores only, with no underscore at either end.  A
class is named by its own name; a parametrised type form joins the names of
what it applies and of its arguments; anything else is named by its display
form.
-/

/-- Whether a character can stand in a component name. -/
def isNameChar (c : Char) : Bool :=
  c.isAlphanum || c == '_'

/-- A text with each run of other characters folded into one underscore;
`inRun` says that the run before has been written already. -/
def foldOthers (inRun : Bool) : List Char → List Char
  | [] => []
  | c :: rest =>
    if isNameChar c then c :: foldOthers false rest
    else if inRun then foldOthers true rest
    else '_' :: foldOthers true rest

/-- A text without the underscores at its ends. -/
def trimUnderscores (text : List Char) : List Char :=
  ((text.dropWhile (· == '_')).reverse.dropWhile (· == '_')).reverse

/-- The name for a type about which nothing can be said. -/
def anyName : String :=
  "Any"

/-- A text made into a component name. -/
def nameOfText (text : String) : String :=
  match trimUnderscores (foldOthers false text.toList) with
  | [] => anyName
  | chars => String.ofList chars

/-- A display form made into a component name; the home of the typing forms
is left out of it. -/
def nameOfDisplay (display : String) : String :=
  nameOfText (display.replace "typing." "")

/-- The name of a class. -/
def ClassRef.schemaName (c : ClassRef) : String :=
  nameOfText c.name

/-- The name of what arguments are applied to. -/
def Origin.schemaName : Origin → String
  | .cls c => c.schemaName
  | .classVar => "ClassVar"
  | .final => "Final"

/-- The word for a union. -/
def UnionStyle.schemaName : UnionStyle → String
  | .named => "Union"
  | .bar => "UnionType"

/-- Names joined by underscores. -/
def joinNames (names : List String) : String :=
  String.intercalate "_" names

mutual

/-- The component name of a type form. -/
def TypeForm.schemaName : TypeForm → String
  | .any => anyName
  | .cls c => c.schemaName
  | .annotated inner _ => inner.schemaName
  | .bare b => (ClassRef.builtin b).schemaName
  | .generic origin args => joinNames (origin.schemaName :: TypeForm.schemaNames args)
  | .callable params result =>
    joinNames
      [(ClassRef.builtin .callable).schemaName,
        nameOfDisplay (Value.list (params.map Value.type)).display,
        result.schemaName]
  | .union style members => joinNames (style.schemaName :: TypeForm.schemaNames members)
  | .literal values => joinNames ("Literal" :: Value.schemaNames values)
  | .value v => v.schemaName
  | a => nameOfDisplay a.display

/-- The component names of type forms. -/
def TypeForm.schemaNames : List TypeForm → List String
  | [] => []
  | a :: rest => a.schemaName :: TypeForm.schemaNames rest

/-- The component name of a value in the place of a type. -/
def Value.schemaName : Value → String
  | .type a => a.schemaName
  | v => nameOfDisplay v.display

/-- The component names of values. -/
def Value.schemaNames : List Value → List String
  | [] => []
  | v :: rest => v.schemaName :: Value.schemaNames rest

end

end SchemaProbe

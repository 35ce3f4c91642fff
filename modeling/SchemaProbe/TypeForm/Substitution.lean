import SchemaProbe.TypeForm.Build

namespace SchemaProbe

/-!
# Substitution in type forms

Names that stand for classes and variables that stand for arguments are
replaced inside a type form, which is then built anew: a union whose members
become equal loses the repetition.  Notes can be taken off at every depth in
the same way.
-/

namespace TypeForm

mutual

/-- The names that a type form refers to without being resolved. -/
def names : TypeForm → List String
  | .generic _ args => namesAll args
  | .callable params result => namesAll params ++ names result
  | .union _ members => namesAll members
  | .annotated inner _ => names inner
  | .reference name => [name]
  | .text s => [s]
  | _ => []

/-- The names that type forms refer to. -/
def namesAll : List TypeForm → List String
  | [] => []
  | a :: rest => names a ++ namesAll rest

end

/-- A union of members in the style that it had; what cannot stand beside a
bar keeps the members as they are. -/
def unionAs
    (style : UnionStyle)
    (members : List TypeForm) :
    TypeForm :=
  match style with
  | .named => unionOf members
  | .bar => (barUnion? members).getD (.union .bar members)

mutual

/-- Replaces names and variables. -/
def substitute
    (ofName ofVariable : String → Option TypeForm) :
    TypeForm → TypeForm
  | .variable name => (ofVariable name).getD (.variable name)
  | .generic origin args => .generic origin (substituteAll ofName ofVariable args)
  | .callable params result =>
    .callable (substituteAll ofName ofVariable params) (substitute ofName ofVariable result)
  | .union style members => unionAs style (substituteAll ofName ofVariable members)
  | .annotated inner notes =>
    match substitute ofName ofVariable inner with
    | .annotated core others => .annotated core (others ++ notes)
    | replaced => .annotated replaced notes
  | .reference name => (ofName name).getD (.reference name)
  | .text s => (ofName s).getD (.text s)
  | a => a

/-- Replaces names and variables in type forms. -/
def substituteAll
    (ofName ofVariable : String → Option TypeForm) :
    List TypeForm → List TypeForm
  | [] => []
  | a :: rest => substitute ofName ofVariable a :: substituteAll ofName ofVariable rest

end

/-- Resolves every name, or fails if one of them is unknown. -/
def resolveNames?
    (ofName : String → Option TypeForm)
    (a : TypeForm) :
    Option TypeForm :=
  if a.names.all fun name => (ofName name).isSome then
    some (a.substitute ofName fun _ => none)
  else none

mutual

/-- A type form without notes at any depth. -/
def plain : TypeForm → TypeForm
  | .generic origin args => .generic origin (plainAll args)
  | .callable params result => .callable (plainAll params) (plain result)
  | .union style members => unionAs style (plainAll members)
  | .annotated inner _ => plain inner
  | a => a

/-- Type forms without notes at any depth. -/
def plainAll : List TypeForm → List TypeForm
  | [] => []
  | a :: rest => plain a :: plainAll rest

end

mutual

/-- The variables of a type form. -/
def typeVariables : TypeForm → List String
  | .variable name => [name]
  | .generic _ args => typeVariablesAll args
  | .callable params result => typeVariablesAll params ++ typeVariables result
  | .union _ members => typeVariablesAll members
  | .annotated inner _ => typeVariables inner
  | _ => []

/-- The variables of type forms. -/
def typeVariablesAll : List TypeForm → List String
  | [] => []
  | a :: rest => typeVariables a ++ typeVariablesAll rest

end

mutual

/-- A type form in brackets behind the name of a class, where classes are
shown without their homes. -/
def shownAsArgument : TypeForm → String
  | .any => "Any"
  | .cls c => c.name
  | .text s => s
  | .generic (.cls (.builtin b)) args =>
    enclosed (b.name ++ "[") (shownAsArguments args) "]"
  | .callable _ result => enclosed "Callable[" ["list", shownAsArgument result] "]"
  | .union _ members => enclosed "Union[" (shownAsArguments members) "]"
  | .ellipsis => "..."
  | .value v => v.classOf.name
  | a => a.displayInside.replace "typing." ""

/-- Type forms in brackets behind the name of a class. -/
def shownAsArguments : List TypeForm → List String
  | [] => []
  | a :: rest => shownAsArgument a :: shownAsArguments rest

end

end TypeForm

end SchemaProbe

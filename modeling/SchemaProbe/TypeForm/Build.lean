import SchemaProbe.TypeForm.Identity

namespace SchemaProbe

/-!
# Building and taking apart type forms

Unions flatten, drop repeated members and vanish around a single one;
literals flatten and keep one of each value and class; annotated layers merge.
The null branch of a union can be split off.
-/

namespace TypeForm

/-- Type forms without those that are the same type as an earlier one. -/
def distinct : List TypeForm → List TypeForm
  | [] => []
  | a :: rest => a :: (distinct rest).filter fun b => !a.same b

/-- What a plain value or text becomes as an argument of a typing form: the
null value stands for its class, and a text refers to a type by name. -/
def argument : TypeForm → TypeForm
  | .value .null => nullType
  | .text s => .reference s
  | a => a

/-- The members of a union, or the type form alone. -/
def unionMembers : TypeForm → List TypeForm
  | .union _ members => members
  | a => [a]

/-- The union of type forms in a style. -/
def unionIn
    (style : UnionStyle)
    (members : List TypeForm) :
    TypeForm :=
  match distinct (members.flatMap unionMembers) with
  | [single] => single
  | several => .union style several

/-- The named union of type forms. -/
def unionOf (members : List TypeForm) : TypeForm :=
  unionIn .named (members.map argument)

/-- A type form or null. -/
def optional (a : TypeForm) : TypeForm :=
  unionOf [a, nullType]

/-- Whether a type form is a typing form, which turns a bar union into a
named one. -/
def isTypingForm : TypeForm → Bool
  | .union .named _ => true
  | .literal _ => true
  | .annotated _ _ => true
  | .variable _ => true
  | .newType _ => true
  | .bare _ => true
  | .never => true
  | .reference _ => true
  | .generic (.cls (.user _)) _ => true
  | .generic .classVar _ => true
  | .generic .final _ => true
  | _ => false

/-- Whether a type form can stand beside a bar. -/
def standsBesideBar : TypeForm → Bool
  | .text _ => false
  | .value v => v.isNull
  | .ellipsis => false
  | _ => true

/-- Two type forms with a bar between them.  A text or another value that is
no type can stand there only beside a typing form. -/
def bar?
    (left right : TypeForm) :
    Option TypeForm :=
  if left.isTypingForm || right.isTypingForm then some (unionOf [left, right])
  else if left.standsBesideBar && right.standsBesideBar then
    some (unionIn .bar [left.argument, right.argument])
  else none

/-- Type forms with bars between them. -/
def barUnion? : List TypeForm → Option TypeForm
  | [] => none
  | first :: rest => rest.foldlM bar? first

/-- The values of a literal type form, or the value alone. -/
def literalValues : Value → List Value
  | .type (.literal values) => values
  | v => [v]

/-- Values without those of the same value and class as an earlier one. -/
def distinctLiterals : List Value → List Value
  | [] => []
  | v :: rest =>
    v :: (distinctLiterals rest).filter fun w => !(v.equals w && v.classOf == w.classOf)

/-- The literal type form of values.  Repetitions are only dropped where all
values can be looked up. -/
def literalOf (values : List Value) : TypeForm :=
  let flat := values.flatMap literalValues
  .literal (if Value.allHashable flat then distinctLiterals flat else flat)

/-- A type form with a note; notes on an annotated type form are added to
those it has. -/
def withNote
    (a : TypeForm)
    (note : Value) :
    TypeForm :=
  match a.argument with
  | .annotated inner notes => .annotated inner (notes ++ [note])
  | inner => .annotated inner [note]

/-- A type form without the notes around it. -/
def withoutNotes : TypeForm → TypeForm
  | .annotated inner _ => withoutNotes inner
  | a => a

/-- A type form without its null branch, and whether it had one. -/
def stripNull : TypeForm → TypeForm × Bool
  | .annotated inner _ => stripNull inner
  | .union style members =>
    let others := members.filter fun m => !m.isNullType
    if others.length < members.length then
      match others with
      | [single] => (single, true)
      | several => (unionOf several, true)
    else (.union style members, false)
  | a => (a, false)

end TypeForm

end SchemaProbe

import SchemaProbe.Fault
import SchemaProbe.Schema

namespace SchemaProbe

/-!
# Written terms

A term is a type form or a value as it is written, with classes and members
by name.  What a name refers to is settled when the term is resolved, which for
hooks and decode programs is each time that they run.
-/

mutual

/-- A written type form. -/
inductive TypeTerm
  | known (a : TypeForm)
  | named (name : String)
  | optional (inner : TypeTerm)
  | union (members : List TypeTerm)
  | bar (members : List TypeTerm)
  | literal (values : List ValueTerm)
  | annotated (inner : TypeTerm) (note : ValueTerm)
  | generic (origin : Origin) (args : List TypeTerm)
  | callable (params : List TypeTerm) (result : TypeTerm)
  | applied (generic : TypeTerm) (args : List TypeTerm)
  | inPlace (value : ValueTerm)

/-- A written value. -/
inductive ValueTerm
  | known (v : Value)
  | items (shape : SequenceShape) (elements : List ValueTerm)
  | dict (entries : List (ValueTerm × ValueTerm))
  | type (t : TypeTerm)
  | member (enumeration name : String)
  | instanceOf (name : String)

end

instance : Inhabited TypeTerm := ⟨.known .any⟩

instance : Inhabited ValueTerm := ⟨.known .null⟩

/-- The type form that a value is when it stands in the place of one. -/
def TypeForm.ofValue : Value → TypeForm
  | .text s => .text s
  | .type a => a
  | v => .value v

end SchemaProbe

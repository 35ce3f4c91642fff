import SchemaProbe.Store

namespace SchemaProbe

/-!
# Weights

The weight of something is the number of type forms written in it.  The
weight of everything declared, registered and found out before bounds how many
types can be met while a type is probed.
-/

/-- The sum of the weights of some elements. -/
def total (weight : α → Nat) : List α → Nat
  | [] => 0
  | a :: rest => weight a + total weight rest

mutual

/-- The weight of a value. -/
def Value.weight : Value → Nat
  | .items _ _ elements => 1 + Value.weightAll elements
  | .dict _ entries => 1 + Value.weightEntries entries
  | .type a => 1 + a.weight
  | .member _ _ _ value => 1 + value.weight
  | .record _ fields => 1 + Value.weightFields fields
  | _ => 1

/-- The weight of values. -/
def Value.weightAll : List Value → Nat
  | [] => 0
  | v :: rest => v.weight + Value.weightAll rest

/-- The weight of entries. -/
def Value.weightEntries : List (Value × Value) → Nat
  | [] => 0
  | (key, value) :: rest => key.weight + value.weight + Value.weightEntries rest

/-- The weight of fields. -/
def Value.weightFields : List (String × Value) → Nat
  | [] => 0
  | (_, value) :: rest => value.weight + Value.weightFields rest

/-- The weight of a type form. -/
def TypeForm.weight : TypeForm → Nat
  | .generic _ args => 1 + TypeForm.weightAll args
  | .callable params result => 1 + TypeForm.weightAll params + result.weight
  | .union _ members => 2 + TypeForm.weightAll members
  | .literal values => 1 + Value.weightAll values
  | .annotated inner notes => 1 + inner.weight + Value.weightAll notes
  | .value v => 1 + v.weight
  | _ => 1

/-- The weight of type forms. -/
def TypeForm.weightAll : List TypeForm → Nat
  | [] => 0
  | a :: rest => a.weight + TypeForm.weightAll rest

end

mutual

/-- The weight of a written type form. -/
def TypeTerm.weight : TypeTerm → Nat
  | .known a => 1 + a.weight
  | .named _ => 1
  | .optional inner => 2 + inner.weight
  | .union members => 2 + TypeTerm.weightAll members
  | .bar members => 2 + TypeTerm.weightAll members
  | .literal values => 1 + ValueTerm.weightAll values
  | .annotated inner note => 1 + inner.weight + note.weight
  | .generic _ args => 1 + TypeTerm.weightAll args
  | .callable params result => 1 + TypeTerm.weightAll params + result.weight
  | .applied generic args => 1 + generic.weight + TypeTerm.weightAll args
  | .inPlace value => 1 + value.weight

/-- The weight of written type forms. -/
def TypeTerm.weightAll : List TypeTerm → Nat
  | [] => 0
  | t :: rest => t.weight + TypeTerm.weightAll rest

/-- The weight of a written value. -/
def ValueTerm.weight : ValueTerm → Nat
  | .known v => 1 + v.weight
  | .items _ elements => 1 + ValueTerm.weightAll elements
  | .dict entries => 1 + ValueTerm.weightEntries entries
  | .type t => 1 + t.weight
  | .member _ _ => 1
  | .instanceOf _ => 1

/-- The weight of written values. -/
def ValueTerm.weightAll : List ValueTerm → Nat
  | [] => 0
  | t :: rest => t.weight + ValueTerm.weightAll rest

/-- The weight of written entries. -/
def ValueTerm.weightEntries : List (ValueTerm × ValueTerm) → Nat
  | [] => 0
  | (key, value) :: rest => key.weight + value.weight + ValueTerm.weightEntries rest

end

/-- The weight of the type form of a request. -/
def Request.weight : Request TypeTerm K → Nat
  | .decode t _ | .decodeIfPresent t _ => t.weight
  | _ => 0

mutual

/-- The weight of a statement. -/
def Statement.weight : Statement → Nat
  | .request _ written _ => 1 + written.weight
  | .delegate _ type _ => 1 + type.weight
  | .forKeys _ _ body => 1 + Statement.weightAll body
  | .untilEnd _ body => 1 + Statement.weightAll body
  | .branch _ _ agreed otherwise =>
    1 + Statement.weightAll agreed + Statement.weightAll otherwise
  | .attempt body handler => 1 + Statement.weightAll body + Statement.weightAll handler
  | .give _ => 1
  | .fail _ _ _ => 1

/-- The weight of statements. -/
def Statement.weightAll : List Statement → Nat
  | [] => 0
  | first :: rest => first.weight + Statement.weightAll rest

end

/-- The weight of a reader. -/
def Reader.weight : Reader → Nat
  | .sequence item _ => 1 + item.weight
  | .positions items => 1 + TypeForm.weightAll items
  | .mapping value _ => 1 + value.weight
  | .nullable inner => 1 + inner.weight
  | .oneOf values => 1 + Value.weightAll values
  | .program _ body => 1 + Statement.weightAll body
  | _ => 1

/-- The weight of capabilities. -/
def Capabilities.weight (c : Capabilities) : Nat :=
  1 + c.type.weight + (c.reader.map Reader.weight).getD 0

/-- The weight of a field. -/
def Field.weight (f : Field) : Nat :=
  2 + f.written.weight + f.form.weight

/-- The weight of what a class consists of. -/
def ClassBody.weight : ClassBody → Nat
  | .model fields => total Field.weight fields
  | .dataclass fields _ => total Field.weight fields
  | .enumeration _ members _ => Value.weightFields members
  | _ => 0

/-- The weight of the plan of a field. -/
def FieldPlan.weight (p : FieldPlan) : Nat :=
  2 + p.form.weight + p.inner.weight

/-- The weight of a declared class, with what its fields are read as. -/
def ClassRecord.weight (w : World) (r : ClassRecord) : Nat :=
  2 + (r.base.map TypeForm.weight).getD 0
    + (r.hooks.program.map Statement.weightAll).getD 0 + r.body.weight
    + total FieldPlan.weight ((w.plansOf? (.user r.cls)).getD [])

namespace CapabilityRegistry

/-- The weight of what is registered and of what was found out before. -/
def weight (r : CapabilityRegistry) : Nat :=
  total (fun e => e.2.weight) r.explicit + total (fun e => e.2.weight) r.cache

end CapabilityRegistry

/-- The weight of everything declared, registered and found out before. -/
def Store.weight (s : Store) : Nat :=
  1 + total (ClassRecord.weight s.world) s.world.classes + s.shared.weight
    + ((s.own.map CapabilityRegistry.weight).getD 0)

/-- How deep types are probed inside each other when something of a weight is
described: deeper than there are types to meet, also when programs give
arguments to generic models. -/
def Store.depthFor (s : Store) (weight : Nat) : Nat :=
  Nat.pow (2 + s.weight + weight) 3

end SchemaProbe

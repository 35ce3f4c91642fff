import SchemaProbe.Proofs.Readings
import SchemaProbe.Proofs.Resolving

namespace SchemaProbe

/-!
# What readers rely on

Besides its surface, a reader relies on what can be found out about types: on the
type forms that it asks for, on the readers of the types that it delegates to, and on
sequences that come to an end.
-/

open Step

/-- The type form of a request, if it has one. -/
def Request.form? : Request T K → Option T
  | .decode a _ | .decodeIfPresent a _ => some a
  | _ => none

/-- A request for a type form of a sort is one for no other. -/
theorem Request.form?_decode
    {met : TypeForm → Prop}
    {a : TypeForm}
    (isMet : met a)
    (key : Option K) :
    ∀ b, (Request.decode a key).form? = some b → met b := by
  rintro _ ⟨rfl⟩
  exact isMet

/-- A request for a type form that may be missing is one for no other. -/
theorem Request.form?_decodeIfPresent
    {met : TypeForm → Prop}
    {a : TypeForm}
    (isMet : met a)
    (key : Option K) :
    ∀ b, (Request.decodeIfPresent a key).form? = some b → met b := by
  rintro _ ⟨rfl⟩
  exact isMet

/-- What a reader relies on besides its surface: type forms that it asks for,
once they are found out; the reader of another type; or that a sequence ends. -/
inductive Need
  | forms (find : Step World (List TypeForm))
  | delegate (type : TypeTerm)
  | endOfSequence

/-- Whether a need is neither for another type's reader nor for the end of a
sequence. -/
def Need.isBounded : Need → Bool
  | .forms _ => true
  | _ => false

mutual

/-- What a statement relies on. -/
def Statement.needs : Statement → List Need
  | .request _ written _ =>
    written.form?.toList.map fun t => .forms do pure [← t.resolve .strict]
  | .delegate _ type _ => [.delegate type]
  | .forKeys _ _ body => Statement.needsAll body
  | .untilEnd _ body => .endOfSequence :: Statement.needsAll body
  | .branch _ _ agreed otherwise => Statement.needsAll agreed ++ Statement.needsAll otherwise
  | .attempt body handler => Statement.needsAll body ++ Statement.needsAll handler
  | .give (.value v) => [.forms do let _ ← v.resolve .strict; pure []]
  | .give (.variable _) => []
  | .fail _ _ _ => []

/-- What statements rely on. -/
def Statement.needsAll : List Statement → List Need
  | [] => []
  | first :: rest => first.needs ++ Statement.needsAll rest

end

/-- What a reader relies on. -/
def Reader.needs : Reader → List Need
  | .fields c => [.forms do pure ((← decodingPlans c).map FieldPlan.requested)]
  | .sequence item _ => [.forms (pure [item])]
  | .positions items => [.forms (pure items)]
  | .mapping value _ => [.forms (pure [value])]
  | .nullable inner => [.forms (pure [inner])]
  | .oneOf values =>
    [.forms (pure [.cls ((values.head?.map Value.classOf).getD (.builtin .str))])]
  | .member c => [.forms do pure [.cls ((← current).memberClass c)]]
  | .program _ body => Statement.needsAll body

/-- Whether a reader neither loops to the end of a sequence by a program of its own
nor delegates. -/
def Reader.isBounded (reader : Reader) : Bool :=
  reader.needs.all Need.isBounded

/-- Whether the type forms of a need are found out like themselves. -/
def Need.IsFound (W : Regime World) : Need → Prop
  | .forms find => Alike W anything find find
  | _ => True

section Finding

variable {W : Regime World}

mutual

/-- The type forms of a statement are found out like themselves. -/
theorem Statement.needs_alike
    (resolves : W.Resolves)
    (statement : Statement) :
    ∀ need ∈ statement.needs, need.IsFound W := by
  cases statement with
  | request on written name =>
      intro need member
      obtain ⟨t, -, rfl⟩ := List.mem_map.mp member
      exact (TypeTerm.resolve_alike resolves .strict t).bind fun _ _ => .pure trivial
  | delegate on type name => exact List.forall_mem_singleton.mpr trivial
  | forKeys on key body => exact Statement.needsAll_alike resolves body
  | untilEnd on body => exact List.forall_mem_cons.mpr ⟨trivial, Statement.needsAll_alike resolves body⟩
  | branch subject expected agreed otherwise =>
      exact List.forall_mem_append.mpr
        ⟨Statement.needsAll_alike resolves agreed, Statement.needsAll_alike resolves otherwise⟩
  | attempt body handler =>
      exact List.forall_mem_append.mpr
        ⟨Statement.needsAll_alike resolves body, Statement.needsAll_alike resolves handler⟩
  | give result =>
      cases result with
      | value v =>
          refine List.forall_mem_singleton.mpr ?_
          exact (ValueTerm.resolve_alike resolves .strict v).bind
            fun _ _ => .pure trivial
      | «variable» name => exact List.forall_mem_nil _
  | fail kind message location => exact List.forall_mem_nil _
termination_by structural statement

/-- The type forms of statements are found out like themselves. -/
theorem Statement.needsAll_alike
    (resolves : W.Resolves)
    (body : List Statement) :
    ∀ need ∈ Statement.needsAll body, need.IsFound W := by
  cases body with
  | nil => exact List.forall_mem_nil _
  | cons statement rest =>
      exact List.forall_mem_append.mpr
        ⟨Statement.needs_alike resolves statement, Statement.needsAll_alike resolves rest⟩
termination_by structural body

end

/-- The type forms of a reader are found out like themselves. -/
theorem Reader.needs_alike
    (resolves : W.Resolves)
    (reader : Reader) :
    ∀ need ∈ reader.needs, need.IsFound W := by
  cases reader with
  | fields c =>
      exact List.forall_mem_singleton.mpr ((decodingPlans_alike resolves c).bind fun _ _ => .pure trivial)
  | member c =>
      exact List.forall_mem_singleton.mpr (.current_bind fun _ holds => .pure holds trivial)
  | program maker body => exact Statement.needsAll_alike resolves body
  | _ => exact List.forall_mem_singleton.mpr (.pure trivial)

end Finding

end SchemaProbe

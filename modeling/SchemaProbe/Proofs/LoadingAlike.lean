import SchemaProbe.Loading
import SchemaProbe.Proofs.Lockstep

namespace SchemaProbe

/-!
# Loading alike

The surface that reads data answers as the loads of nested values end.  So what
survives finding out about types survives loading, and loading declares no class but
what finding out about types declares.
-/

open Step

/-- Whether two loads of nested values end alike, if they are asked for certain type
forms only. -/
def LoadsAlike
    (R : Regime Store)
    (met : TypeForm → Prop)
    (first second : NestedLoad) :
    Prop :=
  ∀ a, met a → ∀ v path, Alike R anything (first a v path) (second a v path)

namespace DataReader

variable {R : Regime Store} {met : TypeForm → Prop} {first second : NestedLoad}

/-- What a handle stands for is found like itself. -/
theorem cell_alike
    (faults : R.AllowsFaults)
    (h : Handle) :
    Alike (R.beside DataCells) anything (cell h) (cell h) := by
  have takes (result : Option DataCell) :
      Alike (R.beside DataCells) anything (Step.ofOption .missingOperation result)
        (Step.ofOption .missingOperation result) :=
    .ofOption faults fun _ _ => trivial
  exact .current_bind fun s holds => takes _ s holds

/-- Keeping a value for a new handle ends like itself. -/
theorem add_alike (v : Value) : Alike (R.beside DataCells) anything (add v) (add v) :=
  .current_bind fun _ holds => .ok rfl rfl holds trivial

/-- Opening a value as a keyed container ends like itself. -/
theorem openKeyed_alike
    (faults : R.AllowsFaults)
    (v : Value)
    (h : Handle) :
    Alike (R.beside DataCells) anything (openKeyed v h) (openKeyed v h) := by
  unfold openKeyed
  split
  · exact (add_alike _).bind fun _ _ => .pure trivial
  · exact .fail (faults _)

/-- Opening a value as a sequence ends like itself. -/
theorem openUnkeyed_alike
    (faults : R.AllowsFaults)
    (v : Value)
    (h : Handle) :
    Alike (R.beside DataCells) anything (openUnkeyed v h) (openUnkeyed v h) := by
  unfold openUnkeyed
  split
  · exact (add_alike _).bind fun _ _ => .pure trivial
  · exact .fail (faults _)

/-- Making a decoder over a value ends like itself. -/
theorem openDecoder_alike
    (v : Value)
    (h : Handle) :
    Alike (R.beside DataCells) anything (openDecoder v h) (openDecoder v h) :=
  (add_alike v).bind fun _ _ => .pure trivial

/-- Taking the next element of a sequence ends like itself. -/
theorem next_alike
    (faults : R.AllowsFaults)
    (h : Handle) :
    Alike (R.beside DataCells) anything (next h) (next h) := by
  refine (cell_alike faults h).bind fun c _ => ?_
  split
  · exact (Alike.own_update _).bind fun _ _ => .pure trivial
  · exact .fail (faults _)

/-- A load of a nested value answers alike. -/
theorem load_alike
    (loads : LoadsAlike R met first second)
    {a : TypeForm}
    (isMet : met a)
    (v : Value)
    (path : Path) :
    Alike (R.beside DataCells) anything
      (do pure (.value (← Step.shared (first a v path))) : Act Reply)
      (do pure (.value (← Step.shared (second a v path)))) :=
  (loads a isMet v path).shared.bind fun _ _ => .pure trivial

/-- A decoder answers like itself. -/
theorem onDecoder_alike
    (faults : R.AllowsFaults)
    (h : Handle)
    (request : Request TypeForm String) :
    Alike (R.beside DataCells) anything (onDecoder h request) (onDecoder h request) := by
  refine (cell_alike faults h).bind fun c _ => ?_
  split
  · exact openKeyed_alike faults _ _
  · exact openUnkeyed_alike faults _ _
  · exact .pure trivial
  · exact .fail (faults _)

/-- Keyed containers answer alike if nested values are loaded alike. -/
theorem onKeyed_alike
    (faults : R.AllowsFaults)
    (loads : LoadsAlike R met first second)
    (h : Handle)
    {request : Request TypeForm String}
    (isMet : ∀ a, request.form? = some a → met a) :
    Alike (R.beside DataCells) anything (onKeyed first h request) (onKeyed second h request) := by
  have under (v : Value) (key : String) :
      Alike (R.beside DataCells) anything (DataReader.under h v key) (DataReader.under h v key) :=
    .ofOption faults fun _ _ => trivial
  have unknown : Alike (R.beside DataCells) anything
      (Step.fail .missingOperation : Act Reply) (Step.fail .missingOperation) :=
    .fail (faults _)
  refine (cell_alike faults h).bind fun c _ => ?_
  cases request with
  | decode a key =>
      cases key with
      | none => exact unknown
      | some key => exact (under _ key).bind fun part _ => load_alike loads (isMet a rfl) part _
  | decodeIfPresent a key =>
      cases key with
      | none => exact unknown
      | some key =>
          dsimp only
          split
          · exact .pure trivial
          · exact .pure trivial
          · exact load_alike loads (isMet a rfl) _ _
  | decodeNull key =>
      cases key with
      | none => exact unknown
      | some key => exact .pure trivial
  | nestedKeyed key =>
      cases key with
      | none => exact unknown
      | some key => exact (under _ key).bind fun part _ => openKeyed_alike faults part _
  | nestedUnkeyed key =>
      cases key with
      | none => exact unknown
      | some key => exact (under _ key).bind fun part _ => openUnkeyed_alike faults part _
  | parent key => exact openDecoder_alike _ _
  | contains key =>
      cases key with
      | none => exact unknown
      | some key => exact .pure trivial
  | allKeys => exact .pure trivial
  | _ => exact unknown

/-- Sequences answer alike if nested values are loaded alike. -/
theorem onUnkeyed_alike
    (faults : R.AllowsFaults)
    (loads : LoadsAlike R met first second)
    (h : Handle)
    {request : Request TypeForm String}
    (isMet : ∀ a, request.form? = some a → met a) :
    Alike (R.beside DataCells) anything (onUnkeyed first h request)
      (onUnkeyed second h request) := by
  have unknown : Alike (R.beside DataCells) anything
      (Step.fail .missingOperation : Act Reply) (Step.fail .missingOperation) :=
    .fail (faults _)
  have taken := next_alike faults h
  refine (cell_alike faults h).bind fun c _ => ?_
  cases request with
  | decode a key =>
      cases key with
      | none => exact taken.bind fun part _ => load_alike loads (isMet a rfl) part.1 _
      | some key => exact unknown
  | decodeIfPresent a key =>
      cases key with
      | none =>
          refine taken.bind fun part _ => ?_
          dsimp only
          split
          · exact .pure trivial
          · exact load_alike loads (isMet a rfl) _ _
      | some key => exact unknown
  | decodeNull key =>
      cases key with
      | none =>
          dsimp only
          split
          · exact taken.bind fun _ _ => .pure trivial
          · exact .pure trivial
      | some key => exact unknown
  | nestedKeyed key =>
      cases key with
      | none => exact taken.bind fun part _ => openKeyed_alike faults part.1 _
      | some key => exact unknown
  | nestedUnkeyed key =>
      cases key with
      | none => exact taken.bind fun part _ => openUnkeyed_alike faults part.1 _
      | some key => exact unknown
  | parent key =>
      cases key with
      | none => exact taken.bind fun part _ => openDecoder_alike part.1 _
      | some key => exact unknown
  | count => exact .pure trivial
  | isAtEnd => exact .pure trivial
  | _ => exact unknown

/-- Single values answer alike if nested values are loaded alike. -/
theorem onSingle_alike
    (faults : R.AllowsFaults)
    (loads : LoadsAlike R met first second)
    (h : Handle)
    {request : Request TypeForm String}
    (isMet : ∀ a, request.form? = some a → met a) :
    Alike (R.beside DataCells) anything (onSingle first h request) (onSingle second h request) := by
  have unknown : Alike (R.beside DataCells) anything
      (Step.fail .missingOperation : Act Reply) (Step.fail .missingOperation) :=
    .fail (faults _)
  refine (cell_alike faults h).bind fun c _ => ?_
  cases request with
  | decode a key =>
      cases key with
      | none => exact load_alike loads (isMet a rfl) _ _
      | some key => exact unknown
  | decodeNull key =>
      cases key with
      | none => exact .pure trivial
      | some key => exact unknown
  | _ => exact unknown

end DataReader

/-- The surfaces that read data answer alike if nested values are loaded alike. -/
theorem dataReader_answersAlike
    {R : Regime Store}
    {met : TypeForm → Prop}
    {first second : NestedLoad}
    (faults : R.AllowsFaults)
    (endless : R.allows .exhausted)
    (loads : LoadsAlike R met first second) :
    (dataReader first).AnswersAlike R met (dataReader second) := by
  refine Surface.answersAlike_of_answer faults endless fun h request isMet => ?_
  obtain ⟨role, path, relative, slot⟩ := h
  cases role with
  | decoder => exact DataReader.onDecoder_alike faults _ request
  | keyed => exact DataReader.onKeyed_alike faults loads _ isMet
  | unkeyed => exact DataReader.onUnkeyed_alike faults loads _ isMet
  | single => exact DataReader.onSingle_alike faults loads _ isMet

/-- What survives probing survives loading. -/
theorem Regime.Survives.loads
    {R : Regime Store}
    {start : World}
    {accepts : SchemaHook → Prop}
    (survives : R.Survives start accepts)
    (depth : Nat) :
    LoadsAlike R (fun _ => True) (loadTo depth) (loadTo depth) := by
  have faults : R.AllowsFaults := fun _ => survives.interrupts _
  induction depth with
  | zero => exact fun _ _ _ _ => .exhausted (survives.interrupts _)
  | succ depth inductionHypothesis =>
      intro a _ v path
      refine (lookup_alike survives.looks .shared a).bind fun caps _ => ?_
      have reads (reader : Reader) :
          Alike (R.beside DataCells) anything
            (reader.run (dataReader (loadTo depth)) ⟨.decoder, path, [], 0⟩)
            (reader.run (dataReader (loadTo depth)) ⟨.decoder, path, [], 0⟩) :=
        Reader.runTo_alike faults
          (dataReader_answersAlike faults (survives.interrupts _) inductionHypothesis)
          survives.reads delegationDepth trivial _
      split
      · rename_i reader _ _
        intro s holds
        have read := (reads reader ([⟨v, 0⟩], s) holds).beside.ofFaultless
        refine read.bind fun result reached reachedHolds _ => ?_
        obtain ⟨outcome, cells⟩ := result
        cases outcome with
        | ok loaded => exact .pure reachedHolds trivial
        | error interrupt =>
            cases interrupt with
            | fault f => exact .fail reachedHolds (survives.interrupts _)
            | exhausted => exact .error rfl rfl reachedHolds (survives.interrupts _)
      · exact .pure trivial

/-- Loading declares no class but what finding out about types declares. -/
theorem dataReader_reaches
    (depth : Nat)
    (start : World) :
    (dataReader (loadTo depth)).AnswersAlike (start.leading Interrupt.IsAny) (fun _ => True)
      (dataReader (loadTo depth)) :=
  dataReader_answersAlike (fun _ => trivial) trivial (World.leading_survives.loads depth)

end SchemaProbe

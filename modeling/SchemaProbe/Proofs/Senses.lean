import Mathlib.Data.List.Infix
import SchemaProbe.Proofs.Foreseeing
import SchemaProbe.Proofs.KeyOrder
import SchemaProbe.Proofs.Resolving

namespace SchemaProbe

/-!
# What something written is read as

A term is resolved in a world, which gives a sense to its names and keeps the typing
forms that were spelled.  What it is read as depends on the sense alone, as long as no
two type forms that come up in it are the same type in two spellings: then a typing
form of the same parts is the same type form whenever it is built, and the first one
that was built is as good as the next.
-/

open Step

/-! ## Reading -/

/-- What the names in a term stand for, and the values that are found by name. -/
structure Sense where
  name : String → Except Fault TypeForm
  isDeferred : Bool
  member : ClassRef → String → Option Value
  fresh : ClassRef → Except Fault Value

/-- The sense that a world gives to a term. -/
def Naming.sense (naming : Naming) (w : World) : Sense where
  name := naming.meaning w
  isDeferred := naming.isDeferred
  member := w.memberNamed?
  fresh := fun c => w.freshInstance? c none

namespace TypeForm

/-- The named union of type forms, if they make one. -/
def unite (members : List TypeForm) : Except Fault TypeForm := do
  let checked ← members.mapM checkedArgument?
  if checked.isEmpty then .error .wrongArguments
  else if !allHashable checked then .error .unhashable
  else .ok (unionOf checked)

/-- Two type forms with a bar between them, if one can stand there. -/
def barred (isDeferred : Bool) (left right : TypeForm) : Except Fault TypeForm :=
  if left.isTypingForm || right.isTypingForm then unite [left, right]
  else
    match left.barred? isDeferred right with
    | some a => .ok a
    | none => .error .wrongArguments

/-- Type forms with bars between them, if they can stand there. -/
def barredAll (isDeferred : Bool) (first : TypeForm) : List TypeForm → Except Fault TypeForm
  | [] => .ok first
  | next :: rest => do barredAll isDeferred (← barred isDeferred first next) rest

end TypeForm

/-- The class that a name stands for. -/
def Sense.cls (m : Sense) (name : String) : Except Fault ClassRef := do
  match ← m.name name with
  | .cls c => .ok c
  | _ => .error .unknownEntry

mutual

/-- What a written type form is read as in a sense.  Nothing is applied to arguments. -/
def TypeTerm.read (m : Sense) : TypeTerm → Except Fault TypeForm
  | .known a => .ok a
  | .named name => m.name name
  | .optional inner => do TypeForm.unite [← inner.read m, .nullType]
  | .union members => do TypeForm.unite (← TypeTerm.readAll m members)
  | .bar members => do
    match ← TypeTerm.readAll m members with
    | [] => .error .wrongArguments
    | first :: rest => TypeForm.barredAll m.isDeferred first rest
  | .literal values => do .ok (.literalOf (← ValueTerm.readAll m values))
  | .annotated inner note => do
    let a ← inner.read m
    .ok (a.withNote (← note.read m))
  | .generic (.cls c) args => do .ok (.generic (.cls c) (← TypeTerm.readAll m args))
  | .generic origin args => do
    let resolved ← TypeTerm.readAll m args
    .ok (.generic origin (← resolved.mapM TypeForm.checkedArgument?))
  | .callable params result => do
    let resolved ← TypeTerm.readAll m params
    .ok (.callable resolved (← result.read m))
  | .applied _ _ => .error .wrongArguments
  | .inPlace value => do .ok (.ofValue (← value.read m))

/-- What written type forms are read as in a sense. -/
def TypeTerm.readAll (m : Sense) : List TypeTerm → Except Fault (List TypeForm)
  | [] => .ok []
  | t :: rest => do
    let a ← t.read m
    .ok (a :: (← TypeTerm.readAll m rest))

/-- What a written value is read as in a sense. -/
def ValueTerm.read (m : Sense) : ValueTerm → Except Fault Value
  | .known v => .ok v
  | .items shape elements => do gather? shape none (← ValueTerm.readAll m elements)
  | .dict entries => do dictOf? (← ValueTerm.readEntries m entries)
  | .type t => do .ok (.type (← t.read m))
  | .member enumeration name => do
    match m.member (← m.cls enumeration) name with
    | some v => .ok v
    | none => .error .unknownEntry
  | .instanceOf name => do m.fresh (← m.cls name)

/-- What written values are read as in a sense. -/
def ValueTerm.readAll (m : Sense) : List ValueTerm → Except Fault (List Value)
  | [] => .ok []
  | t :: rest => do
    let v ← t.read m
    .ok (v :: (← ValueTerm.readAll m rest))

/-- What the entries of a written mapping are read as in a sense. -/
def ValueTerm.readEntries (m : Sense) :
    List (ValueTerm × ValueTerm) → Except Fault (List (Value × Value))
  | [] => .ok []
  | (k, t) :: rest => do
    let key ← k.read m
    let v ← t.read m
    .ok ((key, v) :: (← ValueTerm.readEntries m rest))

end

/-! ## Knowing more names -/

/-- What follows a result ends well only if there is one. -/
theorem exists_of_bind_eq_ok
    {first : Except ε α}
    {next : α → Except ε β}
    {b : β}
    (ended : first >>= next = .ok b) :
    ∃ a, first = .ok a ∧ next a = .ok b := by
  cases first with
  | error f => cases ended
  | ok a => exact ⟨a, rfl, ended⟩

/-- Where a list of results is there, each of them is. -/
theorem forall₂_of_mapM_eq_ok
    {f : α → Except ε β}
    {as : List α}
    {bs : List β}
    (ok : as.mapM f = .ok bs) :
    List.Forall₂ (fun a b => f a = .ok b) as bs := by
  induction as generalizing bs with
  | nil =>
      cases ok
      exact .nil
  | cons a rest inductionHypothesis =>
      rw [List.mapM_cons] at ok
      obtain ⟨b, isFirst, okRest⟩ := exists_of_bind_eq_ok ok
      obtain ⟨others, areRest, okAll⟩ := exists_of_bind_eq_ok okRest
      cases okAll
      exact .cons isFirst (inductionHypothesis areRest)

/-- What ends well keeps its result if each step of it does. -/
theorem bind_eq_ok_of_steps
    {first other : Except ε α}
    {next others : α → Except ε β}
    {b : β}
    (ended : first >>= next = .ok b)
    (same : ∀ a, first = .ok a → other = .ok a)
    (nextSame : ∀ a, next a = .ok b → others a = .ok b) :
    other >>= others = .ok b := by
  obtain ⟨a, isFirst, isNext⟩ := exists_of_bind_eq_ok ended
  rw [same a isFirst]
  exact nextSame a isNext

/-- Whether a sense knows all that another one knows. -/
structure Sense.Below (m other : Sense) : Prop where
  name : ∀ name a, m.name name = .ok a → other.name name = .ok a
  isDeferred : other.isDeferred = m.isDeferred
  member : ∀ name c, m.name name = .ok (.cls c) → ∀ entry v,
    m.member c entry = some v → other.member c entry = some v
  fresh : ∀ name c, m.name name = .ok (.cls c) → ∀ v, m.fresh c = .ok v → other.fresh c = .ok v

/-- The class that a name stands for is one that the name means. -/
theorem Sense.name_of_cls
    {m : Sense}
    {name : String}
    {c : ClassRef}
    (isClass : m.cls name = .ok c) :
    m.name name = .ok (.cls c) := by
  obtain ⟨a, isName, isCls⟩ := exists_of_bind_eq_ok isClass
  cases a with
  | cls d =>
      cases isCls
      exact isName
  | _ => cases isCls

/-- A name that stands for a class does so where more is known. -/
theorem Sense.Below.cls
    {m other : Sense}
    (below : m.Below other)
    {name : String}
    {c : ClassRef}
    (isClass : m.cls name = .ok c) :
    other.cls name = .ok c := by
  rw [Sense.cls, below.name name _ (Sense.name_of_cls isClass)]
  rfl

section

variable {m other : Sense}

mutual

/-- What is read where less is known is read in the same way where more is known. -/
theorem TypeTerm.read_of_below
    (below : m.Below other)
    (t : TypeTerm)
    (a : TypeForm)
    (read : t.read m = .ok a) :
    t.read other = .ok a := by
  cases t with
  | known b => exact read
  | named name => exact below.name name a read
  | optional inner =>
      exact bind_eq_ok_of_steps read (TypeTerm.read_of_below below inner) fun _ => id
  | union members =>
      exact bind_eq_ok_of_steps read (TypeTerm.readAll_of_below below members) fun _ => id
  | bar members =>
      refine bind_eq_ok_of_steps read (TypeTerm.readAll_of_below below members) fun as isBar => ?_
      rw [below.isDeferred]
      exact isBar
  | literal values =>
      exact bind_eq_ok_of_steps read (ValueTerm.readAll_of_below below values) fun _ => id
  | annotated inner note =>
      exact bind_eq_ok_of_steps read (TypeTerm.read_of_below below inner) fun _ isNoted =>
        bind_eq_ok_of_steps isNoted (ValueTerm.read_of_below below note) fun _ => id
  | generic origin args =>
      cases origin with
      | cls c => exact bind_eq_ok_of_steps read (TypeTerm.readAll_of_below below args) fun _ => id
      | classVar | final =>
          simp only [TypeTerm.read] at read ⊢
          exact bind_eq_ok_of_steps read (TypeTerm.readAll_of_below below args) fun _ => id
  | callable params result =>
      exact bind_eq_ok_of_steps read (TypeTerm.readAll_of_below below params) fun _ isResult =>
        bind_eq_ok_of_steps isResult (TypeTerm.read_of_below below result) fun _ => id
  | applied generic args => cases read
  | inPlace value =>
      exact bind_eq_ok_of_steps read (ValueTerm.read_of_below below value) fun _ => id
termination_by structural t

/-- What is read where less is known is read in the same way where more is known. -/
theorem TypeTerm.readAll_of_below
    (below : m.Below other)
    (ts : List TypeTerm)
    (as : List TypeForm)
    (read : TypeTerm.readAll m ts = .ok as) :
    TypeTerm.readAll other ts = .ok as := by
  cases ts with
  | nil => exact read
  | cons t rest =>
      exact bind_eq_ok_of_steps read (TypeTerm.read_of_below below t) fun _ isRest =>
        bind_eq_ok_of_steps isRest (TypeTerm.readAll_of_below below rest) fun _ => id
termination_by structural ts

/-- What is read where less is known is read in the same way where more is known. -/
theorem ValueTerm.read_of_below
    (below : m.Below other)
    (t : ValueTerm)
    (v : Value)
    (read : t.read m = .ok v) :
    t.read other = .ok v := by
  cases t with
  | known b => exact read
  | items shape elements =>
      exact bind_eq_ok_of_steps read (ValueTerm.readAll_of_below below elements) fun _ => id
  | dict entries =>
      exact bind_eq_ok_of_steps read (ValueTerm.readEntries_of_below below entries) fun _ => id
  | type t => exact bind_eq_ok_of_steps read (TypeTerm.read_of_below below t) fun _ => id
  | member enumeration name =>
      obtain ⟨c, isClass, isMember⟩ := exists_of_bind_eq_ok read
      rw [ValueTerm.read, below.cls isClass]
      change (match other.member c name with
        | some v => Except.ok v
        | none => .error Fault.unknownEntry) = _
      cases found : m.member c name with
      | none =>
          rw [found] at isMember
          cases isMember
      | some w =>
          rw [found] at isMember
          rw [below.member enumeration c (Sense.name_of_cls isClass) name w found]
          exact isMember
  | instanceOf name =>
      obtain ⟨c, isClass, isFresh⟩ := exists_of_bind_eq_ok read
      rw [ValueTerm.read, below.cls isClass]
      exact below.fresh name c (Sense.name_of_cls isClass) v isFresh
termination_by structural t

/-- What is read where less is known is read in the same way where more is known. -/
theorem ValueTerm.readAll_of_below
    (below : m.Below other)
    (ts : List ValueTerm)
    (vs : List Value)
    (read : ValueTerm.readAll m ts = .ok vs) :
    ValueTerm.readAll other ts = .ok vs := by
  cases ts with
  | nil => exact read
  | cons t rest =>
      exact bind_eq_ok_of_steps read (ValueTerm.read_of_below below t) fun _ isRest =>
        bind_eq_ok_of_steps isRest (ValueTerm.readAll_of_below below rest) fun _ => id
termination_by structural ts

/-- What is read where less is known is read in the same way where more is known. -/
theorem ValueTerm.readEntries_of_below
    (below : m.Below other)
    (entries : List (ValueTerm × ValueTerm))
    (es : List (Value × Value))
    (read : ValueTerm.readEntries m entries = .ok es) :
    ValueTerm.readEntries other entries = .ok es := by
  cases entries with
  | nil => exact read
  | cons entry rest =>
      obtain ⟨k, t⟩ := entry
      exact bind_eq_ok_of_steps read (ValueTerm.read_of_below below k) fun _ isValue =>
        bind_eq_ok_of_steps isValue (ValueTerm.read_of_below below t) fun _ isRest =>
          bind_eq_ok_of_steps isRest (ValueTerm.readEntries_of_below below rest) fun _ => id
termination_by structural entries

end

end

/-! ## Parts -/

mutual

/-- A written type form and all that it is built from, step by step. -/
def TypeTerm.parts : TypeTerm → List TypeTerm
  | .known a => [.known a]
  | .named name => [.named name]
  | .optional inner => .optional inner :: inner.parts
  | .union members => .union members :: TypeTerm.partsAll members
  | .bar members => members.inits.map .bar ++ TypeTerm.partsAll members
  | .literal values => .literal values :: ValueTerm.partsAll values
  | .annotated inner note => .annotated inner note :: (inner.parts ++ note.parts)
  | .generic origin args => .generic origin args :: TypeTerm.partsAll args
  | .callable params result => .callable params result :: (TypeTerm.partsAll params ++ result.parts)
  | .applied generic args => .applied generic args :: (generic.parts ++ TypeTerm.partsAll args)
  | .inPlace value => .inPlace value :: value.parts

/-- All that written type forms are built from. -/
def TypeTerm.partsAll : List TypeTerm → List TypeTerm
  | [] => []
  | t :: rest => t.parts ++ TypeTerm.partsAll rest

/-- The written type forms in a written value, and all that they are built from. -/
def ValueTerm.parts : ValueTerm → List TypeTerm
  | .items _ elements => ValueTerm.partsAll elements
  | .dict entries => ValueTerm.partsEntries entries
  | .type t => t.parts
  | _ => []

/-- The written type forms in written values, and all that they are built from. -/
def ValueTerm.partsAll : List ValueTerm → List TypeTerm
  | [] => []
  | t :: rest => t.parts ++ ValueTerm.partsAll rest

/-- The written type forms in the entries of a written mapping, and all that they are
built from. -/
def ValueTerm.partsEntries : List (ValueTerm × ValueTerm) → List TypeTerm
  | [] => []
  | (k, t) :: rest => k.parts ++ (t.parts ++ ValueTerm.partsEntries rest)

end

/-- A written type form is one of its parts. -/
theorem TypeTerm.mem_parts_self (t : TypeTerm) : t ∈ t.parts := by
  cases t with
  | bar members =>
      exact List.mem_append_left _
        (List.mem_map.mpr ⟨members, (List.mem_inits _ _).mpr (List.prefix_refl _), rfl⟩)
  | known _ | named _ => exact List.mem_singleton_self _
  | _ => exact List.mem_cons_self

/-! ## Spelling -/

/-- Whether type forms of which some come up are such that two of them are the same only
if they are written alike, be it by their parts or by what they are shown as. -/
structure SpelledAlike (among : TypeForm → Prop) : Prop where
  once : SpelledOnce among
  byKey : ∀ a b, among a → among b → a.key = b.key → a = b

/-- What is kept of a typing form that was spelled from type forms that come up. -/
inductive Spelling (among : TypeForm → Prop) : Key × TypeForm → Prop
  | union (parts : List TypeForm) :
      (∀ p ∈ parts, among p) →
        Spelling among
          (.labelled "union" (.sequence (TypeForm.keys parts)), .unionOf parts)
  | noted (a : TypeForm) (note : Value) :
      among a → among (a.withNote note) →
        Spelling among
          (.labelled "noted" (.sequence (TypeForm.keys [a, .value note])), a.withNote note)

/-- Whether a world is another one in which type forms that come up were spelled. -/
structure World.Spells (among : TypeForm → Prop) (base w : World) : Prop where
  same : w = { base with spellings := w.spellings }
  spellings : ∀ e ∈ w.spellings, Spelling among e

/-- Whether a step on the declared classes of a world ends with a result and spells type
forms that come up at most. -/
def Step.Reads
    (among : TypeForm → Prop)
    (base : World)
    (step : Step World α)
    (result : Except Fault α) :
    Prop :=
  ∀ w, base.Spells among w →
    ∃ reached, step.run w = (result.mapError .fault, reached) ∧ base.Spells among reached

section

variable {among : TypeForm → Prop} {base : World}

namespace Step.Reads

/-- A pure result is read as it is. -/
theorem pure (a : α) : Reads among base (Pure.pure a) (.ok a) :=
  fun w spells => ⟨w, rfl, spells⟩

/-- A fault is read as it is. -/
theorem fail (f : Fault) : Reads among base (Step.fail f : Step World α) (.error f) :=
  fun w spells => ⟨w, rfl, spells⟩

/-- A result is read as it is. -/
theorem ofExcept (result : Except Fault α) : Reads among base (Step.ofExcept result) result :=
  fun w spells => ⟨w, run_ofExcept result w, spells⟩

/-- Reading goes on with what was read. -/
theorem bind
    {first : Step World α}
    {next : α → Step World β}
    {result : Except Fault α}
    {results : α → Except Fault β}
    (reads : Reads among base first result)
    (nextReads : ∀ a, result = .ok a → Reads among base (next a) (results a)) :
    Reads among base (first >>= next) (result >>= results) := by
  intro w spells
  obtain ⟨between, ran, betweenSpells⟩ := reads w spells
  cases result with
  | error f => exact ⟨between, run_bind_of_error ran next, betweenSpells⟩
  | ok a =>
      rw [run_bind_of_ok ran]
      exact nextReads a rfl between betweenSpells

/-- Looking at the world keeps what is read in it. -/
theorem current_bind
    {next : World → Step World α}
    {result : Except Fault α}
    (nextReads : ∀ w, base.Spells among w → Reads among base (next w) result) :
    Reads among base (current >>= next) result :=
  fun w spells => nextReads w spells w spells

/-- What is read of each element is read of all. -/
theorem each
    {f : α → Step World β}
    {result : α → Except Fault β}
    (elements : List α)
    (reads : ∀ a ∈ elements, Reads among base (f a) (result a)) :
    Reads among base (Step.each f elements) (elements.mapM result) := by
  induction elements with
  | nil => exact .pure []
  | cons a rest inductionHypothesis =>
      rw [List.mapM_cons]
      refine (reads a List.mem_cons_self).bind fun b _ => ?_
      refine (inductionHypothesis fun other member =>
        reads other (List.mem_cons_of_mem _ member)).bind fun bs _ => ?_
      exact .pure _

end Step.Reads

/-- A typing form that has its one spelling is read as it is built. -/
theorem spelled_reads
    {form : String}
    {parts : List TypeForm}
    {built : TypeForm}
    (isSpelling : Spelling among (.labelled form (.sequence (TypeForm.keys parts)), built))
    (alone : ∀ a, Spelling among (.labelled form (.sequence (TypeForm.keys parts)), a) →
      a = built) :
    Step.Reads among base (spelled form parts built) (.ok built) := by
  intro w spells
  unfold spelled
  rw [run_bind_of_ok (run_current w)]
  cases found : w.spellings.lookup (.labelled form (.sequence (TypeForm.keys parts))) with
  | some first =>
      obtain rfl := alone first (spells.spellings _ (Table.mem_of_lookup found))
      exact ⟨w, rfl, spells⟩
  | none =>
      refine ⟨_, rfl, ?_, fun e member => ?_⟩
      · conv_lhs => rw [spells.same]
      · rcases List.mem_append.mp member with old | new
        · exact spells.spellings e old
        · rw [List.mem_singleton.mp new]
          exact isSpelling

/-- Sequences with the same key are the same. -/
theorem Key.sequence_injective : Function.Injective Key.sequence :=
  Function.LeftInverse.injective Key.elements_sequence

/-- The keys of values are those of the elements. -/
theorem Value.keys_eq_map (values : List Value) : Value.keys values = values.map Value.key := by
  induction values with
  | nil => rfl
  | cons v rest inductionHypothesis => rw [Value.keys, inductionHypothesis, List.map_cons]

/-- A type form with notes of the same key has the same key. -/
theorem TypeForm.key_withNote_congr
    (a : TypeForm)
    {note other : Value}
    (same : note.key = other.key) :
    (a.withNote note).key = (a.withNote other).key := by
  unfold withNote
  split <;> simp only [key, Value.keys_eq_map, List.map_append, List.map_cons, List.map_nil, same]

variable (alike : SpelledAlike among)

include alike

/-- Type forms that come up are written alike if their keys are the same. -/
theorem SpelledAlike.eq_of_keys
    {parts others : List TypeForm}
    (comeUp : ∀ p ∈ parts, among p)
    (othersComeUp : ∀ p ∈ others, among p)
    (same : TypeForm.keys parts = TypeForm.keys others) :
    parts = others := by
  induction parts generalizing others with
  | nil =>
      cases others with
      | nil => rfl
      | cons b rest => cases same
  | cons a parts inductionHypothesis =>
      cases others with
      | nil => cases same
      | cons b rest =>
          obtain ⟨sameFirst, sameRest⟩ := List.cons.inj same
          obtain ⟨isFirst, areRest⟩ := List.forall_mem_cons.mp comeUp
          obtain ⟨isOther, areOthers⟩ := List.forall_mem_cons.mp othersComeUp
          rw [alike.byKey a b isFirst isOther sameFirst,
            inductionHypothesis areRest areOthers sameRest]

/-- A union of parts that come up is spelled in one way. -/
theorem unionOf_reads
    {parts : List TypeForm}
    (comeUp : ∀ p ∈ parts, among p) :
    Step.Reads among base (spelled "union" parts (.unionOf parts)) (.ok (.unionOf parts)) := by
  refine spelled_reads (.union parts comeUp) fun a isSpelling => ?_
  generalize isEntry :
    ((Key.labelled "union" (.sequence (TypeForm.keys parts)), a) : Key × TypeForm) = entry
      at isSpelling
  cases isSpelling with
  | union others othersComeUp =>
      obtain ⟨sameKey, rfl⟩ := Prod.mk.inj isEntry
      rw [alike.eq_of_keys comeUp othersComeUp (Key.sequence_injective (Key.pair.inj sameKey).2)]
  | noted b note _ _ =>
      simp [Key.labelled] at isEntry

/-- A type form that comes up has a note in one way. -/
theorem withNote_reads
    {a : TypeForm}
    {note : Value}
    (comesUp : among a)
    (notedComesUp : among (a.withNote note)) :
    Step.Reads among base (spelled "noted" [a, .value note] (a.withNote note))
      (.ok (a.withNote note)) := by
  refine spelled_reads (.noted a note comesUp notedComesUp) fun b isSpelling => ?_
  generalize isEntry :
    ((Key.labelled "noted" (.sequence (TypeForm.keys [a, .value note])), b) : Key × TypeForm) =
      entry at isSpelling
  cases isSpelling with
  | union others _ => simp [Key.labelled] at isEntry
  | noted c other otherComesUp otherNotedComesUp =>
      obtain ⟨sameKey, rfl⟩ := Prod.mk.inj isEntry
      obtain ⟨sameForm, sameRest⟩ :=
        List.cons.inj (Key.sequence_injective (Key.pair.inj sameKey).2)
      obtain rfl := alike.byKey a c comesUp otherComesUp sameForm
      exact alike.byKey _ _ otherNotedComesUp notedComesUp
        (TypeForm.key_withNote_congr a (List.cons.inj sameRest).1).symm

end

/-! ## Resolving is reading -/

/-- Whether some written type forms apply nothing, and what they are read as comes up. -/
def TypeTerm.ComeUp (among : TypeForm → Prop) (m : Sense) (parts : List TypeTerm) : Prop :=
  ∀ p ∈ parts, (∀ generic args, p ≠ .applied generic args) ∧ ∀ a, p.read m = .ok a → among a

/-- What written type forms that come up are read as comes up. -/
theorem TypeTerm.comeUp_of_readAll
    {m : Sense}
    {ts : List TypeTerm}
    {as : List TypeForm}
    (comeUp : TypeTerm.ComeUp among m (TypeTerm.partsAll ts))
    (read : TypeTerm.readAll m ts = .ok as) :
    ∀ a ∈ as, among a := by
  induction ts generalizing as with
  | nil =>
      cases read
      exact fun a member => absurd member List.not_mem_nil
  | cons t rest inductionHypothesis =>
      rw [TypeTerm.readAll] at read
      obtain ⟨a, isFirst, readRest⟩ := exists_of_bind_eq_ok read
      obtain ⟨others, areRest, isAll⟩ := exists_of_bind_eq_ok readRest
      cases isAll
      rw [TypeTerm.partsAll] at comeUp
      refine List.forall_mem_cons.mpr
        ⟨(comeUp t (List.mem_append_left _ t.mem_parts_self)).2 a isFirst, ?_⟩
      exact inductionHypothesis (fun p member => comeUp p (List.mem_append_right _ member)) areRest

/-- The first of what written type forms are read as is what the first of them are read
as. -/
theorem TypeTerm.readAll_prefix
    {m : Sense}
    {ts : List TypeTerm}
    {as before : List TypeForm}
    (read : TypeTerm.readAll m ts = .ok as)
    (isPrefix : before <+: as) :
    ∃ front, front <+: ts ∧ TypeTerm.readAll m front = .ok before := by
  induction ts generalizing as before with
  | nil =>
      cases read
      rw [List.prefix_nil.mp isPrefix]
      exact ⟨[], List.prefix_refl _, rfl⟩
  | cons t rest inductionHypothesis =>
      rw [TypeTerm.readAll] at read
      obtain ⟨a, isFirst, readRest⟩ := exists_of_bind_eq_ok read
      obtain ⟨others, areRest, isAll⟩ := exists_of_bind_eq_ok readRest
      cases isAll
      cases before with
      | nil => exact ⟨[], List.nil_prefix, rfl⟩
      | cons b before =>
          obtain ⟨rfl, isRest⟩ := List.cons_prefix_cons.mp isPrefix
          obtain ⟨front, isFront, readFront⟩ := inductionHypothesis areRest isRest
          refine ⟨t :: front, List.cons_prefix_cons.mpr ⟨rfl, isFront⟩, ?_⟩
          rw [TypeTerm.readAll, isFirst, readFront]
          rfl

/-- Whether the meaning of names is the same in all worlds that differ in spellings. -/
def Naming.IsSettledIn (naming : Naming) (base : World) : Prop :=
  ∀ w : World, w.names = base.names → naming.meaning w = naming.meaning base

theorem Naming.isSettledIn_strict : Naming.strict.IsSettledIn base := by
  intro w names
  simp only [strict, names]

theorem Naming.isSettledIn_inside (own : String) : (Naming.inside own).IsSettledIn base := by
  intro w names
  simp only [inside, names]

theorem Naming.isSettledIn_deferred : Naming.deferred.IsSettledIn base :=
  fun _ _ => rfl

/-- What comes up is read as an argument that comes up. -/
theorem TypeForm.eq_argument_of_checked
    {a b : TypeForm}
    (checked : a.checkedArgument? = .ok b) :
    b = a.argument := by
  unfold checkedArgument? at checked
  split at checked <;> cases checked
  rfl

/-- Arguments are checked one by one. -/
theorem TypeForm.eq_map_of_checked
    {as checked : List TypeForm}
    (ok : as.mapM checkedArgument? = .ok checked) :
    checked = as.map argument := by
  have each := forall₂_of_mapM_eq_ok ok
  clear ok
  induction each with
  | nil => rfl
  | cons isChecked _ inductionHypothesis =>
      rw [eq_argument_of_checked isChecked, inductionHypothesis, List.map_cons]

section

variable (alike : SpelledAlike among) (arguments : ∀ a, among a → among a.argument)

/-- Arguments are checked as they are. -/
theorem checkedArguments_reads (members : List TypeForm) :
    Step.Reads among base (Step.each (fun a => .ofExcept a.checkedArgument?) members)
      (members.mapM TypeForm.checkedArgument?) :=
  .each members fun _ _ => .ofExcept _

/-- Checked arguments are what comes up as arguments. -/
theorem comeUp_of_checked
    {members checked : List TypeForm}
    (arguments : ∀ a, among a → among a.argument)
    (comeUp : ∀ p ∈ members, among p)
    (ok : members.mapM TypeForm.checkedArgument? = .ok checked) :
    ∀ p ∈ checked, among p := by
  obtain rfl := TypeForm.eq_map_of_checked ok
  intro p member
  obtain ⟨a, isMember, rfl⟩ := List.mem_map.mp member
  exact arguments a (comeUp a isMember)

include alike

/-- A type form that comes up is given a note as it is. -/
theorem noted_reads
    {a : TypeForm}
    {note : Value}
    (comesUp : among a)
    (notedComesUp : among (a.withNote note)) :
    Step.Reads among base (noted a note) (.ok (a.withNote note)) := by
  unfold noted
  dsimp only
  split
  · exact withNote_reads alike comesUp notedComesUp
  · exact .pure _

include arguments

/-- A union of type forms that come up is read as it is built. -/
theorem namedUnion_reads
    {members : List TypeForm}
    (comeUp : ∀ p ∈ members, among p) :
    Step.Reads among base (namedUnion members) (TypeForm.unite members) := by
  refine (checkedArguments_reads members).bind fun checked isChecked => ?_
  split
  · exact .fail _
  · split
    · exact .fail _
    · exact unionOf_reads alike (comeUp_of_checked arguments comeUp isChecked)

/-- Two type forms that come up with a bar between them are read as they are built. -/
theorem barPair_reads
    {isDeferred : Bool}
    {left right : TypeForm}
    (leftComesUp : among left)
    (rightComesUp : among right) :
    Step.Reads among base (barPair isDeferred left right)
      (TypeForm.barred isDeferred left right) := by
  unfold barPair TypeForm.barred
  split
  · exact namedUnion_reads alike arguments
      (List.forall_mem_cons.mpr ⟨leftComesUp, List.forall_mem_singleton.mpr rightComesUp⟩)
  · cases left.barred? isDeferred right with
    | none => exact .fail _
    | some a => exact .pure a

/-- Type forms with bars between them are read as they are built, if what is built on the
way comes up. -/
theorem barChain_reads
    {isDeferred : Bool}
    {first : TypeForm}
    {rest : List TypeForm}
    (restComesUp : ∀ p ∈ rest, among p)
    (comeUp : ∀ before, before <+: rest → ∀ a,
      TypeForm.barredAll isDeferred first before = .ok a → among a) :
    Step.Reads among base (barChain isDeferred first rest)
      (TypeForm.barredAll isDeferred first rest) := by
  induction rest generalizing first with
  | nil => exact .pure first
  | cons next rest inductionHypothesis =>
      obtain ⟨nextComesUp, othersComeUp⟩ := List.forall_mem_cons.mp restComesUp
      have firstComesUp := comeUp [] List.nil_prefix first rfl
      refine (barPair_reads alike arguments firstComesUp nextComesUp).bind fun pair isPair => ?_
      refine inductionHypothesis othersComeUp fun before isPrefix a isBuilt => ?_
      refine comeUp (next :: before) (List.cons_prefix_cons.mpr ⟨rfl, isPrefix⟩) a ?_
      rw [TypeForm.barredAll, isPair]
      exact isBuilt

end

/-- The class that a name stands for is read as it is. -/
theorem classNamed_reads
    {naming : Naming}
    (settled : naming.IsSettledIn base)
    (name : String) :
    Step.Reads among base (classNamed naming name) ((naming.sense base).cls name) := by
  refine .current_bind fun w spells => ?_
  have names : w.names = base.names := by rw [spells.same]
  rw [settled w names]
  refine (Step.Reads.ofExcept _).bind fun a _ => ?_
  cases a with
  | cls c => exact .pure c
  | _ => exact .fail _

section

variable {naming : Naming}

/-- Whether names mean the same however much was spelled, and type forms that come up are
written alike, be it as arguments or with null. -/
structure Naming.Words (naming : Naming) (among : TypeForm → Prop) (base : World) : Prop where
  settled : naming.IsSettledIn base
  alike : SpelledAlike among
  nulls : among .nullType
  arguments : ∀ a, among a → among a.argument

mutual

/-- A written type form is resolved into what it is read as. -/
theorem TypeTerm.resolve_reads
    (words : naming.Words among base)
    (t : TypeTerm)
    (comeUp : TypeTerm.ComeUp among (naming.sense base) t.parts) :
    Step.Reads among base (t.resolve naming) (t.read (naming.sense base)) := by
  have own := comeUp t t.mem_parts_self
  cases t with
  | known a => exact .pure a
  | named name =>
      rw [TypeTerm.resolve, TypeTerm.read]
      refine .current_bind fun w spells => ?_
      have names : w.names = base.names := by rw [spells.same]
      rw [words.settled w names]
      exact .ofExcept _
  | optional inner =>
      rw [TypeTerm.parts] at comeUp
      have innerComesUp : TypeTerm.ComeUp among (naming.sense base) inner.parts :=
        fun p member => comeUp p (List.mem_cons_of_mem _ member)
      rw [TypeTerm.resolve, TypeTerm.read]
      refine (TypeTerm.resolve_reads words inner innerComesUp).bind fun a isRead => ?_
      have comesUp := (innerComesUp inner inner.mem_parts_self).2 a isRead
      exact namedUnion_reads words.alike words.arguments
        (List.forall_mem_cons.mpr ⟨comesUp, List.forall_mem_singleton.mpr words.nulls⟩)
  | union members =>
      rw [TypeTerm.parts] at comeUp
      have membersComeUp : TypeTerm.ComeUp among (naming.sense base) (TypeTerm.partsAll members) :=
        fun p member => comeUp p (List.mem_cons_of_mem _ member)
      rw [TypeTerm.resolve, TypeTerm.read]
      refine (TypeTerm.resolveAll_reads words members membersComeUp).bind fun as areRead => ?_
      exact namedUnion_reads words.alike words.arguments (TypeTerm.comeUp_of_readAll membersComeUp areRead)
  | bar members =>
      rw [TypeTerm.parts] at comeUp
      have membersComeUp : TypeTerm.ComeUp among (naming.sense base) (TypeTerm.partsAll members) :=
        fun p member => comeUp p (List.mem_append_right _ member)
      rw [TypeTerm.resolve, TypeTerm.read]
      refine (TypeTerm.resolveAll_reads words members membersComeUp).bind fun as areRead => ?_
      cases as with
      | nil => exact .fail _
      | cons first rest =>
          have read := TypeTerm.comeUp_of_readAll membersComeUp areRead
          refine barChain_reads words.alike words.arguments (List.forall_mem_cons.mp read).2
            fun before isPrefix a isBuilt => ?_
          obtain ⟨front, isFront, readFront⟩ := TypeTerm.readAll_prefix areRead
            (List.cons_prefix_cons.mpr ⟨rfl, isPrefix⟩)
          refine (comeUp (.bar front) (List.mem_append_left _
            (List.mem_map.mpr ⟨front, (List.mem_inits _ _).mpr isFront, rfl⟩))).2 a ?_
          rw [TypeTerm.read, readFront]
          exact isBuilt
  | literal values =>
      rw [TypeTerm.parts] at comeUp
      rw [TypeTerm.resolve, TypeTerm.read]
      refine (ValueTerm.resolveAll_reads words values fun p member =>
        comeUp p (List.mem_cons_of_mem _ member)).bind fun vs _ => ?_
      exact .pure _
  | annotated inner note =>
      rw [TypeTerm.parts] at comeUp
      have innerComesUp : TypeTerm.ComeUp among (naming.sense base) inner.parts :=
        fun p member => comeUp p (List.mem_cons_of_mem _ (List.mem_append_left _ member))
      have noteComesUp : TypeTerm.ComeUp among (naming.sense base) note.parts :=
        fun p member => comeUp p (List.mem_cons_of_mem _ (List.mem_append_right _ member))
      rw [TypeTerm.resolve]
      rw [TypeTerm.read] at own ⊢
      refine (TypeTerm.resolve_reads words inner innerComesUp).bind fun a isRead => ?_
      refine (ValueTerm.resolve_reads words note noteComesUp).bind fun v isValue => ?_
      refine noted_reads words.alike ((innerComesUp inner inner.mem_parts_self).2 a isRead)
        (own.2 _ ?_)
      rw [isRead, isValue]
      rfl
  | generic origin args =>
      rw [TypeTerm.parts] at comeUp
      have argsComeUp : TypeTerm.ComeUp among (naming.sense base) (TypeTerm.partsAll args) :=
        fun p member => comeUp p (List.mem_cons_of_mem _ member)
      have reads := TypeTerm.resolveAll_reads words args argsComeUp
      cases origin with
      | cls c =>
          rw [TypeTerm.resolve, TypeTerm.read]
          exact reads.bind fun as _ => .pure _
      | classVar | final =>
          simp only [TypeTerm.resolve, TypeTerm.read]
          exact reads.bind fun as _ => (checkedArguments_reads as).bind fun _ _ => .pure _
  | callable params result =>
      rw [TypeTerm.parts] at comeUp
      have paramsComeUp : TypeTerm.ComeUp among (naming.sense base) (TypeTerm.partsAll params) :=
        fun p member => comeUp p (List.mem_cons_of_mem _ (List.mem_append_left _ member))
      have resultComesUp : TypeTerm.ComeUp among (naming.sense base) result.parts :=
        fun p member => comeUp p (List.mem_cons_of_mem _ (List.mem_append_right _ member))
      rw [TypeTerm.resolve, TypeTerm.read]
      refine (TypeTerm.resolveAll_reads words params paramsComeUp).bind fun as _ => ?_
      exact (TypeTerm.resolve_reads words result resultComesUp).bind fun a _ => .pure _
  | applied generic args => exact absurd rfl (own.1 generic args)
  | inPlace value =>
      rw [TypeTerm.parts] at comeUp
      rw [TypeTerm.resolve, TypeTerm.read]
      exact (ValueTerm.resolve_reads words value fun p member =>
        comeUp p (List.mem_cons_of_mem _ member)).bind fun v _ => .pure _
termination_by structural t

/-- Written type forms are resolved into what they are read as. -/
theorem TypeTerm.resolveAll_reads
    (words : naming.Words among base)
    (ts : List TypeTerm)
    (comeUp : TypeTerm.ComeUp among (naming.sense base) (TypeTerm.partsAll ts)) :
    Step.Reads among base (TypeTerm.resolveAll naming ts)
      (TypeTerm.readAll (naming.sense base) ts) := by
  cases ts with
  | nil => exact .pure []
  | cons t rest =>
      rw [TypeTerm.partsAll] at comeUp
      rw [TypeTerm.resolveAll, TypeTerm.readAll]
      refine (TypeTerm.resolve_reads words t fun p member =>
        comeUp p (List.mem_append_left _ member)).bind fun a _ => ?_
      exact (TypeTerm.resolveAll_reads words rest fun p member =>
        comeUp p (List.mem_append_right _ member)).bind fun as _ => .pure _
termination_by structural ts

/-- A written value is resolved into what it is read as. -/
theorem ValueTerm.resolve_reads
    (words : naming.Words among base)
    (t : ValueTerm)
    (comeUp : TypeTerm.ComeUp among (naming.sense base) t.parts) :
    Step.Reads among base (t.resolve naming) (t.read (naming.sense base)) := by
  cases t with
  | known v => exact .pure v
  | items shape elements =>
      rw [ValueTerm.parts] at comeUp
      rw [ValueTerm.resolve, ValueTerm.read]
      exact (ValueTerm.resolveAll_reads words elements comeUp).bind fun vs _ => .ofExcept _
  | dict entries =>
      rw [ValueTerm.parts] at comeUp
      rw [ValueTerm.resolve, ValueTerm.read]
      exact (ValueTerm.resolveEntries_reads words entries comeUp).bind fun es _ => .ofExcept _
  | type t =>
      rw [ValueTerm.parts] at comeUp
      rw [ValueTerm.resolve, ValueTerm.read]
      exact (TypeTerm.resolve_reads words t comeUp).bind fun a _ => .pure _
  | member enumeration name =>
      rw [ValueTerm.resolve, ValueTerm.read]
      refine (classNamed_reads words.settled enumeration).bind fun c _ => ?_
      refine .current_bind fun w spells => ?_
      have same : w.memberNamed? c name = base.memberNamed? c name := by
        rw [spells.same]
        rfl
      change Step.Reads among base _
        (match base.memberNamed? c name with
          | some v => Except.ok v
          | none => .error Fault.unknownEntry)
      rw [same]
      cases base.memberNamed? c name with
      | none => exact .fail _
      | some v => exact .pure v
  | instanceOf name =>
      rw [ValueTerm.resolve, ValueTerm.read]
      refine (classNamed_reads words.settled name).bind fun c _ => ?_
      refine .current_bind fun w spells => ?_
      have same : w.freshInstance? c none = base.freshInstance? c none := by
        rw [spells.same]
        rfl
      rw [same]
      exact .ofExcept _
termination_by structural t

/-- Written values are resolved into what they are read as. -/
theorem ValueTerm.resolveAll_reads
    (words : naming.Words among base)
    (ts : List ValueTerm)
    (comeUp : TypeTerm.ComeUp among (naming.sense base) (ValueTerm.partsAll ts)) :
    Step.Reads among base (ValueTerm.resolveAll naming ts)
      (ValueTerm.readAll (naming.sense base) ts) := by
  cases ts with
  | nil => exact .pure []
  | cons t rest =>
      rw [ValueTerm.partsAll] at comeUp
      rw [ValueTerm.resolveAll, ValueTerm.readAll]
      refine (ValueTerm.resolve_reads words t fun p member =>
        comeUp p (List.mem_append_left _ member)).bind fun v _ => ?_
      exact (ValueTerm.resolveAll_reads words rest fun p member =>
        comeUp p (List.mem_append_right _ member)).bind fun vs _ => .pure _
termination_by structural ts

/-- The entries of a written mapping are resolved into what they are read as. -/
theorem ValueTerm.resolveEntries_reads
    (words : naming.Words among base)
    (entries : List (ValueTerm × ValueTerm))
    (comeUp : TypeTerm.ComeUp among (naming.sense base) (ValueTerm.partsEntries entries)) :
    Step.Reads among base (ValueTerm.resolveEntries naming entries)
      (ValueTerm.readEntries (naming.sense base) entries) := by
  cases entries with
  | nil => exact .pure []
  | cons entry rest =>
      obtain ⟨k, t⟩ := entry
      rw [ValueTerm.partsEntries] at comeUp
      rw [ValueTerm.resolveEntries, ValueTerm.readEntries]
      refine (ValueTerm.resolve_reads words k fun p member =>
        comeUp p (List.mem_append_left _ member)).bind fun key _ => ?_
      refine (ValueTerm.resolve_reads words t fun p member =>
        comeUp p (List.mem_append_right _ (List.mem_append_left _ member))).bind fun v _ => ?_
      exact (ValueTerm.resolveEntries_reads words rest fun p member =>
        comeUp p (List.mem_append_right _ (List.mem_append_right _ member))).bind fun es _ =>
          .pure _
termination_by structural entries

end

end

end SchemaProbe

import Mathlib.Data.List.Basic
import SchemaProbe.Proofs.Resolving

namespace SchemaProbe

/-!
# What was resolved once stays resolved

Resolving what is written can spell a typing form for the first time, and can give
arguments to a generic model.  Both add to a world and take nothing from it, and
both are found when they are asked for again.  So where every class that is referred
to is declared, a term that was resolved has the same meaning from then on, and what
was found out about a class is found out about it in every later world.
-/

open Step

/-! ## Worlds that grow -/

namespace World

/-- Whether a class is declared; built-in classes always are. -/
def Declares (w : World) : ClassRef → Prop
  | .user u => (w.record? u).isSome = true
  | _ => True

/-- Whether a later world has everything that a world has, under the same names. -/
structure GrowsTo (w later : World) : Prop where
  names : later.names = w.names
  record : ∀ u r, w.record? u = some r → later.record? u = some r
  spelling : ∀ key a, w.spellings.lookup key = some a → later.spellings.lookup key = some a
  specialised : ∀ key u, w.specialised.lookup key = some u →
    later.specialised.lookup key = some u

section

variable {w later last : World} {c : ClassRef}

theorem GrowsTo.refl (w : World) : w.GrowsTo w :=
  ⟨rfl, fun _ _ found => found, fun _ _ found => found, fun _ _ found => found⟩

theorem GrowsTo.trans
    (first : w.GrowsTo later)
    (second : later.GrowsTo last) :
    w.GrowsTo last where
  names := second.names.trans first.names
  record u r found := second.record u r (first.record u r found)
  spelling key a found := second.spelling key a (first.spelling key a found)
  specialised key u found := second.specialised key u (first.specialised key u found)

/-- What is at the end of a table is found under its key if nothing was there. -/
private theorem lookup_concat
    [BEq κ] [LawfulBEq κ]
    {table : List (κ × α)}
    {key : κ}
    (a : α)
    (unknown : table.lookup key = none) :
    (table ++ [(key, a)]).lookup key = some a := by
  rw [List.lookup_append, unknown]
  simp

/-- What was found in a table is found in a longer one. -/
private theorem lookup_append_of_some
    [BEq κ] [LawfulBEq κ]
    {table : List (κ × α)}
    {key : κ}
    {a : α}
    (more : List (κ × α))
    (found : table.lookup key = some a) :
    (table ++ more).lookup key = some a := by
  rw [List.lookup_append, found]
  rfl

/-- Spelling a typing form for the first time adds to a world. -/
theorem growsTo_spell
    (w : World)
    (key : Key)
    (a : TypeForm) :
    w.GrowsTo { w with spellings := w.spellings ++ [(key, a)] } where
  names := rfl
  record _ _ found := found
  spelling _ _ found := lookup_append_of_some _ found
  specialised _ _ found := found

/-- The record of a class after adding one is the old one, or the new one if there was
none. -/
theorem record?_add
    (w : World)
    (r : ClassRecord)
    (u : UserClass) :
    (w.add r).record? u =
      (w.record? u).or (if r.cls == u then some r else none) := by
  unfold add record?
  rw [List.find?_append]
  congr 1
  simp only [List.find?_cons, List.find?_nil]
  split
  · rename_i same
    rw [if_pos same]
  · rename_i different
    rw [if_neg (by simp [different])]

/-- Giving arguments to a generic model adds to a world. -/
theorem growsTo_specialise
    (w : World)
    (r : ClassRecord)
    (key : Key) :
    w.GrowsTo { w.add r with specialised := w.specialised ++ [(key, r.cls)] } where
  names := rfl
  record u q found := by
    change (w.add r).record? u = some q
    rw [record?_add, found]
    rfl
  spelling _ _ found := found
  specialised _ _ found := lookup_append_of_some _ found

namespace GrowsTo

variable (grows : w.GrowsTo later)

include grows

/-- Declared classes stay declared. -/
theorem declares (declared : w.Declares c) : later.Declares c := by
  cases c with
  | user u =>
      obtain ⟨r, found⟩ := Option.isSome_iff_exists.mp declared
      change (later.record? u).isSome = true
      rw [grows.record u r found]
      rfl
  | builtin _ | sized _ _ => trivial

/-- The hooks of a declared class stay. -/
theorem hooks (declared : w.Declares c) : later.hooks c = w.hooks c := by
  cases c with
  | user u =>
      obtain ⟨r, found⟩ := Option.isSome_iff_exists.mp declared
      simp only [World.hooks, found, grows.record u r found]
  | builtin _ | sized _ _ => rfl

/-- What a declared class consists of stays. -/
theorem body (declared : w.Declares c) : later.body c = w.body c := by
  cases c with
  | user u =>
      obtain ⟨r, found⟩ := Option.isSome_iff_exists.mp declared
      simp only [World.body, found, grows.record u r found]
  | builtin b => cases b <;> rfl
  | sized _ _ => rfl

/-- What a declared class extends stays. -/
theorem lineage (declared : w.Declares c) : later.lineage c = w.lineage c := by
  cases c with
  | user u =>
      obtain ⟨r, found⟩ := Option.isSome_iff_exists.mp declared
      simp only [World.lineage, found, grows.record u r found]
  | builtin _ | sized _ _ => rfl

theorem inherits (declared : w.Declares c) (b : Builtin) :
    later.inherits c b = w.inherits c b := by
  simp only [World.inherits, grows.lineage declared]

theorem sequenceShape? (declared : w.Declares c) :
    later.sequenceShape? c = w.sequenceShape? c := by
  simp only [World.sequenceShape?, grows.inherits declared]

theorem members? (declared : w.Declares c) : later.members? c = w.members? c := by
  simp only [World.members?, grows.body declared]

theorem memberNamed? (declared : w.Declares c) (name : String) :
    later.memberNamed? c name = w.memberNamed? c name := by
  simp only [World.memberNamed?, grows.body declared]

theorem freshInstance? (declared : w.Declares c) (got : Option (List Value)) :
    later.freshInstance? c got = w.freshInstance? c got := by
  simp only [World.freshInstance?, World.emptyValue, grows.body declared,
    grows.sequenceShape? declared, grows.inherits declared]

theorem kind? (declared : w.Declares c) : later.kind? c = w.kind? c := by
  simp only [World.kind?, grows.hooks declared]

end GrowsTo

end

end World

/-- The class whose text labels a value that does not label itself. -/
def Value.labelling : Value → ClassRef
  | .member _ _ _ value => value.classOf
  | v => v.classOf

namespace World

/-- Whether every class that a record refers to is declared. -/
structure Closes (w : World) (r : ClassRecord) : Prop where
  lineage : ∀ c ∈ r.lineage, w.Declares c
  members : ∀ mixin members aliases, r.body = .enumeration mixin members aliases →
    ∀ m ∈ members, w.Declares m.2.classOf
  cases : ∀ values, r.hooks.cases = some (.listed values) →
    ∀ v, .known v ∈ values → w.Declares v.labelling

/-- Whether every class that a world refers to is declared in it. -/
structure IsClosed (w : World) : Prop where
  names : ∀ name c, w.names.lookup name = some (.cls c) → w.Declares c
  records : ∀ r ∈ w.classes, w.Closes r

section

variable {w later : World} {c : ClassRef}

/-- What a record refers to is declared where at least as much is. -/
theorem Closes.mono
    {r : ClassRecord}
    (closes : w.Closes r)
    (declares : ∀ c, w.Declares c → later.Declares c) :
    later.Closes r where
  lineage c member := declares c (closes.lineage c member)
  members mixin members aliases isBody m member :=
    declares _ (closes.members mixin members aliases isBody m member)
  cases values isHook v member := declares _ (closes.cases values isHook v member)

/-- What a record refers to stays declared. -/
theorem Closes.of_growsTo
    {r : ClassRecord}
    (closes : w.Closes r)
    (grows : w.GrowsTo later) :
    later.Closes r :=
  closes.mono fun _ => grows.declares

/-- The record of a class refers to declared classes. -/
theorem IsClosed.closes
    {u : UserClass}
    {r : ClassRecord}
    (closed : w.IsClosed)
    (found : w.record? u = some r) :
    w.Closes r :=
  closed.records r (List.mem_of_find?_eq_some found)

/-- Spelling a typing form leaves no class undeclared. -/
theorem IsClosed.spell
    (closed : w.IsClosed)
    (key : Key)
    (a : TypeForm) :
    { w with spellings := w.spellings ++ [(key, a)] }.IsClosed where
  names name c found := (growsTo_spell w key a).declares (closed.names name c found)
  records r member := (closed.records r member).of_growsTo (growsTo_spell w key a)

/-- Giving arguments to a declared generic model leaves no class undeclared: the new
class refers to itself and to what the model refers to. -/
theorem IsClosed.specialise
    {r : ClassRecord}
    {u : UserClass}
    (closed : w.IsClosed)
    (isRecord : w.record? u = some r)
    (cls : UserClass)
    (args : List TypeForm)
    (fields : List Field)
    (key : Key) :
    { w.add (r.specialised cls args fields) with
      specialised := w.specialised ++ [(key, (r.specialised cls args fields).cls)] }.IsClosed := by
  have grows := growsTo_specialise w (r.specialised cls args fields) key
  have closes := (closed.closes isRecord).of_growsTo grows
  constructor
  · intro name c found
    exact grows.declares (closed.names name c found)
  · intro q member
    rcases List.mem_append.mp member with old | new
    · exact (closed.records q old).of_growsTo grows
    · obtain rfl := List.mem_singleton.mp new
      constructor
      · intro c inLine
        rcases List.mem_cons.mp inLine with rfl | inherited
        · change ((w.add (r.specialised cls args fields)).record? _).isSome = true
          rw [record?_add, Option.isSome_or, Bool.or_eq_true]
          right
          simp [ClassRecord.specialised]
        · exact closes.lineage c inherited
      · intro mixin members aliases isBody
        cases isBody
      · exact closes.cases

/-- A value whose class is declared keeps its label. -/
theorem GrowsTo.label
    {v : Value}
    (grows : w.GrowsTo later)
    (declared : w.Declares v.labelling) :
    later.label v = w.label v := by
  have text (bare : Value) (isDeclared : w.Declares bare.classOf) :
      later.textOf bare = w.textOf bare := by
    unfold World.textOf
    rw [grows.hooks isDeclared]
    cases bare with
    | record c fields =>
        have sameBody : later.body c = w.body c := grows.body isDeclared
        simp only [sameBody]
    | _ => rfl
  unfold World.label
  dsimp only
  cases v with
  | member cls mixin name value => rw [text value declared]
  | _ => rw [text _ (by exact declared)]

/-- The collections that a class and what it extends give arguments to stay. -/
theorem GrowsTo.baseArguments
    (grows : w.GrowsTo later)
    (closed : w.IsClosed)
    (declared : w.Declares c)
    (b : Builtin) :
    later.baseArguments c b = w.baseArguments c b := by
  unfold World.baseArguments
  rw [grows.lineage declared]
  congr 2
  apply List.filterMap_congr
  intro ancestor member
  cases ancestor with
  | user u =>
      have ancestorDeclared : w.Declares (.user u) := by
        cases c with
        | user c =>
            obtain ⟨r, found⟩ := Option.isSome_iff_exists.mp declared
            have line : w.lineage (.user c) = r.lineage := by simp [World.lineage, found]
            exact (closed.closes found).lineage _ (line ▸ member)
        | builtin b => simp [World.lineage] at member
        | sized number home =>
            simp only [World.lineage] at member
            split at member <;> split at member <;> simp at member
      obtain ⟨r, found⟩ := Option.isSome_iff_exists.mp ancestorDeclared
      simp only [found, grows.record u r found]
  | builtin _ | sized _ _ => rfl

/-- How a declared class is read stays. -/
theorem GrowsTo.reader?
    (grows : w.GrowsTo later)
    (closed : w.IsClosed)
    (declared : w.Declares c) :
    later.reader? c = w.reader? c := by
  simp only [World.reader?, grows.hooks declared, grows.body declared,
    grows.inherits declared, grows.sequenceShape? declared,
    grows.baseArguments closed declared]

end

end World

/-! ## Steps whose results last -/

namespace Step

/-- Whether a step adds to a world, leaves no class undeclared in it, and ends with
the same result in every later world if it ends well. -/
inductive LastsAt (step : Step World α) (w : World) : Prop
  | ok {a : α} {reached : World} :
      step.run w = (.ok a, reached) → w.GrowsTo reached → reached.IsClosed →
        (∀ later, reached.GrowsTo later → step.run later = (.ok a, later)) → LastsAt step w
  | error {interrupt : Interrupt} {reached : World} :
      step.run w = (.error interrupt, reached) → w.GrowsTo reached → reached.IsClosed →
        LastsAt step w

/-- Whether the results of a step last in every world that is closed. -/
def Lasts (step : Step World α) : Prop :=
  ∀ w, w.IsClosed → step.LastsAt w

namespace LastsAt

variable {w reached : World}

/-- A pure result lasts. -/
theorem pure
    (closed : w.IsClosed)
    (a : α) :
    (Pure.pure a : Step World α).LastsAt w :=
  .ok rfl (.refl w) closed fun _ _ => rfl

/-- A fault is no result that would have to last. -/
theorem fail
    (closed : w.IsClosed)
    (f : Fault) :
    (Step.fail f : Step World α).LastsAt w :=
  .error rfl (.refl w) closed

/-- A result that is there lasts. -/
theorem ofExcept
    (closed : w.IsClosed)
    (result : Except Fault α) :
    (Step.ofExcept result : Step World α).LastsAt w := by
  cases result with
  | ok a => exact .pure closed a
  | error f => exact .fail closed f

/-- A result that is there lasts. -/
theorem ofOption
    (closed : w.IsClosed)
    (otherwise : Fault)
    (result : Option α) :
    (Step.ofOption otherwise result : Step World α).LastsAt w := by
  cases result with
  | some a => exact .pure closed a
  | none => exact .fail closed otherwise

/-- What a step reaches whose results last has grown, and is closed. -/
theorem grows_run
    {step : Step World α}
    {outcome : Except Interrupt α}
    (lasts : step.LastsAt w)
    (ran : step.run w = (outcome, reached)) :
    w.GrowsTo reached ∧ reached.IsClosed := by
  cases lasts with
  | ok ended grows closed again =>
      cases ended.symm.trans ran
      exact ⟨grows, closed⟩
  | error ended grows closed =>
      cases ended.symm.trans ran
      exact ⟨grows, closed⟩

/-- A lasting result is found again. -/
theorem run_later
    {step : Step World α}
    {a : α}
    {later : World}
    (lasts : step.LastsAt w)
    (ran : step.run w = (.ok a, reached))
    (grows : reached.GrowsTo later) :
    step.run later = (.ok a, later) := by
  cases lasts with
  | ok endedWell _ _ again =>
      cases endedWell.symm.trans ran
      exact again later grows
  | error interrupted _ _ => cases interrupted.symm.trans ran

/-- Looking at the world lasts if what is done then lasts and is done in every later
world. -/
theorem current_bind
    {next : World → Step World α}
    (lasts : (next w).LastsAt w)
    (same : ∀ a reached later, (next w).run w = (.ok a, reached) → w.GrowsTo later →
      next later = next w) :
    (current >>= next).LastsAt w := by
  have looked (w : World) := run_bind_of_ok (run_current w) next
  cases lasts with
  | ok ran grows closed again =>
      apply LastsAt.ok ((looked w).trans ran) grows closed
      intro later laterGrows
      rw [looked later, same _ _ later ran (grows.trans laterGrows)]
      exact again later laterGrows
  | error ran grows closed => exact .error ((looked w).trans ran) grows closed

/-- Results of steps one after the other last. -/
theorem bind
    {first : Step World α}
    {next : α → Step World β}
    (firstLasts : first.LastsAt w)
    (nextLasts : ∀ a reached, first.run w = (.ok a, reached) → reached.IsClosed →
      (next a).LastsAt reached) :
    (first >>= next).LastsAt w := by
  cases firstLasts with
  | error ran grows closed => exact .error (run_bind_of_error ran next) grows closed
  | @ok a reached ran grows closed again =>
      have goesOn := run_bind_of_ok ran next
      cases nextLasts a reached ran closed with
      | error nextRan nextGrows nextClosed =>
          exact .error (goesOn.trans nextRan) (grows.trans nextGrows) nextClosed
      | ok nextRan nextGrows nextClosed nextAgain =>
          apply LastsAt.ok (goesOn.trans nextRan) (grows.trans nextGrows) nextClosed
          intro later laterGrows
          rw [run_bind_of_ok (again later (nextGrows.trans laterGrows)) next]
          exact nextAgain later laterGrows

end LastsAt

namespace Lasts

/-- A pure result lasts. -/
theorem pure (a : α) : (Pure.pure a : Step World α).Lasts :=
  fun _ closed => .pure closed a

/-- A fault is no result that would have to last. -/
theorem fail (f : Fault) : (Step.fail f : Step World α).Lasts :=
  fun _ closed => .fail closed f

/-- A result that is there lasts. -/
theorem ofExcept (result : Except Fault α) : (Step.ofExcept result : Step World α).Lasts :=
  fun _ closed => .ofExcept closed result

/-- Results of steps one after the other last. -/
theorem bind
    {first : Step World α}
    {next : α → Step World β}
    (firstLasts : first.Lasts)
    (nextLasts : ∀ a, (next a).Lasts) :
    (first >>= next).Lasts :=
  fun w closed => (firstLasts w closed).bind fun a reached _ => nextLasts a reached

/-- Results of a step on each element last. -/
theorem each
    {f : α → Step World β}
    (lasts : ∀ a, (f a).Lasts)
    (as : List α) :
    (Step.each f as).Lasts := by
  induction as with
  | nil => exact .pure []
  | cons a rest inductionHypothesis =>
      exact (lasts a).bind fun b => inductionHypothesis.bind fun bs => .pure (b :: bs)

end Lasts

end Step

/-! ## Terms -/

section Terms

variable {w : World}

/-- The first spelling of a typing form lasts. -/
theorem spelled_lasts
    (form : String)
    (parts : List TypeForm)
    (built : TypeForm) :
    (spelled form parts built).Lasts := by
  intro w closed
  let key := Key.labelled form (.sequence (TypeForm.keys parts))
  have run_of_known {w : World} {first : TypeForm} (known : w.spellings.lookup key = some first) :
      (spelled form parts built).run w = (.ok first, w) := by
    unfold spelled
    rw [run_bind_of_ok (run_current w), known]
    rfl
  cases found : w.spellings.lookup key with
  | some first =>
      exact .ok (run_of_known found) (.refl w) closed fun later grows =>
        run_of_known (grows.spelling _ _ found)
  | none =>
      have ran : (spelled form parts built).run w =
          (.ok built, { w with spellings := w.spellings ++ [(key, built)] }) := by
        unfold spelled
        rw [run_bind_of_ok (run_current w), found]
        rfl
      exact .ok ran (w.growsTo_spell _ built) (closed.spell _ built) fun later grows =>
        run_of_known (grows.spelling _ _ (World.lookup_concat built found))

/-- Giving arguments to a declared generic model lasts. -/
theorem specialise_lasts
    {u : UserClass}
    {r : ClassRecord}
    (fields : List Field)
    (args : List TypeForm)
    (closed : w.IsClosed)
    (isRecord : w.record? u = some r) :
    (specialise r fields args).LastsAt w := by
  let key := Key.pair r.cls.key
    (.sequence (args.map fun a => Key.pair a.identity (.text a.display)))
  by_cases unfit : (r.params.isEmpty || r.params.length != args.length) = true
  · have failed : specialise r fields args = Step.fail .wrongArguments := by
      unfold specialise
      rw [if_pos unfit]
    rw [failed]
    exact .fail closed _
  by_cases own : (TypeForm.keys args == TypeForm.keys (r.params.map .variable)) = true
  · have itself : specialise r fields args = Pure.pure (.cls (.user r.cls)) := by
      unfold specialise
      rw [if_neg unfit, if_pos own]
    rw [itself]
    exact .pure closed _
  have run_of_known {w : World} {cls : UserClass} (known : w.specialised.lookup key = some cls) :
      (specialise r fields args).run w = (.ok (.cls (.user cls)), w) := by
    unfold specialise
    rw [if_neg unfit, if_neg own, run_bind_of_ok (run_current w)]
    dsimp only
    rw [known]
    rfl
  cases found : w.specialised.lookup key with
  | some cls =>
      apply LastsAt.ok (run_of_known found) (.refl w) closed
      intro later grows
      exact run_of_known (grows.specialised key cls found)
  | none =>
      let record := w.specialisation r args fields
      have ran : (specialise r fields args).run w =
          (.ok (.cls (.user record.cls)),
            { w.add record with specialised := w.specialised ++ [(key, record.cls)] }) := by
        unfold specialise
        rw [if_neg unfit, if_neg own, run_bind_of_ok (run_current w)]
        dsimp only
        rw [found]
        rfl
      apply LastsAt.ok ran (w.growsTo_specialise record key)
        (closed.specialise isRecord _ args fields key)
      intro later grows
      exact run_of_known (grows.specialised key record.cls (World.lookup_concat _ found))

/-- Giving arguments to a class lasts. -/
theorem applyClass_lasts
    (c : ClassRef)
    (args : List TypeForm) :
    (applyClass c args).Lasts := by
  intro w closed
  unfold applyClass
  apply LastsAt.current_bind
  · split
    · split
      · exact .pure closed _
      · exact .fail closed _
    · exact .fail closed _
    · split
      · exact .fail closed _
      · rename_i u r found
        split
        · exact specialise_lasts _ args closed found
        · split
          · split
            · exact .pure closed _
            · exact .fail closed _
          · split
            · exact .fail closed _
            · exact (Lasts.each (fun a => .ofExcept a.checkedArgument?) args w closed).bind
                fun checked reached _ reachedClosed => .pure reachedClosed _
  · intro a reached later ran grows
    cases c with
    | builtin _ | sized _ _ => rfl
    | user u =>
        dsimp only at ran
        cases found : w.record? u with
        | none =>
            rw [found] at ran
            cases ran
        | some r =>
            have declared : w.Declares (.user u) := Option.isSome_iff_exists.mpr ⟨r, found⟩
            simp only [found, grows.record u r found, grows.lineage declared]

/-- What a name refers to lasts. -/
theorem named_lasts (name : String) : ((TypeTerm.named name).resolve .strict).Lasts := by
  intro w closed
  rw [TypeTerm.resolve]
  apply LastsAt.current_bind (.ofExcept closed _)
  intro a reached later ran grows
  simp only [Naming.strict, grows.names]

/-- Finding the class that a name refers to lasts. -/
theorem classNamed_lasts (name : String) : (classNamed .strict name).Lasts := by
  intro w closed
  unfold classNamed
  apply LastsAt.current_bind
  · apply (LastsAt.ofExcept closed _).bind
    intro a reached ran reachedClosed
    split
    · exact .pure reachedClosed _
    · exact .fail reachedClosed _
  · intro c reached later ran grows
    simp only [Naming.strict, grows.names]

/-- The class that a name refers to is declared, and finding it changes nothing. -/
theorem declares_of_classNamed
    {name : String}
    {c : ClassRef}
    {reached : World}
    (closed : w.IsClosed)
    (ran : (classNamed .strict name).run w = (.ok c, reached)) :
    reached = w ∧ w.Declares c := by
  unfold classNamed Naming.strict at ran
  rw [run_bind_of_ok (run_current w)] at ran
  dsimp only at ran
  cases found : w.names.lookup name with
  | none =>
      rw [found] at ran
      cases ran
  | some a =>
      rw [found] at ran
      cases a with
      | cls c =>
        cases ran
        exact ⟨rfl, closed.names name c found⟩
      | _ => cases ran

/-- A member of an enumeration that a name refers to lasts. -/
theorem member_lasts (enumeration name : String) :
    ((ValueTerm.member enumeration name).resolve .strict).Lasts := by
  intro w closed
  rw [ValueTerm.resolve]
  apply (classNamed_lasts enumeration w closed).bind
  intro c reached ran reachedClosed
  obtain ⟨rfl, declared⟩ := declares_of_classNamed closed ran
  apply LastsAt.current_bind (.ofOption reachedClosed _ _)
  intro v last later found grows
  rw [grows.memberNamed? declared]

/-- A new instance of a class that a name refers to lasts. -/
theorem instanceOf_lasts (name : String) :
    ((ValueTerm.instanceOf name).resolve .strict).Lasts := by
  intro w closed
  rw [ValueTerm.resolve]
  apply (classNamed_lasts name w closed).bind
  intro c reached ran reachedClosed
  obtain ⟨rfl, declared⟩ := declares_of_classNamed closed ran
  apply LastsAt.current_bind (.ofExcept reachedClosed _)
  intro v last later found grows
  rw [grows.freshInstance? declared]

/-- Resolving is made of steps whose results last. -/
theorem strict_carries : Naming.Carries .strict fun step => step.Lasts where
  pure := .pure
  ofExcept := .ofExcept
  bind := .bind
  named := named_lasts
  spelled := spelled_lasts
  applied := applyClass_lasts
  member := member_lasts
  instanceOf := instanceOf_lasts

/-! ## What is found out about a class -/

/-- Elements are gathered into a sequence of no class of its own. -/
theorem labelling_of_gather
    {shape : SequenceShape}
    {elements : List Value}
    {v : Value}
    (gathered : gather? shape none elements = .ok v) :
    v.labelling = .builtin shape.builtin := by
  unfold gather? at gathered
  split at gathered
  · split at gathered
    · cases gathered
      rfl
    · cases gathered
  · cases gathered
    rfl

/-- A new instance is labelled by its class, or by a built-in one. -/
theorem labelling_of_freshInstance
    {c : ClassRef}
    {v : Value}
    (made : w.freshInstance? c none = .ok v) :
    v.labelling = c ∨ ∃ b, v.labelling = .builtin b := by
  unfold World.freshInstance? at made
  split at made
  · cases made
    exact .inl rfl
  · cases made
    exact .inl rfl
  · cases made
  · split at made
    · cases made
      exact .inl rfl
    · cases made
  · cases made
    exact .inr ⟨_, rfl⟩
  · split at made
    · cases made
      exact .inl rfl
    · cases made
      unfold World.emptyValue
      split
      · exact .inl rfl
      · split
        · exact .inl rfl
        · split
          · exact .inr ⟨_, rfl⟩
          · split
            · exact .inr ⟨_, rfl⟩
            · split
              · exact .inr ⟨_, rfl⟩
              · exact .inl rfl

/-- The members of a declared enumeration are labelled by declared classes. -/
theorem declares_labelling_of_member
    {cls : UserClass}
    {mixin other : Mixin}
    {members aliases : List (String × Value)}
    {m : String × Value}
    (closed : w.IsClosed)
    (isBody : w.body (.user cls) = .enumeration mixin members aliases)
    (member : m ∈ members) :
    w.Declares (memberValue cls other m).labelling := by
  cases found : w.record? cls with
  | none =>
      simp only [World.body, found] at isBody
      cases isBody
  | some r =>
      simp only [World.body, found] at isBody
      exact (closed.closes found).members mixin members aliases isBody m member

/-- The members of a declared enumeration are labelled by declared classes. -/
theorem declares_labelling_of_memberNamed
    {c : ClassRef}
    {name : String}
    {v : Value}
    (closed : w.IsClosed)
    (found : w.memberNamed? c name = some v) :
    w.Declares v.labelling := by
  unfold World.memberNamed? at found
  split at found
  · rename_i isBody
    split at found
    · rename_i raw isMember
      cases found
      exact declares_labelling_of_member closed isBody (Table.mem_of_lookup isMember)
    · obtain ⟨raw, -, named⟩ := Option.bind_eq_some_iff.mp found
      obtain ⟨m, isMember, rfl⟩ := Option.map_eq_some_iff.mp named
      exact declares_labelling_of_member closed isBody (List.mem_of_find?_eq_some isMember)
  · cases found

/-- A value that was resolved is labelled by a declared class. -/
theorem declares_labelling_of_resolve
    {t : ValueTerm}
    {v : Value}
    {reached : World}
    (closed : w.IsClosed)
    (known : ∀ v, t = .known v → w.Declares v.labelling)
    (ran : (t.resolve .strict).run w = (.ok v, reached)) :
    reached.Declares v.labelling := by
  have ofExcept {result : Except Fault Value} {between : World}
      (taken : (Step.ofExcept result).run between = (.ok v, reached)) : result = .ok v := by
    cases result <;> cases taken
    rfl
  cases t with
  | known v =>
      rw [ValueTerm.resolve] at ran
      cases ran
      exact known v rfl
  | items shape elements =>
      rw [ValueTerm.resolve] at ran
      obtain ⟨values, between, -, gathered⟩ := run_bind_eq_ok_iff.mp ran
      rw [labelling_of_gather (ofExcept gathered)]
      trivial
  | dict entries =>
      rw [ValueTerm.resolve] at ran
      obtain ⟨resolved, between, -, made⟩ := run_bind_eq_ok_iff.mp ran
      have isDict := ofExcept made
      unfold dictOf? at isDict
      split at isDict
      · cases isDict
        trivial
      · cases isDict
  | type t =>
      rw [ValueTerm.resolve] at ran
      obtain ⟨a, between, -, made⟩ := run_bind_eq_ok_iff.mp ran
      cases made
      trivial
  | member enumeration name =>
      rw [ValueTerm.resolve] at ran
      obtain ⟨c, between, named, taken⟩ := run_bind_eq_ok_iff.mp ran
      obtain ⟨rfl, -⟩ := declares_of_classNamed closed named
      rw [run_bind_of_ok (run_current between)] at taken
      cases found : between.memberNamed? c name with
      | none =>
          rw [found] at taken
          cases taken
      | some v =>
          rw [found] at taken
          cases taken
          exact declares_labelling_of_memberNamed closed found
  | instanceOf name =>
      rw [ValueTerm.resolve] at ran
      obtain ⟨c, between, named, taken⟩ := run_bind_eq_ok_iff.mp ran
      obtain ⟨rfl, declared⟩ := declares_of_classNamed closed named
      rw [run_bind_of_ok (run_current between)] at taken
      have unchanged : reached = between := by
        cases made : between.freshInstance? c none <;> rw [made] at taken <;> cases taken
        rfl
      rcases labelling_of_freshInstance (ofExcept taken) with own | ⟨b, builtin⟩
      · rw [own, unchanged]
        exact declared
      · rw [builtin]
        trivial

/-- Values that were resolved are labelled by declared classes. -/
theorem declares_labelling_of_resolveAll
    {ts : List ValueTerm}
    {values : List Value}
    {reached : World}
    (closed : w.IsClosed)
    (known : ∀ v, .known v ∈ ts → w.Declares v.labelling)
    (ran : (ValueTerm.resolveAll .strict ts).run w = (.ok values, reached)) :
    ∀ v ∈ values, reached.Declares v.labelling := by
  induction ts generalizing w values with
  | nil =>
      cases ran
      simp
  | cons t rest inductionHypothesis =>
      rw [ValueTerm.resolveAll] at ran
      obtain ⟨v, between, first, continued⟩ := run_bind_eq_ok_iff.mp ran
      obtain ⟨others, last, later, ended⟩ := run_bind_eq_ok_iff.mp continued
      cases ended
      obtain ⟨grows, betweenClosed⟩ :=
        (ValueTerm.resolve_carried strict_carries t w closed).grows_run first
      obtain ⟨growsLater, -⟩ :=
        (ValueTerm.resolveAll_carried strict_carries rest between betweenClosed).grows_run later
      have isDeclared : between.Declares v.labelling :=
        declares_labelling_of_resolve closed
          (fun v isKnown => known v (isKnown ▸ List.mem_cons_self)) first
      intro u member
      rcases List.mem_cons.mp member with rfl | isLater
      · exact growsLater.declares isDeclared
      · exact inductionHypothesis betweenClosed
          (fun v isKnown => grows.declares (known v (List.mem_cons_of_mem _ isKnown)))
          later u isLater

/-- The cases of a declared class last. -/
theorem classCases_lasts
    {c : ClassRef}
    (closed : w.IsClosed)
    (declared : w.Declares c) :
    (classCases c).LastsAt w := by
  unfold classCases
  apply LastsAt.current_bind
  · split
    · rename_i values isHook
      exact (ValueTerm.resolveAll_carried strict_carries values w closed).bind
        fun _ reached _ reachedClosed => .pure reachedClosed _
    · exact .fail closed _
    · exact .pure closed _
  · intro cases reached later ran grows
    rw [grows.hooks declared, grows.members? declared]

/-- What an enumeration lists are members of it. -/
theorem mem_of_mem_listedMembers
    {mixin : Mixin}
    {members : List (String × Value)}
    {m : String × Value}
    (listed : m ∈ World.listedMembers mixin members) :
    m ∈ members := by
  unfold World.listedMembers at listed
  split at listed
  · exact List.mem_of_mem_filter listed
  · exact List.mem_of_mem_filter listed
  · exact listed

/-- The cases of a declared class are labelled by declared classes. -/
theorem declares_labelling_of_classCases
    {c : ClassRef}
    {values : List Value}
    {reached : World}
    (closed : w.IsClosed)
    (ran : (classCases c).run w = (.ok (some values), reached)) :
    ∀ v ∈ values, reached.Declares v.labelling := by
  unfold classCases at ran
  rw [run_bind_of_ok (run_current w)] at ran
  split at ran
  · rename_i terms isHook
    obtain ⟨resolved, between, resolves, ended⟩ := run_bind_eq_ok_iff.mp ran
    cases ended
    apply declares_labelling_of_resolveAll closed _ resolves
    cases c with
    | user u =>
        cases found : w.record? u with
        | none =>
            simp only [World.hooks, found] at isHook
            cases isHook
        | some r =>
            simp only [World.hooks, found] at isHook
            exact (closed.closes found).cases terms isHook
    | builtin _ | sized _ _ => cases isHook
  · cases ran
  · rw [run_pure] at ran
    obtain ⟨listed, rfl⟩ := Prod.mk.inj ran
    intro v member
    unfold World.members? at listed
    split at listed
    · rename_i mixin members aliases cls isBody
      cases listed
      obtain ⟨m, isListed, rfl⟩ := List.mem_map.mp member
      exact declares_labelling_of_member closed isBody (mem_of_mem_listedMembers isListed)
    · cases listed
      cases member
    · cases listed

/-- What is found out about a declared class lasts. -/
theorem classCapabilities_lasts
    {c : ClassRef}
    (closed : w.IsClosed)
    (declared : w.Declares c) :
    (classCapabilities c).LastsAt w := by
  unfold classCapabilities
  apply LastsAt.current_bind
  · dsimp only
    split
    · exact .pure closed _
    · split
      · exact .pure closed _
      · apply (classCases_lasts closed declared).bind
        intro cases reached listed reachedClosed
        obtain ⟨grows, -⟩ := (classCases_lasts closed declared).grows_run listed
        apply LastsAt.current_bind
        · exact .pure reachedClosed _
        · intro caps last later made growsLater
          have labels : (cases.map fun values => values.map later.label) =
              cases.map fun values => values.map reached.label := by
            cases cases with
            | none => rfl
            | some values =>
                have labelled := declares_labelling_of_classCases closed listed
                exact congrArg some (List.map_congr_left fun v member =>
                  growsLater.label (labelled v member))
          rw [labels, growsLater.reader? reachedClosed (grows.declares declared)]
  · intro caps reached later ran grows
    rw [grows.hooks declared, grows.kind? declared, grows.inherits declared,
      grows.inherits declared]

end Terms

end SchemaProbe

import SchemaProbe.Proofs.Lookups
import SchemaProbe.Proofs.Contexts

namespace SchemaProbe

/-!
# Universes of types

What a state knows about a universe obeys the laws by which trees can be used
again.  Every type has a finite universe: the type forms written in it, in the
declared classes and in what is registered, as far as reading the type leads to
them.
-/

section

variable {s : Store} {forms : List TypeForm} {allowed : Allowance} {a b type x y : TypeForm}

/-- What a type form of the universe stands for: nothing, if it is not known, a
type that is not looked into, or one that is. -/
inductive KnownEntry (s : Store) (forms : List TypeForm) (allowed : Allowance) (a : TypeForm) :
    Entry → Prop
  | foreign : KnownEntry s forms allowed a (.leaf (.any none))
  | leaf {caps : Capabilities} : caps.Sound s forms allowed a.identity →
      KnownEntry s forms allowed a (.leaf caps.leaf)
  | inner {caps : Capabilities} {reader : Reader} : caps.Sound s forms allowed a.identity →
      reader.Fits caps allowed →
      (∀ request ∈ (s.layout caps reader).requests, request ∈ forms) →
      KnownEntry s forms allowed a (.inner caps.type (s.layout caps reader))

theorem Store.Ready.knownEntry
    (ready : s.Ready forms allowed)
    (member : a ∈ forms) :
    KnownEntry s forms allowed a (s.entry a) := by
  unfold Store.entry
  cases found : (s.registry .current).find? a with
  | none => exact .foreign
  | some caps =>
      have sound := ready.known a member caps found
      simp only [Store.entryOf]
      split
      · rename_i reader isNone probed reads
        exact .inner sound (sound.fits reader isNone probed reads)
          (sound.closed reader isNone probed reads)
      · exact .leaf sound

theorem Capabilities.type_leaf (caps : Capabilities) : caps.leaf.type = some caps.type := by
  unfold Capabilities.leaf
  split <;> rfl

/-- A type that stands for something stands for the type of its key. -/
theorem Store.Ready.key?_entry
    {key : Key}
    (ready : s.Ready forms allowed)
    (member : a ∈ forms)
    (hasKey : (s.entry a).key? = some key) :
    a.identity = key := by
  have known := ready.knownEntry member
  cases entry : s.entry a with
  | leaf shape =>
      rw [entry] at known hasKey
      cases known with
      | foreign => cases hasKey
      | leaf sound =>
          rw [Entry.key?, Capabilities.type_leaf] at hasKey
          cases hasKey
          exact sound.identity.symm
  | inner type layout =>
      rw [entry] at known hasKey
      cases known with
      | inner sound _ _ =>
          cases hasKey
          exact sound.identity.symm

/-- The layout of a type that is read as another one or null. -/
theorem eq_nullable_of_layout
    {caps : Capabilities}
    {reader : Reader}
    (isNullable : s.layout caps reader = .nullable x) :
    reader = .nullable x := by
  cases reader with
  | nullable inner =>
      cases isNullable
      rfl
  | fields c =>
      simp only [Store.layout] at isNullable
      split at isNullable <;> cases isNullable
  | _ => cases isNullable

/-- A type that is read as another one or null is a union with null. -/
theorem Store.Ready.stripNull_of_nullable
    (ready : s.Ready forms allowed)
    (member : a ∈ forms)
    (isInner : s.entry a = .inner type (.nullable x)) :
    type.isPlain = true ∧ type.identity = a.identity ∧ type.stripNull = (x, true) := by
  have known := ready.knownEntry member
  rw [isInner] at known
  generalize layoutCase : Layout.nullable x = layout at known
  cases known with
  | @inner caps reader sound fits _ =>
      obtain rfl := eq_nullable_of_layout layoutCase.symm
      exact ⟨sound.plain, sound.identity, fits.2⟩

theorem Store.Ready.isNullable_key
    (ready : s.Ready forms allowed)
    (member : a ∈ forms)
    (isNullable : (s.entry a).IsNullable) :
    a.key.isNullable = true := by
  cases entry : s.entry a with
  | leaf shape =>
      rw [entry] at isNullable
      cases isNullable
  | inner type layout =>
      rw [entry] at isNullable
      cases layout with
      | nullable x =>
          obtain ⟨plain, identity, stripped⟩ := ready.stripNull_of_nullable member entry
          rw [← TypeForm.identity_of_isPlain (ready.covers.plain a member), ← identity,
            TypeForm.identity_of_isPlain plain, TypeForm.isNullable_key plain, stripped]
      | _ => cases isNullable

theorem Store.Ready.closedUnder (ready : s.Ready forms allowed) : ClosedUnder s.entry forms := by
  intro a member type layout isInner
  have known := ready.knownEntry member
  rw [isInner] at known
  cases known with
  | inner _ _ closed => exact closed

/-- The plans of a type that is read as a record. -/
theorem exists_plans_of_layout
    {caps : Capabilities}
    {reader : Reader}
    {plans : List FieldPlan}
    (isRecord : s.layout caps reader = .record plans) :
    ∃ c, s.world.plansOf? c = some plans := by
  cases reader with
  | fields c =>
      simp only [Store.layout] at isRecord
      split at isRecord
      · rename_i found
        cases isRecord
        exact ⟨c, found⟩
      · cases isRecord
  | _ => cases isRecord

/-- The value of a type with cases is of a class, and its cases are known and values
with content. -/
theorem scalar_of_layout
    {caps : Capabilities}
    {reader : Reader}
    {value : TypeForm}
    {cases : List Value}
    (fits : reader.Fits caps allowed)
    (isScalar : s.layout caps reader = .scalar value cases) :
    (∃ c, value = .cls c) ∧ caps.cases = some cases ∧ Value.allContent cases = true := by
  have ofCases (hasCases : ∃ cases, caps.cases = some cases ∧ Value.allContent cases = true) :
      caps.cases = some (caps.cases.getD []) ∧ Value.allContent (caps.cases.getD []) = true := by
    obtain ⟨cases, isSome, content⟩ := hasCases
    rw [isSome]
    exact ⟨rfl, content⟩
  cases reader with
  | oneOf values =>
      cases isScalar
      exact ⟨⟨_, rfl⟩, ofCases fits.2⟩
  | member c =>
      cases isScalar
      exact ⟨⟨_, rfl⟩, ofCases fits.2⟩
  | fields c =>
      simp only [Store.layout] at isScalar
      split at isScalar <;> cases isScalar
  | _ => cases isScalar

/-- What a state knows about its universe is lawful. -/
theorem Store.Ready.lawful (ready : s.Ready forms allowed) : Lawful s.entry forms := by
  have plain := ready.covers.plain
  have notNullable (a : TypeForm) (member : a ∈ forms) (stripped : a.stripNull.2 = false) :
      ¬ (s.entry a).IsNullable := by
    intro isNullable
    have key := ready.isNullable_key member isNullable
    rw [TypeForm.isNullable_key (plain a member), stripped] at key
    cases key
  constructor
  · exact ready.closedUnder
  · intro a member b otherMember key hasKey otherKey
    have sameIdentity : b.identity = a.identity := by
      rw [ready.key?_entry member hasKey, ready.key?_entry otherMember otherKey]
    rw [Store.entry, Store.entry, Store.find?_congr _ sameIdentity]
  · intro a member shape isLeaf
    have known := ready.knownEntry member
    rw [isLeaf] at known
    cases known with
    | foreign => exact .foreign
    | @leaf caps sound =>
        have hashable := TypeForm.isHashable_of_isPlain _ sound.plain
        unfold Capabilities.leaf
        split
        · exact .scalar hashable
        · exact .any hashable
  · intro a member type layout isInner
    have known := ready.knownEntry member
    rw [isInner] at known
    cases known with
    | inner sound _ _ => exact TypeForm.isHashable_of_isPlain _ sound.plain
  · intro a member type x isInner
    obtain ⟨typePlain, _, stripped⟩ := ready.stripNull_of_nullable member isInner
    have innerMember : x ∈ forms :=
      ready.closedUnder a member type _ isInner x List.mem_cons_self
    have remains := TypeForm.stripNull_stripNull typePlain
    rw [stripped] at remains
    exact notNullable x innerMember (by rw [remains])
  · intro a member b otherMember type other x y key isInner otherInner hasKey otherKey
    obtain ⟨typePlain, _, stripped⟩ := ready.stripNull_of_nullable member isInner
    obtain ⟨otherPlain, _, otherStripped⟩ := ready.stripNull_of_nullable otherMember otherInner
    have innerMember : x ∈ forms :=
      ready.closedUnder a member type _ isInner x List.mem_cons_self
    have otherInnerMember : y ∈ forms :=
      ready.closedUnder b otherMember other _ otherInner y List.mem_cons_self
    have sameInner : x.key = y.key := by
      rw [← TypeForm.identity_of_isPlain (plain x innerMember),
        ← TypeForm.identity_of_isPlain (plain y otherInnerMember),
        ready.key?_entry innerMember hasKey, ready.key?_entry otherInnerMember otherKey]
    rw [TypeForm.identity_of_isPlain typePlain, TypeForm.identity_of_isPlain otherPlain]
    exact TypeForm.key_eq_of_stripNull typePlain otherPlain stripped otherStripped sameInner
  · intro a member type plans isInner p isPlan notOptional
    have formMember : p.form ∈ forms := by
      refine ready.closedUnder a member type _ isInner p.form (List.mem_map.mpr ⟨p, isPlan, ?_⟩)
      rw [notOptional]
      rfl
    have known := ready.knownEntry member
    rw [isInner] at known
    generalize layoutCase : Layout.record plans = layout at known
    cases known with
    | inner _ _ _ =>
        obtain ⟨c, found⟩ := exists_plans_of_layout layoutCase.symm
        have faithful := World.isFaithful_of_mem_plansOf? found p isPlan
        refine notNullable p.form formMember (Bool.eq_false_iff.mpr fun isNullable => ?_)
        rw [faithful.2 isNullable] at notOptional
        cases notOptional
  · intro a member type value cases isInner
    have known := ready.knownEntry member
    rw [isInner] at known
    generalize layoutCase : Layout.scalar value cases = layout at known
    cases known with
    | inner _ fits _ =>
        obtain ⟨⟨c, rfl⟩, _, content⟩ := scalar_of_layout fits layoutCase.symm
        have valueMember := ready.closedUnder a member _ _ isInner _ List.mem_cons_self
        exact ⟨notNullable _ valueMember rfl, content⟩

end

/-! ## What a type leads to -/

namespace Store

/-- What reading a type form asks for at once: its own parts, what the declared
classes say, and what is known about it. -/
inductive Asks (s : Store) : TypeForm → TypeForm → Prop
  | part {a b : TypeForm} : b ∈ a.asks → Asks s a b
  | argument {c : ClassRef} {base : Builtin} {b : TypeForm} :
      b ∈ s.world.baseArguments c base → Asks s (.cls c) b
  | member {c : ClassRef} : Asks s (.cls c) (.cls (s.world.memberClass c))
  | field {c : ClassRef} {plans : List FieldPlan} {p : FieldPlan} :
      s.world.plansOf? c = some plans → p ∈ plans → Asks s (.cls c) p.form
  | known {a b : TypeForm} {caps : Capabilities} {reader : Reader} :
      (s.registry .current).find? a = some caps → caps.reader = some reader →
      b ∈ (s.layout caps reader).requests → Asks s a b

/-- What reading a type form leads to in the end. -/
inductive LeadsTo (s : Store) (root : TypeForm) : TypeForm → Prop
  | root : LeadsTo s root root
  | any : LeadsTo s root .any
  | text : LeadsTo s root (.builtin .str)
  | step {a b : TypeForm} : LeadsTo s root a → Asks s a b → LeadsTo s root b

/-- Whether a type form leads to plain type forms alone, whose classes have no
hooks for cases and do nothing by others that is not allowed, and about which
nothing wrong is known. -/
structure Conventional (s : Store) (allowed : Allowance) (root : TypeForm) : Prop where
  plain : ∀ a, s.LeadsTo root a → a.isPlain = true
  unapplied : ∀ a, s.LeadsTo root a → ∀ c, a.aliasOrigin? = some (.cls c) → c.key ∉ allowed.programs
  cases : ∀ c, s.LeadsTo root (.cls c) → (s.world.hooks c).cases = none
  program : ∀ c, s.LeadsTo root (.cls c) → c.key ∉ allowed.programs →
    (s.world.hooks c).program = none
  schema : ∀ c, s.LeadsTo root (.cls c) → ∀ hook, (s.world.hooks c).schema = some hook →
    allowed.schemas hook
  known : ∀ a, s.LeadsTo root a → ∀ caps, (s.registry .current).find? a = some caps →
    caps.type.identity = a.identity ∧ caps.type.isPlain = true ∧
      caps.type.hasCapabilities = true ∧ (∀ hook, caps.schema = some hook → allowed.schemas hook) ∧
      ∀ reader, caps.kind = none → caps.bypassesProbe = false → caps.reader = some reader →
        reader.Fits caps allowed

/-- A state knows every universe of type forms that a conventional one leads
to. -/
theorem Conventional.ready
    {s : Store}
    {allowed : Allowance}
    {root : TypeForm}
    {forms : List TypeForm}
    (conventional : s.Conventional allowed root)
    (universal : ∀ a, a ∈ forms ↔ s.LeadsTo root a) :
    s.Ready forms allowed where
  covers :=
    { any := (universal _).mpr .any
      text := (universal _).mpr .text
      plain := fun a member => conventional.plain a ((universal a).mp member)
      asks := fun a member b asked =>
        (universal b).mpr (.step ((universal a).mp member) (.part asked))
      unapplied := fun a member => conventional.unapplied a ((universal a).mp member)
      cases := fun c member => conventional.cases c ((universal _).mp member)
      program := fun c member => conventional.program c ((universal _).mp member)
      schema := fun c member => conventional.schema c ((universal _).mp member)
      arguments := fun c member base a isArgument =>
        (universal a).mpr (.step ((universal _).mp member) (.argument isArgument))
      member := fun c member => (universal _).mpr (.step ((universal _).mp member) .member)
      plans := fun c member plans found p isPlan =>
        (universal _).mpr (.step ((universal _).mp member) (.field found isPlan)) }
  known a member caps found := by
    have leads := (universal a).mp member
    obtain ⟨identity, plain, accepted, schema, fits⟩ := conventional.known a leads caps found
    refine ⟨identity, plain, accepted, schema, fits, ?_⟩
    intro reader _ _ reads request asked
    exact (universal request).mpr (.step leads (.known found reads asked))

/-- What is led to leads to what the root leads to. -/
theorem LeadsTo.trans
    {s : Store}
    {root a b : TypeForm}
    (leads : s.LeadsTo root a)
    (further : s.LeadsTo a b) :
    s.LeadsTo root b := by
  induction further with
  | root => exact leads
  | any => exact .any
  | text => exact .text
  | step _ asks inductionHypothesis => exact inductionHypothesis.step asks

/-- What a conventional type form leads to is conventional. -/
theorem Conventional.of_leadsTo
    {s : Store}
    {allowed : Allowance}
    {root a : TypeForm}
    (conventional : s.Conventional allowed root)
    (leads : s.LeadsTo root a) :
    s.Conventional allowed a where
  plain b further := conventional.plain b (leads.trans further)
  unapplied b further := conventional.unapplied b (leads.trans further)
  cases c further := conventional.cases c (leads.trans further)
  program c further := conventional.program c (leads.trans further)
  schema c further := conventional.schema c (leads.trans further)
  known b further := conventional.known b (leads.trans further)

/-- Whether nothing is known about the types of a list can be tried out. -/
theorem unknown_of_all
    {s : Store}
    {forms : List TypeForm}
    (each : (forms.all fun b => ((s.registry .current).find? b).isNone) = true) :
    ∀ b ∈ forms, (s.registry .current).find? b = none :=
  fun b member => Option.isNone_iff_eq_none.mp (List.all_eq_true.mp each b member)

/-- A type form of a universe about which nothing is known leads to nothing
outside. -/
theorem LeadsTo.mem_of_unknown
    {s : Store}
    {allowed : Allowance}
    {root a : TypeForm}
    {forms : List TypeForm}
    (covers : s.world.Covers forms allowed)
    (unknown : ∀ b ∈ forms, (s.registry .current).find? b = none)
    (member : root ∈ forms)
    (leads : s.LeadsTo root a) :
    a ∈ forms := by
  induction leads with
  | root => exact member
  | any => exact covers.any
  | text => exact covers.text
  | step _ asks inductionHypothesis =>
      cases asks with
      | part asked => exact covers.asks _ inductionHypothesis _ asked
      | argument isArgument => exact covers.arguments _ inductionHypothesis _ _ isArgument
      | member => exact covers.member _ inductionHypothesis
      | field found isPlan => exact covers.plans _ inductionHypothesis _ found _ isPlan
      | known found _ _ =>
          rw [unknown _ inductionHypothesis] at found
          cases found

/-- A type form of a universe about which nothing is known is conventional. -/
theorem Conventional.of_unknown
    {s : Store}
    {allowed : Allowance}
    {root : TypeForm}
    {forms : List TypeForm}
    (covers : s.world.Covers forms allowed)
    (unknown : ∀ b ∈ forms, (s.registry .current).find? b = none)
    (member : root ∈ forms) :
    s.Conventional allowed root where
  plain a leads := covers.plain a (leads.mem_of_unknown covers unknown member)
  unapplied a leads := covers.unapplied a (leads.mem_of_unknown covers unknown member)
  cases c leads := covers.cases c (leads.mem_of_unknown covers unknown member)
  program c leads := covers.program c (leads.mem_of_unknown covers unknown member)
  schema c leads := covers.schema c (leads.mem_of_unknown covers unknown member)
  known a leads caps found := by
    rw [unknown a (leads.mem_of_unknown covers unknown member)] at found
    cases found

end Store

/-! ## Everything that is mentioned -/

/-- The requests that a reader makes without asking the declared classes. -/
def Reader.ownRequests : Reader → List TypeForm
  | .sequence item _ => [item]
  | .positions items => items
  | .mapping value _ => [value]
  | .nullable inner => [inner]
  | .oneOf values => [.cls ((values.head?.map Value.classOf).getD (.builtin .str))]
  | _ => []

/-- The arguments in the type form of a base. -/
def TypeForm.baseArguments : Option TypeForm → List TypeForm
  | some (.generic _ args) => args
  | _ => []

/-- The type forms that a declared class mentions. -/
def ClassRecord.mentions (w : World) (r : ClassRecord) : List TypeForm :=
  .cls (w.memberClass (.user r.cls)) ::
    (TypeForm.baseArguments r.base ++
      ((w.plansOf? (.user r.cls)).getD []).flatMap fun p => [p.form, p.inner])

/-- The type forms that what is known about types mentions. -/
def CapabilityRegistry.mentions (r : CapabilityRegistry) : List TypeForm :=
  (r.cache ++ r.explicit).flatMap fun e => (e.2.reader.map Reader.ownRequests).getD []

/-- The type forms that a state mentions, and one more. -/
def Store.mentions (s : Store) (root : TypeForm) : List TypeForm :=
  root :: .any :: .builtin .str ::
    (s.world.classes.flatMap (ClassRecord.mentions s.world) ++
      (s.registry .current).mentions)

namespace World

section

variable {w : World} {u : UserClass} {r : ClassRecord}

theorem id_of_record? (found : w.record? u = some r) : r.cls = u := by
  have holds := List.find?_some found
  simpa using holds

/-- A class is found under the number of its record. -/
theorem record?_eq (found : w.record? u = some r) (v : World) : v.record? u = v.record? r.cls := by
  simp [record?, id_of_record? found]

theorem body_eq (found : w.record? u = some r) (v : World) :
    v.body (.user u) = v.body (.user r.cls) := by
  change ((v.record? u).map (·.body)).getD .plain = ((v.record? r.cls).map (·.body)).getD .plain
  rw [record?_eq found v]

/-- The plans of a class are those of its record. -/
theorem plansOf?_eq (found : w.record? u = some r) :
    w.plansOf? (.user u) = w.plansOf? (.user r.cls) := by
  have settles : w.settle (.user u) = w.settle (.user r.cls) := by
    simp only [settle, record?_eq found w]
  have lineages : w.lineage (.user u) = w.lineage (.user r.cls) := by
    change ((w.record? u).map (·.lineage)).getD [.user u] =
      ((w.record? r.cls).map (·.lineage)).getD [.user r.cls]
    rw [← record?_eq found w, found]
    rfl
  have structs : w.isStruct (.user u) = w.isStruct (.user r.cls) := by
    rw [isStruct, isStruct, inherits, inherits, lineages]
  have inherits : (w.settle (.user r.cls)).inherits (.user u) .struct =
      (w.settle (.user r.cls)).inherits (.user r.cls) .struct := by
    rw [inherits_settle, inherits_settle]
    exact structs
  have dataclasses : w.dataclassPlans? (.user u) = w.dataclassPlans? (.user r.cls) := by
    unfold dataclassPlans?
    rw [body_eq found w]
  have models (v : World) : v.modelPlans? (.user u) = v.modelPlans? (.user r.cls) := by
    unfold modelPlans?
    rw [body_eq found v]
    cases v.body (.user r.cls) <;> rfl
  have structPlans : (w.settle (.user r.cls)).structPlans? (.user u) =
      (w.settle (.user r.cls)).structPlans? (.user r.cls) := by
    unfold structPlans?
    rw [body_eq found, inherits]
  have isDataclass : w.isDataclass (.user u) = w.isDataclass (.user r.cls) := by
    unfold World.isDataclass
    rw [body_eq found w]
  rw [plansOf?, plansOf?, run_decodingPlans, run_decodingPlans, settles, structs, dataclasses,
    models, structPlans, isDataclass]

theorem memberClass_eq (found : w.record? u = some r) :
    w.memberClass (.user u) = w.memberClass (.user r.cls) := by
  unfold memberClass members?
  rw [body_eq found w]
  cases w.body (.user r.cls) with
  | enumeration mixin members aliases =>
      cases listed : listedMembers mixin members with
      | nil => simp [listed]
      | cons m rest => simp [listed, memberValue]
  | _ => rfl

/-- What a record mentions belongs to its class. -/
theorem mentions_of_record?
    (found : w.record? u = some r)
    {a : TypeForm}
    (mentioned : a ∈ r.mentions w) :
    a ∈ w.classes.flatMap (ClassRecord.mentions w) :=
  List.mem_flatMap.mpr ⟨r, List.mem_of_find?_eq_some found, mentioned⟩

end

/-- The fields of classes that are not declared have no plans. -/
theorem plansOf?_of_undeclared
    {w : World}
    {c : ClassRef}
    {plans : List FieldPlan}
    (undeclared : ∀ u, c = .user u → w.record? u = none)
    (found : w.plansOf? c = some plans) :
    plans = [] := by
  have unchanged : w.settle c = w := by
    cases c with
    | user u => simp only [settle, undeclared u rfl]
    | _ => rfl
  have bodies : w.body c = .plain ∨ w.body c = .model [] ∨
      w.body c = .enumeration .plain [] [] := by
    cases c with
    | user u =>
        refine .inl ?_
        change ((w.record? u).map (·.body)).getD .plain = .plain
        rw [undeclared u rfl]
        rfl
    | builtin b => cases b <;> first | exact .inl rfl | exact .inr (.inl rfl) | exact .inr (.inr rfl)
    | sized number home => exact .inl rfl
  have notDataclass : w.isDataclass c = false := by
    unfold World.isDataclass
    rcases bodies with isPlain | isEmpty | isEnumeration
    · rw [isPlain]
    · rw [isEmpty]
    · rw [isEnumeration]
  rw [plansOf?, run_decodingPlans, notDataclass, unchanged, if_neg Bool.false_ne_true] at found
  have structs : w.structPlans? c = .error .missingOperation ∨ w.structPlans? c = .ok [] := by
    unfold structPlans?
    rcases bodies with isPlain | isEmpty | isEnumeration
    · rw [isPlain]
      exact .inl rfl
    · rw [isEmpty]
      simp only
      split
      · exact .inr rfl
      · exact .inl rfl
    · rw [isEnumeration]
      exact .inl rfl
  have models : w.modelPlans? c = .error .missingOperation ∨ w.modelPlans? c = .ok [] := by
    unfold modelPlans?
    rcases bodies with isPlain | isEmpty | isEnumeration
    · rw [isPlain]
      cases c <;> exact .inl rfl
    · rw [isEmpty]
      cases c with
      | builtin b => exact .inl rfl
      | _ => exact .inr rfl
    · rw [isEnumeration]
      cases c <;> exact .inl rfl
  split at found
  · rcases structs with failed | empty
    · rw [failed] at found
      cases found
    · rw [empty] at found
      cases found
      rfl
  · rcases models with failed | empty
    · rw [failed] at found
      cases found
    · rw [empty] at found
      cases found
      rfl

/-- The class of an enumeration's values is mentioned, or it is that of texts. -/
theorem memberClass_mentioned (w : World) (c : ClassRef) :
    .cls (w.memberClass c) ∈ w.classes.flatMap (ClassRecord.mentions w) ∨
      w.memberClass c = .builtin .str := by
  cases c with
  | user u =>
      cases found : w.record? u with
      | none =>
          have undeclared : w.body (.user u) = .plain := by
            change ((w.record? u).map (·.body)).getD .plain = .plain
            rw [found]
            rfl
          refine .inr ?_
          unfold memberClass members?
          rw [undeclared]
          rfl
      | some r =>
          refine .inl (mentions_of_record? found ?_)
          rw [memberClass_eq found]
          exact List.mem_cons_self
  | builtin b => cases b <;> exact .inr rfl
  | sized number home => exact .inr rfl

/-- What fields are read as is mentioned. -/
theorem plans_mentioned
    {w : World}
    {c : ClassRef}
    {plans : List FieldPlan}
    {p : FieldPlan}
    (found : w.plansOf? c = some plans)
    (isPlan : p ∈ plans) :
    p.form ∈ w.classes.flatMap (ClassRecord.mentions w) ∧
      p.inner ∈ w.classes.flatMap (ClassRecord.mentions w) := by
  by_cases undeclared : ∀ u, c = .user u → w.record? u = none
  · rw [plansOf?_of_undeclared undeclared found] at isPlan
    cases isPlan
  · obtain ⟨u, undeclared⟩ := Classical.not_forall.mp undeclared
    obtain ⟨rfl, declared⟩ := Classical.not_imp.mp undeclared
    obtain ⟨r, isRecord⟩ := Option.ne_none_iff_exists'.mp declared
    rw [plansOf?_eq isRecord] at found
    have mentioned (a : TypeForm) (among : a ∈ [p.form, p.inner]) :
        a ∈ w.classes.flatMap (ClassRecord.mentions w) := by
      refine mentions_of_record? isRecord (List.mem_cons_of_mem _ (List.mem_append_right _ ?_))
      rw [found]
      exact List.mem_flatMap.mpr ⟨p, isPlan, among⟩
    exact ⟨mentioned _ List.mem_cons_self,
      mentioned _ (List.mem_cons_of_mem _ List.mem_cons_self)⟩

/-- The arguments that a class gives to a collection are mentioned. -/
theorem baseArguments_mentioned
    {w : World}
    {c : ClassRef}
    {b : Builtin}
    {a : TypeForm}
    (isArgument : a ∈ w.baseArguments c b) :
    a ∈ w.classes.flatMap (ClassRecord.mentions w) := by
  unfold baseArguments at isArgument
  generalize candidates : (w.lineage c).filterMap _ = argumentLists at isArgument
  cases argumentLists with
  | nil => cases isArgument
  | cons args rest =>
      have member : args ∈ args :: rest := List.mem_cons_self
      rw [← candidates, List.mem_filterMap] at member
      obtain ⟨ancestor, _, gives⟩ := member
      split at gives
      · rename_i u
        split at gives
        · rename_i origin given isBase
          split at gives
          · cases gives
            obtain ⟨r, isRecord, isBase⟩ := Option.bind_eq_some_iff.mp isBase
            refine mentions_of_record? isRecord
              (List.mem_cons_of_mem _ (List.mem_append_left _ ?_))
            rw [isBase]
            exact isArgument
          · cases gives
        · cases gives
      · cases gives

end World

theorem CapabilityRegistry.mentioned_of_find?
    {r : CapabilityRegistry}
    {a b : TypeForm}
    {caps : Capabilities}
    {reader : Reader}
    (found : r.find? a = some caps)
    (reads : caps.reader = some reader)
    (asked : b ∈ reader.ownRequests) :
    b ∈ r.mentions := by
  have entry : ∃ key, (key, caps) ∈ r.cache ++ r.explicit := by
    rcases Option.or_eq_some_iff.mp found with cached | ⟨_, registered⟩
    · exact ⟨_, List.mem_append_left _ (Table.mem_of_lookup cached)⟩
    · exact ⟨_, List.mem_append_right _ (Table.mem_of_lookup registered)⟩
  obtain ⟨key, member⟩ := entry
  refine List.mem_flatMap.mpr ⟨_, member, ?_⟩
  rw [reads]
  exact asked

namespace Store

variable {s : Store} {allowed : Allowance} {root a b : TypeForm}

/-- What is asked for at once is part of something that is mentioned. -/
theorem Asks.mentioned
    (asks : s.Asks a b)
    (notPart : b ∉ a.asks) :
    b ∈ s.mentions root := by
  have ofClass {c : TypeForm} (declared : c ∈ s.world.classes.flatMap (ClassRecord.mentions s.world)) :
      c ∈ s.mentions root := by
    simp only [mentions, List.mem_cons, List.mem_append]
    exact .inr (.inr (.inr (.inl declared)))
  have ofMember (c : ClassRef) : .cls (s.world.memberClass c) ∈ s.mentions root := by
    rcases s.world.memberClass_mentioned c with declared | isText
    · exact ofClass declared
    · rw [isText]
      exact List.mem_cons_of_mem _ (List.mem_cons_of_mem _ List.mem_cons_self)
  cases asks with
  | part asked => exact absurd asked notPart
  | argument isArgument => exact ofClass (World.baseArguments_mentioned isArgument)
  | member => exact ofMember _
  | field found isPlan => exact ofClass (World.plans_mentioned found isPlan).1
  | @known _ _ caps reader found reads asked =>
      have ofRegistry (own : b ∈ reader.ownRequests) : b ∈ s.mentions root := by
        have registered := CapabilityRegistry.mentioned_of_find? found reads own
        simp only [mentions, List.mem_cons, List.mem_append]
        exact .inr (.inr (.inr (.inr registered)))
      cases reader with
      | fields c =>
          simp only [layout] at asked
          cases plansFound : s.world.plansOf? c with
          | none =>
              rw [plansFound] at asked
              cases asked
          | some plans =>
              rw [plansFound] at asked
              obtain ⟨p, isPlan, rfl⟩ := List.mem_map.mp asked
              have declared := World.plans_mentioned plansFound isPlan
              split
              · exact ofClass declared.2
              · exact ofClass declared.1
      | member c =>
          obtain rfl := List.mem_singleton.mp asked
          exact ofMember c
      | program maker body => cases asked
      | _ => exact ofRegistry asked

/-- What is asked for at once is asked for later too. -/
theorem Asks.of_growsTo
    {later : Store}
    (asks : s.Asks a b)
    (grows : s.GrowsTo later) :
    later.Asks a b := by
  cases asks with
  | part asked => exact .part asked
  | argument isArgument => exact .argument (by rwa [grows.reading.baseArguments])
  | member =>
      rw [← grows.reading.memberClass]
      exact .member
  | field found isPlan => exact .field (by rwa [grows.reading.plansOf?]) isPlan
  | known found reads asked =>
      exact .known (grows.found _ _ found) reads (by rwa [layout_congr grows.reading])

/-- What a conventional type form leads to is part of something that is mentioned
from then on and that it leads to. -/
theorem LeadsTo.mentioned
    {later : Store}
    (leads : s.LeadsTo root a)
    (conventional : s.Conventional allowed root)
    (grows : s.GrowsTo later) :
    ∃ m ∈ later.mentions root, s.LeadsTo root m ∧ a ∈ m.parts := by
  induction leads with
  | root => exact ⟨root, List.mem_cons_self, .root, TypeForm.self_mem_parts root⟩
  | any =>
      exact ⟨.any, List.mem_cons_of_mem _ List.mem_cons_self, .any, TypeForm.self_mem_parts _⟩
  | text =>
      exact ⟨.builtin .str, List.mem_cons_of_mem _ (List.mem_cons_of_mem _ List.mem_cons_self),
        .text, TypeForm.self_mem_parts _⟩
  | @step a b leads asks inductionHypothesis =>
      by_cases isPart : b ∈ a.asks
      · obtain ⟨m, mentioned, reached, part⟩ := inductionHypothesis
        exact ⟨m, mentioned, reached,
          m.asks_mem_parts (conventional.plain m reached) a part b isPart⟩
      · exact ⟨b, (asks.of_growsTo grows).mentioned isPart, .step leads asks,
          TypeForm.self_mem_parts b⟩

end Store

/-! ## How much is mentioned -/

theorem TypeForm.weightAll_append
    (as bs : List TypeForm) :
    weightAll (as ++ bs) = weightAll as + weightAll bs := by
  induction as with
  | nil => simp [weightAll]
  | cons a rest inductionHypothesis =>
      rw [List.cons_append, weightAll, weightAll, inductionHypothesis]
      omega

/-- Parts weigh no more than their wholes. -/
theorem weightAll_flatMap_le
    {α : Type}
    {mentions : α → List TypeForm}
    {weight : α → Nat}
    (each : ∀ a, TypeForm.weightAll (mentions a) ≤ weight a)
    (as : List α) :
    TypeForm.weightAll (as.flatMap mentions) ≤ total weight as := by
  induction as with
  | nil => exact Nat.le_refl 0
  | cons a rest inductionHypothesis =>
      have first := each a
      rw [List.flatMap_cons, TypeForm.weightAll_append, total]
      omega

theorem ClassRecord.weightAll_mentions_le
    (w : World)
    (r : ClassRecord) :
    TypeForm.weightAll (r.mentions w) ≤ r.weight w := by
  have base : TypeForm.weightAll (TypeForm.baseArguments r.base) ≤
      (r.base.map TypeForm.weight).getD 0 := by
    cases r.base with
    | none => exact Nat.le_refl 0
    | some a =>
        cases a with
        | generic origin args =>
            change TypeForm.weightAll args ≤ 1 + TypeForm.weightAll args
            omega
        | _ => exact Nat.zero_le _
  have each (p : FieldPlan) : TypeForm.weightAll [p.form, p.inner] ≤ p.weight := by
    simp only [TypeForm.weightAll, FieldPlan.weight]
    omega
  have plans := weightAll_flatMap_le each ((w.plansOf? (.user r.cls)).getD [])
  simp only [mentions, ClassRecord.weight, TypeForm.weightAll, TypeForm.weightAll_append,
    TypeForm.weight]
  omega

theorem CapabilityRegistry.weightAll_mentions_le (r : CapabilityRegistry) :
    TypeForm.weightAll r.mentions ≤ r.weight := by
  have each (e : Key × Capabilities) :
      TypeForm.weightAll ((e.2.reader.map Reader.ownRequests).getD []) ≤ e.2.weight := by
    unfold Capabilities.weight
    cases e.2.reader with
    | none => exact Nat.zero_le _
    | some reader =>
        cases reader <;>
          simp only [Option.map_some, Option.getD_some, Reader.ownRequests, Reader.weight,
            TypeForm.weightAll, TypeForm.weight] <;>
          omega
  have cached := weightAll_flatMap_le each r.cache
  have registered := weightAll_flatMap_le each r.explicit
  rw [mentions, List.flatMap_append, TypeForm.weightAll_append, CapabilityRegistry.weight]
  omega

theorem Store.weight_registry_le (s : Store) :
    (s.registry .current).weight ≤
      s.shared.weight + (s.own.map CapabilityRegistry.weight).getD 0 := by
  rw [registry]
  cases s.own with
  | none => exact Nat.le_refl _
  | some own =>
      change own.weight ≤ s.shared.weight + own.weight
      omega

/-- A state mentions no more than it weighs. -/
theorem Store.length_mentions_le
    (s : Store)
    (root : TypeForm) :
    (TypeForm.partsOfAll (s.mentions root)).length ≤ 2 * (1 + s.weight + root.weight) := by
  have parts := TypeForm.length_partsOfAll_le (s.mentions root)
  have classes :=
    weightAll_flatMap_le (ClassRecord.weightAll_mentions_le s.world) s.world.classes
  have registry := (s.registry .current).weightAll_mentions_le
  have registryLe := s.weight_registry_le
  have mentioned : TypeForm.weightAll (s.mentions root) ≤ 1 + s.weight + root.weight := by
    simp only [mentions, TypeForm.weightAll, TypeForm.weightAll_append, Store.weight,
      TypeForm.weight, TypeForm.builtin]
    omega
  omega

/-- A probe may go deeper than there are type forms to meet. -/
theorem Store.lt_depthFor
    (s : Store)
    (weight : Nat) :
    2 * (1 + s.weight + weight) + 1 < s.depthFor weight := by
  have cubed (x : Nat) (positive : 2 ≤ x) : 2 * x ≤ Nat.pow x 3 := by
    have square : 2 * x ≤ x * x := Nat.mul_le_mul_right x positive
    have cube : x * x * 2 ≤ x * x * x := Nat.mul_le_mul_left (x * x) positive
    have power : Nat.pow x 3 = x * x * x := by
      change x ^ 3 = x * x * x
      simp only [Nat.pow_succ, Nat.pow_zero, Nat.one_mul]
    rw [power]
    omega
  have enough := cubed (2 + s.weight + weight) (by omega)
  rw [depthFor]
  omega

/-- A probe may go deeper than a universe has type forms, if there are no more than are
mentioned. -/
theorem Store.exists_depthFor
    (s : Store)
    {weight : Nat}
    {forms : List TypeForm}
    (size : forms.length ≤ 2 * (1 + s.weight + weight)) :
    ∃ depth, s.depthFor weight = depth + 1 ∧ forms.length < depth + 1 := by
  have deep := s.lt_depthFor weight
  exact ⟨s.depthFor weight - 1, by omega, by omega⟩

/-- Everything that a conventional type form leads to is a universe that the
state knows, no larger than what is mentioned from then on. -/
theorem Store.Conventional.exists_universe
    {s later : Store}
    {allowed : Allowance}
    {root : TypeForm}
    (conventional : s.Conventional allowed root)
    (grows : s.GrowsTo later) :
    ∃ forms, s.Ready forms allowed ∧ (∀ a, a ∈ forms ↔ s.LeadsTo root a) ∧
      forms.length ≤ 2 * (1 + later.weight + root.weight) := by
  classical
  refine ⟨(TypeForm.partsOfAll (later.mentions root)).filter fun a => s.LeadsTo root a, ?_⟩
  have universal (a : TypeForm) :
      a ∈ (TypeForm.partsOfAll (later.mentions root)).filter (fun a => s.LeadsTo root a) ↔
        s.LeadsTo root a := by
    rw [List.mem_filter, decide_eq_true_iff]
    constructor
    · exact And.right
    · intro leads
      obtain ⟨m, mentioned, _, part⟩ := leads.mentioned conventional grows
      exact ⟨TypeForm.mem_partsOfAll_iff.mpr ⟨m, mentioned, part⟩, leads⟩
  exact ⟨conventional.ready universal, universal,
    Nat.le_trans (List.length_filter_le _ _) (later.length_mentions_le root)⟩

end SchemaProbe

import SchemaProbe.Proofs.KnowingAlike
import SchemaProbe.Proofs.OptionalForms

namespace SchemaProbe

/-!
# Schemas of types that may be null

A type or null leads to itself and to what the type leads to, and their descriptions are
known alike.  So the same schema is written of a type or null as of the type, and the same
is shared.
-/

open Step

/-! ## Types that lead to a type or null -/

section

variable {s : Store} {a b x : TypeForm} {allowed : Allowance}

/-- A type or null is a union. -/
theorem TypeForm.exists_union_of_stripNull
    (plain : a.isPlain = true)
    (strips : a.stripNull = (x, true)) :
    ∃ style members, a = .union style members := by
  rcases TypeForm.stripNull_cases plain with stays | ⟨style, members, isUnion, -⟩
  · rw [stays] at strips
    cases strips
  · exact ⟨style, members, isUnion⟩

/-- A type or null asks for the type. -/
theorem TypeForm.asks_of_stripNull
    (plain : a.isPlain = true)
    (strips : a.stripNull = (x, true)) :
    a.asks = [x] := by
  obtain ⟨style, members, rfl⟩ := exists_union_of_stripNull plain strips
  rw [asks, strips]

/-- A type or null leads to the type. -/
theorem Store.LeadsTo.inner
    (plain : a.isPlain = true)
    (strips : a.stripNull = (x, true)) :
    s.LeadsTo a x := by
  refine .step .root (.part ?_)
  rw [TypeForm.asks_of_stripNull plain strips]
  exact List.mem_singleton_self x

/-- A type or null leads to itself and to what the type leads to. -/
theorem Store.LeadsTo.of_nullable
    (plain : a.isPlain = true)
    (strips : a.stripNull = (x, true))
    (known : s.KnowsAsNullable a x)
    (leads : s.LeadsTo a b) :
    b = a ∨ s.LeadsTo x b := by
  have wrapped := TypeForm.asks_of_stripNull plain strips
  obtain ⟨style, members, isUnion⟩ := TypeForm.exists_union_of_stripNull plain strips
  induction leads with
  | root => exact .inl rfl
  | any => exact .inr .any
  | text => exact .inr .text
  | step _ asks inductionHypothesis =>
      rcases inductionHypothesis with rfl | leads
      · cases asks with
        | part asked =>
            rw [wrapped] at asked
            obtain rfl := List.mem_singleton.mp asked
            exact .inr .root
        | known found reads requested =>
            obtain ⟨c, -, strips, rfl⟩ := known _ found
            rw [(looksInto_unionCapabilities strips).2.reads] at reads
            cases reads
            obtain rfl := List.mem_singleton.mp requested
            exact .inr .root
        | argument _ => cases isUnion
        | member => cases isUnion
        | field _ _ => cases isUnion
      · exact .inr (leads.step asks)

/-- A type or null is conventional if the type is. -/
theorem Store.Conventional.of_nullable
    (conventional : s.Conventional allowed x)
    (plain : a.isPlain = true)
    (strips : a.stripNull = (x, true))
    (known : s.KnowsAsNullable a x) :
    s.Conventional allowed a := by
  have leadsTo {b : TypeForm} (leads : s.LeadsTo a b) := leads.of_nullable plain strips known
  obtain ⟨style, members, isUnion⟩ := TypeForm.exists_union_of_stripNull plain strips
  have ofClass {c : ClassRef} (leads : s.LeadsTo a (.cls c)) : s.LeadsTo x (.cls c) := by
    rcases leadsTo leads with same | leads
    · rw [← same] at isUnion
      cases isUnion
    · exact leads
  refine ⟨fun b leads => ?_, fun b leads c applies => ?_,
    fun c leads => conventional.cases c (ofClass leads),
    fun c leads => conventional.program c (ofClass leads),
    fun c leads => conventional.schema c (ofClass leads), fun b leads caps found => ?_⟩
  · rcases leadsTo leads with rfl | leads
    · exact plain
    · exact conventional.plain b leads
  · rcases leadsTo leads with rfl | leads
    · rw [isUnion] at applies
      cases applies
    · exact conventional.unapplied b leads c applies
  · rcases leadsTo leads with rfl | leads
    · obtain ⟨c, otherPlain, otherStrips, rfl⟩ := known caps found
      obtain ⟨isType, looksInto⟩ := looksInto_unionCapabilities otherStrips
      have sameKey := TypeForm.key_eq_of_stripNull otherPlain plain otherStrips strips rfl
      rw [isType]
      refine ⟨?_, otherPlain, TypeForm.hasCapabilities_of_stripNull otherPlain otherStrips, ?_, ?_⟩
      · exact TypeForm.identity_eq_of_key otherPlain plain sameKey
      · intro hook declares
        have undeclared := (Bool.or_eq_false_iff.mp looksInto.isProbed).2
        rw [declares] at undeclared
        cases undeclared
      · intro reader _ _ reads
        rw [looksInto.reads] at reads
        cases reads
        refine ⟨?_, isType.symm ▸ otherStrips⟩
        rw [unionCapabilities, otherStrips]
        rfl
    · exact conventional.known b leads caps found

end

/-! ## The schema of a type or null -/

/-- Whether what is known about a type, if anything, is known of the type as it is written,
is not described, and leads nowhere else by its fields. -/
structure Store.KnowsAsWritten (s : Store) (x : TypeForm) : Prop where
  named : ∀ caps, (s.registry .current).find? x = some caps → caps.IsNamedFor x
  undescribed : ∀ caps reached, (lookup .current x).run s = (.ok caps, reached) →
    caps.description = none
  within : ∀ b, s.LeadsTo x b → ∀ caps, (s.registry .current).find? b = some caps →
    ∀ c, caps.reader = some (.fields c) → s.LeadsTo x (.cls c)

/-- The fields that are known to be read of a type or null belong to classes that it leads
to. -/
theorem Store.KnowsAsWritten.readsWithin
    {s : Store}
    {a x : TypeForm}
    {forms : List TypeForm}
    (asWritten : s.KnowsAsWritten x)
    (plain : a.isPlain = true)
    (strips : a.stripNull = (x, true))
    (asNullable : s.KnowsAsNullable a x)
    (universal : ∀ b, b ∈ forms ↔ s.LeadsTo a b) :
    s.ReadsWithin forms := by
  intro b isListed caps found c reads
  rcases ((universal b).mp isListed).of_nullable plain strips asNullable with rfl | further
  · obtain ⟨d, _, wraps, rfl⟩ := asNullable caps found
    rw [(looksInto_unionCapabilities wraps).2.reads] at reads
    cases reads
  · have inner : s.LeadsTo a x := .inner plain strips
    exact (universal _).mpr (inner.trans (asWritten.within b further caps found c reads))

/-- Whether two types have the same schemas, and the same is shared for them. -/
def Store.HasSameSchemas (s : Store) (a b : TypeForm) : Prop :=
  ∀ config registry, ∃ schema shared last later,
    (schemaFor config a).run (registry, s) = (.ok schema, shared, last) ∧
      (schemaFor config b).run (registry, s) = (.ok schema, shared, later)

section

variable {s t reached : Store} {a b x : TypeForm} {config : SchemaConfig} {shape : Shape}
  {known : KnownShape}

/-- The types of a tree do not depend on whether it may be missing. -/
theorem Shape.Types.of_optional
    {holds : TypeForm → Prop}
    (types : (shape.optional true).Types holds) :
    shape.Types holds := by
  obtain ⟨type, markers, parts⟩ := types_iff.mp types
  rw [type_optional] at type
  rw [parts_optional] at parts
  refine .node type (fun h a isBack => ?_) parts
  subst isBack
  exact markers _ a rfl

/-- A tree with a type has one wherever it is cut. -/
theorem Shape.type_recut
    {cut : Cut}
    (typed : shape.type.isSome) :
    (shape.recut cut).type.isSome := by
  cases shape with
  | recursive h marker =>
      rw [Shape.recut]
      split
      · rfl
      · exact typed
  | _ => exact typed

/-- The schema of a type whose description is known is built of what is known. -/
theorem schemaFor_of_know
    (described : (describe a).run s = (.ok shape, reached))
    (knows : (shape.know config (some a)).run reached = (.ok known, reached))
    (registry : SchemaRegistry) :
    ∃ last, (schemaFor config a).run (registry, s) =
      (.ok (known.schema config), registry.overwrittenBy (known.shares config), last) := by
  obtain ⟨events, synthesised⟩ := synthesize_of_know knows registry reached.events
  rw [Store.withEvents_self] at synthesised
  have begun : (Step.shared (describe a)).run (registry, s) = (.ok shape, registry, reached) := by
    rw [Step.shared, run_within, described]
  exact ⟨reached.withEvents events, by rw [schemaFor, run_bind_of_ok begun]; exact synthesised⟩

/-- The tree of a type or null has a type where both are known. -/
theorem Store.Ready.type_of_nullable
    {forms : List TypeForm}
    {kinds : Key → Option PrimitiveKind}
    (ready : s.Ready forms allowed)
    (member : a ∈ forms)
    (aKnown : ((s.registry .current).find? a).isSome)
    (xKnown : ((s.registry .current).find? x).isSome)
    (strips : a.stripNull = (x, true))
    (unfolds : Unfolds s.entry kinds [] a shape) :
    shape.type.isSome := by
  rcases ready.type_of_root member aKnown unfolds with typed | ⟨type, y, isInner, unknown, -⟩
  · exact typed
  · obtain ⟨typePlain, sameIdentity, stripped⟩ := ready.stripNull_of_nullable member isInner
    have plain := ready.covers.plain a member
    have sameKey : type.key = a.key := by
      rw [← TypeForm.identity_of_isPlain typePlain, sameIdentity,
        TypeForm.identity_of_isPlain plain]
    have yPlain := TypeForm.isPlain_stripNull typePlain
    have xPlain := TypeForm.isPlain_stripNull plain
    rw [stripped] at yPlain
    rw [strips] at xPlain
    have innerKey := TypeForm.key_stripNull_congr typePlain plain stripped strips sameKey
    rw [← Store.find?_congr _ (TypeForm.identity_eq_of_key yPlain xPlain innerKey), unknown] at xKnown
    cases xKnown

/-- The same schema is written of a type and of the type or null, and the same is
shared. -/
theorem schemaFor_nullable
    (conventional : s.Conventional .declaringPlainly x)
    (accepted : x.hasCapabilities = true)
    (plain : a.isPlain = true)
    (strips : a.stripNull = (x, true))
    (asNullable : s.KnowsAsNullable a x)
    (asWritten : s.KnowsAsWritten x) :
    s.HasSameSchemas x a := by
  have alsoConventional := conventional.of_nullable plain strips asNullable
  obtain ⟨forms, ready, universal, size⟩ := conventional.exists_universe (.refl s)
  obtain ⟨others, alsoReady, alsoUniversal, alsoSize⟩ := alsoConventional.exists_universe (.refl s)
  have xPlain := conventional.plain x .root
  have member : x ∈ forms := (universal x).mpr .root
  have nullableMember : a ∈ others := (alsoUniversal a).mpr .root
  have alsoMember : x ∈ others := (alsoUniversal x).mpr (.inner plain strips)
  have within := asWritten.readsWithin plain strips asNullable alsoUniversal
  obtain ⟨depth, isDepth, enough⟩ := s.exists_depthFor size
  obtain ⟨deep, isDeep, alsoEnough⟩ := s.exists_depthFor alsoSize
  obtain ⟨cut, own, shape, reached, later, ⟨looked, lookedUp⟩, cutStrips, ran, alsoRan, described⟩ :=
    describeTo_endsCut ready alsoReady rfl member alsoMember nullableMember strips accepted
      asNullable within enough alsoEnough
  -- The tree of the type or null is one of types that are known.
  obtain ⟨_, _, again, laterReady, -, probed⟩ :=
    describeTo_probed alsoReady rfl nullableMember
      (TypeForm.hasCapabilities_of_stripNull plain strips) alsoEnough
  rw [alsoRan] at again
  cases again
  have unfolds := probeWith_unfolds_kinds laterReady.lawful nullableMember
    (fun _ _ _ _ _ _ met => by cases met) (probed later laterReady (.refl later))
  have types : shape.Types later.FindsDeclared := by
    have declared := (unfolds.types laterReady nullableMember).imp
      fun _ isFound => Store.FindsSound.declared isFound
    exact declared.of_optional
  -- Both are known under the name of the type as it is written.
  have name : ∀ reader, own.reader = some reader →
      own.name = (unionCapabilities cut.nullable).name := by
    intro reader reads
    have foreseen : s.foresee x = some own := by rw [Store.foresee, lookedUp]; rfl
    have named := ready.isNamedFor_of_foresee asWritten.named member accepted foreseen
    have remains := TypeForm.stripNull_stripNull plain
    rw [strips] at remains
    rw [(named (by rw [reads]; rfl)).2.1, remains, unionCapabilities, cutStrips]
    rfl
  have isKnown : cut.Known own reached later :=
    ⟨described.agrees, described.bare, described.nullable, name,
      asWritten.undescribed own looked lookedUp⟩
  have xKnown : ((later.registry .current).find? x).isSome := by
    obtain ⟨inner, stripped, sameKey⟩ := cut.strips
    rw [cutStrips] at stripped
    cases stripped
    have notNullable : x.key ≠ cut.nullable.key := sameKey ▸ cut.bare_ne
    have sameIdentity := TypeForm.identity_eq_of_key xPlain cut.barePlain sameKey
    rw [isKnown.find? notNullable, Store.find?_congr _ sameIdentity, described.bare]
    rfl
  have aKnown : ((later.registry .current).find? a).isSome := by
    have sameKey := TypeForm.key_eq_of_stripNull plain cut.plain strips cutStrips rfl
    rw [Store.find?_congr _ (TypeForm.identity_eq_of_key plain cut.plain sameKey),
      described.nullable]
    rfl
  have typed : shape.type.isSome := by
    have typed := laterReady.type_of_nullable nullableMember aKnown xKnown strips unfolds
    rwa [Shape.type_optional] at typed
  have run_describe (b : TypeForm) : (describe b).run s = (describeTo (s.depthFor b.weight) b).run s :=
    rfl
  intro config registry
  obtain ⟨found, other, knows, alsoKnows, same⟩ :
      KnownAlike config reached later ((shape.recut cut).know config none)
        (shape.know config none) :=
    Shape.know_recut isKnown shape described.isCut types described.looksInto
  have unread : (shape.optional true).know config (some a) = shape.know config (some a) :=
    Shape.know_of_optional_eq (by cases shape <;> rfl) config (some a)
  rw [← Shape.know_of_typed config (some x) (Shape.type_recut typed)] at knows
  rw [← Shape.know_of_typed config (some a) typed, ← unread] at alsoKnows
  obtain ⟨last, written⟩ :=
    schemaFor_of_know (by rw [run_describe, isDepth, ran]) knows registry
  obtain ⟨final, alsoWritten⟩ :=
    schemaFor_of_know (by rw [run_describe, isDeep, alsoRan]) alsoKnows registry
  have sameSchema : found.schema config = other.schema config := by
    rw [KnownShape.schema, KnownShape.schema, same]
  have sameShared : found.shares config = other.shares config := by
    rw [KnownShape.shares, KnownShape.shares, same]
  rw [sameSchema, sameShared] at written
  exact ⟨_, _, _, _, written, alsoWritten⟩

end

/-! ## Types that are not looked into -/

section

variable {s : Store} {a : TypeForm} {config : SchemaConfig} {caps : Capabilities}

/-- Where the types of a node are known and declare no schema but written ones, the node is
known if what it consists of is. -/
theorem exists_knowNode
    {type : Option TypeForm}
    {looks : Option Capabilities → Step Store KnownShape}
    (declared : ∀ a, type = some a → s.FindsDeclared a)
    (parts : ∀ record, ∃ known, (looks record).run s = (.ok known, s)) :
    ∃ known, (knowNode config type looks).run s = (.ok known, s) := by
  have isKnown : ∀ a, type = some a → ((s.registry .current).find? a).isSome := by
    intro a isType
    obtain ⟨caps, found, -⟩ := declared a isType
    rw [found]
    rfl
  rw [knowNode_of_known isKnown]
  cases record : s.recordOf type with
  | none => exact parts none
  | some caps =>
      dsimp only
      split
      · exact ⟨_, rfl⟩
      · cases isDeclared : caps.schema with
        | none => exact parts (some caps)
        | some hook =>
            obtain ⟨a, isType, found⟩ := Option.bind_eq_some_iff.mp record
            obtain ⟨_, again, plainly⟩ := declared a isType
            rw [found] at again
            cases again
            obtain ⟨schema, rfl⟩ := plainly hook isDeclared
            exact ⟨.declared caps schema, rfl⟩

mutual

/-- A tree is known where its types are known and declare no schema but written ones. -/
theorem Shape.exists_know
    (shape : Shape)
    (types : shape.Types s.FindsDeclared) :
    ∃ known, (shape.know config none).run s = (.ok known, s) := by
  obtain ⟨declared, markers, partsDeclared⟩ := Shape.types_iff.mp types
  cases shape with
  | single h kind =>
      rw [Shape.know, Option.or_none]
      exact exists_knowNode declared fun _ => ⟨_, rfl⟩
  | keyed h isFixed fields =>
      cases isFixed with
      | true =>
          rw [Shape.know, Option.or_none]
          refine exists_knowNode declared fun record => ?_
          obtain ⟨parts, ran⟩ := Shape.exists_knowFields fields partsDeclared
          exact ⟨_, run_bind_of_ok ran _⟩
      | false =>
          cases fields with
          | nil =>
              rw [Shape.know, Option.or_none]
              exact exists_knowNode declared fun _ => ⟨_, rfl⟩
          | cons field rest =>
              obtain ⟨name, first⟩ := field
              rw [Shape.know, Option.or_none]
              refine exists_knowNode declared fun record => ?_
              obtain ⟨part, ran⟩ := Shape.exists_know first (partsDeclared _ List.mem_cons_self)
              exact ⟨_, run_bind_of_ok ran _⟩
  | unkeyed h element =>
      rw [Shape.know, Option.or_none]
      refine exists_knowNode declared fun record => ?_
      obtain ⟨part, ran⟩ := Shape.exists_know element (partsDeclared _ List.mem_cons_self)
      exact ⟨_, run_bind_of_ok ran _⟩
  | recursive h marker =>
      obtain ⟨caps, found, -⟩ := markers h marker rfl
      rw [Shape.know, Option.or_none]
      refine exists_knowNode declared fun record => ?_
      exact ⟨_, run_bind_of_ok (lookup?_of_known found) _⟩
  | unconstrained h =>
      rw [Shape.know, Option.or_none]
      exact exists_knowNode declared fun _ => ⟨_, rfl⟩
termination_by structural shape

/-- Fields are known where their types are known and declare no schema but written ones. -/
theorem Shape.exists_knowFields
    (fields : List (String × Shape))
    (types : ∀ part ∈ fields.map Prod.snd, part.Types s.FindsDeclared) :
    ∃ parts, (Shape.knowFields config fields).run s = (.ok parts, s) := by
  cases fields with
  | nil => exact ⟨[], rfl⟩
  | cons field rest =>
      obtain ⟨name, shape⟩ := field
      obtain ⟨first, ran⟩ := Shape.exists_know shape (types _ List.mem_cons_self)
      obtain ⟨parts, restRan⟩ := Shape.exists_knowFields rest
        fun part isPart => types part (List.mem_cons_of_mem _ isPart)
      rw [Shape.knowFields, run_bind_of_ok ran, run_bind_of_ok restRan]
      exact ⟨_, rfl⟩
termination_by structural fields

end

/-- A conventional type that lookup accepts has a schema. -/
theorem schemaFor_returns
    (conventional : s.Conventional .declaringPlainly a)
    (accepted : a.hasCapabilities = true) :
    s.HasSameSchemas a a := by
  obtain ⟨forms, ready, universal, size⟩ := conventional.exists_universe (.refl s)
  have member : a ∈ forms := (universal a).mpr .root
  obtain ⟨depth, isDepth, enough⟩ := s.exists_depthFor size
  obtain ⟨shape, reached, ran, reachedReady, grows, probed⟩ :=
    describeTo_probed ready rfl member accepted enough
  have unfolds := probeWith_unfolds_kinds reachedReady.lawful member
    (fun _ _ _ _ _ _ met => by cases met) (probed reached reachedReady (.refl reached))
  have types : shape.Types reached.FindsDeclared :=
    (unfolds.types reachedReady member).imp fun _ isFound => Store.FindsSound.declared isFound
  have described : (describe a).run s = (.ok shape, reached) := by
    rw [describe, run_bind_of_ok (run_current s), isDepth, ran]
  have isKnown := describeTo_knows ready rfl member accepted enough ran accepted
  intro config registry
  obtain ⟨known, knows⟩ : ∃ known, (shape.know config (some a)).run reached = (.ok known, reached) := by
    rcases reachedReady.type_of_root member isKnown unfolds with typed | ⟨_, _, _, _, rfl⟩
    · rw [Shape.know_of_typed config (some a) typed]
      exact shape.exists_know types
    · change ∃ known, (knowNode config (some a) fun record => pure (.plain record .empty)).run
        reached = (.ok known, reached)
      refine exists_knowNode ?_ fun record => ⟨_, rfl⟩
      rintro _ ⟨rfl⟩
      obtain ⟨caps, found⟩ := Option.isSome_iff_exists.mp isKnown
      exact Store.FindsSound.declared ⟨caps, found, reachedReady.known a member caps found⟩
  obtain ⟨last, written⟩ := schemaFor_of_know described knows registry
  exact ⟨_, _, _, _, written, written⟩

end

/-! ## Unions without null -/

/-- Whether what is known about a union without null, if anything, was found out about such
a one. -/
def Store.KnowsAsUnion (s : Store) (a : TypeForm) : Prop :=
  ∀ caps, (s.registry .current).find? a = some caps →
    ∃ b, b.identity = a.identity ∧ b.stripNull.2 = false ∧ caps = unionCapabilities b

section

variable {s : Store} {a b : TypeForm} {style : UnionStyle} {members : List TypeForm}

/-- A union without null has no reader. -/
theorem unionCapabilities_of_required (required : b.stripNull.2 = false) :
    unionCapabilities b = .named b b.schemaName := by
  unfold unionCapabilities
  split
  · rename_i strips
    rw [strips] at required
    cases required
  · rfl

/-- A union without null is looked up as such a one. -/
theorem lookup_union
    (plain : (TypeForm.union style members).isPlain = true)
    (required : (TypeForm.union style members).stripNull.2 = false)
    (known : s.KnowsAsUnion (.union style members)) :
    ∃ b looked, (lookup .current (.union style members)).run s =
        (.ok (.named b b.schemaName), looked) ∧
      (looked.registry .current).find? b = some (.named b b.schemaName) := by
  cases found : (s.registry .current).find? (.union style members) with
  | some caps =>
      obtain ⟨b, identity, otherRequired, rfl⟩ := known caps found
      have isNamed := unionCapabilities_of_required otherRequired
      have ran := Store.run_lookup_of_known plain found
      rw [isNamed] at ran found
      rw [← Store.find?_congr _ identity] at found
      exact ⟨b, s, ran, found⟩
  | none =>
      have resolved : (resolveBare .current (.union style members)).run s =
          (.ok (unionCapabilities (.union style members)), s) :=
        rfl
      rw [unionCapabilities_of_required required] at resolved
      have ran := Store.run_remembered_of_unknown found resolved
      rw [← Store.lookup_of_plain plain] at ran
      refine ⟨_, _, ran, ?_⟩
      rw [Store.remembering, Store.registry_changeRegistry, Store.find?_remember_self _ _ rfl]

/-- The schema of a union without null accepts everything, and nothing is shared for it. -/
theorem schemaFor_union
    (plain : (TypeForm.union style members).isPlain = true)
    (required : (TypeForm.union style members).stripNull.2 = false)
    (known : s.KnowsAsUnion (.union style members))
    (config : SchemaConfig)
    (registry : SchemaRegistry) :
    ∃ last, (schemaFor config (.union style members)).run (registry, s) =
      (.ok .any, registry, last) := by
  obtain ⟨b, looked, lookedUp, found⟩ := lookup_union
    (s := { s with events := s.events ++ [.probeStarted], guard := .empty }) plain required known
  obtain ⟨depth, isDepth, -⟩ : ∃ depth, s.depthFor (TypeForm.union style members).weight =
      depth + 1 ∧ List.length ([] : List TypeForm) < depth + 1 :=
    s.exists_depthFor (Nat.zero_le _)
  obtain ⟨value, probed⟩ := run_probe_of_leaf lookedUp (fun _ _ _ reads => by cases reads) depth []
  let leaf : Shape := (Capabilities.named b b.schemaName).leaf
  let reached : Store := { looked with events := looked.events ++ [.probeEnded leaf.kindName] }
  have described : (describe (.union style members)).run s = (.ok leaf, reached) := by
    rw [describe, run_bind_of_ok (run_current s), isDepth]
    exact run_describeTo probed
  have knows : (leaf.know config (some (.union style members))).run reached =
      (.ok (.plain (some (.named b b.schemaName)) .empty), reached) := by
    change (knowNode config (some b) fun record => pure (.plain record .empty)).run reached = _
    have record : reached.recordOf (some b) = some (.named b b.schemaName) := found
    have isKnown : ∀ a, some b = some a → ((reached.registry .current).find? a).isSome := by
      rintro _ ⟨rfl⟩
      change (reached.recordOf (some b)).isSome
      rw [record]
      rfl
    rw [knowNode_of_known isKnown, record]
    rfl
  obtain ⟨last, written⟩ := schemaFor_of_know described knows registry
  have isAny (σ : Synthesis) :
      (KnownShape.plain (some (.named b b.schemaName)) .empty).build config σ = (.any, σ) := by
    rw [KnownShape.build, Synthesis.finish_unshared _ rfl rfl]
    rfl
  refine ⟨last, written.trans ?_⟩
  rw [KnownShape.schema, KnownShape.shares, isAny]
  rfl

end

/-! ## The schema of an optional type -/

/-- Whether nothing is known about a type and the type or null, with null taken out, that
was found out about equal types that are written differently. -/
structure Store.SeesThroughNull (s : Store) (a : TypeForm) : Prop where
  asNullable : s.KnowsAsNullable a.optional a.optional.stripNull.1
  asWritten : s.KnowsAsWritten a.optional.stripNull.1
  asUnion : ∀ style members, a = .union style members → a.stripNull.2 = false → s.KnowsAsUnion a

section

variable {s : Store} {a b c x : TypeForm} {style : UnionStyle} {members : List TypeForm}
  {allowed : Allowance}

/-- Types that have the same schemas as one type have the same schemas. -/
theorem Store.HasSameSchemas.trans_left
    (first : s.HasSameSchemas x a)
    (second : s.HasSameSchemas x b) :
    s.HasSameSchemas a b := by
  intro config registry
  obtain ⟨schema, shared, last, later, ofFirst, isFirst⟩ := first config registry
  obtain ⟨_, _, _, final, again, isSecond⟩ := second config registry
  rw [ofFirst] at again
  cases again
  exact ⟨schema, shared, later, final, isFirst, isSecond⟩

/-- A union without null leads to what it leads to in another style. -/
theorem Store.LeadsTo.restyled
    (plain : (TypeForm.union style members).isPlain = true)
    (required : members.any TypeForm.isNullType = false)
    (leads : s.LeadsTo (.union .named members) b) :
    b = .union .named members ∨ s.LeadsTo (.union style members) b := by
  have named : (TypeForm.union .named members).isPlain = true := plain
  induction leads with
  | root => exact .inl rfl
  | any => exact .inr .any
  | text => exact .inr .text
  | step _ asks inductionHypothesis =>
      rcases inductionHypothesis with rfl | leads
      · cases asks with
        | part asked =>
            rw [TypeForm.asks, TypeForm.stripNull_union named, required] at asked
            cases asked
        | known found reads requested =>
            rw [Store.find?_congr _ (TypeForm.identity_restyled plain)] at found
            exact .inr (.step .root (.known found reads requested))
      · exact .inr (leads.step asks)

/-- A union without null is conventional in every style. -/
theorem Store.Conventional.restyled
    (conventional : s.Conventional allowed (.union style members))
    (required : members.any TypeForm.isNullType = false) :
    s.Conventional allowed (.union .named members) := by
  have plain := conventional.plain _ .root
  have leadsTo {b : TypeForm} (leads : s.LeadsTo (.union .named members) b) :=
    leads.restyled plain required
  have ofClass {c : ClassRef} (leads : s.LeadsTo (.union .named members) (.cls c)) :
      s.LeadsTo (.union style members) (.cls c) :=
    (leadsTo leads).resolve_left (by intro same; cases same)
  refine ⟨fun b leads => ?_, fun b leads c applies => ?_,
    fun c leads => conventional.cases c (ofClass leads),
    fun c leads => conventional.program c (ofClass leads),
    fun c leads => conventional.schema c (ofClass leads), fun b leads caps found => ?_⟩
  · rcases leadsTo leads with rfl | leads
    · exact plain
    · exact conventional.plain b leads
  · rcases leadsTo leads with rfl | leads
    · cases applies
    · exact conventional.unapplied b leads c applies
  · rcases leadsTo leads with rfl | leads
    · have sameIdentity : (TypeForm.union .named members).identity =
          (TypeForm.union style members).identity := TypeForm.identity_restyled plain
      rw [Store.find?_congr _ sameIdentity] at found
      rw [sameIdentity]
      exact conventional.known _ .root caps found
    · exact conventional.known b leads caps found

/-- Optional is transparent at the root: the schema of a type or null is that of the type,
and the same is shared, for every conventional type that lookup accepts, from every state
in which nothing is known that was found out about equal types that are written
differently. -/
theorem schemaFor_optional
    (conventional : s.Conventional .declaringPlainly a)
    (accepted : ∃ caps reached, (lookup .current a).run s = (.ok caps, reached))
    (built : a.IsBuilt)
    (sees : s.SeesThroughNull a) :
    s.HasSameSchemas a a.optional := by
  have plain := conventional.plain a .root
  have accepted : a.hasCapabilities = true := by
    obtain ⟨forms, ready, universal, -⟩ := conventional.exists_universe (.refl s)
    obtain ⟨caps, reached, lookedUp⟩ := accepted
    exact hasCapabilities_of_lookup ready ((universal a).mpr .root) lookedUp
  obtain ⟨asNullable, asWritten, asUnion⟩ := sees
  rcases TypeForm.optional_cases plain accepted built with
    same | ⟨isPlain, ⟨x, xAccepted, strips, optionalStrips⟩ | strips |
      ⟨style, members, rfl, required, strips⟩⟩
  · rw [same]
    exact schemaFor_returns conventional accepted
  · -- A type that may be null already, and the type or null, are both read as the same.
    rw [optionalStrips] at asNullable asWritten
    have sameKey := TypeForm.key_eq_of_stripNull plain isPlain strips optionalStrips rfl
    have sameIdentity := TypeForm.identity_eq_of_key plain isPlain sameKey
    have alsoNullable : s.KnowsAsNullable a x := fun caps found =>
      asNullable caps (by rwa [← Store.find?_congr _ sameIdentity])
    have xConventional := conventional.of_leadsTo (.inner plain strips)
    exact (schemaFor_nullable xConventional xAccepted plain strips alsoNullable asWritten).trans_left
      (schemaFor_nullable xConventional xAccepted isPlain optionalStrips asNullable asWritten)
  · rw [strips] at asNullable asWritten
    exact schemaFor_nullable conventional accepted isPlain strips asNullable asWritten
  · -- A union that is written with bars is named once null is taken out.
    rw [strips] at asNullable asWritten
    have named := conventional.restyled required
    have notNull (style : UnionStyle) (plain : (TypeForm.union style members).isPlain = true) :
        (TypeForm.union style members).stripNull.2 = false := by
      rw [TypeForm.stripNull_union plain, required]
      rfl
    have isUnion := asUnion style members rfl (notNull style plain)
    have sameIdentity : (TypeForm.union .named members).identity =
        (TypeForm.union style members).identity := TypeForm.identity_restyled plain
    have alsoUnion : s.KnowsAsUnion (.union .named members) := by
      intro caps found
      rw [Store.find?_congr _ sameIdentity] at found
      obtain ⟨b, identity, isRequired, known⟩ := isUnion caps found
      exact ⟨b, identity.trans sameIdentity.symm, isRequired, known⟩
    have wrapped := schemaFor_nullable named rfl isPlain strips asNullable asWritten
    intro config registry
    obtain ⟨last, ofFirst⟩ := schemaFor_union plain (notNull style plain) isUnion config registry
    obtain ⟨final, ofNamed⟩ :=
      schemaFor_union (named.plain _ .root) (notNull .named (named.plain _ .root)) alsoUnion config
        registry
    obtain ⟨schema, shared, _, later, again, ofOptional⟩ := wrapped config registry
    rw [ofNamed] at again
    cases again
    exact ⟨_, _, last, later, ofFirst, ofOptional⟩

end

/-- Whether nothing is known that was found out about equal types, where nothing is known at
all. -/
theorem Store.SeesThroughNull.of_unknown
    {s : Store}
    {a : TypeForm}
    {forms : List TypeForm}
    {allowed : Allowance}
    (covers : s.world.Covers forms allowed)
    (unknown : ∀ b ∈ forms, (s.registry .current).find? b = none)
    (member : a ∈ forms)
    (nullable : a.optional ∈ forms)
    (inner : a.optional.stripNull.1 ∈ forms)
    (undescribed : ∀ caps reached, (lookup .current a.optional.stripNull.1).run s =
      (.ok caps, reached) → caps.description = none) :
    s.SeesThroughNull a where
  asNullable caps found := by
    rw [unknown _ nullable] at found
    cases found
  asWritten :=
    { named := fun caps found => by
        rw [unknown _ inner] at found
        cases found
      undescribed := undescribed
      within := fun b leads caps found => by
        rw [unknown _ (leads.mem_of_unknown covers unknown inner)] at found
        cases found }
  asUnion _ _ _ _ caps found := by
    rw [unknown _ member] at found
    cases found

/-- A class of links that have a list of links, any of which may be null. -/
def linkClass : ClassRef :=
  .user ⟨1, "Link", "shapes"⟩

/-- Lists of links, any of which may be null. -/
def linksForm : TypeForm :=
  .generic (.cls (.builtin .list)) [(TypeForm.cls linkClass).optional]

/-- Links are structs with a list of links, any of which may be null. -/
def linkRecord : ClassRecord where
  cls := ⟨1, "Link", "shapes"⟩
  lineage := [linkClass, .builtin .struct]
  base := none
  params := []
  hooks := .none
  body := .model
    [{ name := "next"
       written := linksForm
       form := linksForm
       isResolved := true
       default := none
       factory := none
       key := none
       aliasName := none
       isExcluded := false
       isArgument := true }]

/-- The state in which links were declared. -/
def linkStore : Store :=
  { Store.initial with
    world := { World.empty with classes := [linkRecord], names := [("Link", .cls linkClass)] } }

/-- The type forms that links lead to. -/
def linkForms : List TypeForm :=
  [.cls linkClass, linksForm, (TypeForm.cls linkClass).optional, .builtin .list, .any,
    .builtin .str]

theorem covers_linkForms : linkStore.world.Covers linkForms .declaringPlainly := by
  refine .of_unhooked rfl (by simp [linkForms]) (by simp [linkForms]) rfl ?_ ?_
  · intro a member b asked
    simp only [linkForms, List.mem_cons, List.not_mem_nil, or_false] at member
    rcases member with rfl | rfl | rfl | rfl | rfl | rfl
    · cases asked
    · have among : b = .cls (.builtin .list) ∨ b = (TypeForm.cls linkClass).optional := by
        simpa [TypeForm.asks, TypeForm.originForms, linksForm] using asked
      rcases among with rfl | rfl <;> simp [linkForms, TypeForm.builtin]
    · obtain rfl : b = .cls linkClass := List.mem_singleton.mp asked
      simp [linkForms]
    · cases asked
    · cases asked
    · cases asked
  · intro c member
    have text : TypeForm.cls (.builtin .str) ∈ linkForms := by simp [linkForms, TypeForm.builtin]
    have isNullable : (TypeForm.cls linkClass).optional =
        .union .named [.cls linkClass, .nullType] :=
      rfl
    have among : c = linkClass ∨ c = .builtin .list ∨ c = .builtin .str := by
      simpa [linkForms, linksForm, isNullable, TypeForm.builtin] using member
    rcases among with rfl | rfl | rfl
    · refine ⟨rfl, fun _ => rfl, text, fun plans found p isPlan => ?_⟩
      cases found
      obtain rfl := List.mem_singleton.mp isPlan
      simp [linkForms, Field.structPlan, FieldPlan.of]
    · exact ⟨rfl, fun _ => rfl, text, fun _ found => by cases found⟩
    · exact ⟨rfl, fun _ => rfl, text, fun _ found => by cases found⟩

theorem unknown_linkForms :
    ∀ b ∈ linkForms, (linkStore.registry .current).find? b = none :=
  Store.unknown_of_all rfl

/-- The schema of links that may be null is that of links. -/
theorem schemaFor_optional_link :
    linkStore.HasSameSchemas (.cls linkClass) (TypeForm.cls linkClass).optional := by
  have isLink : (TypeForm.cls linkClass).optional.stripNull.1 = .cls linkClass := rfl
  have member : .cls linkClass ∈ linkForms := List.mem_cons_self
  have undescribed : ∀ caps reached, (lookup .current (.cls linkClass)).run linkStore =
      (.ok caps, reached) → caps.description = none := by
    intro caps reached lookedUp
    cases lookedUp
    rfl
  refine schemaFor_optional (.of_unknown covers_linkForms unknown_linkForms member) ⟨_, _, rfl⟩
    (fun _ _ isUnion => by cases isUnion)
    (.of_unknown covers_linkForms unknown_linkForms member (by simp [linkForms]) ?_ ?_)
  · rw [isLink]
    exact member
  · rw [isLink]
    exact undescribed

/-- The literal of two numbers. -/
def numbersForm (first second : Int) : TypeForm :=
  .literal [.int first, .int second]

/-- The state in which a literal or null was looked up. -/
def numbersKnown : Store :=
  ((lookup .current (numbersForm 1 2).optional).run .initial).2

/-- The numbers that a schema lists, if it lists any. -/
def Schema.numbers : Schema → List Int
  | .inline header _ _ _ =>
    (header.choices.getD []).filterMap fun
      | .int n => some n
      | _ => none
  | .reference _ _ => []

/-- The type forms that the literal leads to. -/
def numbersForms : List TypeForm :=
  [numbersForm 2 1, .any, .builtin .int, .builtin .str]

theorem covers_numbersForms : numbersKnown.world.Covers numbersForms .declaringPlainly := by
  refine .of_unhooked rfl (by simp [numbersForms]) (by simp [numbersForms]) rfl ?_ ?_
  · intro a member b asked
    simp only [numbersForms, List.mem_cons, List.not_mem_nil, or_false] at member
    rcases member with rfl | rfl | rfl | rfl
    · obtain rfl : b = .builtin .int := List.mem_singleton.mp asked
      simp [numbersForms]
    · cases asked
    · cases asked
    · cases asked
  · intro c member
    have text : TypeForm.cls (.builtin .str) ∈ numbersForms := by
      simp [numbersForms, TypeForm.builtin]
    have among : c = .builtin .int ∨ c = .builtin .str := by
      simpa [numbersForms, numbersForm, TypeForm.builtin] using member
    rcases among with rfl | rfl
    · exact ⟨rfl, fun _ => rfl, text, fun _ found => by cases found⟩
    · exact ⟨rfl, fun _ => rfl, text, fun _ found => by cases found⟩

theorem unknown_numbersForms :
    ∀ b ∈ numbersForms, (numbersKnown.registry .current).find? b = none :=
  Store.unknown_of_all (by decide +kernel)

/-- It matters what is known about equal types that are written differently: where a literal
or null was looked up, the schema of an equal literal or null lists the numbers as the first
one does. -/
theorem schemaFor_optional_matters :
    ¬ ∀ s a, s.Conventional .declaringPlainly a →
      (∃ caps reached, (lookup .current a).run s = (.ok caps, reached)) → a.IsBuilt →
      s.HasSameSchemas a a.optional := by
  intro claim
  obtain ⟨schema, shared, last, later, ofBare, ofNullable⟩ :=
    claim numbersKnown (numbersForm 2 1) (.of_unknown covers_numbersForms unknown_numbersForms List.mem_cons_self)
      ⟨_, _, rfl⟩ (fun _ _ isUnion => by cases isUnion) .default .empty
  have listed : ((schemaFor .default (numbersForm 2 1)).run (.empty, numbersKnown)).1.toOption.map
      Schema.numbers = some [2, 1] := by decide +kernel
  have otherListed : ((schemaFor .default (numbersForm 2 1).optional).run
      (.empty, numbersKnown)).1.toOption.map Schema.numbers = some [1, 2] := by decide +kernel
  rw [ofBare] at listed
  rw [ofNullable, listed] at otherListed
  exact absurd otherListed (by decide)

end SchemaProbe

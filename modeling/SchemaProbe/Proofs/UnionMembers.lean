import SchemaProbe.Proofs.OptionalForms
import SchemaProbe.Proofs.Senses

namespace SchemaProbe

/-!
# Unions are told by their members

Where type forms that are the same type are written alike, a union is told by its members
alone, however it was put together.  So names can be settled before type forms are united
or afterwards: the settled union has the settled members.
-/

namespace TypeForm

/-! ## Unions by their members -/

/-- Whether a type form stands as a member of a union as it is. -/
def isMember : TypeForm → Bool
  | .union _ _ => false
  | .text _ => false
  | .value v => !v.isNull
  | _ => true

/-- What is a member is the same as an argument. -/
theorem argument_of_isMember
    {m : TypeForm}
    (member : m.isMember = true) :
    m.argument = m := by
  unfold argument
  split <;> simp [isMember, Value.isNull] at member ⊢

/-- What is a member has no members but itself. -/
theorem unionMembers_of_isMember
    {m : TypeForm}
    (member : m.isMember = true) :
    unionMembers m = [m] := by
  cases m with
  | union style members => cases member
  | _ => rfl

/-- What is an argument is a union or a member. -/
theorem isMember_argument
    {a : TypeForm}
    (other : ∀ style members, a ≠ .union style members) :
    a.argument.isMember = true := by
  cases a with
  | union style members => exact absurd rfl (other style members)
  | value v => cases v <;> rfl
  | _ => rfl

/-- The key of a union by the keys of its members; a single one stands for itself. -/
def unionKey (keys : List Key) : Key :=
  match keys.foldr Key.insert [] with
  | [k] => k
  | several => .labelled "union" (.sequence several)

/-- The key of a union does not depend on the order and the repetition of its members. -/
theorem unionKey_congr
    {keys others : List Key}
    (same : ∀ k, k ∈ keys ↔ k ∈ others) :
    unionKey keys = unionKey others := by
  have sorted : keys.foldr Key.insert [] = others.foldr Key.insert [] :=
    (Key.foldr_insert keys).1.eq_of_mem_iff (Key.foldr_insert others).1 fun k => by
      rw [(Key.foldr_insert keys).2, (Key.foldr_insert others).2, same]
  rw [unionKey, unionKey, sorted]

/-- Whether a type form has the key that its members make. -/
def IsUnited (a : TypeForm) : Prop :=
  a.key = unionKey ((unionMembers a).map key)

/-- What is a member is united. -/
theorem isUnited_of_isMember
    {m : TypeForm}
    (member : m.isMember = true) :
    m.IsUnited := by
  rw [IsUnited, unionMembers_of_isMember member]
  rfl

/-- United type forms with the same members have the same key. -/
theorem IsUnited.key_congr
    {a b : TypeForm}
    (united : a.IsUnited)
    (otherUnited : b.IsUnited)
    (same : ∀ m, m ∈ unionMembers a ↔ m ∈ unionMembers b) :
    a.key = b.key := by
  rw [united, otherUnited]
  refine unionKey_congr fun k => ?_
  rw [List.mem_map, List.mem_map]
  exact exists_congr fun m => by rw [same m]

/-- What is left of several members is all of them, if those that are the same type are
written alike. -/
theorem mem_distinct_iff
    {members : List TypeForm}
    (once : ∀ a ∈ members, ∀ b ∈ members, a.identity = b.identity → a = b)
    (m : TypeForm) :
    m ∈ distinct members ↔ m ∈ members := by
  refine ⟨mem_of_mem_distinct, fun member => ?_⟩
  induction members with
  | nil => exact member
  | cons first rest inductionHypothesis =>
      have restOnce : ∀ a ∈ rest, ∀ b ∈ rest, a.identity = b.identity → a = b :=
        fun a isOne b isOther =>
          once a (List.mem_cons_of_mem _ isOne) b (List.mem_cons_of_mem _ isOther)
      rw [distinct]
      by_cases isFirst : m = first
      · rw [isFirst]
        exact List.mem_cons_self
      · have later := (List.mem_cons.mp member).resolve_left isFirst
        refine List.mem_cons_of_mem _
          (List.mem_filter.mpr ⟨inductionHypothesis restOnce later, ?_⟩)
        have differs : first.identity ≠ m.identity := fun equal =>
          isFirst (once first List.mem_cons_self m (List.mem_cons_of_mem _ later) equal).symm
        simpa [same] using differs

section

variable {among : TypeForm → Prop} {style : UnionStyle} {parts : List TypeForm}
  (alike : SpelledAlike among)
  (comeUp : ∀ m ∈ parts.flatMap unionMembers, among m)
  (areMembers : ∀ m ∈ parts.flatMap unionMembers, m.isMember = true)

include alike comeUp in
/-- Uniting leaves no member out. -/
theorem mem_distinct_parts (m : TypeForm) :
    m ∈ distinct (parts.flatMap unionMembers) ↔ m ∈ parts.flatMap unionMembers :=
  mem_distinct_iff (fun a isOne b isOther => alike.once a b (comeUp a isOne) (comeUp b isOther)) m

include alike comeUp areMembers

/-- The members of what is united are those of its parts. -/
theorem mem_unionMembers_unionIn (m : TypeForm) :
    m ∈ unionMembers (unionIn style parts) ↔ m ∈ parts.flatMap unionMembers := by
  rw [← mem_distinct_parts alike comeUp m]
  unfold unionIn
  split
  · rename_i single isSingle
    have member : single ∈ parts.flatMap unionMembers :=
      mem_of_mem_distinct (by rw [isSingle]; exact List.mem_singleton_self single)
    rw [isSingle, unionMembers_of_isMember (areMembers single member)]
  · rfl

/-- What parts are united to is united. -/
theorem isUnited_unionIn (nonempty : parts.flatMap unionMembers ≠ []) :
    (unionIn style parts).IsUnited := by
  unfold unionIn
  split
  · rename_i single isSingle
    have member : single ∈ parts.flatMap unionMembers :=
      mem_of_mem_distinct (by rw [isSingle]; exact List.mem_singleton_self single)
    exact isUnited_of_isMember (areMembers single member)
  · rename_i several
    change Key.labelled "union" (Key.setOf (keys (distinct (parts.flatMap unionMembers)))) =
      unionKey ((distinct (parts.flatMap unionMembers)).map key)
    have kept := mem_distinct_parts alike comeUp
    have pairwise := pairwise_distinct (parts.flatMap unionMembers)
    -- two members that are left have different keys, so that the union is no single type
    obtain ⟨first, second, rest, isKept⟩ :
        ∃ first second rest, distinct (parts.flatMap unionMembers) = first :: second :: rest := by
      cases all : distinct (parts.flatMap unionMembers) with
      | nil =>
          obtain ⟨first, isFirst⟩ := List.exists_mem_of_ne_nil _ nonempty
          rw [← kept, all] at isFirst
          cases isFirst
      | cons first others =>
          cases others with
          | nil => exact absurd all (several first)
          | cons second rest => exact ⟨first, second, rest, rfl⟩
    have differ : first.key ≠ second.key := by
      intro sameKey
      rw [isKept] at kept pairwise
      have isSame := alike.byKey first second
        (comeUp _ ((kept first).mp List.mem_cons_self))
        (comeUp _ ((kept second).mp (List.mem_cons_of_mem _ List.mem_cons_self))) sameKey
      have isOther := (List.pairwise_cons.mp pairwise).1 second List.mem_cons_self
      rw [isSame, same, beq_self_eq_true] at isOther
      cases isOther
    rw [keys_eq_map, Key.setOf, unionKey]
    split
    · rename_i k isSingle
      have among (other : Key)
          (member : other ∈ (distinct (parts.flatMap unionMembers)).map key) : other = k := by
        rw [← (Key.foldr_insert _).2 other, isSingle] at member
        exact List.mem_singleton.mp member
      rw [isKept] at among
      exact absurd ((among first.key (by simp)).trans (among second.key (by simp)).symm) differ
    · rfl

end

/-! ## Settling names -/

/-- A type form with the names that stand for something replaced by it. -/
abbrev settled (ofName : String → Option TypeForm) (a : TypeForm) : TypeForm :=
  a.substitute ofName fun _ => none

/-- Whether names stand for nothing but classes. -/
def NamesClasses (ofName : String → Option TypeForm) : Prop :=
  ∀ name a, ofName name = some a → ∃ c, a = .cls c

/-- Whether a union is made of members, and what stands between bars can stand there. -/
def IsFlat (a : TypeForm) : Prop :=
  ∀ style members, a = .union style members → members ≠ [] ∧ ∀ m ∈ members,
    m.isMember = true ∧ (style = .bar → m.standsBesideBar = true)

/-- What is a member is flat. -/
theorem isFlat_of_isMember
    {m : TypeForm}
    (member : m.isMember = true) :
    m.IsFlat := by
  rintro style members rfl
  cases member

theorem substituteAll_eq_map
    (ofName ofVariable : String → Option TypeForm)
    (as : List TypeForm) :
    substituteAll ofName ofVariable as = as.map (substitute ofName ofVariable) := by
  induction as with
  | nil => rfl
  | cons a rest inductionHypothesis => rw [substituteAll, inductionHypothesis, List.map_cons]

/-- A name is settled as what it stands for or stays a name. -/
theorem getD_of_namesClasses
    {ofName : String → Option TypeForm}
    (classes : NamesClasses ofName)
    (name : String)
    (otherwise : TypeForm) :
    (∃ c, (ofName name).getD otherwise = .cls c) ∨ (ofName name).getD otherwise = otherwise := by
  cases found : ofName name with
  | none => exact .inr rfl
  | some a =>
      obtain ⟨c, rfl⟩ := classes name a found
      exact .inl ⟨c, rfl⟩

section

variable {ofName : String → Option TypeForm} (classes : NamesClasses ofName)

include classes

/-- A member is settled as a member, which stands beside a bar if it did. -/
theorem isMember_settled
    {m : TypeForm}
    (member : m.isMember = true) :
    (m.settled ofName).isMember = true ∧
      (m.standsBesideBar = true → (m.settled ofName).standsBesideBar = true) := by
  cases m with
  | union style members => cases member
  | text s => cases member
  | reference name =>
      rw [settled, substitute]
      rcases getD_of_namesClasses classes name (.reference name) with ⟨c, isClass⟩ | isName
      · rw [isClass]
        exact ⟨rfl, fun _ => rfl⟩
      · rw [isName]
        exact ⟨rfl, fun _ => rfl⟩
  | annotated inner notes =>
      rw [settled, substitute]
      split <;> exact ⟨rfl, fun _ => rfl⟩
  | value v => exact ⟨member, id⟩
  | ellipsis => exact ⟨rfl, id⟩
  | _ => exact ⟨rfl, fun _ => rfl⟩

end

section

variable {among : TypeForm → Prop} (alike : SpelledAlike among)

/-- Whether a type form has members that come up, and the key that they make. -/
structure UnitesMembers (among : TypeForm → Prop) (a : TypeForm) : Prop where
  nonempty : unionMembers a ≠ []
  members : ∀ m ∈ unionMembers a, m.isMember = true ∧ among m
  united : a.IsUnited

/-- A member that comes up unites itself. -/
theorem unitesMembers_of_isMember
    {m : TypeForm}
    (member : m.isMember = true)
    (comesUp : among m) :
    m.UnitesMembers among := by
  have alone := unionMembers_of_isMember member
  refine ⟨?_, ?_, isUnited_of_isMember member⟩
  · rw [alone]
    exact List.cons_ne_nil _ _
  · rw [alone]
    exact List.forall_mem_singleton.mpr ⟨member, comesUp⟩

/-- What unites members is the same as an argument. -/
theorem UnitesMembers.argument
    {a : TypeForm}
    (unites : a.UnitesMembers among) :
    a.argument = a := by
  cases a with
  | union style members => rfl
  | _ => exact argument_of_isMember (unites.members _ (List.mem_singleton_self _)).1

/-- What unites members that stand beside a bar stands there, too. -/
theorem standsBesideBar_of_members
    {a : TypeForm}
    (stand : ∀ m ∈ unionMembers a, m.standsBesideBar = true) :
    a.standsBesideBar = true := by
  cases a with
  | union style members => rfl
  | _ => exact stand _ (List.mem_singleton_self _)

include alike

/-- What unites members is united. -/
theorem unitesMembers_unionIn
    (style : UnionStyle)
    (parts : List TypeForm)
    (nonempty : parts.flatMap unionMembers ≠ [])
    (areMembers : ∀ m ∈ parts.flatMap unionMembers, m.isMember = true ∧ among m) :
    (unionIn style parts).UnitesMembers among ∧
      ∀ m, m ∈ unionMembers (unionIn style parts) ↔ m ∈ parts.flatMap unionMembers := by
  have comeUp := fun m member => (areMembers m member).2
  have are := fun m member => (areMembers m member).1
  have kept : ∀ m, m ∈ unionMembers (unionIn style parts) ↔ m ∈ parts.flatMap unionMembers :=
    mem_unionMembers_unionIn alike comeUp are
  refine ⟨⟨?_, fun m member => areMembers m ((kept m).mp member),
    isUnited_unionIn alike comeUp are nonempty⟩, kept⟩
  obtain ⟨first, isFirst⟩ := List.exists_mem_of_ne_nil _ nonempty
  exact List.ne_nil_of_mem ((kept first).mpr isFirst)

/-- Two type forms that unite members are united by a bar or by name. -/
theorem unitesMembers_pair
    (style : UnionStyle)
    {left right : TypeForm}
    (leftUnites : left.UnitesMembers among)
    (rightUnites : right.UnitesMembers among) :
    (unionIn style [left, right]).UnitesMembers among ∧
      ∀ m, m ∈ unionMembers (unionIn style [left, right]) ↔
        m ∈ unionMembers left ∨ m ∈ unionMembers right := by
  have parts : [left, right].flatMap unionMembers = unionMembers left ++ unionMembers right := by
    rw [List.flatMap_cons, List.flatMap_singleton]
  obtain ⟨unites, kept⟩ := unitesMembers_unionIn alike style [left, right]
    (by rw [parts]; exact fun isEmpty => leftUnites.nonempty (List.append_eq_nil_iff.mp isEmpty).1)
    fun m member => by
      rw [parts, List.mem_append] at member
      exact member.elim (leftUnites.members m) (rightUnites.members m)
  refine ⟨unites, fun m => ?_⟩
  rw [kept, parts, List.mem_append]

/-- Bars between type forms that can stand there unite their members. -/
theorem exists_foldlM_bar
    {first : TypeForm}
    {rest : List TypeForm}
    (firstUnites : first.UnitesMembers among)
    (firstStands : ∀ m ∈ unionMembers first, m.standsBesideBar = true)
    (areMembers : ∀ m ∈ rest, m.isMember = true ∧ among m)
    (stand : ∀ m ∈ rest, m.standsBesideBar = true) :
    ∃ a, rest.foldlM bar? first = some a ∧ a.UnitesMembers among ∧
      ∀ m, m ∈ unionMembers a ↔ m ∈ unionMembers first ∨ m ∈ rest := by
  induction rest generalizing first with
  | nil => exact ⟨first, rfl, firstUnites, fun m => by simp⟩
  | cons next rest inductionHypothesis =>
      obtain ⟨⟨isNext, nextComesUp⟩, restAre⟩ := List.forall_mem_cons.mp areMembers
      obtain ⟨nextStands, restStand⟩ := List.forall_mem_cons.mp stand
      have nextUnites := unitesMembers_of_isMember isNext nextComesUp
      obtain ⟨style, isPair⟩ : ∃ style, bar? first next = some (unionIn style [first, next]) := by
        unfold bar?
        split
        · refine ⟨.named, ?_⟩
          rw [unionOf, List.map_cons, List.map_singleton, firstUnites.argument, nextUnites.argument]
        · refine ⟨.bar, ?_⟩
          rw [standsBesideBar_of_members firstStands, nextStands, firstUnites.argument,
            nextUnites.argument]
          rfl
      obtain ⟨unites, kept⟩ := unitesMembers_pair alike style firstUnites nextUnites
      rw [unionMembers_of_isMember isNext] at kept
      obtain ⟨a, isAll, allUnites, allKept⟩ := inductionHypothesis unites
        (fun m member => ((kept m).mp member).elim (firstStands m) fun isOne => by
          rw [List.mem_singleton.mp isOne]
          exact nextStands) restAre restStand
      refine ⟨a, ?_, allUnites, fun m => ?_⟩
      · rw [List.foldlM_cons, isPair]
        exact isAll
      · rw [allKept, kept, List.mem_singleton, List.mem_cons, or_assoc]

/-- Members are united in either style. -/
theorem unitesMembers_unionAs
    {style : UnionStyle}
    {members : List TypeForm}
    (nonempty : members ≠ [])
    (areMembers : ∀ m ∈ members, m.isMember = true ∧ among m)
    (stand : style = .bar → ∀ m ∈ members, m.standsBesideBar = true) :
    (unionAs style members).UnitesMembers among ∧
      ∀ m, m ∈ unionMembers (unionAs style members) ↔ m ∈ members := by
  cases style with
  | named =>
      have flattened : members.flatMap unionMembers = members := by
        rw [List.flatMap_congr fun m member => unionMembers_of_isMember (areMembers m member).1]
        exact List.flatMap_singleton' _
      have arguments : members.map argument = members :=
        (List.map_congr_left fun m member => argument_of_isMember (areMembers m member).1).trans
          (List.map_id _)
      have united := unitesMembers_unionIn alike .named members
        (by rw [flattened]; exact nonempty) (by rw [flattened]; exact areMembers)
      rw [unionAs, unionOf, arguments]
      rw [flattened] at united
      exact united
  | bar =>
      obtain ⟨first, rest, rfl⟩ := List.exists_cons_of_ne_nil nonempty
      obtain ⟨⟨isFirst, firstComesUp⟩, restAre⟩ := List.forall_mem_cons.mp areMembers
      obtain ⟨firstStands, restStand⟩ := List.forall_mem_cons.mp (stand rfl)
      have alone := unionMembers_of_isMember isFirst
      obtain ⟨a, isAll, unites, keeps⟩ := exists_foldlM_bar alike
        (unitesMembers_of_isMember isFirst firstComesUp)
        (by rw [alone]; exact List.forall_mem_singleton.mpr firstStands) restAre restStand
      have isUnited : unionAs .bar (first :: rest) = a := by
        rw [unionAs, barUnion?]
        exact congrArg (Option.getD · _) isAll
      rw [isUnited]
      refine ⟨unites, fun m => ?_⟩
      rw [keeps, alone, List.mem_singleton, ← List.mem_cons]

end

section

variable {among : TypeForm → Prop} {ofName : String → Option TypeForm}
  (alike : SpelledAlike among) (classes : NamesClasses ofName)

include alike classes

/-- A union is settled as what its settled members make. -/
theorem unitesMembers_settled
    {a : TypeForm}
    (flat : a.IsFlat)
    (isUnion : a.isMember = true ∨ ∃ style members, a = .union style members)
    (comeUp : ∀ m ∈ unionMembers a, among (m.settled ofName)) :
    (a.settled ofName).UnitesMembers among ∧
      ∀ m, m ∈ unionMembers (a.settled ofName) ↔
        ∃ n ∈ unionMembers a, n.settled ofName = m := by
  rcases isUnion with member | ⟨style, members, rfl⟩
  · have alone := unionMembers_of_isMember member
    rw [alone] at comeUp ⊢
    have settledMember := (isMember_settled classes member).1
    refine ⟨unitesMembers_of_isMember settledMember (comeUp a (List.mem_singleton_self a)), ?_⟩
    intro m
    rw [unionMembers_of_isMember settledMember, List.mem_singleton]
    simp [eq_comm]
  · obtain ⟨nonempty, areMembers⟩ := flat style members rfl
    have areSettled : ∀ m ∈ members.map (settled ofName), m.isMember = true ∧ among m := by
      intro m member
      obtain ⟨n, isOne, rfl⟩ := List.mem_map.mp member
      exact ⟨(isMember_settled classes (areMembers n isOne).1).1, comeUp n isOne⟩
    have stand (isBar : style = .bar) :
        ∀ m ∈ members.map (settled ofName), m.standsBesideBar = true := by
      intro m member
      obtain ⟨n, isOne, rfl⟩ := List.mem_map.mp member
      obtain ⟨isMember, stands⟩ := areMembers n isOne
      exact (isMember_settled classes isMember).2 (stands isBar)
    obtain ⟨unites, keeps⟩ := unitesMembers_unionAs alike
      (fun isEmpty => nonempty (List.map_eq_nil_iff.mp isEmpty)) areSettled stand
    rw [settled, substitute, substituteAll_eq_map]
    exact ⟨unites, fun m => (keeps m).trans List.mem_map⟩

/-- What is settled as an argument is an argument that is settled. -/
theorem settled_argument
    {a : TypeForm}
    (flat : a.IsFlat)
    (comeUp : ∀ m ∈ unionMembers a.argument, among (m.settled ofName)) :
    a.argument.settled ofName = (a.settled ofName).argument := by
  cases a with
  | text s =>
      rw [settled, settled, argument, substitute, substitute]
      cases found : ofName s with
      | none => rfl
      | some a =>
          obtain ⟨c, rfl⟩ := classes s a found
          rfl
  | value v => cases v <;> rfl
  | union style members =>
      exact (unitesMembers_settled alike classes flat (.inr ⟨style, members, rfl⟩) comeUp).1.argument.symm
  | _ =>
      exact (unitesMembers_settled alike classes flat (.inl rfl) comeUp).1.argument.symm

end

/-! ## Uniting what is settled -/

/-- Whether type forms come up alike that are written with names which are settled
later: with null and as arguments, with the members of unions, and when their names are
settled. -/
structure SettlesAlike
    (among : TypeForm → Prop)
    (ofName : String → Option TypeForm) :
    Prop where
  alike : SpelledAlike among
  nulls : among .nullType
  arguments : ∀ a, among a → among a.argument
  members : ∀ style members, among (.union style members) → ∀ m ∈ members, among m
  settles : ∀ a, among a → among (a.settled ofName)
  classes : NamesClasses ofName

/-- Whether a type form can join a union of what comes up. -/
structure Joins (among : TypeForm → Prop) (a : TypeForm) : Prop where
  flat : a.IsFlat
  members : ∀ m ∈ unionMembers a.argument, among m

/-- What is an argument stays the same as an argument. -/
theorem argument_argument (a : TypeForm) : a.argument.argument = a.argument := by
  cases a with
  | value v => cases v <;> rfl
  | _ => rfl

section

variable {among : TypeForm → Prop} {ofName : String → Option TypeForm}

/-- A flat type form is flat as an argument. -/
theorem IsFlat.argument
    {a : TypeForm}
    (flat : a.IsFlat) :
    a.argument.IsFlat := by
  by_cases isUnion : ∃ style members, a = .union style members
  · obtain ⟨style, members, rfl⟩ := isUnion
    exact flat
  · exact isFlat_of_isMember (isMember_argument fun style members same =>
      isUnion ⟨style, members, same⟩)

/-- The members of a flat type form are members, and stand beside a bar if it does and is
no typing form. -/
theorem IsFlat.unionMembers_argument
    {a : TypeForm}
    (flat : a.IsFlat) :
    unionMembers a.argument ≠ [] ∧ (∀ m ∈ unionMembers a.argument, m.isMember = true) ∧
      (a.isTypingForm = false → a.argument.standsBesideBar = true →
        ∀ m ∈ unionMembers a.argument, m.standsBesideBar = true) := by
  have alone (member : a.argument.isMember = true) :
      unionMembers a.argument ≠ [] ∧ (∀ m ∈ unionMembers a.argument, m.isMember = true) ∧
        (a.isTypingForm = false → a.argument.standsBesideBar = true →
          ∀ m ∈ unionMembers a.argument, m.standsBesideBar = true) := by
    rw [unionMembers_of_isMember member]
    exact ⟨List.cons_ne_nil _ _, List.forall_mem_singleton.mpr member,
      fun _ stands => List.forall_mem_singleton.mpr stands⟩
  cases a with
  | union style members =>
      obtain ⟨nonempty, areMembers⟩ := flat style members rfl
      refine ⟨nonempty, fun m member => (areMembers m member).1, fun notTyping _ m member => ?_⟩
      cases style with
      | named => cases notTyping
      | bar => exact (areMembers m member).2 rfl
  | _ => exact alone (isMember_argument nofun)

variable (words : SettlesAlike among ofName)

include words

/-- What comes up and is flat can join a union. -/
theorem joins_of_among
    {a : TypeForm}
    (flat : a.IsFlat)
    (comesUp : among a) :
    a.Joins among := by
  refine ⟨flat, fun m member => ?_⟩
  have isArgument := words.arguments a comesUp
  cases isUnion : a.argument with
  | union style members =>
      rw [isUnion] at member isArgument
      exact words.members style members isArgument m member
  | _ =>
      rw [isUnion] at member isArgument
      rw [List.mem_singleton.mp member]
      exact isArgument

/-- What can join a union is settled as what its settled members make. -/
theorem Joins.settled_argument
    {a : TypeForm}
    (joins : a.Joins among) :
    (a.argument.settled ofName).UnitesMembers among ∧
      ∀ m, m ∈ unionMembers (a.argument.settled ofName) ↔
        ∃ n ∈ unionMembers a.argument, n.settled ofName = m := by
  have comeUp : ∀ m ∈ unionMembers a.argument, among (m.settled ofName) :=
    fun m member => words.settles m (joins.members m member)
  by_cases isUnion : ∃ style members, a = .union style members
  · obtain ⟨style, members, rfl⟩ := isUnion
    exact unitesMembers_settled words.alike words.classes joins.flat (.inr ⟨style, members, rfl⟩)
      comeUp
  · have member := isMember_argument fun style members same => isUnion ⟨style, members, same⟩
    exact unitesMembers_settled words.alike words.classes (isFlat_of_isMember member) (.inl member)
      comeUp

/-- What several type forms that can join a union are united to can join one, and is
settled as what the settled ones make. -/
theorem joins_unionIn
    (style : UnionStyle)
    {as : List TypeForm}
    (nonempty : as ≠ [])
    (join : ∀ a ∈ as, a.Joins among)
    (stand : style = .bar → ∀ a ∈ as, ∀ m ∈ unionMembers a.argument, m.standsBesideBar = true) :
    (unionIn style (as.map argument)).Joins among ∧
      (unionIn style (as.map argument)).argument = unionIn style (as.map argument) ∧
      ∀ m, m ∈ unionMembers ((unionIn style (as.map argument)).settled ofName) ↔
        ∃ a ∈ as, m ∈ unionMembers (a.argument.settled ofName) := by
  have parts (m : TypeForm) : m ∈ (as.map argument).flatMap unionMembers ↔
      ∃ a ∈ as, m ∈ unionMembers a.argument := by
    rw [List.flatMap_map, List.mem_flatMap]
  have areMembers : ∀ m ∈ (as.map argument).flatMap unionMembers, m.isMember = true ∧ among m := by
    intro m member
    obtain ⟨a, isOne, isIn⟩ := (parts m).mp member
    exact ⟨(join a isOne).flat.unionMembers_argument.2.1 m isIn, (join a isOne).members m isIn⟩
  obtain ⟨unites, kept⟩ := unitesMembers_unionIn words.alike style (as.map argument)
    (by
      obtain ⟨first, isFirst⟩ := List.exists_mem_of_ne_nil _ nonempty
      obtain ⟨m, isIn⟩ :=
        List.exists_mem_of_ne_nil _ (join first isFirst).flat.unionMembers_argument.1
      exact List.ne_nil_of_mem ((parts m).mpr ⟨first, isFirst, isIn⟩)) areMembers
  have flat : (unionIn style (as.map argument)).IsFlat := by
    intro other members isUnion
    have inside : unionMembers (unionIn style (as.map argument)) = members := by rw [isUnion]; rfl
    rw [inside] at kept
    refine ⟨inside ▸ unites.nonempty, fun m member => ⟨(areMembers m ((kept m).mp member)).1, ?_⟩⟩
    rintro rfl
    have isBar : style = .bar := by
      unfold unionIn at isUnion
      split at isUnion
      · rename_i single isSingle
        have isMember := (areMembers single (mem_of_mem_distinct
          (by rw [isSingle]; exact List.mem_singleton_self single))).1
        rw [isUnion] at isMember
        cases isMember
      · cases isUnion
        rfl
    obtain ⟨a, isOne, isIn⟩ := (parts m).mp ((kept m).mp member)
    exact stand isBar a isOne m isIn
  have joins : (unionIn style (as.map argument)).Joins among := by
    refine ⟨flat, fun m member => ?_⟩
    rw [unites.argument] at member
    exact (unites.members m member).2
  refine ⟨joins, unites.argument, fun m => ?_⟩
  have keeps := (joins.settled_argument words).2 m
  rw [unites.argument] at keeps
  rw [keeps]
  constructor
  · rintro ⟨n, isIn, rfl⟩
    obtain ⟨a, isOne, isPart⟩ := (parts n).mp ((kept n).mp isIn)
    exact ⟨a, isOne, ((join a isOne).settled_argument words |>.2 _).mpr ⟨n, isPart, rfl⟩⟩
  · rintro ⟨a, isOne, isIn⟩
    obtain ⟨n, isPart, rfl⟩ := ((join a isOne).settled_argument words |>.2 m).mp isIn
    exact ⟨n, (kept n).mpr ((parts n).mpr ⟨a, isOne, isPart⟩), rfl⟩

/-- Type forms that come up and join unions are settled alike if their members are. -/
theorem Joins.settled_congr
    {a b : TypeForm}
    (joins : a.Joins among)
    (otherJoins : b.Joins among)
    (isArgument : a.argument = a)
    (otherIsArgument : b.argument = b)
    (comesUp : among a)
    (otherComesUp : among b)
    (same : ∀ m, m ∈ unionMembers (a.settled ofName) ↔ m ∈ unionMembers (b.settled ofName)) :
    a.settled ofName = b.settled ofName := by
  have unites := (joins.settled_argument words).1
  have otherUnites := (otherJoins.settled_argument words).1
  rw [isArgument] at unites
  rw [otherIsArgument] at otherUnites
  exact words.alike.byKey _ _ (words.settles a comesUp) (words.settles b otherComesUp)
    (unites.united.key_congr otherUnites.united same)

/-- What comes up and is flat is settled alike as an argument if it is settled alike. -/
theorem settled_argument_congr
    {a b : TypeForm}
    (joins : a.Joins among)
    (otherJoins : b.Joins among)
    (same : a.settled ofName = b.settled ofName) :
    a.argument.settled ofName = b.argument.settled ofName := by
  rw [settled_argument words.alike words.classes joins.flat fun m member =>
      words.settles m (joins.members m member), same,
    settled_argument words.alike words.classes otherJoins.flat fun m member =>
      words.settles m (otherJoins.members m member)]

end

/-! ## How unions are read -/

/-- A named union is united from its parts as arguments. -/
theorem eq_of_unite
    {as : List TypeForm}
    {x : TypeForm}
    (ok : unite as = .ok x) :
    as ≠ [] ∧ x = unionIn .named (as.map argument) := by
  obtain ⟨checked, isChecked, united⟩ := exists_of_bind_eq_ok ok
  obtain rfl := eq_map_of_checked isChecked
  split at united
  · cases united
  · rename_i nonempty
    split at united
    · cases united
    · cases united
      refine ⟨fun isEmpty => nonempty (by rw [isEmpty]; rfl), ?_⟩
      rw [unionOf, List.map_map]
      exact congrArg _ (List.map_congr_left fun a _ => argument_argument a)

/-- What stands beside a bar stands there as an argument. -/
theorem standsBesideBar_argument
    {a : TypeForm}
    (stands : a.standsBesideBar = true) :
    a.argument.standsBesideBar = true := by
  cases a with
  | value v => cases v <;> first | rfl | cases stands
  | text s => cases stands
  | _ => exact stands

/-- Two type forms with a bar between them are united from them as arguments. -/
theorem eq_of_barred
    {isDeferred : Bool}
    {left right x : TypeForm}
    (ok : barred isDeferred left right = .ok x) :
    ∃ style, x = unionIn style ([left, right].map argument) ∧
      (style = .bar → ∀ a ∈ [left, right],
        a.isTypingForm = false ∧ a.argument.standsBesideBar = true) := by
  unfold barred at ok
  split at ok
  · exact ⟨.named, (eq_of_unite ok).2, nofun⟩
  · rename_i notTyping
    obtain ⟨leftOther, rightOther⟩ := Bool.or_eq_false_iff.mp (Bool.eq_false_iff.mpr notTyping)
    refine ⟨.bar, ?_⟩
    have stands {first second : Bool}
        (both : (first && second) = true)
        (leftStands : first = true → left.argument.standsBesideBar = true)
        (rightStands : second = true → right.argument.standsBesideBar = true) :
        ∀ a ∈ [left, right], a.isTypingForm = false ∧ a.argument.standsBesideBar = true := by
      obtain ⟨isFirst, isSecond⟩ := Bool.and_eq_true_iff.mp both
      exact List.forall_mem_cons.mpr ⟨⟨leftOther, leftStands isFirst⟩,
        List.forall_mem_singleton.mpr ⟨rightOther, rightStands isSecond⟩⟩
    cases isPair : barred? isDeferred left right with
    | none =>
        rw [isPair] at ok
        cases ok
    | some pair =>
        rw [isPair] at ok
        cases ok
        unfold barred? at isPair
        split at isPair
        · split at isPair
          · rename_i both
            cases isPair
            exact ⟨rfl, fun _ => stands both id id⟩
          · cases isPair
        · rw [bar?, if_neg notTyping] at isPair
          split at isPair
          · rename_i both
            cases isPair
            exact ⟨rfl, fun _ =>
              stands both standsBesideBar_argument standsBesideBar_argument⟩
          · cases isPair

section

variable {among : TypeForm → Prop} {ofName : String → Option TypeForm}
  (words : SettlesAlike among ofName)

include words

/-- Type forms that can join a union do so with bars between them, and are settled as
what the settled ones make. -/
theorem joins_barredAll
    {isDeferred : Bool}
    {first x : TypeForm}
    {rest : List TypeForm}
    (firstJoins : first.Joins among)
    (restJoin : ∀ a ∈ rest, a.Joins among)
    (ok : barredAll isDeferred first rest = .ok x) :
    x.Joins among ∧ (rest ≠ [] → x.argument = x) ∧
      ∀ m, m ∈ unionMembers (x.argument.settled ofName) ↔
        ∃ a ∈ first :: rest, m ∈ unionMembers (a.argument.settled ofName) := by
  induction rest generalizing first with
  | nil =>
      cases ok
      exact ⟨firstJoins, fun nonempty => absurd rfl nonempty, fun m => by simp⟩
  | cons next rest inductionHypothesis =>
      obtain ⟨nextJoins, othersJoin⟩ := List.forall_mem_cons.mp restJoin
      obtain ⟨pair, isPair, okRest⟩ := exists_of_bind_eq_ok ok
      obtain ⟨style, rfl, stand⟩ := eq_of_barred isPair
      have both : ∀ a ∈ [first, next], a.Joins among :=
        List.forall_mem_cons.mpr ⟨firstJoins, List.forall_mem_singleton.mpr nextJoins⟩
      obtain ⟨pairJoins, isArgument, kept⟩ := joins_unionIn words _ (List.cons_ne_nil _ _) both
        fun isBar a member =>
          (both a member).flat.unionMembers_argument.2.2 (stand isBar a member).1
            (stand isBar a member).2
      obtain ⟨joins, isUnion, keeps⟩ := inductionHypothesis pairJoins othersJoin okRest
      refine ⟨joins, fun _ => ?_, fun m => ?_⟩
      · cases rest with
        | nil =>
            cases okRest
            exact isArgument
        | cons third others => exact isUnion (List.cons_ne_nil _ _)
      · rw [keeps]
        simp only [List.mem_cons, exists_eq_or_imp, exists_eq_left, isArgument, kept,
          List.not_mem_nil, or_false, or_assoc]

end

end TypeForm

end SchemaProbe

import Mathlib.Data.List.Forall2
import Mathlib.Data.List.Induction
import Mathlib.Data.List.Nodup
import SchemaProbe.Table

namespace SchemaProbe

/-!
# Writing tables over each other

A table can be written over another one entry by entry.  A key that is known
keeps its place, so it does not matter when it is set, and writing tables over
each other is associative.  What is found afterwards comes from the last table
that has the key.
-/

namespace Table

/-- A table with the entries of a later one set in it, one after the other. -/
def overwrite
    [BEq κ]
    (table later : List (κ × α)) :
    List (κ × α) :=
  later.foldl (fun reached e => set reached e.1 e.2) table

/-- Setting one more entry comes last. -/
theorem overwrite_concat
    [BEq κ]
    (table later : List (κ × α))
    (e : κ × α) :
    overwrite table (later ++ [e]) = set (overwrite table later) e.1 e.2 := by
  simp [overwrite]

/-- What stands in a table over which another one was written stood in one of them. -/
theorem mem_or_mem_of_mem_overwrite
    [BEq κ]
    {table later : List (κ × α)}
    {e : κ × α}
    (member : e ∈ overwrite table later) :
    e ∈ table ∨ e ∈ later := by
  induction later generalizing table with
  | nil => exact .inl member
  | cons first rest inductionHypothesis =>
      rcases inductionHypothesis member with inSet | isLater
      · rcases mem_or_eq_of_mem_set inSet with old | rfl
        · exact .inl old
        · exact .inr List.mem_cons_self
      · exact .inr (List.mem_cons_of_mem _ isLater)

/-- A key is known if it is one of the keys. -/
theorem any_key_iff
    [BEq κ] [LawfulBEq κ]
    {table : List (κ × α)}
    {key : κ} :
    (table.any fun e => e.1 == key) = true ↔ key ∈ table.map Prod.fst := by
  rw [List.any_eq_true, List.mem_map]
  simp only [beq_iff_eq]

/-- A key is found exactly if it is one of the keys. -/
theorem lookup_eq_none_iff_not_mem
    [BEq κ] [LawfulBEq κ]
    {table : List (κ × α)}
    {key : κ} :
    table.lookup key = none ↔ key ∉ table.map Prod.fst := by
  constructor
  · intro absent member
    obtain ⟨e, isEntry, rfl⟩ := List.mem_map.mp member
    simpa using List.lookup_eq_none_iff.mp absent e isEntry
  · intro unknown
    exact lookup_eq_none_of_unknown (Bool.eq_false_iff.mpr (mt any_key_iff.mp unknown))

/-- A key that was set is known. -/
theorem any_set_self
    [BEq κ] [LawfulBEq κ]
    (table : List (κ × α))
    (key : κ)
    (a : α) :
    ((set table key a).any fun e => e.1 == key) = true :=
  any_key_iff.mpr (mem_keys_set_iff.mpr (.inl rfl))

/-- Setting a key does not make another key known. -/
theorem any_set_of_ne
    [BEq κ] [LawfulBEq κ]
    (table : List (κ × α))
    {key other : κ}
    (a : α)
    (different : other ≠ key) :
    ((set table key a).any fun e => e.1 == other) = table.any fun e => e.1 == other := by
  rw [Bool.eq_iff_iff, any_key_iff, any_key_iff, mem_keys_set_iff]
  exact or_iff_right different

/-- Of two values set under one key the second one stays. -/
theorem set_set
    [BEq κ] [LawfulBEq κ]
    (table : List (κ × α))
    (key : κ)
    (a b : α) :
    set (set table key a) key b = set table key b := by
  have known := any_set_self table key a
  have replaced :
      set (set table key a) key b =
        (set table key a).map fun e => if e.1 == key then (key, b) else e := by
    rw [set, if_pos known]
  rw [replaced]
  unfold set
  split
  · rw [List.map_map]
    refine List.map_congr_left fun e _ => ?_
    by_cases same : e.1 = key
    · simp [same]
    · simp [same]
  · rename_i unknown
    rw [any_key_iff] at unknown
    have others : ∀ e ∈ table, e.1 ≠ key := fun e member same =>
      unknown (same ▸ List.mem_map_of_mem member)
    rw [List.map_append]
    refine congrArg₂ _ ((List.map_congr_left fun e member => ?_).trans (List.map_id table)) ?_
    · simp [others e member]
    · simp

/-- A key that is known keeps its place, so another key may be set before
it. -/
theorem set_comm
    [BEq κ] [LawfulBEq κ]
    {table : List (κ × α)}
    {key other : κ}
    (a b : α)
    (known : (table.any fun e => e.1 == key) = true)
    (different : other ≠ key) :
    set (set table other b) key a = set (set table key a) other b := by
  have knownLater : ((set table other b).any fun e => e.1 == key) = true := by
    rw [any_set_of_ne table b different.symm]
    exact known
  have replaced (entries : List (κ × α)) (isKnown : (entries.any fun e => e.1 == key) = true) :
      set entries key a = entries.map fun e => if e.1 == key then (key, a) else e := by
    rw [set, if_pos isKnown]
  have sameOther := any_set_of_ne table a different
  rw [replaced _ knownLater]
  rw [replaced _ known] at sameOther ⊢
  unfold set
  rw [sameOther]
  split
  · rw [List.map_map, List.map_map]
    refine List.map_congr_left fun e _ => ?_
    by_cases isKey : e.1 = key
    · simp [isKey, different.symm]
    · by_cases isOther : e.1 = other
      · simp [isOther, different]
      · simp [isKey, isOther]
  · rw [List.map_append]
    simp [different]

/-- A known key may be set before or after a table is written over. -/
theorem overwrite_map_of_known
    [BEq κ] [LawfulBEq κ]
    {table : List (κ × α)}
    {key : κ}
    (later : List (κ × α))
    (a : α)
    (known : (table.any fun e => e.1 == key) = true) :
    overwrite (set table key a) (later.map fun e => if e.1 == key then (key, a) else e) =
      set (overwrite table later) key a := by
  induction later generalizing table with
  | nil => rfl
  | cons e rest inductionHypothesis =>
      by_cases same : e.1 = key
      · have knownNext := any_set_self table key e.2
        have step := inductionHypothesis knownNext
        rw [set_set] at step
        simpa [overwrite, same, set_set] using step
      · have knownNext : ((set table e.1 e.2).any fun e => e.1 == key) = true := by
          rw [any_set_of_ne table e.2 (Ne.symm same)]
          exact known
        have step := inductionHypothesis knownNext
        rw [set_comm a e.2 known same] at step
        simpa [overwrite, same] using step

/-- Setting a key in the later table sets it in what is written over. -/
theorem overwrite_set
    [BEq κ] [LawfulBEq κ]
    (table later : List (κ × α))
    (key : κ)
    (a : α) :
    overwrite table (set later key a) = set (overwrite table later) key a := by
  unfold set
  split
  · rename_i known
    change _ = set (overwrite table later) key a
    induction later generalizing table with
    | nil => simp at known
    | cons e rest inductionHypothesis =>
        by_cases same : e.1 = key
        · have step := overwrite_map_of_known rest a (any_set_self table key e.2)
          rw [set_set] at step
          simpa [overwrite, same] using step
        · have knownLater : (rest.any fun e => e.1 == key) = true := by
            simpa [same] using known
          simpa [overwrite, same] using inductionHypothesis (set table e.1 e.2) knownLater
  · exact overwrite_concat table later (key, a)

/-- It does not matter how three tables written over each other are grouped. -/
theorem overwrite_overwrite
    [BEq κ] [LawfulBEq κ]
    (table later last : List (κ × α)) :
    overwrite (overwrite table later) last = overwrite table (overwrite later last) := by
  induction last generalizing later with
  | nil => rfl
  | cons e rest inductionHypothesis =>
      have step := inductionHypothesis (set later e.1 e.2)
      rw [overwrite_set] at step
      exact step

/-- Setting a key to what it has changes nothing. -/
theorem set_of_mem
    [BEq κ] [LawfulBEq κ]
    {table : List (κ × α)}
    {e : κ × α}
    (unique : (table.map Prod.fst).Nodup)
    (member : e ∈ table) :
    set table e.1 e.2 = table := by
  have known : (table.any fun other => other.1 == e.1) = true :=
    any_key_iff.mpr (List.mem_map_of_mem member)
  rw [set, if_pos known]
  refine (List.map_congr_left fun other otherMember => ?_).trans (List.map_id table)
  split
  · rename_i same
    exact List.inj_on_of_nodup_map unique member otherMember (eq_of_beq same).symm
  · rfl

/-- A table written over itself is the same table. -/
theorem overwrite_self
    [BEq κ] [LawfulBEq κ]
    {table : List (κ × α)}
    (unique : (table.map Prod.fst).Nodup) :
    overwrite table table = table := by
  have sets (later : List (κ × α)) (part : later ⊆ table) : overwrite table later = table := by
    induction later with
    | nil => rfl
    | cons e rest inductionHypothesis =>
        have first := set_of_mem unique (part (List.mem_cons_self ..))
        have step := inductionHypothesis fun _ member => part (List.mem_cons_of_mem _ member)
        simpa [overwrite, first] using step
  exact sets table fun _ member => member

/-- Keys that are known keep their places, and new ones follow in the order of
the later table. -/
theorem keys_overwrite
    [BEq κ] [LawfulBEq κ]
    (table : List (κ × α))
    {later : List (κ × α)}
    (unique : (later.map Prod.fst).Nodup) :
    (overwrite table later).map Prod.fst =
      table.map Prod.fst ++
        (later.map Prod.fst).filter fun key => !(table.map Prod.fst).contains key := by
  induction later using List.reverseRecOn with
  | nil => simp [overwrite]
  | append_singleton before e inductionHypothesis =>
      rw [List.map_append, List.nodup_append] at unique
      obtain ⟨uniqueBefore, -, apart⟩ := unique
      have isNew : e.1 ∉ before.map Prod.fst := fun member => apart e.1 member e.1 (by simp) rfl
      have step := inductionHypothesis uniqueBefore
      have known_iff :
          ((overwrite table before).any fun other => other.1 == e.1) =
            (table.map Prod.fst).contains e.1 := by
        rw [Bool.eq_iff_iff, any_key_iff, step]
        simp only [List.contains_iff_mem, List.mem_append, List.mem_filter, isNew, false_and,
          or_false]
      rw [overwrite_concat]
      cases known : (table.map Prod.fst).contains e.1 with
      | true =>
          rw [keys_set_of_known e.2 (known_iff.trans known), step]
          simp only [List.map_append, List.filter_append, List.map_cons, List.map_nil,
            List.filter_cons, known, Bool.not_true, Bool.false_eq_true, if_false,
            List.filter_nil, List.append_nil]
      | false =>
          rw [keys_set_of_unknown e.2 (known_iff.trans known), step]
          simp only [List.map_append, List.filter_append, List.map_cons, List.map_nil,
            List.filter_cons, known, Bool.not_false, if_true, List.filter_nil, List.append_assoc]

/-- Setting a key keeps every key at one place. -/
theorem nodup_keys_set
    [BEq κ] [LawfulBEq κ]
    {table : List (κ × α)}
    (unique : (table.map Prod.fst).Nodup)
    (key : κ)
    (a : α) :
    ((set table key a).map Prod.fst).Nodup := by
  cases known : table.any fun e => e.1 == key with
  | true =>
      rw [keys_set_of_known a known]
      exact unique
  | false =>
      rw [keys_set_of_unknown a known, ← List.concat_eq_append, List.nodup_concat]
      exact ⟨fun member => Bool.false_ne_true (known.symm.trans (any_key_iff.mpr member)), unique⟩

/-- Without repetitions a last key stands at the end if it was not there before. -/
theorem eraseDups_concat
    [BEq κ] [LawfulBEq κ]
    (keys : List κ)
    (key : κ) :
    (keys ++ [key]).eraseDups =
      if key ∈ keys then keys.eraseDups else keys.eraseDups ++ [key] := by
  rw [List.eraseDups_append]
  split
  · rename_i known
    simp [List.removeAll, known]
  · rename_i unknown
    simp [List.removeAll, unknown, List.eraseDups_cons]

/-- Setting keys that are all new adds them in order. -/
theorem foldl_set_of_distinct
    [BEq κ] [LawfulBEq κ]
    {table : List (κ × α)}
    {entries : List ε}
    (key : ε → κ)
    (value : ε → α)
    (distinct : (table.map Prod.fst ++ entries.map key).Nodup) :
    entries.foldl (fun reached e => set reached (key e) (value e)) table =
      table ++ entries.map fun e => (key e, value e) := by
  induction entries generalizing table with
  | nil => simp
  | cons e rest inductionHypothesis =>
      have isNew : (table.any fun known => known.1 == key e) = false := by
        refine Bool.eq_false_iff.mpr fun known => ?_
        exact (List.nodup_append.mp distinct).2.2 _ (any_key_iff.mp known) _ List.mem_cons_self rfl
      have added : set table (key e) (value e) = table ++ [(key e, value e)] := by
        rw [set, isNew]
        rfl
      rw [List.foldl_cons, added, inductionHypothesis (by simpa using distinct)]
      simp

/-- What is found in a table that was written over comes from the later table if
it is there. -/
theorem lookup_overwrite
    [BEq κ] [LawfulBEq κ]
    (table : List (κ × α))
    {later : List (κ × α)}
    (key : κ)
    (unique : (later.map Prod.fst).Nodup) :
    (overwrite table later).lookup key = (later.lookup key).or (table.lookup key) := by
  induction later using List.reverseRecOn with
  | nil => simp [overwrite]
  | append_singleton before e inductionHypothesis =>
      rw [List.map_append, List.nodup_append] at unique
      obtain ⟨uniqueBefore, -, apart⟩ := unique
      rw [overwrite_concat, List.lookup_append]
      by_cases same : key = e.1
      · subst same
        have isNew : before.lookup e.1 = none :=
          lookup_eq_none_iff_not_mem.mpr fun member => apart e.1 member e.1 (by simp) rfl
        rw [lookup_set_self, isNew, List.lookup_cons_self]
        rfl
      · have otherKey : (key == e.1) = false := by simpa using same
        have apartFrom : [e].lookup key = none := by
          rw [List.lookup_cons, otherKey]
          rfl
        rw [lookup_set_of_ne _ _ same, inductionHypothesis uniqueBefore, apartFrom, Option.or_none]

/-- Tables with the same keys and related entries stay so when related entries
are set in both. -/
theorem forall₂_set
    [BEq κ]
    {related : α → β → Prop}
    {table : List (κ × α)}
    {other : List (κ × β)}
    (alike : table.Forall₂ (fun e f => e.1 = f.1 ∧ related e.2 f.2) other)
    (key : κ)
    {a : α}
    {b : β}
    (isRelated : related a b) :
    (set table key a).Forall₂ (fun e f => e.1 = f.1 ∧ related e.2 f.2)
      (set other key b) := by
  have sameKeys : (table.any fun e => e.1 == key) = other.any fun e => e.1 == key := by
    induction alike with
    | nil => rfl
    | cons first _ inductionHypothesis =>
        rw [List.any_cons, List.any_cons, first.1, inductionHypothesis]
  unfold set
  rw [sameKeys]
  split
  · rw [List.forall₂_map_left_iff, List.forall₂_map_right_iff]
    refine alike.imp fun e f both => ?_
    rw [both.1]
    split
    · exact ⟨rfl, isRelated⟩
    · exact both
  · exact List.rel_append alike (.cons ⟨rfl, isRelated⟩ .nil)

/-- In tables with the same keys and related entries, related entries are found. -/
theorem lookup_rel
    [BEq κ]
    {related : α → β → Prop}
    {table : List (κ × α)}
    {other : List (κ × β)}
    (alike : table.Forall₂ (fun e f => e.1 = f.1 ∧ related e.2 f.2) other)
    (key : κ) :
    Option.Rel related (table.lookup key) (other.lookup key) := by
  induction alike with
  | nil => exact .none
  | @cons e f _ _ first _ inductionHypothesis =>
      obtain ⟨k, a⟩ := e
      obtain ⟨l, b⟩ := f
      obtain ⟨rfl, isRelated⟩ : k = l ∧ related a b := first
      rw [List.lookup_cons, List.lookup_cons]
      split
      · exact .some isRelated
      · exact inductionHypothesis

/-- What is made of each entry of a table is found under the entry's key. -/
theorem lookup_map_entries
    (make : String → α → β)
    (key : String)
    (table : List (String × α)) :
    (table.map fun e => (e.1, make e.1 e.2)).lookup key = (table.lookup key).map (make key) := by
  induction table with
  | nil => rfl
  | cons e rest inductionHypothesis =>
      rw [List.map_cons, List.lookup_cons, List.lookup_cons, inductionHypothesis]
      cases same : key == e.1 with
      | true => rw [eq_of_beq same]; rfl
      | false => rfl

end Table

end SchemaProbe

namespace SchemaProbe

/-!
# Tables

A table is a list of pairs of a key and what belongs to it, in the order in
which the keys were first used.  Setting and erasing a key change what is
looked up under that key and nothing else, and setting a known key keeps every
key in its place.
-/

namespace Table

/-- Sets a key: a new key goes to the end, a known one keeps its place. -/
def set
    [BEq κ]
    (table : List (κ × α))
    (key : κ)
    (a : α) :
    List (κ × α) :=
  if table.any fun e => e.1 == key then
    table.map fun e => if e.1 == key then (key, a) else e
  else table ++ [(key, a)]

/-- The table built from pairs, one after the other. -/
def ofPairs
    [BEq κ]
    (pairs : List (κ × α)) :
    List (κ × α) :=
  pairs.foldl (fun table pair => set table pair.1 pair.2) []

/-- A table without the entries of a key. -/
def erase
    [BEq κ]
    (table : List (κ × α))
    (key : κ) :
    List (κ × α) :=
  table.filter fun e => !(e.1 == key)

/-- A key that no entry has is not found. -/
theorem lookup_eq_none_of_unknown
    [BEq κ] [LawfulBEq κ]
    {table : List (κ × α)}
    {key : κ}
    (unknown : (table.any fun e => e.1 == key) = false) :
    table.lookup key = none := by
  rw [List.lookup_eq_none_iff]
  intro e member
  have otherName : e.1 ≠ key := by
    simpa using List.any_eq_false.mp unknown e member
  simpa using otherName.symm

/-- What was set is found. -/
theorem lookup_set_self
    [BEq κ] [LawfulBEq κ]
    (table : List (κ × α))
    (key : κ)
    (a : α) :
    (set table key a).lookup key = some a := by
  unfold set
  split
  · rename_i known
    induction table with
    | nil => simp at known
    | cons e rest ih =>
        obtain ⟨name, b⟩ := e
        by_cases same : name = key
        · simp [same]
        · have otherName : (key == name) = false := by
            simpa using fun equal : key = name => same equal.symm
          have knownLater : (rest.any fun e => e.1 == key) = true := by
            simpa [same] using known
          simpa [List.lookup_cons, same, otherName] using ih knownLater
  · rename_i unknown
    rw [List.lookup_append, lookup_eq_none_of_unknown (Bool.eq_false_iff.mpr unknown)]
    simp

/-- Setting a key changes nothing under another key. -/
theorem lookup_set_of_ne
    [BEq κ] [LawfulBEq κ]
    (table : List (κ × α))
    {key other : κ}
    (a : α)
    (different : other ≠ key) :
    (set table key a).lookup other = table.lookup other := by
  unfold set
  split
  · rename_i known
    clear known
    induction table with
    | nil => rfl
    | cons e rest ih =>
        obtain ⟨name, b⟩ := e
        by_cases same : name = key
        · have otherName : (other == key) = false := by simpa using different
          simpa [List.lookup_cons, same, otherName] using ih
        · simp only [List.map_cons, beq_eq_false_iff_ne.mpr same, Bool.false_eq_true, if_false,
            List.lookup_cons]
          split
          · rfl
          · exact ih
  · have otherName : (other == key) = false := by simpa using different
    rw [List.lookup_append]
    simp [List.lookup_cons, otherName]

/-- Setting a known key keeps all keys in their places. -/
theorem keys_set_of_known
    [BEq κ] [LawfulBEq κ]
    {table : List (κ × α)}
    {key : κ}
    (a : α)
    (known : (table.any fun e => e.1 == key) = true) :
    (set table key a).map Prod.fst = table.map Prod.fst := by
  unfold set
  rw [if_pos known, List.map_map]
  refine List.map_congr_left fun e _ => ?_
  by_cases same : e.1 = key
  · simp [same]
  · simp [same]

/-- Setting a new key puts it behind all others. -/
theorem keys_set_of_unknown
    [BEq κ]
    {table : List (κ × α)}
    {key : κ}
    (a : α)
    (unknown : (table.any fun e => e.1 == key) = false) :
    (set table key a).map Prod.fst = table.map Prod.fst ++ [key] := by
  unfold set
  simp [unknown]

/-- The keys after setting one are that key and the keys before. -/
theorem mem_keys_set_iff
    [BEq κ] [LawfulBEq κ]
    {table : List (κ × α)}
    {key other : κ}
    {a : α} :
    other ∈ (set table key a).map Prod.fst ↔ other = key ∨ other ∈ table.map Prod.fst := by
  cases known : table.any fun e => e.1 == key with
  | true =>
      rw [keys_set_of_known a known]
      have present : key ∈ table.map Prod.fst := by
        obtain ⟨e, member, same⟩ := List.any_eq_true.mp known
        rw [← eq_of_beq same]
        exact List.mem_map_of_mem member
      constructor
      · exact Or.inr
      · rintro (rfl | member)
        · exact present
        · exact member
  | false =>
      rw [keys_set_of_unknown a known]
      simp [or_comm]

/-- What is in a table after setting a key was set or was there before. -/
theorem mem_or_eq_of_mem_set
    [BEq κ]
    {table : List (κ × α)}
    {key : κ}
    {a : α}
    {e : κ × α}
    (member : e ∈ set table key a) :
    e ∈ table ∨ e = (key, a) := by
  unfold set at member
  split at member
  · obtain ⟨old, oldMember, changed⟩ := List.mem_map.mp member
    split at changed
    · exact .inr changed.symm
    · subst changed
      exact .inl oldMember
  · simpa using member

/-- What is found is in the table. -/
theorem mem_of_lookup
    [BEq κ] [LawfulBEq κ]
    {table : List (κ × α)}
    {key : κ}
    {a : α}
    (found : table.lookup key = some a) :
    (key, a) ∈ table := by
  obtain ⟨before, after, rfl, _⟩ := List.lookup_eq_some_iff.mp found
  simp

/-- What was erased is not found. -/
theorem lookup_erase_self
    [BEq κ] [LawfulBEq κ]
    (table : List (κ × α))
    (key : κ) :
    (erase table key).lookup key = none := by
  apply lookup_eq_none_of_unknown
  simp [erase]

/-- Erasing a key changes nothing under another key. -/
theorem lookup_erase_of_ne
    [BEq κ] [LawfulBEq κ]
    (table : List (κ × α))
    {key other : κ}
    (different : other ≠ key) :
    (erase table key).lookup other = table.lookup other := by
  induction table with
  | nil => rfl
  | cons e rest ih =>
      obtain ⟨name, b⟩ := e
      unfold erase at ih ⊢
      by_cases same : name = key
      · have otherName : (other == key) = false := by simpa using different
        simpa [List.lookup_cons, same, otherName] using ih
      · simp only [List.filter_cons, beq_eq_false_iff_ne.mpr same, Bool.not_false, if_true,
          List.lookup_cons]
        split
        · rfl
        · exact ih

end Table

end SchemaProbe

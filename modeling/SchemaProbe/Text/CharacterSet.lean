namespace SchemaProbe.Text

/-!
# Sets of characters

A property of characters that a standard publishes as a table is kept as a
list of code point ranges.  Membership is one test over that list, so a
property differs from another by its data alone.
-/

/-- A set of characters as inclusive ranges of code points. -/
abbrev CharacterSet := List (Nat × Nat)

/-- A character belongs to a set exactly when one range covers it. -/
def CharacterSet.covers
    (set : CharacterSet)
    (c : Char) :
    Bool :=
  set.any fun range => decide (range.1 ≤ c.toNat ∧ c.toNat ≤ range.2)

/-- The characters that separate words: spaces, line ends and the four
information separators. -/
def blank : CharacterSet :=
  [
    (0x9, 0xD), (0x1C, 0x20), (0x85, 0x85), (0xA0, 0xA0), (0x1680, 0x1680), (0x2000, 0x200A),
    (0x2028, 0x2029), (0x202F, 0x202F), (0x205F, 0x205F), (0x3000, 0x3000)
  ]

/-- Whether a character only separates. -/
def isBlank (c : Char) : Bool :=
  blank.covers c

/-- Every character that the core library calls whitespace is blank. -/
theorem isBlank_of_isWhitespace
    {c : Char}
    (whitespace : c.isWhitespace = true) :
    isBlank c = true := by
  simp only [Char.isWhitespace, Bool.or_eq_true, decide_eq_true_eq] at whitespace
  rcases whitespace with ((h | h) | h) | h <;> subst h <;> decide

end SchemaProbe.Text

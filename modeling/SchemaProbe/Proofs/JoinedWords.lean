import SchemaProbe.Config
import SchemaProbe.Proofs.WordBoundaries

namespace SchemaProbe

/-!
# Words are found again when they are joined

Splitting a name gives words without separators, and of small words joined by a
separator each is found again.  Words that start with two letters are found again in
camel case, too: a capital stands between two words and nowhere else.  So of a name
that was written by one strategy another one makes what it makes of the name itself.
-/

namespace Text

/-- Whether every character of a text is below 128. -/
def IsAscii (text : List Char) : Prop :=
  ∀ c ∈ text, c.toNat < 128

/-- Whether there is no separator in a text. -/
def IsUnseparated (text : List Char) : Prop :=
  ∀ c ∈ text, isSeparator c = false

/-- Whether a text is a small letter, followed by small letters and digits. -/
def IsSmallWord : List Char → Prop
  | [] => False
  | first :: rest => first.isLower = true ∧ ∀ c ∈ rest, isSmallOrDigit c = true

/-- Whether a text is two small letters, followed by small letters and digits. -/
def IsLongSmallWord : List Char → Prop
  | [] => False
  | first :: rest => first.isLower = true ∧ IsSmallWord rest

/-! ## Splitting -/

theorem isUnseparated_nil : IsUnseparated [] :=
  fun _ member => nomatch member

/-- What is read up to a separator belongs to one piece. -/
theorem pieces_append
    (current rest : List Char)
    {word : List Char}
    (unseparated : IsUnseparated word) :
    pieces current (word ++ rest) = pieces (current ++ word) rest := by
  induction word generalizing current with
  | nil => rw [List.nil_append, List.append_nil]
  | cons c word inductionHypothesis =>
      have isPart : isSeparator c = false := unseparated c List.mem_cons_self
      have later : IsUnseparated word := fun d member => unseparated d (List.mem_cons_of_mem _ member)
      rw [List.cons_append, pieces, if_neg (by simp [isPart]), inductionHypothesis _ later,
        List.append_assoc, List.singleton_append]

/-- Every piece has a character, and none of its characters separates. -/
theorem ne_nil_and_isUnseparated_of_mem_pieces
    {text : List Char} :
    ∀ {current word : List Char}, IsUnseparated current → word ∈ pieces current text →
      word ≠ [] ∧ IsUnseparated word := by
  induction text with
  | nil =>
      intro current word unseparated member
      rw [pieces] at member
      split at member
      · cases member
      · rename_i notEmpty
        rw [List.mem_singleton.mp member]
        exact ⟨by simpa using notEmpty, unseparated⟩
  | cons c text inductionHypothesis =>
      intro current word unseparated member
      rw [pieces] at member
      split at member
      · split at member
        · exact inductionHypothesis isUnseparated_nil member
        · rename_i notEmpty
          rcases List.mem_cons.mp member with rfl | isLater
          · exact ⟨by simpa using notEmpty, unseparated⟩
          · exact inductionHypothesis isUnseparated_nil isLater
      · rename_i isPart
        refine inductionHypothesis (fun d isIn => ?_) member
        rcases List.mem_append.mp isIn with isEarlier | isLast
        · exact unseparated d isEarlier
        · rw [List.mem_singleton.mp isLast]
          simpa using isPart

/-- Pieces are made of what was read. -/
theorem mem_of_mem_pieces
    {text : List Char} :
    ∀ {current word : List Char} {c : Char}, word ∈ pieces current text → c ∈ word →
      c ∈ current ∨ c ∈ text := by
  induction text with
  | nil =>
      intro current word c member isIn
      rw [pieces] at member
      split at member
      · cases member
      · exact .inl (List.mem_singleton.mp member ▸ isIn)
  | cons d text inductionHypothesis =>
      intro current word c member isIn
      rw [pieces] at member
      split at member
      · split at member
        · exact .inr (List.mem_cons_of_mem _ ((inductionHypothesis member isIn).resolve_left nofun))
        · rcases List.mem_cons.mp member with rfl | isLater
          · exact .inl isIn
          · exact .inr (List.mem_cons_of_mem _
              ((inductionHypothesis isLater isIn).resolve_left nofun))
      · rcases inductionHypothesis member isIn with isEarlier | isLater
        · rcases List.mem_append.mp isEarlier with isCurrent | isHere
          · exact .inl isCurrent
          · exact .inr (List.mem_singleton.mp isHere ▸ List.mem_cons_self)
        · exact .inr (List.mem_cons_of_mem _ isLater)

/-! ## Words of a name -/

/-- A word has a character, and none of its characters separates. -/
theorem ne_nil_and_isUnseparated_of_mem_words
    {name word : List Char}
    (member : word ∈ words name) :
    word ≠ [] ∧ IsUnseparated word :=
  ne_nil_and_isUnseparated_of_mem_pieces isUnseparated_nil member

/-- Words are made of the characters of the name. -/
theorem mem_of_mem_words
    {name word : List Char}
    {c : Char}
    (member : word ∈ words name)
    (isIn : c ∈ word) :
    c ∈ name := by
  have isSpaced : c ∈ spaced name := (mem_of_mem_pieces member isIn).resolve_left List.not_mem_nil
  refine (mem_of_mem_spaced isSpaced).resolve_left fun isSpace => ?_
  have unseparated := (ne_nil_and_isUnseparated_of_mem_words member).2 c isIn
  rw [isSpace] at unseparated
  exact absurd unseparated (by decide)

/-- Joining words by a separator and splitting at separators gives the words again. -/
theorem pieces_intercalate
    {mark : Char}
    (separates : isSeparator mark = true)
    {words : List (List Char)}
    (areWords : ∀ word ∈ words, word ≠ [] ∧ IsUnseparated word) :
    pieces [] ([mark].intercalate words) = words := by
  induction words with
  | nil => rfl
  | cons first rest inductionHypothesis =>
      obtain ⟨notEmpty, unseparated⟩ := areWords first List.mem_cons_self
      have isRead : ¬ first.isEmpty = true := by simpa using notEmpty
      have later := inductionHypothesis fun word member =>
        areWords word (List.mem_cons_of_mem _ member)
      cases rest with
      | nil =>
          have whole := pieces_append [] [] unseparated
          rw [List.append_nil, List.nil_append, pieces, if_neg isRead] at whole
          rwa [List.intercalate_singleton]
      | cons second rest =>
          rw [List.intercalate_cons_cons, List.append_assoc, pieces_append [] _ unseparated,
            List.nil_append, List.singleton_append, pieces, if_pos separates, if_neg isRead, later]

/-- Small words joined by a mark that is no capital have no capital. -/
theorem isSmall_intercalate
    {mark : Char}
    (notCapital : mark.isUpper = false)
    {words : List (List Char)}
    (small : ∀ word ∈ words, IsSmall word) :
    IsSmall ([mark].intercalate words) := by
  induction words with
  | nil => exact fun c member => nomatch member
  | cons first rest inductionHypothesis =>
      have firstSmall := small first List.mem_cons_self
      have later := inductionHypothesis fun word member =>
        small word (List.mem_cons_of_mem _ member)
      cases rest with
      | nil => rwa [List.intercalate_singleton]
      | cons second rest =>
          intro c member
          rw [List.intercalate_cons_cons, List.append_assoc, List.mem_append, List.mem_append,
            List.mem_singleton] at member
          rcases member with inFirst | rfl | inRest
          · exact firstSmall c inFirst
          · exact notCapital
          · exact later c inRest

/-- Small words joined by a separator are found again. -/
theorem words_intercalate
    {mark : Char}
    (separates : isSeparator mark = true)
    (notCapital : mark.isUpper = false)
    {given : List (List Char)}
    (areWords : ∀ word ∈ given, word ≠ [] ∧ IsUnseparated word)
    (small : ∀ word ∈ given, IsSmall word) :
    words ([mark].intercalate given) = given := by
  rw [words, spaced_of_isSmall (isSmall_intercalate notCapital small),
    pieces_intercalate separates areWords]

/-! ## Small letters -/

/-- Small letters are written for capitals below 128, and everything else stays. -/
theorem lowerAfter_of_isAscii
    {text : List Char}
    (ascii : IsAscii text)
    (before : List Char) :
    lowerAfter before text = text.map Char.toLower := by
  induction text generalizing before with
  | nil => rfl
  | cons c text inductionHypothesis =>
      have low : c.toNat < 128 := ascii c List.mem_cons_self
      have notSigma : c ≠ capitalSigma := by
        rintro rfl
        exact absurd low (by decide)
      rw [lowerAfter, if_neg notSigma, lowerOf, if_pos low,
        inductionHypothesis fun d member => ascii d (List.mem_cons_of_mem _ member)]
      rfl

/-- A text below 128 in small letters. -/
theorem lowerChars_of_isAscii
    {text : List Char}
    (ascii : IsAscii text) :
    lowerChars text = text.map Char.toLower :=
  lowerAfter_of_isAscii ascii []

/-- The small letter of a character below 128 is below 128, and separates where the
character does. -/
theorem ascii_toLower
    {c : Char}
    (low : c.toNat < 128) :
    c.toLower.toNat < 128 ∧ isSeparator c.toLower = isSeparator c := by
  have every : ∀ n < 128, (Char.ofNat n).toLower.toNat < 128 ∧
      isSeparator (Char.ofNat n).toLower = isSeparator (Char.ofNat n) := by
    decide +kernel
  simpa using every c.toNat low

/-- In small letters, words below 128 are small words. -/
theorem lowerChars_isSmall
    {word : List Char}
    (ascii : IsAscii word)
    (isWord : word ≠ [] ∧ IsUnseparated word) :
    IsAscii (lowerChars word) ∧ IsSmall (lowerChars word) ∧
      lowerChars word ≠ [] ∧ IsUnseparated (lowerChars word) := by
  rw [lowerChars_of_isAscii ascii]
  refine ⟨?_, ?_, by simpa using isWord.1, ?_⟩
  · intro c member
    obtain ⟨d, isIn, rfl⟩ := List.mem_map.mp member
    exact (ascii_toLower (ascii d isIn)).1
  · intro c member
    obtain ⟨d, -, rfl⟩ := List.mem_map.mp member
    exact Char.isUpper_toLower_eq_false d
  · intro c member
    obtain ⟨d, isIn, rfl⟩ := List.mem_map.mp member
    rw [(ascii_toLower (ascii d isIn)).2, isWord.2 d isIn]

/-- Small letters stay. -/
theorem lowerChars_lowerChars
    {word : List Char}
    (ascii : IsAscii word)
    (isWord : word ≠ [] ∧ IsUnseparated word) :
    lowerChars (lowerChars word) = lowerChars word := by
  rw [lowerChars_of_isAscii (lowerChars_isSmall ascii isWord).1, lowerChars_of_isAscii ascii,
    List.map_map]
  exact List.map_congr_left fun c _ => Char.toLower_toLower_eq_toLower c

/-- A word is capitalised alike in small letters. -/
theorem capitalizeChars_lowerChars
    {word : List Char}
    (ascii : IsAscii word) :
    capitalizeChars (lowerChars word) = capitalizeChars word := by
  rw [lowerChars_of_isAscii ascii]
  cases word with
  | nil => rfl
  | cons first rest =>
      have low : first.toNat < 128 := ascii first List.mem_cons_self
      have later : IsAscii rest := fun c member => ascii c (List.mem_cons_of_mem _ member)
      have lowerLater : IsAscii (rest.map Char.toLower) := by
        intro c member
        obtain ⟨d, isIn, rfl⟩ := List.mem_map.mp member
        exact (ascii_toLower (later d isIn)).1
      rw [List.map_cons, capitalizeChars, capitalizeChars, titleOf, titleOf,
        if_pos (ascii_toLower low).1, if_pos low, Char.toUpper_toLower_eq_toUpper,
        lowerAfter_of_isAscii lowerLater, lowerAfter_of_isAscii later, List.map_map]
      congr 1
      exact List.map_congr_left fun c _ => Char.toLower_toLower_eq_toLower c

/-! ## Camel case -/

/-- The capital of a small letter is a capital, separates nothing, and the letter is its
small one. -/
theorem toUpper_of_isLower
    {c : Char}
    (isLetter : c.isLower = true) :
    c.toUpper.toNat < 128 ∧ c.toUpper.isUpper = true ∧ isSeparator c.toUpper = false ∧
      c.toUpper.toLower = c := by
  have plain : isSmallOrDigit c = true := by
    rw [isSmallOrDigit, isLetter, Bool.true_or]
  have low := (isSmallOrDigit_cases plain).1
  have every : ∀ n < 128, (Char.ofNat n).isLower = true →
      (Char.ofNat n).toUpper.toNat < 128 ∧ (Char.ofNat n).toUpper.isUpper = true ∧
        isSeparator (Char.ofNat n).toUpper = false ∧
        (Char.ofNat n).toUpper.toLower = Char.ofNat n := by
    decide +kernel
  have here := every c.toNat low
  rw [Char.ofNat_toNat] at here
  exact here isLetter

/-- A text of small letters and digits stays in small letters. -/
theorem lowerAfter_of_plain
    {text : List Char}
    (plain : ∀ c ∈ text, isSmallOrDigit c = true)
    (before : List Char) :
    lowerAfter before text = text := by
  rw [lowerAfter_of_isAscii (fun c member => (isSmallOrDigit_cases (plain c member)).1)]
  exact (List.map_congr_left fun c member =>
    (isSmallOrDigit_cases (plain c member)).2.2.2).trans (List.map_id text)

/-- A small word has small letters and digits only. -/
theorem IsSmallWord.plain
    {word : List Char}
    (isWord : IsSmallWord word) :
    word ≠ [] ∧ ∀ c ∈ word, isSmallOrDigit c = true := by
  cases word with
  | nil => exact isWord.elim
  | cons first rest =>
      refine ⟨List.cons_ne_nil _ _, fun c member => ?_⟩
      rcases List.mem_cons.mp member with rfl | isLater
      · rw [isSmallOrDigit, isWord.1, Bool.true_or]
      · exact isWord.2 c isLater

/-- A long small word is a small word. -/
theorem IsLongSmallWord.isSmallWord
    {word : List Char}
    (isWord : IsLongSmallWord word) :
    IsSmallWord word := by
  cases word with
  | nil => exact isWord.elim
  | cons first rest => exact ⟨isWord.1, isWord.2.plain.2⟩

/-- A long small word is capitalised at its first letter. -/
theorem IsLongSmallWord.exists_capitalized
    {word : List Char}
    (isWord : IsLongSmallWord word) :
    ∃ first rest, word = first :: rest ∧ first.isLower = true ∧ IsSmallWord rest ∧
      capitalizeChars word = first.toUpper :: rest := by
  cases word with
  | nil => exact isWord.elim
  | cons first rest =>
      obtain ⟨isLetter, isLater⟩ := isWord
      have plain : isSmallOrDigit first = true := by
        rw [isSmallOrDigit, isLetter, Bool.true_or]
      refine ⟨first, rest, rfl, isLetter, isLater, ?_⟩
      rw [capitalizeChars, titleOf, if_pos (isSmallOrDigit_cases plain).1,
        lowerAfter_of_plain isLater.plain.2, List.singleton_append]

/-- A capitalised word has no separators and gives the word back in small letters. -/
theorem IsLongSmallWord.capitalized
    {word : List Char}
    (isWord : IsLongSmallWord word) :
    (capitalizeChars word ≠ [] ∧ IsUnseparated (capitalizeChars word)) ∧
      lowerChars (capitalizeChars word) = word := by
  obtain ⟨first, rest, rfl, isLetter, isLater, capitalized⟩ := isWord.exists_capitalized
  obtain ⟨low, -, unseparated, isSmall⟩ := toUpper_of_isLower isLetter
  rw [capitalized]
  refine ⟨⟨List.cons_ne_nil _ _, fun c member => ?_⟩, ?_⟩
  · rcases List.mem_cons.mp member with rfl | isIn
    · exact unseparated
    · exact (isSmallOrDigit_cases (isLater.plain.2 c isIn)).2.2.1
  · have ascii : IsAscii (first.toUpper :: rest) := by
      intro c member
      rcases List.mem_cons.mp member with rfl | isIn
      · exact low
      · exact (isSmallOrDigit_cases (isLater.plain.2 c isIn)).1
    rw [lowerChars_of_isAscii ascii, List.map_cons, isSmall,
      ← lowerAfter_of_isAscii (fun c isIn => ascii c (List.mem_cons_of_mem _ isIn)) [],
      lowerAfter_of_plain isLater.plain.2]

/-- In camel case every word but the first is set off by its capital. -/
theorem spaced_capitalized
    {first : List Char}
    {later : List (List Char)}
    (isFirst : IsSmallWord first)
    (areLater : ∀ word ∈ later, IsLongSmallWord word) :
    spaced (first ++ (later.map capitalizeChars).flatten) =
      [' '].intercalate (first :: later.map capitalizeChars) := by
  induction later generalizing first with
  | nil =>
      rw [List.map_nil, List.flatten_nil, List.append_nil, List.intercalate_singleton]
      exact spaced_of_isSmall fun c member => (isSmallOrDigit_cases (isFirst.plain.2 c member)).2.1
  | cons second later inductionHypothesis =>
      obtain ⟨letter, rest, rfl, isLetter, isRest, capitalized⟩ :=
        (areLater second List.mem_cons_self).exists_capitalized
      -- What follows the capital is a small word again, to which the later words are joined.
      have following := inductionHypothesis isRest fun word member =>
        areLater word (List.mem_cons_of_mem _ member)
      obtain ⟨restNotEmpty, restPlain⟩ := isRest.plain
      obtain ⟨firstNotEmpty, firstPlain⟩ := isFirst.plain
      obtain ⟨c, word, rfl⟩ := List.exists_cons_of_ne_nil firstNotEmpty
      obtain ⟨d, ending, rfl⟩ := List.exists_cons_of_ne_nil restNotEmpty
      rw [List.map_cons, List.flatten_cons, capitalized]
      calc
        spaced (c :: word ++ (letter.toUpper :: d :: ending ++ _)) =
            c :: word ++ ' ' :: spaced (letter.toUpper :: d :: (ending ++ _)) :=
          spaced_append_capital firstPlain (toUpper_of_isLower isLetter).2.1
        _ = c :: word ++ ' ' :: letter.toUpper :: spaced (d :: ending ++ _) := by
          rw [spaced_capital _ (restPlain d List.mem_cons_self)]
          rfl
        _ = c :: word ++ ' ' :: letter.toUpper ::
              [' '].intercalate ((d :: ending) :: later.map capitalizeChars) := by
          rw [following]
        _ = [' '].intercalate
              ((c :: word) :: (letter.toUpper :: d :: ending) :: later.map capitalizeChars) := by
          simp only [List.intercalate_cons_cons, List.intercalate_cons_cons_left, List.append_assoc,
            List.singleton_append]

end Text

namespace KeyStrategy

/-! ## Strategies -/

open Text

/-- The mark between words, for a strategy that writes small words with a mark between
them. -/
def mark? : KeyStrategy → Option Char
  | .snakeCase => some '_'
  | .kebabCase => some '-'
  | _ => none

/-- A strategy with a mark writes the words of a name in small letters and with the mark
between them, if there are any. -/
theorem applyChars_of_mark
    {s : KeyStrategy}
    {mark : Char}
    (isMark : s.mark? = some mark)
    {name : List Char}
    (hasWords : words name ≠ []) :
    s.applyChars name = joinLower mark (words name) := by
  cases found : words name with
  | nil => exact absurd found hasWords
  | cons first rest =>
      cases s <;> simp only [mark?, Option.some.injEq, reduceCtorEq] at isMark
      all_goals
        subst isMark
        simp only [applyChars, found]

/-- Camel case joins the words of a name, if there are any. -/
theorem applyChars_camelCase
    {name : List Char}
    (hasWords : words name ≠ []) :
    camelCase.applyChars name = joinCamel (words name) := by
  cases found : words name with
  | nil => exact absurd found hasWords
  | cons first rest => simp only [applyChars, found]

/-- Without words a name stays as it is. -/
theorem applyChars_of_wordless
    (s : KeyStrategy)
    {name : List Char}
    (wordless : words name = []) :
    s.applyChars name = name := by
  cases s <;> simp only [applyChars, wordless]

/-- The words that a strategy with a mark writes are those of the name in small
letters. -/
theorem words_applyChars
    {s : KeyStrategy}
    {mark : Char}
    (isMark : s.mark? = some mark)
    {name : List Char}
    (ascii : IsAscii name) :
    words (s.applyChars name) = (words name).map lowerChars := by
  by_cases wordless : words name = []
  · rw [applyChars_of_wordless s wordless, wordless, List.map_nil]
  · have separates : isSeparator mark = true ∧ mark.isUpper = false := by
      cases s <;> simp only [mark?, Option.some.injEq, reduceCtorEq] at isMark
      all_goals
        subst isMark
        decide
    rw [applyChars_of_mark isMark wordless, joinLower]
    have small : ∀ word ∈ (words name).map lowerChars, IsSmall word ∧ word ≠ [] ∧
        IsUnseparated word := by
      intro word member
      obtain ⟨given, isWord, rfl⟩ := List.mem_map.mp member
      exact (lowerChars_isSmall (fun c isIn => ascii c (mem_of_mem_words isWord isIn))
        (ne_nil_and_isUnseparated_of_mem_words isWord)).2
    exact words_intercalate separates.1 separates.2 (fun word member => (small word member).2)
      fun word member => (small word member).1

/-- Whether words are below 128, have a character each and no separators. -/
def AreAsciiWords (words : List (List Char)) : Prop :=
  ∀ word ∈ words, IsAscii word ∧ word ≠ [] ∧ IsUnseparated word

/-- The words of a name below 128. -/
theorem areAsciiWords_words
    {name : List Char}
    (ascii : IsAscii name) :
    AreAsciiWords (words name) :=
  fun _ member => ⟨fun c isIn => ascii c (mem_of_mem_words member isIn),
    ne_nil_and_isUnseparated_of_mem_words member⟩

/-- Words in small letters are joined as the words themselves. -/
theorem joinLower_map_lowerChars
    (mark : Char)
    {words : List (List Char)}
    (areWords : AreAsciiWords words) :
    joinLower mark (words.map lowerChars) = joinLower mark words := by
  rw [joinLower, joinLower, List.map_map]
  congr 1
  exact List.map_congr_left fun word member =>
    lowerChars_lowerChars (areWords word member).1 (areWords word member).2

/-- Words in small letters are joined in camel case as the words themselves. -/
theorem joinCamel_map_lowerChars
    {words : List (List Char)}
    (areWords : AreAsciiWords words) :
    joinCamel (words.map lowerChars) = joinCamel words := by
  cases words with
  | nil => rfl
  | cons first rest =>
      have isFirst := areWords first List.mem_cons_self
      have capitals : (rest.map lowerChars).map capitalizeChars = rest.map capitalizeChars := by
        rw [List.map_map]
        exact List.map_congr_left fun word member =>
          capitalizeChars_lowerChars (areWords word (List.mem_cons_of_mem _ member)).1
      rw [List.map_cons, joinCamel, joinCamel, capitals, lowerChars_lowerChars isFirst.1 isFirst.2]

/-- Every strategy but that which leaves names alone makes of a name what it makes of the
name that a strategy with a mark wrote. -/
theorem applyChars_applyChars
    {s later : KeyStrategy}
    {mark : Char}
    (isMark : s.mark? = some mark)
    (joins : later ≠ .asDeclared)
    {name : List Char}
    (ascii : IsAscii name) :
    later.applyChars (s.applyChars name) = later.applyChars name := by
  by_cases wordless : words name = []
  · rw [applyChars_of_wordless s wordless]
  · have found := words_applyChars isMark ascii
    have hasWords : words (s.applyChars name) ≠ [] := by
      rw [found]
      simpa using wordless
    have areWords := areAsciiWords_words ascii
    cases later with
    | asDeclared => exact absurd rfl joins
    | snakeCase =>
        have joins : mark? .snakeCase = some '_' := rfl
        rw [applyChars_of_mark joins hasWords, applyChars_of_mark joins wordless, found,
          joinLower_map_lowerChars _ areWords]
    | kebabCase =>
        have joins : mark? .kebabCase = some '-' := rfl
        rw [applyChars_of_mark joins hasWords, applyChars_of_mark joins wordless, found,
          joinLower_map_lowerChars _ areWords]
    | camelCase =>
        rw [applyChars_camelCase hasWords, applyChars_camelCase wordless, found,
          joinCamel_map_lowerChars areWords]

/-- A name of small words with a mark between them comes back from camel case. -/
theorem applyChars_applyChars_camelCase
    {first : List Char}
    {later : List (List Char)}
    (isFirst : IsSmallWord first)
    (areLater : ∀ word ∈ later, IsLongSmallWord word) :
    snakeCase.applyChars (camelCase.applyChars (['_'].intercalate (first :: later))) =
      ['_'].intercalate (first :: later) := by
  have plain : ∀ word ∈ first :: later, word ≠ [] ∧ ∀ c ∈ word, isSmallOrDigit c = true := by
    intro word member
    rcases List.mem_cons.mp member with rfl | isLater
    · exact isFirst.plain
    · exact (areLater word isLater).isSmallWord.plain
  have unseparated : ∀ word ∈ first :: later, word ≠ [] ∧ IsUnseparated word := fun word member =>
    ⟨(plain word member).1, fun c isIn => (isSmallOrDigit_cases ((plain word member).2 c isIn)).2.2.1⟩
  have found : words (['_'].intercalate (first :: later)) = first :: later :=
    words_intercalate (by decide) (by decide) unseparated fun word member c isIn =>
      (isSmallOrDigit_cases ((plain word member).2 c isIn)).2.1
  have inCamelCase : camelCase.applyChars (['_'].intercalate (first :: later)) =
      first ++ (later.map capitalizeChars).flatten := by
    rw [applyChars_camelCase (by simp [found]), found, joinCamel, lowerChars,
      lowerAfter_of_plain isFirst.plain.2]
  have foundAgain : words (first ++ (later.map capitalizeChars).flatten) =
      first :: later.map capitalizeChars := by
    rw [words, spaced_capitalized isFirst areLater]
    refine pieces_intercalate (by decide) fun word member => ?_
    rcases List.mem_cons.mp member with rfl | isLater
    · exact unseparated word List.mem_cons_self
    · obtain ⟨given, isWord, rfl⟩ := List.mem_map.mp isLater
      exact (areLater given isWord).capitalized.1
  have lowerAgain : (later.map capitalizeChars).map lowerChars = later := by
    rw [List.map_map]
    exact (List.map_congr_left fun word member => (areLater word member).capitalized.2).trans
      (List.map_id later)
  have joins : mark? .snakeCase = some '_' := rfl
  rw [inCamelCase, applyChars_of_mark joins (by simp [foundAgain]), foundAgain, joinLower,
    List.map_cons, lowerAgain, lowerChars, lowerAfter_of_plain isFirst.plain.2]

/-- Strategies are consistent with each other on names below 128, those without words
included: what snake case or kebab case wrote stays, is rewritten into the other as the
name itself would be, and so is what snake case wrote into camel case.  And a name in
snake case comes back from camel case, if its first word is a small letter followed by
small letters and digits, and the others are two small letters followed by such. -/
theorem apply_consistent :
    (∀ name : String, IsAscii name.toList →
      snakeCase.apply (snakeCase.apply name) = snakeCase.apply name ∧
        kebabCase.apply (kebabCase.apply name) = kebabCase.apply name ∧
        snakeCase.apply (kebabCase.apply name) = snakeCase.apply name ∧
        kebabCase.apply (snakeCase.apply name) = kebabCase.apply name ∧
        camelCase.apply (snakeCase.apply name) = camelCase.apply name) ∧
      ∀ (first : String) (later : List String), IsSmallWord first.toList →
        (∀ word ∈ later, IsLongSmallWord word.toList) →
        snakeCase.apply (camelCase.apply ("_".intercalate (first :: later))) =
          "_".intercalate (first :: later) := by
  constructor
  · intro name ascii
    have again (s t : KeyStrategy) (mark : Char) (isMark : s.mark? = some mark)
        (joins : t ≠ .asDeclared) : t.apply (s.apply name) = t.apply name := by
      rw [apply, apply, String.toList_ofList, applyChars_applyChars isMark joins ascii, apply]
    exact ⟨again _ _ _ rfl nofun, again _ _ _ rfl nofun, again _ _ _ rfl nofun,
      again _ _ _ rfl nofun, again _ _ _ rfl nofun⟩
  · intro first later isFirst areLater
    have laterWords : ∀ word ∈ later.map String.toList, IsLongSmallWord word := by
      intro word member
      obtain ⟨given, isWord, rfl⟩ := List.mem_map.mp member
      exact areLater given isWord
    have back := applyChars_applyChars_camelCase isFirst laterWords
    rw [apply, apply, String.toList_ofList, String.toList_intercalate, List.map_cons]
    apply String.toList_injective
    rw [String.toList_ofList, String.toList_intercalate, List.map_cons]
    exact back

/-- A name with an acronym, a digit and separators of several kinds, and a name that comes
back from camel case. -/
theorem apply_consistent_acronym :
    (IsAscii "HTTPResponse-- code_2X".toList ∧
      camelCase.apply (snakeCase.apply "HTTPResponse-- code_2X") = "httpResponseCode2X") ∧
      IsSmallWord "http2".toList ∧ (∀ word ∈ ["response", "co"], IsLongSmallWord word.toList) ∧
      snakeCase.apply (camelCase.apply "http2_response_co") = "http2_response_co" := by
  have ascii : IsAscii "HTTPResponse-- code_2X".toList := by simp [IsAscii]
  have isFirst : IsSmallWord "http2".toList := by simp [IsSmallWord, isSmallOrDigit]
  have areLater : ∀ word ∈ ["response", "co"], IsLongSmallWord word.toList := by
    simp [IsLongSmallWord, IsSmallWord, isSmallOrDigit]
  have back := apply_consistent.2 "http2" ["response", "co"] isFirst areLater
  refine ⟨⟨ascii, ?_⟩, isFirst, areLater, back⟩
  rw [(apply_consistent.1 _ ascii).2.2.2.2]
  cbv

end KeyStrategy

end SchemaProbe

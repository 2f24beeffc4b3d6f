import DocblockScan.Proofs.Docblock.LexemeRules

/-!
# Texts that are read character by character in step

Two different texts can still be read in step: they start with the same character before
two such texts, or both with something that belongs to no name and no number. From that
alone the same names and numbers are read from both, and what follows is in step again.
There is one lemma for each lexeme.
-/

namespace DocblockScan.Docblock.Grammar

/-- A relation of texts that are read in step, up to where a text stops: there no name and
no number goes on. -/
structure Lockstep (stops : List Char → Prop) (related : List Char → List Char → Prop) :
    Prop where
  /-- Both texts stop, or they start with the same character before two such texts. -/
  uncons : ∀ {left right}, related left right → (stops left ∧ stops right) ∨
    ∃ char l r, left = char :: l ∧ right = char :: r ∧ related l r
  /-- No character of a name or a number stands where a text stops. -/
  apart : ∀ {text}, stops text → ∀ char ∈ text.head?, isNameChar char = false ∧
    char ∉ [':', '.', '-']

namespace Lockstep

variable {stops : List Char → Prop} {related : List Char → List Char → Prop}
variable {left right : List Char}

/-- A run of characters that ends where a text stops is the same in both texts. -/
theorem span {takes : Char → Bool} (lockstep : Lockstep stops related)
    (refuses : ∀ text, stops text → ∀ char ∈ text.head?, takes char = false)
    (pair : related left right) :
    left.takeWhile takes = right.takeWhile takes ∧
      related (left.dropWhile takes) (right.dropWhile takes) := by
  have atStop : ∀ text, stops text → text.takeWhile takes = [] ∧ text.dropWhile takes = text := by
    intro text stopped
    cases text with
    | nil => exact ⟨rfl, rfl⟩
    | cons char rest => simp [refuses _ stopped char rfl]
  induction length : left.length using Nat.strongRecOn generalizing left right with
  | _ bound inductionHypothesis =>
      rcases lockstep.uncons pair with ⟨l, r⟩ | ⟨char, l, r, rfl, rfl, others⟩
      · rw [(atStop left l).1, (atStop left l).2, (atStop right r).1, (atStop right r).2]
        exact ⟨rfl, pair⟩
      · by_cases taken : takes char = true
        · obtain ⟨same, rest⟩ := inductionHypothesis l.length (by simp [← length]) others rfl
          rw [List.takeWhile_cons_of_pos taken, List.takeWhile_cons_of_pos taken, same,
            List.dropWhile_cons_of_pos taken, List.dropWhile_cons_of_pos taken]
          exact ⟨rfl, rest⟩
        · rw [List.takeWhile_cons_of_neg taken, List.takeWhile_cons_of_neg taken,
            List.dropWhile_cons_of_neg taken, List.dropWhile_cons_of_neg taken]
          exact ⟨rfl, pair⟩

/-- No digit stands where a text stops. -/
theorem refuses_digits (lockstep : Lockstep stops related) (text : List Char)
    (stopped : stops text) : ∀ char ∈ text.head?, char.isDigit = false := by
  intro char first
  have refused := (lockstep.apart stopped char first).1
  simp only [isNameChar, Char.isAlphanum, Bool.or_eq_false_iff] at refused
  exact refused.1.1.2

/-- A run of digits is the same in both texts. -/
theorem digits (lockstep : Lockstep stops related) (pair : related left right) :
    left.takeWhile Char.isDigit = right.takeWhile Char.isDigit ∧
      related (left.dropWhile Char.isDigit) (right.dropWhile Char.isDigit) :=
  lockstep.span lockstep.refuses_digits pair

/-- The same name is read from both texts. -/
theorem spanName (lockstep : Lockstep stops related) (pair : related left right) :
    (spanName left).1 = (spanName right).1 ∧
      related (spanName left).2 (spanName right).2 := by
  have atStop : ∀ text, stops text → Docblock.spanName text = ([], text) := by
    intro text stopped
    apply spanName_of_not_extends
    rintro (⟨char, _, rfl, accepted⟩ | ⟨_, rfl⟩)
    · rw [(lockstep.apart stopped char rfl).1] at accepted
      exact absurd accepted (by decide)
    · exact (lockstep.apart stopped ':' rfl).2 (by decide)
  induction length : left.length using Nat.strongRecOn generalizing left right with
  | _ bound inductionHypothesis =>
      rcases lockstep.uncons pair with ⟨l, r⟩ | ⟨char, l, r, rfl, rfl, others⟩
      · rw [atStop left l, atStop right r]
        exact ⟨rfl, pair⟩
      simp only [List.length_cons] at length
      by_cases accepted : isNameChar char = true
      · obtain ⟨same, rest⟩ := inductionHypothesis l.length (by omega) others rfl
        rw [spanName_cons accepted, spanName_cons accepted]
        exact ⟨congrArg (char :: ·) same, rest⟩
      -- a colon belongs to the name only if a second one follows it
      have single : ∀ rest, (∀ more, char = ':' → rest ≠ ':' :: more) →
          Docblock.spanName (char :: rest) = ([], char :: rest) := by
        intro rest noPair
        apply spanName_of_not_extends
        rintro (⟨other, _, same, isName⟩ | ⟨more, same⟩)
        · obtain ⟨rfl, -⟩ := List.cons.inj same
          exact accepted isName
        · obtain ⟨rfl, rfl⟩ := List.cons.inj same
          exact noPair more rfl rfl
      rcases lockstep.uncons others with ⟨stopsLeft, stopsRight⟩ | ⟨next, l, r, rfl, rfl, inner⟩
      · have noColon : ∀ {rest}, stops rest → ∀ more, char = ':' → rest ≠ ':' :: more := by
          rintro rest stopped more - rfl
          exact (lockstep.apart stopped ':' rfl).2 (by decide)
        rw [single l (noColon stopsLeft), single r (noColon stopsRight)]
        exact ⟨rfl, pair⟩
      · by_cases colons : char = ':' ∧ next = ':'
        · obtain ⟨rfl, rfl⟩ := colons
          simp only [List.length_cons] at length
          obtain ⟨same, rest⟩ := inductionHypothesis l.length (by omega) inner rfl
          rw [spanName_colons, spanName_colons]
          exact ⟨congrArg (':' :: ':' :: ·) same, rest⟩
        · have noPair : ∀ rest more : List Char, char = ':' → next :: rest ≠ ':' :: more :=
            fun rest more isColon same => colons ⟨isColon, (List.cons.inj same).1⟩
          rw [single (next :: l) (noPair l), single (next :: r) (noPair r)]
          exact ⟨rfl, pair⟩

/-- The same sign is read from both texts. -/
theorem spanSign (lockstep : Lockstep stops related) (pair : related left right) :
    (spanSign left).1 = (spanSign right).1 ∧ related (spanSign left).2 (spanSign right).2 := by
  have unsigned : ∀ text, (∀ rest, text ≠ '-' :: rest) → Docblock.spanSign text = (false, text) := by
    intro text noSign
    unfold Docblock.spanSign
    split
    · next rest => exact absurd rfl (noSign rest)
    · rfl
  rcases lockstep.uncons pair with ⟨l, r⟩ | ⟨char, l, r, rfl, rfl, others⟩
  · have noSign : ∀ {text}, stops text → ∀ rest, text ≠ '-' :: rest := by
      rintro text stopped rest rfl
      exact (lockstep.apart stopped '-' rfl).2 (by decide)
    rw [unsigned left (noSign l), unsigned right (noSign r)]
    exact ⟨rfl, pair⟩
  · by_cases minus : char = '-'
    · subst minus
      exact ⟨rfl, others⟩
    · have noSign : ∀ rest more, char :: rest ≠ '-' :: more :=
        fun _ _ same => minus (List.cons.inj same).1
      rw [unsigned _ (noSign l), unsigned _ (noSign r)]
      exact ⟨rfl, pair⟩

/-- The same fraction is read from both texts. -/
theorem spanFraction (lockstep : Lockstep stops related) (pair : related left right) :
    (spanFraction left).1 = (spanFraction right).1 ∧
      related (spanFraction left).2 (spanFraction right).2 := by
  have whole : ∀ text, (∀ digit rest, text = '.' :: digit :: rest → digit.isDigit = false) →
      Docblock.spanFraction text = (none, text) := by
    intro text noFraction
    unfold Docblock.spanFraction
    split
    · next digit rest => simp [noFraction digit rest rfl]
    · rfl
  rcases lockstep.uncons pair with ⟨l, r⟩ | ⟨char, l, r, rfl, rfl, others⟩
  · have noPoint : ∀ {text}, stops text → ∀ digit rest, text = '.' :: digit :: rest →
        digit.isDigit = false := by
      rintro text stopped digit rest rfl
      exact absurd (by decide) (lockstep.apart stopped '.' rfl).2
    rw [whole left (noPoint l), whole right (noPoint r)]
    exact ⟨rfl, pair⟩
  rcases lockstep.uncons others with ⟨stopsLeft, stopsRight⟩ | ⟨digit, l, r, rfl, rfl, inner⟩
  · have noDigit : ∀ {rest}, stops rest → ∀ digit more, char :: rest = '.' :: digit :: more →
        digit.isDigit = false := by
      rintro rest stopped digit more same
      obtain ⟨-, rfl⟩ := List.cons.inj same
      exact lockstep.refuses_digits _ stopped digit rfl
    rw [whole _ (noDigit stopsLeft), whole _ (noDigit stopsRight)]
    exact ⟨rfl, pair⟩
  · by_cases fraction : char = '.' ∧ digit.isDigit = true
    · obtain ⟨rfl, isDigit⟩ := fraction
      obtain ⟨same, rest⟩ := lockstep.digits inner
      simpa [Docblock.spanFraction, isDigit, same] using rest
    · have noFraction : ∀ rest other more, char :: digit :: rest = '.' :: other :: more →
          other.isDigit = false := by
        intro rest other more same
        obtain ⟨point, others⟩ := List.cons.inj same
        obtain ⟨rfl, -⟩ := List.cons.inj others
        exact Bool.eq_false_iff.2 fun isDigit => fraction ⟨point, isDigit⟩
      rw [whole _ (noFraction l), whole _ (noFraction r)]
      exact ⟨rfl, pair⟩

/-- The same number is read from both texts. -/
theorem spanNumeral (lockstep : Lockstep stops related) (pair : related left right) :
    (spanNumeral left).1 = (spanNumeral right).1 ∧
      related (spanNumeral left).2 (spanNumeral right).2 := by
  obtain ⟨sameSign, unsigned⟩ := lockstep.spanSign pair
  obtain ⟨sameDigits, afterDigits⟩ := lockstep.digits unsigned
  obtain ⟨sameFraction, rest⟩ := lockstep.spanFraction afterDigits
  exact ⟨by simp only [Docblock.spanNumeral, sameSign, sameDigits, sameFraction], rest⟩

end Lockstep

end DocblockScan.Docblock.Grammar

import DocblockScan.Text.Blank
import Mathlib.Data.List.TakeWhile

/-!
# Skipping blanks

Every text is a run of blanks followed by what `skipBlanks` leaves of it, and
what is left starts with no blank. `skipBlanks_append` and `skipBlanks_cons`
evaluate it on texts that are given in that form; `trim_of_solid` is the case in
which trimming changes nothing.
-/

namespace DocblockScan.Text

/-- A text of nothing but blanks. -/
def Blank (gap : List Char) : Prop :=
  ∀ char ∈ gap, isBlank char = true

instance (gap : List Char) : Decidable (Blank gap) :=
  decidable_of_iff (gap.all isBlank = true) List.all_eq_true

theorem Blank.nil : Blank [] := nofun

theorem Blank.append {left right : List Char} (leftBlank : Blank left)
    (rightBlank : Blank right) : Blank (left ++ right) := by
  intro char member
  rcases List.mem_append.1 member with onLeft | onRight
  · exact leftBlank char onLeft
  · exact rightBlank char onRight

/-- A run of blanks in front is skipped. -/
theorem skipBlanks_append {gap : List Char} (blank : Blank gap) (text : List Char) :
    skipBlanks (gap ++ text) = skipBlanks text :=
  List.dropWhile_append_of_pos blank

/-- A text that starts with no blank stays as it is. -/
theorem skipBlanks_cons {char : Char} (solid : isBlank char = false) (rest : List Char) :
    skipBlanks (char :: rest) = char :: rest :=
  List.dropWhile_cons_of_neg (by simp [solid])

/-- Every text is blanks and what is left when they are skipped. -/
theorem exists_blank_append (text : List Char) :
    ∃ gap, Blank gap ∧ text = gap ++ skipBlanks text :=
  ⟨text.takeWhile isBlank, List.all_eq_true.1 List.all_takeWhile,
    List.takeWhile_append_dropWhile.symm⟩

/-- No blank is left at the start. -/
theorem isBlank_of_skipBlanks {text rest : List Char} {char : Char}
    (skipped : skipBlanks text = char :: rest) : isBlank char = false := by
  have head := List.head?_dropWhile_not isBlank text
  unfold skipBlanks at skipped
  rw [skipped] at head
  exact head

/-- Skipping blanks once is enough. -/
@[simp] theorem skipBlanks_skipBlanks (text : List Char) :
    skipBlanks (skipBlanks text) = skipBlanks text := by
  cases skipped : skipBlanks text with
  | nil => rfl
  | cons char rest => exact skipBlanks_cons (isBlank_of_skipBlanks skipped) rest

/-- Blanks are skipped up to the first character that is none. -/
theorem skipBlanks_append_cons {char : Char} (solid : isBlank char = false)
    (front rest : List Char) :
    skipBlanks (front ++ char :: rest) = skipBlanks front ++ char :: rest := by
  obtain ⟨gap, blank, whole⟩ := exists_blank_append front
  have onlyBlanks : skipBlanks (front ++ char :: rest) =
      skipBlanks (skipBlanks front ++ char :: rest) :=
    calc skipBlanks (front ++ char :: rest)
        = skipBlanks (gap ++ skipBlanks front ++ char :: rest) := by rw [← whole]
      _ = skipBlanks (skipBlanks front ++ char :: rest) := by
          rw [List.append_assoc, skipBlanks_append blank]
  rw [onlyBlanks]
  cases skipped : skipBlanks front with
  | nil => exact skipBlanks_cons solid rest
  | cons first more => exact skipBlanks_cons (isBlank_of_skipBlanks skipped) _

/-! ## Trimming -/

/-- Of the end of a text only what stands after a character that stays is dropped. -/
theorem dropEndWhile_append_cons {drops : Char → Bool} {char : Char} (stays : drops char = false)
    (front rest : List Char) :
    dropEndWhile drops (front ++ char :: rest) = front ++ char :: dropEndWhile drops rest := by
  rw [dropEndWhile, List.reverse_append, List.reverse_cons, List.append_assoc,
    List.dropWhile_append]
  split
  · next allDropped =>
      rw [dropEndWhile, List.isEmpty_iff.1 allDropped]
      simp [stays]
  · simp [dropEndWhile]

/-- Trimming adds no characters. -/
theorem mem_of_mem_trimBy {drops : Char → Bool} {char : Char} {text : List Char}
    (member : char ∈ trimBy drops text) : char ∈ text := by
  rw [trimBy, dropEndWhile, List.mem_reverse] at member
  have inside := List.mem_reverse.1 ((List.dropWhile_suffix drops).subset member)
  exact (List.dropWhile_suffix drops).subset inside

/-- A trimmed text ends with no matching character. -/
theorem getLast?_trimBy {drops : Char → Bool} {text : List Char} {last : Char}
    (ends : (trimBy drops text).getLast? = some last) : drops last = false := by
  rw [trimBy, dropEndWhile, List.getLast?_reverse] at ends
  have head := List.head?_dropWhile_not drops (text.dropWhile drops).reverse
  rw [ends] at head
  simpa using head

/-- A text that starts and ends with no matching character is not trimmed. -/
theorem trimBy_of_solid {drops : Char → Bool} {first last : Char} {middle : List Char}
    (firstSolid : drops first = false) (lastSolid : drops last = false) :
    trimBy drops (first :: (middle ++ [last])) = first :: (middle ++ [last]) := by
  unfold trimBy dropEndWhile
  rw [List.dropWhile_cons_of_neg (by simp [firstSolid]), ← List.cons_append,
    List.reverse_append, List.reverse_singleton, List.singleton_append,
    List.dropWhile_cons_of_neg (by simp [lastSolid]), List.reverse_cons, List.reverse_reverse]

/-- A text that starts and ends with no blank is not trimmed. -/
theorem trim_of_solid {first last : Char} {middle : List Char}
    (firstSolid : isBlank first = false) (lastSolid : isBlank last = false) :
    trim (first :: (middle ++ [last])) = first :: (middle ++ [last]) :=
  trimBy_of_solid firstSolid lastSolid

/-- Of a text that is nothing but matching characters nothing is left. -/
theorem dropEndWhile_of_forall {drops : Char → Bool} {text : List Char}
    (dropped : ∀ char ∈ text, drops char = true) : dropEndWhile drops text = [] := by
  have nothing : text.reverse.dropWhile drops = [] :=
    List.dropWhile_eq_nil_iff.2 fun char member => dropped char (List.mem_reverse.1 member)
  rw [dropEndWhile, nothing, List.reverse_nil]

/-- Blanks on both sides of a text that starts and ends with no blank are trimmed. -/
theorem trim_of_padded {front back middle : List Char} {first last : Char}
    (frontBlank : Blank front) (backBlank : Blank back) (firstSolid : isBlank first = false)
    (lastSolid : isBlank last = false) :
    trim (front ++ first :: (middle ++ last :: back)) = first :: (middle ++ [last]) := by
  rw [trim, trimBy, List.dropWhile_append_of_pos frontBlank,
    List.dropWhile_cons_of_neg (by simp [firstSolid]), ← List.cons_append,
    dropEndWhile_append_cons lastSolid, dropEndWhile_of_forall backBlank, List.cons_append]

/-- The end of a text without matching characters at its end is not shortened. -/
theorem dropEndWhile_of_suffix {drops : Char → Bool} {short text : List Char}
    (suffix : short <:+ dropEndWhile drops text) : dropEndWhile drops short = short := by
  cases reversed : short.reverse with
  | nil => simp [List.reverse_eq_nil_iff.1 reversed, dropEndWhile]
  | cons last before =>
      have same := List.reverse_prefix.2 suffix
      rw [dropEndWhile, List.reverse_reverse, reversed] at same
      have head := List.head?_dropWhile_not drops text.reverse
      obtain ⟨rest, split⟩ := same
      rw [← split] at head
      rw [dropEndWhile, reversed, List.dropWhile_cons_of_neg (by simpa using head), ← reversed,
        List.reverse_reverse]

/-- Trimming the end of a trimmed text only shortens its start. -/
theorem trimBy_suffix {drops : Char → Bool} {short text : List Char}
    (suffix : short <:+ trimBy drops text) : trimBy drops short <:+ trimBy drops text := by
  have shorter : short.dropWhile drops <:+ trimBy drops text :=
    (List.dropWhile_suffix drops).trans suffix
  rw [trimBy, dropEndWhile_of_suffix shorter]
  exact shorter

/-! ## Texts that are not trimmed -/

/-- A text that neither starts nor ends with a matching character. -/
structure Firm (drops : Char → Bool) (text : List Char) : Prop where
  starts : ∀ char ∈ text.head?, drops char = false
  ends : ∀ char ∈ text.getLast?, drops char = false

instance (drops : Char → Bool) (text : List Char) : Decidable (Firm drops text) :=
  have stays (edge : Option Char) :
      edge.all (!drops ·) = true ↔ ∀ char ∈ edge, drops char = false := by
    cases edge <;> simp
  decidable_of_iff (text.head?.all (!drops ·) = true ∧ text.getLast?.all (!drops ·) = true)
    ⟨fun both => ⟨(stays _).1 both.1, (stays _).1 both.2⟩,
      fun firm => ⟨(stays _).2 firm.starts, (stays _).2 firm.ends⟩⟩

/-- At the end of a text that ends with no matching character nothing is dropped. -/
theorem dropEndWhile_of_ends {drops : Char → Bool} {text : List Char}
    (ends : ∀ char ∈ text.getLast?, drops char = false) : dropEndWhile drops text = text := by
  rcases List.eq_nil_or_concat text with rfl | ⟨front, last, rfl⟩
  · rfl
  · have stays : drops last = false := ends last (by simp)
    simp [dropEndWhile, stays]

/-- At the start of a text that starts with no matching character nothing is dropped. -/
theorem dropWhile_of_starts {drops : Char → Bool} {text : List Char}
    (starts : ∀ char ∈ text.head?, drops char = false) : text.dropWhile drops = text := by
  cases text with
  | nil => rfl
  | cons first rest => exact List.dropWhile_cons_of_neg (by simp [starts first rfl])

/-- A firm text is not trimmed. -/
theorem Firm.trimBy_eq {drops : Char → Bool} {text : List Char} (firm : Firm drops text) :
    trimBy drops text = text := by
  rw [trimBy, dropWhile_of_starts firm.starts, dropEndWhile_of_ends firm.ends]

/-- A trimmed text is firm. -/
theorem firm_trimBy (drops : Char → Bool) (text : List Char) : Firm drops (trimBy drops text) where
  starts := by
    intro char first
    have front : trimBy drops text <+: text.dropWhile drops := by
      rw [trimBy, dropEndWhile, ← List.reverse_suffix, List.reverse_reverse]
      exact List.dropWhile_suffix drops
    obtain ⟨others, split⟩ := front
    have head := List.head?_dropWhile_not drops text
    rw [← split, List.head?_append, Option.mem_def.1 first] at head
    simpa using head
  ends := fun char last => getLast?_trimBy last

/-- A text that is not empty ends with the last of its characters whatever stands before it. -/
theorem getLast?_append_right {front tail : List Char} (some : tail ≠ []) :
    (front ++ tail).getLast? = tail.getLast? := by
  rw [List.getLast?_append, List.getLast?_eq_some_getLast some]
  rfl

/-- Two firm texts that are not empty stand at the ends of a firm text. -/
theorem Firm.append {drops : Char → Bool} {front tail : List Char} (frontFirm : Firm drops front)
    (someFront : front ≠ []) (tailFirm : Firm drops tail) (someTail : tail ≠ [])
    (middle : List Char) : Firm drops (front ++ (middle ++ tail)) where
  starts := by
    intro char first
    rw [List.head?_append, List.head?_eq_some_head someFront] at first
    exact frontFirm.starts char ((List.head?_eq_some_head someFront).trans first)
  ends := by
    rw [← List.append_assoc, getLast?_append_right someTail]
    exact tailFirm.ends

/-- What stands before a character that is trimmed and a firm text is trimmed on its own,
and the character stays unless nothing is left before it. -/
theorem trimBy_append_cons {drops : Char → Bool} {char : Char} (dropped : drops char = true)
    {front tail : List Char} (frontEnds : ∀ last ∈ front.getLast?, drops last = false)
    (firm : Firm drops tail) (some : tail ≠ []) :
    trimBy drops (front ++ char :: tail) =
      if trimBy drops front = [] then tail else trimBy drops front ++ char :: tail := by
  have alone : trimBy drops front = front.dropWhile drops := by
    rw [trimBy, dropEndWhile_of_ends]
    intro last ends
    obtain ⟨before, split⟩ := List.dropWhile_suffix (l := front) drops
    refine frontEnds last ?_
    rw [← split, List.getLast?_append, Option.mem_def.1 ends]
    rfl
  have ends : ∀ kept : List Char, dropEndWhile drops (kept ++ tail) = kept ++ tail := by
    intro kept
    refine dropEndWhile_of_ends ?_
    rw [getLast?_append_right some]
    exact firm.ends
  rw [trimBy, List.dropWhile_append, alone]
  by_cases nothing : front.dropWhile drops = []
  · rw [if_pos (by simp [nothing]), if_pos nothing, List.dropWhile_cons_of_pos (by simp [dropped]),
      dropWhile_of_starts firm.starts]
    exact ends []
  · rw [if_neg (by simp [nothing]), if_neg nothing]
    simpa using ends (front.dropWhile drops ++ [char])

/-- Matching characters that stand around a text are trimmed with those of the text. -/
theorem trimBy_padded {drops : Char → Bool} {front back : List Char}
    (frontDropped : ∀ char ∈ front, drops char = true)
    (backDropped : ∀ char ∈ back, drops char = true) (text : List Char) :
    trimBy drops (front ++ (text ++ back)) = trimBy drops text := by
  have backReversed : ∀ char ∈ back.reverse, drops char = true :=
    fun char member => backDropped char (List.mem_reverse.1 member)
  have backNothing : back.dropWhile drops = [] := List.dropWhile_eq_nil_iff.2 backDropped
  rw [trimBy, List.dropWhile_append_of_pos frontDropped, List.dropWhile_append, trimBy]
  by_cases nothing : text.dropWhile drops = []
  · simp [nothing, backNothing]
  · rw [if_neg (by simp [nothing]), dropEndWhile, List.reverse_append,
      List.dropWhile_append_of_pos backReversed, dropEndWhile]

/-- Every text is what trimming leaves of it with matching characters around. -/
theorem exists_padding (drops : Char → Bool) (text : List Char) :
    ∃ front back, (∀ char ∈ front, drops char = true) ∧ (∀ char ∈ back, drops char = true) ∧
      text = front ++ (trimBy drops text ++ back) := by
  have starts := List.takeWhile_append_dropWhile (p := drops) (l := text)
  have ends := List.takeWhile_append_dropWhile (p := drops) (l := (text.dropWhile drops).reverse)
  refine ⟨text.takeWhile drops, ((text.dropWhile drops).reverse.takeWhile drops).reverse,
    List.all_eq_true.1 List.all_takeWhile, fun char member => ?_, ?_⟩
  · exact List.all_eq_true.1 List.all_takeWhile char (List.mem_reverse.1 member)
  · rw [trimBy, dropEndWhile, ← List.reverse_append, ends, List.reverse_reverse, starts]

/-- Matching characters after a firm text are dropped. -/
theorem Firm.dropEndWhile_append {drops : Char → Bool} {core : List Char} (firm : Firm drops core)
    (some : core ≠ []) {back : List Char} (dropped : ∀ char ∈ back, drops char = true)
    (front : List Char) : dropEndWhile drops (front ++ (core ++ back)) = front ++ core := by
  have reversed : ∀ char ∈ back.reverse, drops char = true :=
    fun char member => dropped char (List.mem_reverse.1 member)
  rw [← List.append_assoc, dropEndWhile, List.reverse_append, List.dropWhile_append_of_pos reversed,
    ← dropEndWhile, dropEndWhile_of_ends]
  rw [getLast?_append_right some]
  exact firm.ends

/-- Matching characters before a firm text are dropped. -/
theorem Firm.dropWhile_append {drops : Char → Bool} {core : List Char} (firm : Firm drops core)
    (some : core ≠ []) {front : List Char} (dropped : ∀ char ∈ front, drops char = true)
    (back : List Char) : (front ++ (core ++ back)).dropWhile drops = core ++ back := by
  rw [List.dropWhile_append_of_pos dropped, dropWhile_of_starts]
  rw [List.head?_append, List.head?_eq_some_head some]
  exact fun char first => firm.starts char ((List.head?_eq_some_head some).trans first)

/-- What stays at the end of a text is there after trimming. -/
theorem suffix_trimBy {drops : Char → Bool} {first last : Char} {middle : List Char}
    (firstStays : drops first = false) (lastStays : drops last = false) (front : List Char) :
    first :: (middle ++ [last]) <:+ trimBy drops (front ++ first :: (middle ++ [last])) := by
  have starts : ∃ rest, (front ++ first :: (middle ++ [last])).dropWhile drops =
      rest ++ first :: (middle ++ [last]) := by
    rw [List.dropWhile_append]
    split
    · exact ⟨[], by simp [firstStays]⟩
    · exact ⟨_, rfl⟩
  obtain ⟨rest, kept⟩ := starts
  refine ⟨rest, ?_⟩
  rw [trimBy, kept, dropEndWhile]
  simp [lastStays]

end DocblockScan.Text

import DocblockScan.Proofs.Docblock.Grammar

/-!
# Lexeme readers and the grammar

The readers of names, strings, numbers and keys against the rules of the grammar.
Each comes as a pair: on a lexeme of the grammar the reader returns what it stands
for and what follows it, and whatever the reader returns is such a lexeme.
-/

namespace DocblockScan.Docblock.Grammar

open Text (Blank)

/-! ## Names -/

/-- A name character is no colon. -/
theorem ne_colon_of_isNameChar {char : Char} (accepted : isNameChar char = true) :
    char ≠ ':' := by
  rintro rfl
  exact absurd accepted (by decide)

/-- A name character joins the name after it. -/
theorem spanName_cons {char : Char} (accepted : isNameChar char = true) (rest : List Char) :
    spanName (char :: rest) = (char :: (spanName rest).1, (spanName rest).2) := by
  have notColon := ne_colon_of_isNameChar accepted
  rw [spanName.eq_def]
  split <;> simp_all

/-- Two colons join the name after them. -/
theorem spanName_colons (rest : List Char) :
    spanName (':' :: ':' :: rest) = (':' :: ':' :: (spanName rest).1, (spanName rest).2) :=
  rfl

/-- Where no name goes on, none is read. -/
theorem spanName_of_not_extends {after : List Char} (stops : ¬ ExtendsName after) :
    spanName after = ([], after) := by
  rw [spanName.eq_def]
  split
  · rfl
  · next rest => exact absurd (.inr ⟨rest, rfl⟩) stops
  · next char rest _ =>
      split
      · next accepted => exact absurd (.inl ⟨char, rest, rfl, accepted⟩) stops
      · rfl

/-- A longest name is read. -/
theorem spanName_of_name {written after : List Char} (name : Name written after) :
    spanName (written ++ after) = (written, after) := by
  obtain ⟨spelled, longest⟩ := name
  induction spelled with
  | nil => exact spanName_of_not_extends longest
  | char accepted _ inductionHypothesis =>
      rw [List.cons_append, spanName_cons accepted, inductionHypothesis]
  | colons _ inductionHypothesis =>
      rw [List.cons_append, List.cons_append, spanName_colons, inductionHypothesis]

/-- What is read as a name is a longest name. -/
theorem name_spanName (text : List Char) : Name (spanName text).1 (spanName text).2 := by
  fun_induction spanName text with
  | case1 => exact ⟨.nil, by simp [ExtendsName, StartsWith]⟩
  | case2 rest name after found inductionHypothesis =>
      rw [found] at inductionHypothesis
      exact ⟨.colons inductionHypothesis.spelled, inductionHypothesis.longest⟩
  | case3 char rest _ accepted name after found inductionHypothesis =>
      rw [found] at inductionHypothesis
      exact ⟨.char accepted inductionHypothesis.spelled, inductionHypothesis.longest⟩
  | case4 char rest notColons refused =>
      refine ⟨.nil, ?_⟩
      rintro (⟨other, tail, same, accepted⟩ | ⟨tail, same⟩)
      · obtain ⟨rfl, -⟩ := List.cons.inj same
        exact refused accepted
      · obtain ⟨rfl, rfl⟩ := List.cons.inj same
        exact notColons tail rfl rfl

/-! ## Strings -/

@[simp] theorem doubled_nil : doubled [] = [] := rfl

@[simp] theorem doubled_cons (char : Char) (rest : List Char) :
    doubled (char :: rest) = (if char = '"' then ['"', '"'] else [char]) ++ doubled rest :=
  rfl

/-- A quote that is not doubled closes a string. -/
theorem spanString_closing {after : List Char} (longest : after.head? ≠ some '"') :
    spanString ('"' :: after) = some ([], after) := by
  cases after with
  | nil => rfl
  | cons char rest =>
      rw [spanString]
      rintro tail ⟨⟩
      simp at longest

/-- Any other character belongs to the content. -/
theorem spanString_cons {char : Char} (plain : char ≠ '"') (rest : List Char) :
    spanString (char :: rest) =
      (spanString rest).map fun found => (char :: found.1, found.2) := by
  rw [spanString] <;> simp_all

/-- A string is read up to its closing quote. -/
theorem spanString_doubled (content : List Char) {after : List Char}
    (longest : after.head? ≠ some '"') :
    spanString (doubled content ++ '"' :: after) = some (content, after) := by
  induction content with
  | nil => exact spanString_closing longest
  | cons char rest inductionHypothesis =>
      by_cases quote : char = '"'
      · subst quote
        simp [spanString, inductionHypothesis]
      · simp [quote, spanString_cons, inductionHypothesis]

/-- What is read as the content of a string was written with doubled quotes. -/
theorem eq_of_spanString {text content after : List Char}
    (found : spanString text = some (content, after)) :
    text = doubled content ++ '"' :: after ∧ after.head? ≠ some '"' := by
  fun_induction spanString text generalizing content with
  | case1 => simp at found
  | case2 rest inductionHypothesis =>
      obtain ⟨⟨inner, tail⟩, innerFound, same⟩ := Option.map_eq_some_iff.1 found
      obtain ⟨rfl, rfl⟩ := Prod.mk.inj same
      obtain ⟨rfl, longest⟩ := inductionHypothesis innerFound
      exact ⟨by simp, longest⟩
  | case3 rest single =>
      obtain ⟨rfl, rfl⟩ := Prod.mk.inj (Option.some.inj found)
      refine ⟨by simp, ?_⟩
      intro starts
      obtain ⟨tail, rfl⟩ := List.head?_eq_some_iff.1 starts
      exact single tail rfl
  | case4 char rest _ noQuote inductionHypothesis =>
      obtain ⟨⟨inner, tail⟩, innerFound, same⟩ := Option.map_eq_some_iff.1 found
      obtain ⟨rfl, rfl⟩ := Prod.mk.inj same
      obtain ⟨rfl, longest⟩ := inductionHypothesis innerFound
      have other : char ≠ '"' := fun quote => noQuote quote
      exact ⟨by simp [other], longest⟩

/-! ## Numbers -/

/-- Without a digit at its start a text has no run of digits. -/
theorem isDigit_eq_false_of_not_starts {char : Char} {rest : List Char}
    (stops : ¬ StartsWith Char.isDigit (char :: rest)) : char.isDigit = false := by
  by_cases digit : char.isDigit = true
  · exact absurd ⟨char, rest, rfl, digit⟩ stops
  · simpa using digit

/-- A longest run of digits is taken from the start of a text. -/
theorem takeWhile_digits {digits after : List Char} (allDigits : Digits digits)
    (longest : ¬ StartsWith Char.isDigit after) :
    (digits ++ after).takeWhile Char.isDigit = digits := by
  rw [List.takeWhile_append_of_pos allDigits]
  cases after with
  | nil => simp
  | cons char rest => simp [isDigit_eq_false_of_not_starts longest]

/-- What follows a longest run of digits is left. -/
theorem dropWhile_digits {digits after : List Char} (allDigits : Digits digits)
    (longest : ¬ StartsWith Char.isDigit after) :
    (digits ++ after).dropWhile Char.isDigit = after := by
  rw [List.dropWhile_append_of_pos allDigits]
  cases after with
  | nil => rfl
  | cons char rest => simp [isDigit_eq_false_of_not_starts longest]

/-- The digits taken from the start of a text are digits. -/
theorem digits_takeWhile (text : List Char) : Digits (text.takeWhile Char.isDigit) :=
  List.all_eq_true.1 List.all_takeWhile

/-- After the digits at its start a text has no further one. -/
theorem not_startsWithDigit_dropWhile (text : List Char) :
    ¬ StartsWith Char.isDigit (text.dropWhile Char.isDigit) := by
  rintro ⟨digit, rest, same, isDigit⟩
  have head := List.head?_dropWhile_not Char.isDigit text
  rw [same] at head
  simp_all

/-- The digits of a number are added up from the left. -/
theorem naturalOf_eq_decimal (digits : List Char) : naturalOf digits = decimal digits := by
  simp only [naturalOf, decimal, Nat.ofDigits_eq_foldr, List.map_reverse,
    List.foldr_reverse, List.foldl_map]
  congr 1
  funext value digit
  exact Nat.add_comm _ _

/-- A sign is read where the rest does not start with one. -/
theorem spanSign_signText {negative : Bool} {rest : List Char}
    (unsigned : rest.head? ≠ some '-') :
    spanSign (signText negative ++ rest) = (negative, rest) := by
  cases negative with
  | true => rfl
  | false =>
      unfold spanSign signText
      split
      · next after same => simp_all
      · rfl

/-- A fraction is read with all its digits. -/
theorem spanFraction_of_digits {fraction after : List Char} (someDigits : fraction ≠ [])
    (allDigits : Digits fraction) (longest : ¬ StartsWith Char.isDigit after) :
    spanFraction ('.' :: (fraction ++ after)) = (some fraction, after) := by
  cases fraction with
  | nil => exact absurd rfl someDigits
  | cons digit rest =>
      have first : digit.isDigit = true := allDigits digit List.mem_cons_self
      have others : Digits rest := fun other member =>
        allDigits other (List.mem_cons_of_mem _ member)
      simp [spanFraction, first, takeWhile_digits others longest,
        dropWhile_digits others longest]

/-- Without a point and a digit there is no fraction. -/
theorem spanFraction_of_not {after : List Char}
    (noFraction : ∀ rest, after = '.' :: rest → ¬ StartsWith Char.isDigit rest) :
    spanFraction after = (none, after) := by
  unfold spanFraction
  split
  · next digit rest =>
      split
      · next isDigit => exact absurd ⟨digit, rest, rfl, isDigit⟩ (noFraction _ rfl)
      · rfl
  · rfl

/-- Digits do not start with a sign. -/
theorem head?_digits_ne_minus {digits : List Char} (rest : List Char)
    (someDigits : digits ≠ []) (allDigits : Digits digits) :
    (digits ++ rest).head? ≠ some '-' := by
  cases digits with
  | nil => exact absurd rfl someDigits
  | cons digit others =>
      have isDigit := allDigits digit List.mem_cons_self
      rintro ⟨⟩
      exact absurd isDigit (by decide)

/-- Without a fraction a number needs digits and has to fit into 64 bits. -/
theorem literal?_whole (negative : Bool) (digits : List Char) :
    (Numeral.mk negative digits none).literal? =
      if digits ≠ [] ∧ -2 ^ 63 ≤ signed negative digits ∧ signed negative digits < 2 ^ 63 then
        some (.integer (signed negative digits))
      else none := by
  have bounds : ∀ value : Int, integerBounds.1 ≤ value ∧ value ≤ integerBounds.2 ↔
      -2 ^ 63 ≤ value ∧ value < 2 ^ 63 := by
    intro value
    simp only [integerBounds]
    omega
  by_cases empty : digits = []
  · simp [Numeral.literal?, empty]
  · simp only [Numeral.literal?, empty, if_false, naturalOf_eq_decimal, bounds, signed,
      ne_eq, not_false_eq_true, true_and]

/-- With a fraction a number is a float. -/
theorem literal?_fraction (negative : Bool) (whole fraction : List Char) :
    (Numeral.mk negative whole (some fraction)).literal? =
      some (.float (.ofRatio negative (decimal (whole ++ fraction)) (10 ^ fraction.length))) := by
  simp [Numeral.literal?, naturalOf_eq_decimal]

/-- A number is read, and stands for its literal. -/
theorem spanNumeral_of_number {written after : List Char} {literal : Literal}
    (number : Number written after literal) :
    ∃ numeral, spanNumeral (written ++ after) = (numeral, after) ∧
      numeral.literal? = some literal := by
  cases number with
  | @integer negative digits _ someDigits allDigits longest noFraction inRange =>
      refine ⟨⟨negative, digits, none⟩, ?_, ?_⟩
      · simp [spanNumeral,
          spanSign_signText (head?_digits_ne_minus after someDigits allDigits),
          takeWhile_digits allDigits longest, dropWhile_digits allDigits longest,
          spanFraction_of_not noFraction]
      · rw [literal?_whole, if_pos ⟨someDigits, inRange⟩]
  | @float negative whole fraction _ wholeDigits someDigits allDigits longest started =>
      have unsigned : (whole ++ '.' :: (fraction ++ after)).head? ≠ some '-' := by
        cases whole with
        | nil => simp
        | cons digit others => exact head?_digits_ne_minus _ (by simp) wholeDigits
      have point : ¬ StartsWith Char.isDigit ('.' :: (fraction ++ after)) := by
        rintro ⟨digit, rest, same, isDigit⟩
        obtain ⟨rfl, -⟩ := List.cons.inj same
        exact absurd isDigit (by decide)
      refine ⟨⟨negative, whole, some fraction⟩, ?_, ?_⟩
      · simp [spanNumeral, spanSign_signText unsigned,
          takeWhile_digits wholeDigits point, dropWhile_digits wholeDigits point,
          spanFraction_of_digits someDigits allDigits longest]
      · exact literal?_fraction negative whole fraction

/-- What is read as a fraction is a longest run of digits after a point; without
one no fraction is there. -/
theorem fraction_of_spanFraction {text after : List Char} {fraction : Option (List Char)}
    (found : spanFraction text = (fraction, after)) :
    match fraction with
    | some digits => text = '.' :: (digits ++ after) ∧ digits ≠ [] ∧ Digits digits ∧
        ¬ StartsWith Char.isDigit after
    | none => text = after ∧ ∀ rest, after = '.' :: rest → ¬ StartsWith Char.isDigit rest := by
  fun_cases spanFraction text with
  | case1 digit rest isDigit =>
      simp only [spanFraction, isDigit, if_true] at found
      obtain ⟨rfl, rfl⟩ := Prod.mk.inj found
      refine ⟨by simp, by simp, ?_, not_startsWithDigit_dropWhile rest⟩
      intro other member
      rcases List.mem_cons.1 member with rfl | inRest
      · exact isDigit
      · exact digits_takeWhile rest other inRest
  | case2 digit rest refused =>
      simp only [spanFraction, refused] at found
      obtain ⟨rfl, rfl⟩ := Prod.mk.inj found
      refine ⟨rfl, ?_⟩
      rintro tail same ⟨other, others, same', isDigit⟩
      obtain ⟨-, rfl⟩ := List.cons.inj same
      obtain ⟨rfl, -⟩ := List.cons.inj same'
      exact refused isDigit
  | case3 _ noPoint =>
      rw [spanFraction] at found
      · obtain ⟨rfl, rfl⟩ := Prod.mk.inj found
        refine ⟨rfl, ?_⟩
        rintro tail same ⟨digit, others, rfl, -⟩
        exact noPoint digit others same
      · exact noPoint

/-- What is read as a number and stands for a literal is a number of the grammar. -/
theorem number_of_spanNumeral {char : Char} {rest : List Char} {literal : Literal}
    (starts : char = '-' ∨ char.isDigit = true)
    (found : (spanNumeral (char :: rest)).1.literal? = some literal) :
    Number (spanNumeral (char :: rest)).1.written (spanNumeral (char :: rest)).2 literal := by
  rcases signCase : spanSign (char :: rest) with ⟨negative, unsigned⟩
  rcases fractionCase : spanFraction (unsigned.dropWhile Char.isDigit) with ⟨fraction, after⟩
  have rule := fraction_of_spanFraction fractionCase
  have whole := digits_takeWhile unsigned
  simp only [spanNumeral, signCase, fractionCase] at found ⊢
  cases fraction with
  | none =>
      obtain ⟨same, noFraction⟩ := rule
      have longest := not_startsWithDigit_dropWhile unsigned
      rw [same] at longest
      rw [literal?_whole, Option.ite_none_right_eq_some] at found
      obtain ⟨⟨someDigits, inRange⟩, ⟨⟩⟩ := found
      simp only [Numeral.written, List.append_nil]
      exact .integer someDigits whole longest noFraction inRange
  | some digits =>
      obtain ⟨same, someDigits, allDigits, longest⟩ := rule
      rw [literal?_fraction, Option.some.injEq] at found
      subst found
      have started : unsigned.takeWhile Char.isDigit = [] → negative = true := by
        intro noWhole
        -- Without a sign the digit that starts the text is the first of the whole part.
        unfold spanSign at signCase
        split at signCase
        · exact (Prod.mk.inj signCase).1.symm
        · next noMinus =>
            obtain ⟨-, rfl⟩ := Prod.mk.inj signCase
            rcases starts with rfl | digit
            · exact absurd rfl (noMinus rest)
            · simp [digit] at noWhole
      simp only [Numeral.written, List.append_assoc]
      exact .float whole someDigits allDigits longest started

end DocblockScan.Docblock.Grammar

import DocblockScan.Proofs.Docblock.ItemContext
import DocblockScan.Proofs.Docblock.Lockstep
import DocblockScan.Proofs.Docblock.Rendering

/-!
# Texts that differ in the blanks after their line ends

Two texts may be the same but for the blanks that stand at the start of their lines, and
for blanks at their ends. `Relaid` relates such texts and `Agrees` what is read of them:
the same values before such texts, or the same fault before such texts. Names and numbers
hold no line end, and the only lexeme that does is a string; here each reader of a lexeme
has one lemma that it finds the same in both texts, if the strings it reads end on the line
they start on.
-/

namespace DocblockScan.Docblock.Grammar

open Text (Blank)
open Rendering (Indentation)

/-! ## Texts -/

/-- Two texts with the same lines, indented in two ways, before blanks of their own. -/
inductive Relaid (leftEnd rightEnd : List Char) : List Char → List Char → Prop where
  | close (leftBlank : Blank leftEnd) (rightBlank : Blank rightEnd) :
      Relaid leftEnd rightEnd leftEnd rightEnd
  | char {char : Char} {left right : List Char} (inLine : char ≠ '\n')
      (others : Relaid leftEnd rightEnd left right) :
      Relaid leftEnd rightEnd (char :: left) (char :: right)
  | feed {leftGap rightGap left right : List Char} (leftIndent : Indentation leftGap)
      (rightIndent : Indentation rightGap) (others : Relaid leftEnd rightEnd left right) :
      Relaid leftEnd rightEnd ('\n' :: (leftGap ++ left)) ('\n' :: (rightGap ++ right))

/-- What is left of two such texts: nothing at all, or two such texts. -/
inductive Remains (leftEnd rightEnd : List Char) : List Char → List Char → Prop where
  | nothing : Remains leftEnd rightEnd [] []
  | text {left right : List Char} (relaid : Relaid leftEnd rightEnd left right) :
      Remains leftEnd rightEnd left right

/-- What is left of two such texts without the blanks at their start. -/
inductive Bared (leftEnd rightEnd : List Char) : List Char → List Char → Prop where
  | nothing : Bared leftEnd rightEnd [] []
  | char {char : Char} {left right : List Char} (solid : Text.isBlank char = false)
      (others : Relaid leftEnd rightEnd left right) :
      Bared leftEnd rightEnd (char :: left) (char :: right)

/-! ## Outcomes -/

/-- Outcomes of reading two such texts: values that are related, or the same fault, noticed
where nothing is left of both texts or two such texts are. -/
inductive Agrees {Value : Type} (leftEnd rightEnd : List Char) (related : Value → Value → Prop) :
    Except Failure Value → Except Failure Value → Prop where
  | ok {found other : Value} (values : related found other) :
      Agrees leftEnd rightEnd related (.ok found) (.ok other)
  | error {fault : Fault} {left right : List Char} (rests : Remains leftEnd rightEnd left right) :
      Agrees leftEnd rightEnd related (.error ⟨fault, left⟩) (.error ⟨fault, right⟩)

/-- The same value before texts that are related. -/
structure SameBefore {Value : Type} (rests : List Char → List Char → Prop)
    (found other : Value × List Char) : Prop where
  value : found.1 = other.1
  rest : rests found.2 other.2

variable {leftEnd rightEnd left right : List Char}

/-- With a fault the same fault agrees. -/
theorem Agrees.of_error {Value : Type} {related : Value → Value → Prop} {failure : Failure}
    {other : Except Failure Value}
    (agrees : Agrees leftEnd rightEnd related (.error failure) other) :
    ∃ rest, other = .error ⟨failure.fault, rest⟩ ∧ Remains leftEnd rightEnd failure.rest rest := by
  cases agrees with
  | error rests => exact ⟨_, rfl, rests⟩

/-- With a value and what follows it the same value agrees. -/
theorem Agrees.of_ok {Value : Type} {rests : List Char → List Char → Prop} {value : Value}
    {rest : List Char} {other : Except Failure (Value × List Char)}
    (agrees : Agrees leftEnd rightEnd (SameBefore rests) (.ok (value, rest)) other) :
    ∃ otherRest, other = .ok (value, otherRest) ∧ rests rest otherRest := by
  cases agrees with
  | @ok _ other same =>
      obtain ⟨found, otherRest⟩ := other
      obtain rfl : value = found := same.value
      exact ⟨otherRest, rfl, same.rest⟩

/-- What is made of related values is related. -/
theorem Agrees.map {Value Other : Type} {related : Value → Value → Prop}
    {changed : Other → Other → Prop} {make : Value → Other} {found other : Except Failure Value}
    (agrees : Agrees leftEnd rightEnd related found other)
    (step : ∀ one two, related one two → changed (make one) (make two)) :
    Agrees leftEnd rightEnd changed (found.map make) (other.map make) := by
  cases agrees with
  | ok values => exact .ok (step _ _ values)
  | error rests => exact .error rests

/-- A character that is no blank ends no line. -/
theorem Relaid.solid {char : Char} (others : Relaid leftEnd rightEnd left right)
    (solid : Text.isBlank char = false) :
    Relaid leftEnd rightEnd (char :: left) (char :: right) := by
  refine .char ?_ others
  rintro rfl
  exact absurd solid (by decide)

/-- Without the blanks at their start such texts are left, or nothing. -/
theorem Bared.remains (bared : Bared leftEnd rightEnd left right) :
    Remains leftEnd rightEnd left right := by
  cases bared with
  | nothing => exact .nothing
  | char solid others => exact .text (others.solid solid)

/-- Both start with the same character. -/
theorem Bared.head?_eq (bared : Bared leftEnd rightEnd left right) : left.head? = right.head? := by
  cases bared <;> rfl

/-! ## Line ends and blanks -/

namespace Relaid

/-- The texts may change places. -/
theorem symm (relaid : Relaid leftEnd rightEnd left right) :
    Relaid rightEnd leftEnd right left := by
  induction relaid with
  | close leftBlank rightBlank => exact .close rightBlank leftBlank
  | char inLine _ inductionHypothesis => exact .char inLine inductionHypothesis
  | feed leftIndent rightIndent _ inductionHypothesis =>
      exact .feed rightIndent leftIndent inductionHypothesis

/-- The texts have as many line ends each, but for those at their ends. -/
theorem count_add (relaid : Relaid leftEnd rightEnd left right) :
    left.count '\n' + rightEnd.count '\n' = right.count '\n' + leftEnd.count '\n' := by
  induction relaid with
  | close _ _ => exact Nat.add_comm _ _
  | char inLine _ inductionHypothesis =>
      rw [List.count_cons_of_ne inLine, List.count_cons_of_ne inLine, inductionHypothesis]
  | feed leftIndent rightIndent _ inductionHypothesis =>
      simp only [List.count_cons_self, List.count_append,
        List.count_eq_zero_of_not_mem leftIndent.oneLine,
        List.count_eq_zero_of_not_mem rightIndent.oneLine]
      omega

/-- The texts are read in step up to a blank. -/
theorem lockstep : Lockstep (fun text => ∀ char ∈ text.head?, Text.isBlank char = true)
    (Relaid leftEnd rightEnd) where
  uncons relaid := by
    cases relaid with
    | close leftBlank rightBlank =>
        exact .inl ⟨fun char first => leftBlank char (List.mem_of_head? first),
          fun char first => rightBlank char (List.mem_of_head? first)⟩
    | char _ others => exact .inr ⟨_, _, _, rfl, rfl, others⟩
    | feed _ _ _ =>
        have feed : ∀ char ∈ some '\n', Text.isBlank char = true := by
          rintro char ⟨⟩
          decide
        exact .inl ⟨feed, feed⟩
  apart := by
    intro text stops char first
    have blank := stops char first
    constructor
    · by_cases accepted : isNameChar char = true
      · exact absurd blank (by simpa using solid_of_isNameChar accepted)
      · simpa using accepted
    · simp only [List.mem_cons, List.not_mem_nil, or_false]
      rintro (rfl | rfl | rfl) <;> exact absurd blank (by decide)

/-- Without their blanks both texts start with the same character, or nothing is left. -/
theorem skipBlanks (relaid : Relaid leftEnd rightEnd left right) :
    Bared leftEnd rightEnd (Text.skipBlanks left) (Text.skipBlanks right) := by
  have feed : Text.isBlank '\n' = true := by decide
  induction relaid with
  | close leftBlank rightBlank =>
      have left := Text.skipBlanks_append leftBlank []
      have right := Text.skipBlanks_append rightBlank []
      rw [List.append_nil] at left right
      rw [left, right]
      exact .nothing
  | @char char left right inLine others inductionHypothesis =>
      by_cases blank : Text.isBlank char = true
      · simpa [Text.skipBlanks, blank] using inductionHypothesis
      · have solid : Text.isBlank char = false := by simpa using blank
        rw [Text.skipBlanks_cons solid, Text.skipBlanks_cons solid]
        exact .char solid others
  | @feed leftGap rightGap left right leftIndent rightIndent _ inductionHypothesis =>
      have skips : ∀ gap text : List Char, Blank gap →
          Text.skipBlanks ('\n' :: (gap ++ text)) = Text.skipBlanks text := by
        intro gap text blank
        rw [← Text.skipBlanks_append blank text]
        simp [Text.skipBlanks, feed]
      rw [skips _ _ leftIndent.blank, skips _ _ rightIndent.blank]
      exact inductionHypothesis

/-- A separator stands in both texts or in none of them. -/
theorem afterSeparator? (separators : List Char) (relaid : Relaid leftEnd rightEnd left right) :
    Option.Rel (Relaid leftEnd rightEnd) (afterSeparator? separators left)
      (afterSeparator? separators right) := by
  have bared := relaid.skipBlanks
  unfold Docblock.afterSeparator?
  generalize Text.skipBlanks left = leftRest, Text.skipBlanks right = rightRest at bared ⊢
  cases bared with
  | nothing => exact .none
  | @char char left right _ others =>
      by_cases separates : separators.contains char = true
      · simp only [separates, if_true]
        exact .some others
      · simp only [separates]
        exact .none

end Relaid

/-- Without their blanks both texts start with the same character, or nothing is left. -/
theorem Remains.skipBlanks (remains : Remains leftEnd rightEnd left right) :
    Bared leftEnd rightEnd (Text.skipBlanks left) (Text.skipBlanks right) := by
  cases remains with
  | nothing => exact .nothing
  | text relaid => exact relaid.skipBlanks

/-! ## Strings -/

/-- A text that starts with a string, given with its content. -/
inductive StartsWithString : List Char → List Char → Prop where
  | string {content after : List Char} (longest : after.head? ≠ some '"') :
      StartsWithString (quoted content ++ after) content

/-- What is read after a quote is a string of the text. -/
theorem startsWithString_of_spanString {rest content after : List Char}
    (found : spanString rest = some (content, after)) : StartsWithString ('"' :: rest) content := by
  obtain ⟨rfl, longest⟩ := eq_of_spanString found
  have whole : '"' :: (doubled content ++ '"' :: after) = quoted content ++ after := by
    simp [quoted]
  exact whole ▸ .string longest

/-- Characters other than quotes belong to the content. -/
theorem spanString_append {front : List Char} (noQuote : '"' ∉ front) (rest : List Char) :
    spanString (front ++ rest) = (spanString rest).map fun found => (front ++ found.1, found.2) := by
  induction front with
  | nil => simp
  | cons char front inductionHypothesis =>
      rw [List.mem_cons, not_or] at noQuote
      rw [List.cons_append, spanString_cons (Ne.symm noQuote.1), inductionHypothesis noQuote.2,
        Option.map_map]
      rfl

/-- No quote is a blank. -/
theorem not_mem_of_blank {gap : List Char} (blank : Blank gap) : '"' ∉ gap :=
  fun quote => absurd (blank '"' quote) (by decide)

/-- What is read of two strings: contents of which the first has a line end, or the same
content. -/
structure SameString (leftEnd rightEnd : List Char) (found other : List Char × List Char) :
    Prop where
  content : found.1 = other.1 ∨ '\n' ∈ found.1
  rest : Relaid leftEnd rightEnd found.2 other.2

/-- One more character in front of both contents. -/
theorem SameString.cons {found other : List Char × List Char}
    (same : SameString leftEnd rightEnd found other) (char : Char) :
    SameString leftEnd rightEnd (char :: found.1, found.2) (char :: other.1, other.2) where
  content := same.content.imp (congrArg (char :: ·)) (.tail char)
  rest := same.rest

/-- What is made of related values is related. -/
theorem rel_map {Value Other : Type} {related : Value → Value → Prop}
    {changed : Other → Other → Prop} {make change : Value → Other} {found other : Option Value}
    (both : Option.Rel related found other)
    (step : ∀ one two, related one two → changed (make one) (change two)) :
    Option.Rel changed (found.map make) (other.map change) := by
  cases both with
  | none => exact .none
  | some same => exact .some (step _ _ same)

namespace Relaid

/-- A string ends in both texts or in none of them. -/
theorem spanString (relaid : Relaid leftEnd rightEnd left right) :
    Option.Rel (SameString leftEnd rightEnd) (spanString left) (spanString right) := by
  induction length : left.length using Nat.strongRecOn generalizing left right with
  | _ bound inductionHypothesis =>
      cases relaid with
      | close leftBlank rightBlank =>
          have unclosed : ∀ {gap}, Blank gap → Docblock.spanString gap = none := by
            intro gap blank
            have noQuote := spanString_append (not_mem_of_blank blank) []
            rwa [List.append_nil] at noQuote
          rw [unclosed leftBlank, unclosed rightBlank]
          exact .none
      | @feed leftGap rightGap left right leftIndent rightIndent others =>
          have noQuote : ∀ {gap}, Blank gap → '"' ∉ '\n' :: gap := by
            intro gap blank
            simpa using not_mem_of_blank blank
          have inner := inductionHypothesis left.length (by
            rw [← length, List.length_cons, List.length_append]
            omega) others rfl
          rw [← List.cons_append, ← List.cons_append,
            spanString_append (noQuote leftIndent.blank),
            spanString_append (noQuote rightIndent.blank)]
          exact rel_map inner fun _ _ same =>
            ⟨.inr (List.mem_append_left _ List.mem_cons_self), same.rest⟩
      | @char char left right inLine others =>
          rw [List.length_cons] at length
          by_cases quote : char = '"'
          · subst quote
            -- two quotes in a row stand for one, and a line end never comes between them
            rcases lockstep.uncons others with ⟨leftStops, rightStops⟩ |
              ⟨next, l, r, rfl, rfl, inner⟩
            · have closes : ∀ {text : List Char},
                  (∀ char ∈ text.head?, Text.isBlank char = true) →
                  Docblock.spanString ('"' :: text) = some ([], text) := by
                intro text stops
                exact spanString_closing fun quote => absurd (stops '"' quote) (by decide)
              rw [closes leftStops, closes rightStops]
              exact .some ⟨.inl rfl, others⟩
            · by_cases doubled : next = '"'
              · subst doubled
                rw [List.length_cons] at length
                have content := inductionHypothesis l.length (by omega) inner rfl
                exact rel_map content fun _ _ same => same.cons '"'
              · have single : ∀ rest : List Char, (next :: rest).head? ≠ some '"' := by
                  simpa using doubled
                rw [spanString_closing (single l), spanString_closing (single r)]
                exact .some ⟨.inl rfl, others⟩
          · rw [spanString_cons quote, spanString_cons quote]
            exact rel_map (inductionHypothesis left.length (by omega) others rfl)
              fun _ _ same => same.cons char

/-- The same string ends in both texts if it ends on its line. -/
theorem spanString_of_oneLine (relaid : Relaid leftEnd rightEnd left right)
    (oneLine : ∀ content, StartsWithString ('"' :: left) content → '\n' ∉ content) :
    Option.Rel (SameBefore (Relaid leftEnd rightEnd)) (Docblock.spanString left)
      (Docblock.spanString right) := by
  have strings := relaid.spanString
  cases found : Docblock.spanString left with
  | none =>
      rw [found] at strings
      generalize Docblock.spanString right = other at strings
      cases strings
      exact .none
  | some string =>
      rw [found] at strings
      generalize Docblock.spanString right = other at strings
      cases strings with
      | some same =>
          refine .some ⟨?_, same.rest⟩
          exact same.content.resolve_right (oneLine _ (startsWithString_of_spanString found))

end Relaid

/-! ## Scalars and keys -/

namespace Bared

/-- A string, a whole number or a whole name is read from both texts, or none is. -/
theorem readScalar (bared : Bared leftEnd rightEnd left right)
    (oneLine : ∀ content, StartsWithString left content → '\n' ∉ content) :
    Agrees leftEnd rightEnd (SameBefore (Relaid leftEnd rightEnd)) (readScalar left)
      (readScalar right) := by
  cases bared with
  | nothing => exact .error .nothing
  | @char char left right solid others =>
      have relaid := others.solid solid
      by_cases quote : char = '"'
      · subst quote
        have strings := others.spanString_of_oneLine oneLine
        simp only [Docblock.readScalar, if_true]
        generalize Docblock.spanString left = found, Docblock.spanString right = other at strings ⊢
        cases strings with
        | none => exact .error .nothing
        | some same => exact .ok ⟨congrArg (Literal.string <| String.ofList ·) same.value, same.rest⟩
      by_cases number : char = '-' ∨ char.isDigit = true
      · obtain ⟨same, rests⟩ := Relaid.lockstep.spanNumeral relaid
        rw [readScalar_of_startsNumber number, readScalar_of_startsNumber number, ← same]
        cases (spanNumeral (char :: left)).1.literal? with
        | none => exact .error (.text rests)
        | some literal => exact .ok ⟨rfl, rests⟩
      by_cases starts : startsName char = true
      · obtain ⟨same, rests⟩ := Relaid.lockstep.spanName relaid
        rw [readScalar_of_startsName starts, readScalar_of_startsName starts, ← same]
        cases literalOfName? (spanName (char :: left)).1 with
        | none => exact .error (.text rests)
        | some literal => exact .ok ⟨rfl, rests⟩
      · simp only [not_or, Bool.not_eq_true] at number
        simp only [Docblock.readScalar, quote, number, starts, decide_false, Bool.or_false,
          Bool.false_eq_true, if_false]
        by_cases nested : char = '@'
        · simp only [nested, if_true] at relaid ⊢
          exact .error (.text relaid)
        · simp only [nested, if_false]
          exact .error (.text relaid)

/-- The same candidate for a key stands in both texts, or none does. -/
theorem spanKey (kind : ListKind) (bared : Bared leftEnd rightEnd left right)
    (oneLine : ∀ content, kind = .entries → StartsWithString left content → '\n' ∉ content) :
    Agrees leftEnd rightEnd (Option.Rel (SameBefore (Relaid leftEnd rightEnd)))
      (spanKey kind left) (spanKey kind right) := by
  cases bared with
  | nothing => cases kind <;> exact .ok .none
  | @char char left right solid others =>
      have relaid := others.solid solid
      obtain ⟨same, rests⟩ := Relaid.lockstep.spanName relaid
      cases kind with
      | arguments =>
          simp only [Grammar.spanKey, List.head?_cons, Option.any_some]
          by_cases letter : isLetter char = true
          · simp only [letter, if_true]
            exact .ok (.some ⟨same, rests⟩)
          · simp only [letter]
            exact .ok .none
      | entries =>
          simp only [Grammar.spanKey, spanEntryKeyText]
          by_cases quote : char = '"'
          · subst quote
            have strings := others.spanString_of_oneLine fun content => oneLine content rfl
            simp only [if_true]
            generalize Docblock.spanString left = found, Docblock.spanString right = other
              at strings ⊢
            cases strings with
            | none => exact .error .nothing
            | some same => exact .ok (.some same)
          by_cases letter : isLetter char = true
          · simp only [quote, letter, if_false, if_true]
            exact .ok (.some ⟨same, rests⟩)
          by_cases digit : char.isDigit = true
          · obtain ⟨sameDigits, afterDigits⟩ := Relaid.lockstep.digits relaid
            simp only [quote, letter, digit, if_false, if_true]
            exact .ok (.some ⟨sameDigits, afterDigits⟩)
          · simp only [quote, letter, digit]
            exact .ok .none

/-- The same key is read from both texts, or none is. -/
theorem readKey (kind : ListKind) (bared : Bared leftEnd rightEnd left right)
    (oneLine : ∀ content, kind = .entries → StartsWithString left content → '\n' ∉ content) :
    Agrees leftEnd rightEnd (SameBefore (Remains leftEnd rightEnd)) (readKey kind left)
      (readKey kind right) := by
  have keys := bared.spanKey kind oneLine
  rw [readKey_eq, readKey_eq]
  generalize Grammar.spanKey kind left = found, Grammar.spanKey kind right = other at keys ⊢
  cases keys with
  | error rests => exact .error rests
  | ok candidates =>
      cases candidates with
      | none => exact .ok ⟨rfl, bared.remains⟩
      | @some candidate other same =>
          obtain ⟨key, after⟩ := candidate
          obtain ⟨otherKey, otherAfter⟩ := other
          obtain rfl : key = otherKey := same.value
          have separators := Relaid.afterSeparator? kind.separators same.rest
          dsimp only at separators ⊢
          generalize Docblock.afterSeparator? kind.separators after = valueText,
            Docblock.afterSeparator? kind.separators otherAfter = otherText at separators ⊢
          cases separators with
          | none => exact .ok ⟨rfl, bared.remains⟩
          | some rests => exact .ok ⟨rfl, .text rests⟩

end Bared

end DocblockScan.Docblock.Grammar

import DocblockScan.Proofs.Docblock.Remainders
import DocblockScan.Proofs.Docblock.RelaidTexts

/-!
# The strings that are read

Which strings of a text are read depends on where a reader stands: before a value, before
an item of a list, in a list, or between the tags. `ReadsString` follows the readers from
place to place, and gives the content of every string that one of them reads to its closing
quote, be it a value or the candidate for a key. It goes as far as the readers do: nothing
after a fault is read.
-/

namespace DocblockScan.Docblock

open Grammar (ListKind StartsWithString itemOutcome)

/-- Where a reader stands: before a value, before an item of a list, before the entries of
an array, before further arguments, or before a text whose tags are read, which stands
after a character. -/
inductive Place where
  | value
  | item (kind : ListKind)
  | entries
  | arguments (known : Arguments)
  | tags (previous : Option Char)

/-- A string is read by a reader that stands at a place before a text. -/
inductive ReadsString (vocabulary : Vocabulary) : Place → List Char → List Char → Prop where
  | string {text content : List Char}
      (starts : StartsWithString (Text.skipBlanks text) content) :
      ReadsString vocabulary .value text content
  | array {text rest content : List Char} (opens : Text.skipBlanks text = '\x7b' :: rest)
      (inside : ReadsString vocabulary .entries rest content) :
      ReadsString vocabulary .value text content
  | key {text content : List Char} (starts : StartsWithString text content) :
      ReadsString vocabulary (.item .entries) text content
  | itemValue {kind : ListKind} {text valueText content : List Char} {key : Option String}
      (keyed : Grammar.readKey kind text = .ok (key, valueText))
      (inside : ReadsString vocabulary .value valueText content) :
      ReadsString vocabulary (.item kind) text content
  | entry {text content : List Char}
      (inside : ReadsString vocabulary (.item .entries) (Text.skipBlanks text) content) :
      ReadsString vocabulary .entries text content
  | laterEntry {text after rest content : List Char} {item : Option String × Literal}
      (read : itemOutcome .entries (Text.skipBlanks text) = .ok (item, after))
      (separated : Text.skipBlanks after = ',' :: rest)
      (inside : ReadsString vocabulary .entries rest content) :
      ReadsString vocabulary .entries text content
  | argument {known : Arguments} {text content : List Char}
      (inside : ReadsString vocabulary (.item .arguments) (Text.skipBlanks text) content) :
      ReadsString vocabulary (.arguments known) text content
  | laterArgument {known grown : Arguments} {text after rest content : List Char}
      {item : Option String × Literal}
      (read : itemOutcome .arguments (Text.skipBlanks text) = .ok (item, after))
      (added : Arguments.add? known item.1 item.2 = .ok grown)
      (separated : Text.skipBlanks after = ',' :: rest)
      (inside : ReadsString vocabulary (.arguments grown) rest content) :
      ReadsString vocabulary (.arguments known) text content
  | list {previous : Option Char} {text written after inner content : List Char}
      (mark : Mark previous text written after) (known : vocabulary (.ofList written) ≠ none)
      (opens : Text.skipBlanks after = '(' :: inner)
      (inside : ReadsString vocabulary (.arguments .none) inner content) :
      ReadsString vocabulary (.tags previous) text content
  | laterTag {previous : Option Char} {text written after rest content : List Char}
      {segment : Segment} (mark : Mark previous text written after)
      (takes : Takes vocabulary written after segment rest)
      (inside : ReadsString vocabulary (.tags segment.text.getLast?) rest content) :
      ReadsString vocabulary (.tags previous) text content
  | prose {previous : Option Char} {char : Char} {rest content : List Char}
      (noMark : ∀ written after, ¬ Mark previous (char :: rest) written after)
      (inside : ReadsString vocabulary (.tags (some char)) rest content) :
      ReadsString vocabulary (.tags previous) (char :: rest) content

/-- No string that is read from a place on runs across a line end. -/
def StringsInLine (vocabulary : Vocabulary) (place : Place) (text : List Char) : Prop :=
  ∀ content, ReadsString vocabulary place text content → '\n' ∉ content

/-! ## Strings stand after quotes -/

/-- All characters of a content stand after one quote of a text. -/
def AfterQuote (content text : List Char) : Prop :=
  ∃ rest, '"' :: rest <:+ text ∧ content ⊆ rest

variable {vocabulary : Vocabulary} {place : Place} {text content : List Char}

theorem AfterQuote.of_suffix {inner : List Char} (after : AfterQuote content inner)
    (within : inner <:+ text) : AfterQuote content text := by
  obtain ⟨rest, quote, inside⟩ := after
  exact ⟨rest, quote.trans within, inside⟩

/-- A string at the start of a text stands after its opening quote. -/
theorem afterQuote_of_startsWithString (starts : StartsWithString text content) :
    AfterQuote content text := by
  cases starts with
  | @string _ after _ =>
      refine ⟨Grammar.doubled content ++ '"' :: after, by simp [Grammar.quoted], ?_⟩
      intro char member
      refine List.mem_append_left _ (List.mem_flatMap.2 ⟨char, member, ?_⟩)
      split <;> simp_all

/-- A string that is read stands after its opening quote. -/
theorem ReadsString.afterQuote (reads : ReadsString vocabulary place text content) :
    AfterQuote content text := by
  induction reads with
  | string starts =>
      exact (afterQuote_of_startsWithString starts).of_suffix (Text.skipBlanks_suffix _)
  | array opens _ inductionHypothesis =>
      exact inductionHypothesis.of_suffix (Grammar.suffix_of_skipBlanks opens)
  | key starts => exact afterQuote_of_startsWithString starts
  | itemValue keyed _ inductionHypothesis =>
      exact inductionHypothesis.of_suffix (Grammar.readKey_suffix keyed)
  | entry _ inductionHypothesis => exact inductionHypothesis.of_suffix (Text.skipBlanks_suffix _)
  | argument _ inductionHypothesis => exact inductionHypothesis.of_suffix (Text.skipBlanks_suffix _)
  | laterEntry read separated _ inductionHypothesis =>
      exact inductionHypothesis.of_suffix ((Grammar.suffix_of_skipBlanks separated).trans
        ((Grammar.itemOutcome_suffix read).trans (Text.skipBlanks_suffix _)))
  | laterArgument read _ separated _ inductionHypothesis =>
      exact inductionHypothesis.of_suffix ((Grammar.suffix_of_skipBlanks separated).trans
        ((Grammar.itemOutcome_suffix read).trans (Text.skipBlanks_suffix _)))
  | list mark _ opens _ inductionHypothesis =>
      refine inductionHypothesis.of_suffix ((Grammar.suffix_of_skipBlanks opens).trans ?_)
      rw [mark.whole, ← List.cons_append]
      exact List.suffix_append _ _
  | laterTag mark takes _ inductionHypothesis =>
      refine inductionHypothesis.of_suffix ?_
      rw [mark.text_eq takes]
      exact List.suffix_append _ _
  | prose _ _ inductionHypothesis => exact inductionHypothesis.of_suffix (List.suffix_cons _ _)

/-- No string runs across a line end if no line ends after the first quote. -/
theorem stringsInLine_of_append {front tail : List Char} (noQuote : '"' ∉ front)
    (noFeed : '\n' ∉ tail) : StringsInLine vocabulary place (front ++ tail) := by
  intro content reads feed
  obtain ⟨rest, ⟨before, whole⟩, inside⟩ := reads.afterQuote
  rcases List.append_eq_append_iff.1 whole with ⟨between, split, after⟩ | ⟨between, -, after⟩
  · cases between with
    | nil =>
        rw [List.nil_append] at after
        exact noFeed (after ▸ .tail _ (inside feed))
    | cons first others =>
        obtain ⟨rfl, -⟩ := List.cons.inj after
        exact noQuote (by simp [split])
  · exact noFeed (by simp [after, inside feed])

end DocblockScan.Docblock

import DocblockScan.Proofs.Docblock.RenderedLines

/-!
# Comments around a quote

A quote is no blank, no mark and no margin, and so what a comment contains before a quote
does not depend on what stands after it: `contents_append_quote`. Between the quotes of a
string the comment keeps the text up to the margins of its lines, whatever the text is,
and quotes that are doubled stay doubled: `contents_append_quoted`.
-/

namespace DocblockScan.Docblock

open Grammar (doubled doubled_nil doubled_cons quoted)
open Text (consLine lineInduction)

/-! ## Lines around a quote -/

/-- The lines of a text without their margins. -/
def cleaned (text : List Char) : List Char :=
  List.intercalate ['\n'] ((Text.lines text).map withoutMargin)

/-- A quote belongs to the line that goes on after it. -/
theorem exists_lines_quote (rest : List Char) :
    ∃ stop others, Text.lines ('"' :: rest) = ('"' :: stop) :: others := by
  rw [Text.lines_cons (by decide) (fun isReturn => absurd isReturn (by decide))]
  cases Text.lines rest with
  | nil => exact ⟨[], [], rfl⟩
  | cons first others => exact ⟨first, others, rfl⟩

/-- The lines before a quote do not depend on what stands after it. -/
theorem lines_append_quote (front : List Char) :
    ∃ before start, ∀ rest stop others, Text.lines ('"' :: rest) = ('"' :: stop) :: others →
      Text.lines (front ++ '"' :: rest) = before ++ (start ++ '"' :: stop) :: others := by
  induction front using lineInduction with
  | nil => exact ⟨[], [], fun rest stop others same => same⟩
  | feed tail inductionHypothesis =>
      obtain ⟨before, start, same⟩ := inductionHypothesis
      refine ⟨[] :: before, start, fun rest stop others quote => ?_⟩
      rw [List.cons_append, Text.lines_feed, same rest stop others quote, List.cons_append]
  | ret tail inductionHypothesis =>
      obtain ⟨before, start, same⟩ := inductionHypothesis
      refine ⟨[] :: before, start, fun rest stop others quote => ?_⟩
      rw [List.cons_append, List.cons_append, Text.lines_return, same rest stop others quote,
        List.cons_append]
  | other char tail plain noReturn inductionHypothesis =>
      obtain ⟨before, start, same⟩ := inductionHypothesis
      have whole : ∀ rest stop others, Text.lines ('"' :: rest) = ('"' :: stop) :: others →
          Text.lines (char :: tail ++ '"' :: rest) =
            consLine char (before ++ (start ++ '"' :: stop) :: others) := by
        intro rest stop others quote
        rw [← same rest stop others quote, List.cons_append]
        refine Text.lines_cons plain fun isReturn => ?_
        cases tail with
        | nil => simp
        | cons next more => exact noReturn isReturn
      cases before with
      | nil => exact ⟨[], char :: start, whole⟩
      | cons first more => exact ⟨(char :: first) :: more, start, whole⟩

/-- The margin of a line ends before a quote. -/
theorem withoutMargin_append_quote (start : List Char) :
    ∃ kept, ∀ stop, withoutMargin (start ++ '"' :: stop) = kept ++ '"' :: stop := by
  simp only [withoutMargin, Text.skipBlanks_append_cons (show Text.isBlank '"' = false by decide)]
  cases Text.skipBlanks start with
  | nil => exact ⟨[], fun stop => rfl⟩
  | cons char more =>
      by_cases asterisk : char = '*'
      · subst asterisk
        exact ⟨more, fun stop => rfl⟩
      · refine ⟨char :: more, fun stop => ?_⟩
        split
        · next same => exact absurd (List.cons.inj same).1 asterisk
        · rfl

/-- A line that starts with a quote has no margin. -/
theorem withoutMargin_quote (stop : List Char) : withoutMargin ('"' :: stop) = '"' :: stop :=
  Rendering.withoutMargin_cons (by decide) (by decide) stop

/-- Lines are joined one after the other. -/
theorem intercalate_append_cons (before : List (List Char)) (start stop : List Char)
    (others : List (List Char)) :
    List.intercalate ['\n'] (before ++ (start ++ stop) :: others) =
      (before.flatMap fun line => line ++ ['\n']) ++
        (start ++ List.intercalate ['\n'] (stop :: others)) := by
  induction before with
  | nil =>
      cases others with
      | nil => simp
      | cons second more => simp [List.intercalate_cons_cons]
  | cons first more inductionHypothesis =>
      obtain ⟨second, rest, split⟩ : ∃ second rest,
          more ++ (start ++ stop) :: others = second :: rest := by
        cases more with
        | nil => exact ⟨_, _, rfl⟩
        | cons second rest => exact ⟨_, _, rfl⟩
      rw [List.cons_append, split, List.intercalate_cons_cons, ← split, inductionHypothesis]
      simp

/-- What is kept before a quote does not depend on what stands after it. -/
theorem cleaned_append_quote (front : List Char) :
    ∃ kept, ∀ rest, cleaned (front ++ '"' :: rest) = kept ++ cleaned ('"' :: rest) := by
  obtain ⟨before, start, whole⟩ := lines_append_quote front
  obtain ⟨kept, margin⟩ := withoutMargin_append_quote start
  refine ⟨((before.map withoutMargin).flatMap fun line => line ++ ['\n']) ++ kept,
    fun rest => ?_⟩
  obtain ⟨stop, others, quote⟩ := exists_lines_quote rest
  simp only [cleaned, whole rest stop others quote, quote, List.map_append, List.map_cons, margin,
    withoutMargin_quote]
  rw [intercalate_append_cons, List.append_assoc]

/-- A quote at the start is kept, with what is kept up to the next quote. -/
theorem cleaned_between_quotes (content : List Char) :
    ∃ kept, ∀ rest, cleaned ('"' :: (content ++ '"' :: rest)) =
      '"' :: (kept ++ cleaned ('"' :: rest)) := by
  obtain ⟨before, start, whole⟩ := lines_append_quote content
  have quoted : ∀ rest stop others, Text.lines ('"' :: rest) = ('"' :: stop) :: others →
      Text.lines ('"' :: (content ++ '"' :: rest)) =
        consLine '"' (before ++ (start ++ '"' :: stop) :: others) := by
    intro rest stop others quote
    rw [← whole rest stop others quote]
    exact Text.lines_cons (by decide) fun isReturn => absurd isReturn (by decide)
  cases before with
  | nil =>
      refine ⟨start, fun rest => ?_⟩
      obtain ⟨stop, others, quote⟩ := exists_lines_quote rest
      simp only [cleaned, quoted rest stop others quote, quote, List.nil_append, consLine,
        List.map_cons, withoutMargin_quote]
      exact intercalate_append_cons [] ('"' :: start) ('"' :: stop) (others.map withoutMargin)
  | cons first more =>
      obtain ⟨kept, margin⟩ := withoutMargin_append_quote start
      refine ⟨first ++ ('\n' :: ((more.map withoutMargin).flatMap fun line => line ++ ['\n'])) ++
        kept, fun rest => ?_⟩
      obtain ⟨stop, others, quote⟩ := exists_lines_quote rest
      simp only [cleaned, quoted rest stop others quote, quote, List.cons_append, consLine,
        List.map_append, List.map_cons, withoutMargin_quote, margin]
      have joined := intercalate_append_cons (('"' :: first) :: more.map withoutMargin) kept
        ('"' :: stop) (others.map withoutMargin)
      rw [List.cons_append] at joined
      rw [joined]
      simp

/-- A quote before another one is kept. -/
theorem cleaned_quote_quote (rest : List Char) :
    cleaned ('"' :: '"' :: rest) = '"' :: cleaned ('"' :: rest) := by
  obtain ⟨stop, others, quote⟩ := exists_lines_quote rest
  have both : Text.lines ('"' :: '"' :: rest) = ('"' :: '"' :: stop) :: others := by
    rw [Text.lines_cons (by decide) (fun isReturn => absurd isReturn (by decide)), quote, consLine]
  simp only [cleaned, both, quote, List.map_cons, withoutMargin_quote]
  exact intercalate_append_cons [] ['"'] ('"' :: stop) (others.map withoutMargin)

/-- A quote at the start is kept. -/
theorem exists_cleaned_quote (rest : List Char) : ∃ kept, cleaned ('"' :: rest) = '"' :: kept := by
  obtain ⟨stop, others, quote⟩ := exists_lines_quote rest
  rw [cleaned, quote, List.map_cons, withoutMargin_quote]
  cases others with
  | nil => exact ⟨stop, by simp⟩
  | cons second more => exact ⟨_, by rw [List.map_cons, List.intercalate_cons_cons]; rfl⟩

/-! ## Doubled quotes -/

/-- Doubled quotes start a text where quotes start it. -/
theorem head?_doubled (text : List Char) : (doubled text).head? = text.head? := by
  cases text with
  | nil => rfl
  | cons char rest =>
      rw [doubled_cons]
      split
      · next quote =>
          subst quote
          rfl
      · rfl

/-- Doubling quotes doubles them in every line. -/
theorem lines_doubled (text : List Char) :
    Text.lines (doubled text) = (Text.lines text).map doubled := by
  induction text using lineInduction with
  | nil => rfl
  | feed rest inductionHypothesis =>
      rw [Text.lines_feed, List.map_cons, ← inductionHypothesis]
      exact Text.lines_feed _
  | ret rest inductionHypothesis =>
      rw [Text.lines_return, List.map_cons, ← inductionHypothesis]
      exact Text.lines_return _
  | other char rest plain noReturn inductionHypothesis =>
      rw [Text.lines_cons plain noReturn]
      by_cases quote : char = '"'
      · subst quote
        have noQuoteReturn : ∀ others : List Char, '"' = '\r' → others.head? ≠ some '\n' :=
          fun _ isReturn => absurd isReturn (by decide)
        rw [doubled_cons, if_pos rfl, List.cons_append, List.cons_append, List.nil_append,
          Text.lines_cons plain (noQuoteReturn _), Text.lines_cons plain (noQuoteReturn _),
          inductionHypothesis]
        cases Text.lines rest <;> rfl
      · rw [doubled_cons, if_neg quote, List.cons_append, List.nil_append,
          Text.lines_cons plain (head?_doubled rest ▸ noReturn), inductionHypothesis]
        cases Text.lines rest with
        | nil => simp [consLine, quote]
        | cons first others => simp [consLine, quote]

/-- Quotes are doubled after a margin as they are in a line. -/
theorem withoutMargin_doubled (line : List Char) :
    withoutMargin (doubled line) = doubled (withoutMargin line) := by
  have skipped : Text.skipBlanks (doubled line) = doubled (Text.skipBlanks line) := by
    induction line with
    | nil => rfl
    | cons char rest inductionHypothesis =>
        by_cases blank : Text.isBlank char = true
        · have plain : char ≠ '"' := by
            rintro rfl
            exact absurd blank (by decide)
          simpa [Text.skipBlanks, plain, blank] using inductionHypothesis
        · simp only [Bool.not_eq_true] at blank
          rw [Text.skipBlanks_cons blank, doubled_cons]
          split
          · exact Text.skipBlanks_cons (by decide) _
          · exact Text.skipBlanks_cons blank _
  unfold withoutMargin
  rw [skipped]
  cases Text.skipBlanks line with
  | nil => rfl
  | cons char rest =>
      by_cases quote : char = '"'
      · subst quote
        rfl
      · rw [doubled_cons, if_neg quote, List.singleton_append]
        by_cases asterisk : char = '*'
        · subst asterisk
          rfl
        · split
          · next same => exact absurd (List.cons.inj same).1 asterisk
          · split
            · next same => exact absurd (List.cons.inj same).1 asterisk
            · simp [quote]

/-- Quotes are doubled in what is kept as they are in the text. -/
theorem cleaned_doubled (text : List Char) : cleaned (doubled text) = doubled (cleaned text) := by
  have joined : ∀ lines : List (List Char), List.intercalate ['\n'] (lines.map doubled) =
      doubled (List.intercalate ['\n'] lines) := by
    intro lines
    induction lines with
    | nil => rfl
    | cons first others inductionHypothesis =>
        cases others with
        | nil => simp
        | cons second more =>
            rw [List.map_cons, List.map_cons, List.intercalate_cons_cons,
              List.intercalate_cons_cons, ← List.map_cons, inductionHypothesis]
            simp [doubled]
  unfold cleaned
  rw [lines_doubled, ← joined, List.map_map, List.map_map]
  exact congrArg _ (List.map_congr_left fun line _ => withoutMargin_doubled line)

/-! ## Comments around a quote -/

/-- A text before a quote, without its leading blanks and the mark that opens a comment. -/
def opened (front : List Char) : List Char :=
  let start := Text.skipBlanks front
  ((Text.dropStart? "/**".toList start).or (Text.dropStart? "/*".toList start)).getD start

/-- A text after a quote, without its trailing blanks and the mark that closes a comment. -/
def closed (rest : List Char) : List Char :=
  let stop := Text.dropEndWhile Text.isBlank rest
  (Text.dropEnd? "*/".toList stop).getD stop

/-- A quote is not trimmed. -/
theorem trim_append_quote (front rest : List Char) :
    Text.trim (front ++ '"' :: rest) =
      Text.skipBlanks front ++ '"' :: Text.dropEndWhile Text.isBlank rest := by
  have solid : Text.isBlank '"' = false := by decide
  show Text.dropEndWhile Text.isBlank (Text.skipBlanks (front ++ '"' :: rest)) = _
  rw [Text.skipBlanks_append_cons solid, Text.dropEndWhile_append_cons solid]

/-- A mark that has no quote starts a text if it starts what stands before the quote. -/
theorem dropStart?_append_quote {mark : List Char} (noQuote : '"' ∉ mark)
    (front rest : List Char) :
    Text.dropStart? mark (front ++ '"' :: rest) =
      (Text.dropStart? mark front).map (· ++ '"' :: rest) := by
  have starts : mark <+: front ++ '"' :: rest ↔ mark <+: front := by
    constructor
    · rintro ⟨tail, whole⟩
      rcases List.append_eq_append_iff.1 whole with ⟨between, rfl, -⟩ | ⟨between, rfl, same⟩
      · exact List.prefix_append _ _
      · cases between with
        | nil => simp
        | cons char more =>
            obtain ⟨rfl, -⟩ := List.cons.inj same
            exact absurd (by simp) noQuote
    · intro isPrefix
      exact isPrefix.trans (List.prefix_append _ _)
  unfold Text.dropStart?
  by_cases isPrefix : mark <+: front
  · rw [if_pos (List.isPrefixOf_iff_prefix.2 (starts.2 isPrefix)),
      if_pos (List.isPrefixOf_iff_prefix.2 isPrefix),
      List.drop_append_of_le_length isPrefix.length_le]
    rfl
  · rw [if_neg (mt List.isPrefixOf_iff_prefix.1 (mt starts.1 isPrefix)),
      if_neg (mt List.isPrefixOf_iff_prefix.1 isPrefix)]
    rfl

/-- A mark that has no quote ends a text if it ends what stands after the quote. -/
theorem dropEnd?_append_quote {mark : List Char} (noQuote : '"' ∉ mark)
    (front rest : List Char) :
    Text.dropEnd? mark (front ++ '"' :: rest) =
      (Text.dropEnd? mark rest).map (front ++ '"' :: ·) := by
  have split : front ++ '"' :: rest = (front ++ ['"']) ++ rest := by simp
  have ends : mark <:+ front ++ '"' :: rest ↔ mark <:+ rest := by
    constructor
    · rintro ⟨before, whole⟩
      rw [split] at whole
      rcases List.append_eq_append_iff.1 whole with ⟨between, same, rfl⟩ | ⟨between, -, rfl⟩
      · rcases List.eq_nil_or_concat between with rfl | ⟨more, last, rfl⟩
        · simp
        · rw [List.concat_eq_append, ← List.append_assoc] at same
          obtain ⟨-, last⟩ := List.append_inj' same rfl
          obtain rfl := List.singleton_inj.1 last
          exact absurd (by simp) noQuote
      · exact List.suffix_append _ _
    · intro isSuffix
      rw [split]
      exact isSuffix.trans (List.suffix_append _ _)
  by_cases isSuffix : mark <:+ rest
  · obtain ⟨before, rfl⟩ := isSuffix
    rw [← List.cons_append, ← List.append_assoc, Text.dropEnd?_append, Text.dropEnd?_append]
    rfl
  · unfold Text.dropEnd?
    rw [if_neg (mt List.isSuffixOf_iff_suffix.1 (mt ends.1 isSuffix)),
      if_neg (mt List.isSuffixOf_iff_suffix.1 isSuffix)]
    rfl

/-- The marks of a comment stand before and after a quote that is inside it. -/
theorem contents_quote (front rest : List Char) :
    contents (front ++ '"' :: rest) = cleaned (opened front ++ '"' :: closed rest) := by
  have noQuote : '"' ∉ "/**".toList ∧ '"' ∉ "/*".toList ∧ '"' ∉ "*/".toList := by decide
  have inside : withoutDelimiters (Text.trim (front ++ '"' :: rest)) =
      opened front ++ '"' :: closed rest := by
    have opening : (((Text.dropStart? "/**".toList (Text.trim (front ++ '"' :: rest))).or
        (Text.dropStart? "/*".toList (Text.trim (front ++ '"' :: rest)))).getD
          (Text.trim (front ++ '"' :: rest))) =
        opened front ++ '"' :: Text.dropEndWhile Text.isBlank rest := by
      rw [trim_append_quote, dropStart?_append_quote noQuote.1,
        dropStart?_append_quote noQuote.2.1, opened]
      cases Text.dropStart? "/**".toList (Text.skipBlanks front) with
      | some start => rfl
      | none => cases Text.dropStart? "/*".toList (Text.skipBlanks front) <;> rfl
    rw [withoutDelimiters, opening, dropEnd?_append_quote noQuote.2.2, closed]
    cases Text.dropEnd? "*/".toList (Text.dropEndWhile Text.isBlank rest) <;> rfl
  rw [contents, inside]
  rfl

/-- A quote at the start stands after all marks that open a comment. -/
theorem opened_quote (tail : List Char) : opened ('"' :: tail) = '"' :: tail := by
  have solid : Text.skipBlanks ('"' :: tail) = '"' :: tail := Text.skipBlanks_cons (by decide) _
  rw [opened, solid]
  rfl

/-- What stands before a quote is before all marks that close a comment. -/
theorem closed_append_quote (front rest : List Char) :
    closed (front ++ '"' :: rest) = front ++ '"' :: closed rest := by
  rw [closed, Text.dropEndWhile_append_cons (by decide), dropEnd?_append_quote (by decide), closed]
  cases Text.dropEnd? "*/".toList (Text.dropEndWhile Text.isBlank rest) <;> rfl

/-! ## Strings in comments -/

/-- What a comment contains before a quote that follows a text. -/
def contentsBefore (front : List Char) : List Char :=
  (contents (front ++ ['"'])).dropLast

/-- What a comment contains after a quote that is followed by a text. -/
def contentsAfter (rest : List Char) : List Char :=
  (contents ('"' :: rest)).tail

/-- What a comment keeps of a text that stands between two quotes. -/
def keptContent (content : List Char) : List Char :=
  (contents ('"' :: (content ++ ['"']))).tail.dropLast

/-- What is kept between two quotes with nothing around them. -/
theorem cleaned_string (content : List Char) :
    cleaned ('"' :: (content ++ ['"'])) = '"' :: (keptContent content ++ ['"']) := by
  obtain ⟨kept, whole⟩ := cleaned_between_quotes content
  have string : cleaned ('"' :: (content ++ ['"'])) = '"' :: (kept ++ ['"']) := whole []
  have inComment : contents ('"' :: (content ++ ['"'])) = '"' :: (kept ++ ['"']) := by
    have marks := contents_quote ('"' :: content) []
    rw [opened_quote] at marks
    exact marks.trans string
  rw [string, keptContent, inComment]
  simp

/-- What is kept up to the second of two quotes is what is kept between them. -/
theorem cleaned_string_append (content rest : List Char) :
    cleaned ('"' :: (content ++ '"' :: rest)) =
      '"' :: (keptContent content ++ cleaned ('"' :: rest)) := by
  obtain ⟨kept, whole⟩ := cleaned_between_quotes content
  have string : '"' :: (kept ++ ['"']) = '"' :: (keptContent content ++ ['"']) :=
    (whole []).symm.trans (cleaned_string content)
  rw [whole rest, List.append_cancel_right (List.cons.inj string).2]

/-- Quotes are doubled in what a comment keeps between quotes as they are in the text. -/
theorem keptContent_doubled (content : List Char) :
    keptContent (doubled content) = doubled (keptContent content) := by
  have twice : doubled ('"' :: (content ++ ['"'])) =
      '"' :: '"' :: (doubled content ++ '"' :: ['"']) := by simp [doubled]
  have kept := cleaned_doubled ('"' :: (content ++ ['"']))
  rw [twice, cleaned_quote_quote, cleaned_string_append, cleaned_string] at kept
  have same : '"' :: '"' :: (keptContent (doubled content) ++ ['"', '"']) =
      '"' :: '"' :: (doubled (keptContent content) ++ ['"', '"']) := by
    have quotes : cleaned ['"', '"'] = ['"', '"'] := rfl
    rw [quotes] at kept
    simpa [doubled] using kept
  exact List.append_cancel_right (List.cons.inj (List.cons.inj same).2).2

/-- A comment contains a string up to the margins of the lines in it. What it contains
before and after the string does not depend on the string. -/
theorem contents_append_quoted (front content rest : List Char) :
    contents (front ++ (quoted content ++ rest)) =
      contentsBefore front ++ (quoted (keptContent content) ++ contentsAfter rest) := by
  obtain ⟨kept, before⟩ := cleaned_append_quote (opened front)
  obtain ⟨after, quote⟩ := exists_cleaned_quote (closed rest)
  have isBefore : contentsBefore front = kept := by
    have whole : contents (front ++ ['"']) = kept ++ ['"'] :=
      (contents_quote front []).trans (before (closed []))
    rw [contentsBefore, whole, List.dropLast_concat]
  have isAfter : contentsAfter rest = after := by
    have whole : contents ('"' :: rest) = '"' :: after := (contents_quote [] rest).trans quote
    rw [contentsAfter, whole, List.tail_cons]
  have string : quoted content ++ rest = '"' :: (doubled content ++ '"' :: rest) := by
    simp [quoted]
  rw [string, contents_quote, closed_append_quote, before, cleaned_string_append, quote,
    keptContent_doubled, isBefore, isAfter]
  simp [quoted]

/-- A text that ends with a quote has a last piece with characters. -/
theorem exists_last_piece (text : List Char) :
    ∃ before last, (text ++ ['"']).splitOn '\n' = before ++ [last] ∧ last ≠ [] := by
  have whole : List.intercalate ['\n'] ((text ++ ['"']).splitOn '\n') = text ++ ['"'] :=
    List.intercalate_splitOn '\n'
  rcases List.eq_nil_or_concat ((text ++ ['"']).splitOn '\n') with none | ⟨before, last, pieces⟩
  · exact absurd none (List.splitOn_ne_nil '\n' _)
  rw [List.concat_eq_append] at pieces
  refine ⟨before, last, pieces, ?_⟩
  rintro rfl
  -- then the text would end with the line feed before the piece
  have joined := intercalate_append_cons before [] [] []
  rw [List.append_nil, ← pieces, whole] at joined
  rcases List.eq_nil_or_concat before with rfl | ⟨others, line, rfl⟩
  · simp at joined
  · have ending := congrArg List.getLast? joined
    simp [List.concat_eq_append] at ending

/-- A text that comment lines keep is kept between quotes. -/
theorem keptContent_of_keepsBreak {content : List Char}
    (kept : content.IsChain Rendering.KeepsBreak) : keptContent content = content := by
  have chain : ('"' :: content ++ ['"']).IsChain Rendering.KeepsBreak := by
    refine List.isChain_append.2 ⟨?_, List.isChain_singleton _, ?_⟩
    · exact List.isChain_cons.2 ⟨fun next _ => (Rendering.keepsBreak_quote next).1, kept⟩
    · rintro last - _ ⟨⟩
      exact (Rendering.keepsBreak_quote last).2
  obtain ⟨before, last, pieces, notEmpty⟩ := exists_last_piece ('"' :: content)
  have joined : List.intercalate ['\n'] (before ++ [last]) = '"' :: content ++ ['"'] := by
    rw [← pieces]
    exact List.intercalate_splitOn '\n'
  have oneLine : ∀ piece ∈ before ++ [last], '\n' ∉ piece := by
    intro piece member
    exact Text.not_mem_of_mem_splitOn (pieces ▸ member)
  obtain ⟨first, others, split⟩ : ∃ first others, before ++ [last] = first :: others :=
    List.exists_cons_of_ne_nil (by simp)
  rw [split] at oneLine joined
  have closes : (List.intercalate ['\n'] (first :: others)).getLast? ≠ some '\r' := by
    rw [joined, List.getLast?_concat]
    decide
  obtain ⟨ends, margins⟩ := Rendering.kept_pieces oneLine (joined ▸ chain) closes
  have isLines : Text.lines ('"' :: content ++ ['"']) = first :: others := by
    have noReturn : ∀ piece ∈ before, piece.getLast? ≠ some '\r' := fun piece member =>
      ends piece (split ▸ List.mem_append_left _ member)
    rw [Text.lines_of_splitOn pieces noReturn, if_neg notEmpty, split]
  have starts : withoutMargin first = first := by
    obtain ⟨stop, more, quote⟩ := exists_lines_quote (content ++ ['"'])
    obtain ⟨rfl, -⟩ := List.cons.inj (isLines.symm.trans quote)
    exact withoutMargin_quote stop
  have same : cleaned ('"' :: (content ++ ['"'])) = '"' :: (content ++ ['"']) := by
    rw [cleaned, ← List.cons_append, isLines, List.map_cons, starts,
      List.map_congr_left (g := id) margins, List.map_id, joined]
  rw [cleaned_string] at same
  exact List.append_cancel_right (List.cons.inj same).2

end DocblockScan.Docblock

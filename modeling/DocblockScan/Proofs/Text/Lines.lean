import DocblockScan.Text.Pieces

/-!
# Texts cut at line feeds

What `lines` gives for a text whose pieces between line feeds are known, how
pieces are joined again, and what is left without a fixed ending. Character by
character lines are cut as `lines_feed`, `lines_return` and `lines_cons` say, line by
line as `lines_append_feed` says. `length_lines` counts them.
-/

namespace DocblockScan.Text

/-- The pieces of a text do not contain what it is cut at. -/
theorem not_mem_of_mem_splitOn {separator : Char} {text piece : List Char}
    (member : piece ∈ text.splitOn separator) : separator ∉ piece := by
  induction text generalizing piece with
  | nil => simp_all
  | cons char rest inductionHypothesis =>
      rw [List.splitOn_cons_eq_if_modifyHead] at member
      obtain ⟨first, others, pieces⟩ :=
        List.exists_cons_of_ne_nil (List.splitOn_ne_nil separator rest)
      rw [pieces] at member inductionHypothesis
      by_cases cut : char = separator
      · rw [if_pos (by simpa using cut), List.mem_cons] at member
        rcases member with rfl | member
        · simp
        · exact inductionHypothesis member
      · rw [if_neg (by simpa using cut), List.modifyHead_cons, List.mem_cons] at member
        rcases member with rfl | member
        · simp [Ne.symm cut, inductionHypothesis List.mem_cons_self]
        · exact inductionHypothesis (.tail _ member)

/-- What stands before a text without a line feed belongs to its first piece. -/
theorem splitOn_append_of_not_mem {start : List Char} (oneLine : '\n' ∉ start)
    {text first : List Char} {others : List (List Char)}
    (pieces : text.splitOn '\n' = first :: others) :
    (start ++ text).splitOn '\n' = (start ++ first) :: others := by
  induction start with
  | nil => exact pieces
  | cons char rest inductionHypothesis =>
      rw [List.mem_cons, not_or] at oneLine
      rw [List.cons_append, List.splitOn_cons_eq_if_modifyHead,
        if_neg (by simpa using Ne.symm oneLine.1), inductionHypothesis oneLine.2]
      rfl

/-- Pieces with a line feed before each of them are a line feed and the pieces joined. -/
theorem flatMap_feed (first : List Char) (others : List (List Char)) :
    ((first :: others).flatMap fun piece => '\n' :: piece) =
      '\n' :: List.intercalate ['\n'] (first :: others) := by
  induction others generalizing first with
  | nil => simp
  | cons second rest inductionHypothesis =>
      rw [List.flatMap_cons, inductionHypothesis, List.intercalate_cons_cons]
      simp

/-- Below an empty first piece a line feed stands before each piece. -/
theorem intercalate_feed (pieces : List (List Char)) :
    List.intercalate ['\n'] ([] :: pieces) = pieces.flatMap fun piece => '\n' :: piece := by
  have feed := flatMap_feed [] pieces
  rw [List.flatMap_cons] at feed
  exact (List.cons.inj feed).2.symm

/-- A fixed ending is dropped from a text that was put before it. -/
theorem dropEnd?_append (text ending : List Char) :
    dropEnd? ending (text ++ ending) = some text := by
  unfold dropEnd?
  rw [if_pos (List.isSuffixOf_iff_suffix.2 (List.suffix_append _ _)), List.length_append,
    Nat.add_sub_cancel, List.take_left]

/-- A text without a last carriage return loses nothing. -/
theorem dropEnd?_return {line : List Char} (kept : line.getLast? ≠ some '\r') :
    dropEnd? ['\r'] line = none := by
  unfold dropEnd?
  rw [if_neg]
  intro isLast
  obtain ⟨before, rfl⟩ := List.isSuffixOf_iff_suffix.1 isLast
  simp at kept

/-- The lines of a text are its pieces, if no piece but the last ends with a carriage
return; a last piece without characters is no line. -/
theorem lines_of_splitOn {text last : List Char} {before : List (List Char)}
    (pieces : text.splitOn '\n' = before ++ [last])
    (kept : ∀ piece ∈ before, piece.getLast? ≠ some '\r') :
    lines text = before ++ if last = [] then [] else [last] := by
  have ended : before.map (fun line => (dropEnd? ['\r'] line).getD line) = before := by
    rw [List.map_congr_left (g := id), List.map_id]
    intro piece member
    rw [dropEnd?_return (kept piece member)]
    rfl
  simp only [lines, pieces, List.dropLast_concat, List.getLast?_concat, ended]
  cases last with
  | nil => simp
  | cons char rest => simp

/-- A line without the carriage return that belongs to its end. -/
def withoutReturn (line : List Char) : List Char :=
  (dropEnd? ['\r'] line).getD line

/-- A line without its carriage return has no other characters. -/
theorem mem_of_mem_withoutReturn {char : Char} {line : List Char}
    (member : char ∈ withoutReturn line) : char ∈ line := by
  unfold withoutReturn dropEnd? at member
  split at member
  · exact List.mem_of_mem_take member
  · exact member

/-- A carriage return is taken from the last part of a line. -/
theorem withoutReturn_append (front : List Char) {last : List Char} (some : last ≠ []) :
    withoutReturn (front ++ last) = front ++ withoutReturn last := by
  rcases List.eq_nil_or_concat last with rfl | ⟨before, char, rfl⟩
  · exact absurd rfl some
  by_cases isReturn : char = '\r'
  · subst isReturn
    rw [List.concat_eq_append, ← List.append_assoc, withoutReturn, dropEnd?_append, withoutReturn,
      dropEnd?_append]
    rfl
  · have kept : ∀ text : List Char, (text ++ [char]).getLast? ≠ .some '\r' := by
      simpa using isReturn
    rw [List.concat_eq_append, ← List.append_assoc, withoutReturn, dropEnd?_return (kept _),
      withoutReturn, dropEnd?_return (kept _), List.append_assoc]
    rfl

/-- A line without its carriage return is what the line starts with. -/
theorem withoutReturn_prefix (line : List Char) : withoutReturn line <+: line := by
  unfold withoutReturn dropEnd?
  split
  · exact List.take_prefix _ _
  · exact List.prefix_refl line

/-- A line feed ends the line before it. -/
theorem lines_append_feed {line : List Char} (oneLine : '\n' ∉ line) (rest : List Char) :
    lines (line ++ '\n' :: rest) = withoutReturn line :: lines rest := by
  obtain ⟨first, others, pieces⟩ := List.exists_cons_of_ne_nil (List.splitOn_ne_nil '\n' rest)
  have whole : (line ++ '\n' :: rest).splitOn '\n' = line :: first :: others := by
    rw [List.splitOn_append_cons_self, List.splitOn_eq_singleton oneLine, pieces]
    rfl
  simp only [lines, whole, pieces, List.dropLast_cons_cons, List.map_cons, List.getLast?_cons_cons]
  cases (first :: others).getLast? with
  | none => rfl
  | some last => cases last <;> rfl

/-- A text without a line feed is one line, or no line. -/
theorem lines_of_not_mem {line : List Char} (oneLine : '\n' ∉ line) :
    lines line = if line = [] then [] else [line] := by
  have pieces : line.splitOn '\n' = [] ++ [line] := List.splitOn_eq_singleton oneLine
  exact lines_of_splitOn pieces nofun

/-! ## Lines character by character -/

/-- Lines with one more character at the start of the first one. -/
def consLine (char : Char) : List (List Char) → List (List Char)
  | [] => [[char]]
  | first :: others => (char :: first) :: others

/-- A line feed ends an empty line. -/
theorem lines_feed (rest : List Char) : lines ('\n' :: rest) = [] :: lines rest := by
  obtain ⟨first, others, pieces⟩ := List.exists_cons_of_ne_nil (List.splitOn_ne_nil '\n' rest)
  have whole : ('\n' :: rest).splitOn '\n' = [] :: first :: others := by
    rw [List.splitOn_cons_eq_if_modifyHead, if_pos (beq_self_eq_true _), pieces]
  simp only [lines, whole, pieces, List.dropLast_cons_cons, List.map_cons, List.getLast?_cons_cons]
  rw [dropEnd?_return (by simp)]
  cases (first :: others).getLast? with
  | none => rfl
  | some last => cases last <;> rfl

/-- A carriage return before a line feed belongs to the end of the line. -/
theorem lines_return (rest : List Char) : lines ('\r' :: '\n' :: rest) = [] :: lines rest := by
  obtain ⟨first, others, pieces⟩ := List.exists_cons_of_ne_nil (List.splitOn_ne_nil '\n' rest)
  have whole : ('\r' :: '\n' :: rest).splitOn '\n' = ['\r'] :: first :: others := by
    rw [List.splitOn_cons_eq_if_modifyHead, if_neg (by decide), List.splitOn_cons_eq_if_modifyHead,
      if_pos (beq_self_eq_true _), pieces]
    rfl
  simp only [lines, whole, pieces, List.dropLast_cons_cons, List.map_cons, List.getLast?_cons_cons]
  have ended : (dropEnd? ['\r'] ['\r']).getD ['\r'] = [] := by decide
  rw [ended]
  cases (first :: others).getLast? with
  | none => rfl
  | some last => cases last <;> rfl

/-- A first piece without characters ends with a line feed at the start. -/
theorem head?_of_splitOn {text second : List Char} {others : List (List Char)}
    (pieces : text.splitOn '\n' = [] :: second :: others) : text.head? = some '\n' := by
  cases text with
  | nil => simp at pieces
  | cons char rest =>
      obtain ⟨first, more, split⟩ := List.exists_cons_of_ne_nil (List.splitOn_ne_nil '\n' rest)
      rw [List.splitOn_cons_eq_if_modifyHead, split] at pieces
      by_cases feed : char = '\n'
      · rw [feed]
        rfl
      · simp [feed] at pieces

/-- Any other character belongs to the first line. -/
theorem lines_cons {char : Char} {rest : List Char} (plain : char ≠ '\n')
    (noReturn : char = '\r' → rest.head? ≠ some '\n') :
    lines (char :: rest) = consLine char (lines rest) := by
  obtain ⟨first, others, pieces⟩ := List.exists_cons_of_ne_nil (List.splitOn_ne_nil '\n' rest)
  have whole : (char :: rest).splitOn '\n' = (char :: first) :: others := by
    rw [List.splitOn_cons_eq_if_modifyHead, if_neg (by simpa using plain), pieces]
    rfl
  cases others with
  | nil =>
      simp only [lines, whole, pieces]
      cases first <;> rfl
  | cons second more =>
      have ended : (dropEnd? ['\r'] (char :: first)).getD (char :: first) =
          char :: (dropEnd? ['\r'] first).getD first := by
        by_cases ends : first.getLast? = some '\r'
        · obtain ⟨before, rfl⟩ := List.getLast?_eq_some_iff.1 ends
          rw [← List.cons_append, dropEnd?_append, dropEnd?_append]
          rfl
        · have plainEnd : (char :: first).getLast? ≠ some '\r' := by
            cases first with
            | nil =>
                intro isReturn
                obtain rfl : char = '\r' := by simpa using isReturn
                exact noReturn rfl (head?_of_splitOn pieces)
            | cons next tail => simpa using ends
          rw [dropEnd?_return ends, dropEnd?_return plainEnd]
          rfl
      simp only [lines, whole, pieces, List.dropLast_cons_cons, List.map_cons, List.getLast?_cons_cons,
        ended]
      cases (second :: more).getLast? with
      | none => rfl
      | some last => cases last <;> rfl

/-- An induction that takes a text apart as its lines are cut: at a line feed, at a
carriage return before one, and else character by character. -/
@[elab_as_elim]
theorem lineInduction {motive : List Char → Prop} (nil : motive [])
    (feed : ∀ rest, motive rest → motive ('\n' :: rest))
    (ret : ∀ rest, motive rest → motive ('\r' :: '\n' :: rest))
    (other : ∀ char rest, char ≠ '\n' → (char = '\r' → rest.head? ≠ some '\n') → motive rest →
      motive (char :: rest)) (text : List Char) : motive text := by
  induction length : text.length using Nat.strongRecOn generalizing text with
  | _ bound inductionHypothesis =>
      cases text with
      | nil => exact nil
      | cons char rest =>
          rw [List.length_cons] at length
          have tail := inductionHypothesis rest.length (by omega) rest rfl
          by_cases plain : char = '\n'
          · subst plain
            exact feed rest tail
          by_cases isReturn : char = '\r' ∧ rest.head? = some '\n'
          · obtain ⟨rfl, starts⟩ := isReturn
            obtain ⟨after, rfl⟩ := List.head?_eq_some_iff.1 starts
            rw [List.length_cons] at length
            exact ret after (inductionHypothesis after.length (by omega) after rfl)
          · exact other char rest plain (fun same starts => isReturn ⟨same, starts⟩) tail

/-! ## How many lines -/

/-- No line feed is a part of a line. -/
theorem not_mem_of_mem_lines {text line : List Char} (member : line ∈ lines text) :
    '\n' ∉ line := by
  induction text using lineInduction generalizing line with
  | nil => simp [lines] at member
  | feed rest inductionHypothesis =>
      rw [lines_feed, List.mem_cons] at member
      rcases member with rfl | member
      · simp
      · exact inductionHypothesis member
  | ret rest inductionHypothesis =>
      rw [lines_return, List.mem_cons] at member
      rcases member with rfl | member
      · simp
      · exact inductionHypothesis member
  | other char rest plain noReturn inductionHypothesis =>
      rw [lines_cons plain noReturn] at member
      cases cut : lines rest with
      | nil =>
          rw [cut] at member
          obtain rfl := List.mem_singleton.1 member
          simpa using plain.symm
      | cons first others =>
          rw [cut, consLine, List.mem_cons] at member
          rw [cut] at inductionHypothesis
          rcases member with rfl | member
          · simp [plain.symm, inductionHypothesis List.mem_cons_self]
          · exact inductionHypothesis (.tail _ member)

/-- With one more character at the start of the first line there is a first line. -/
theorem length_consLine (char : Char) (cut : List (List Char)) :
    (consLine char cut).length = max 1 cut.length := by
  cases cut with
  | nil => rfl
  | cons first others =>
      simp only [consLine, List.length_cons]
      omega

/-- There is at most one line more than there are line feeds. -/
theorem length_lines_le (text : List Char) : (lines text).length ≤ text.count '\n' + 1 := by
  induction text using lineInduction with
  | nil => simp [lines]
  | feed rest inductionHypothesis => simpa [lines_feed] using inductionHypothesis
  | ret rest inductionHypothesis => simpa [lines_return] using inductionHypothesis
  | other char rest plain noReturn inductionHypothesis =>
      rw [lines_cons plain noReturn, length_consLine, List.count_cons_of_ne plain]
      omega

/-- After the last line feed of a text that does not end with one stands one more line. -/
theorem length_lines {text : List Char} {last : Char} (ends : text.getLast? = some last)
    (noFeed : last ≠ '\n') : (lines text).length = text.count '\n' + 1 := by
  induction text using lineInduction with
  | nil => simp at ends
  | feed rest inductionHypothesis =>
      cases rest with
      | nil => exact absurd (Option.some.inj ends).symm noFeed
      | cons next others =>
          rw [List.getLast?_cons_cons] at ends
          simpa [lines_feed] using inductionHypothesis ends
  | ret rest inductionHypothesis =>
      cases rest with
      | nil => exact absurd (Option.some.inj ends).symm noFeed
      | cons next others =>
          rw [List.getLast?_cons_cons, List.getLast?_cons_cons] at ends
          simpa [lines_return] using inductionHypothesis ends
  | other char rest plain noReturn inductionHypothesis =>
      rw [lines_cons plain noReturn, length_consLine, List.count_cons_of_ne plain]
      cases rest with
      | nil => rfl
      | cons next others =>
          rw [List.getLast?_cons_cons] at ends
          rw [inductionHypothesis ends]
          omega

/-- There is a line feed for each of the lines that it stands before. -/
theorem count_flatMap_feed {texts : List (List Char)} (oneLine : ∀ text ∈ texts, '\n' ∉ text) :
    (texts.flatMap fun text => '\n' :: text).count '\n' = texts.length := by
  induction texts with
  | nil => rfl
  | cons first others inductionHypothesis =>
      rw [List.flatMap_cons, List.count_append, List.count_cons_self,
        List.count_eq_zero_of_not_mem (oneLine first List.mem_cons_self),
        inductionHypothesis fun text member => oneLine text (.tail _ member), List.length_cons]
      omega

end DocblockScan.Text

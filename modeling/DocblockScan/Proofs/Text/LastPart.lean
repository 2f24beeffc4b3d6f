import DocblockScan.Text.Pieces

/-!
# The last part of a text

What `afterLast` gives is a suffix of the text and its last piece. Characters that
stand after all separators stay in it, whatever is put in front of the text. `splitLast?`
gives what stands before it as well.
-/

namespace DocblockScan.Text

variable {separator : Char}

/-- The last part does not contain the separator. -/
theorem not_mem_afterLast (separator : Char) (text : List Char) :
    separator ∉ afterLast separator text := by
  intro member
  have all := List.all_eq_true.1
    (List.all_takeWhile (p := (· != separator)) (l := text.reverse)) separator
    (List.mem_reverse.1 member)
  simp at all

/-- A text is its last part after a front that is empty or ends with the separator. -/
theorem exists_append_afterLast (separator : Char) (text : List Char) :
    text = afterLast separator text ∨
      ∃ front, text = front ++ separator :: afterLast separator text := by
  have whole := List.takeWhile_append_dropWhile (p := (· != separator)) (l := text.reverse)
  cases dropped : text.reverse.dropWhile (· != separator) with
  | nil =>
      left
      rw [dropped, List.append_nil] at whole
      rw [afterLast, whole, List.reverse_reverse]
  | cons char before =>
      right
      have head := List.head?_dropWhile_not (· != separator) text.reverse
      rw [dropped] at head
      obtain rfl : char = separator := by simpa using head
      rw [dropped] at whole
      exact ⟨before.reverse, by
        simpa [afterLast] using (congrArg List.reverse whole).symm⟩

/-- The characters of the last part are characters of the text. -/
theorem mem_of_mem_afterLast {char : Char} {text : List Char}
    (member : char ∈ afterLast separator text) : char ∈ text := by
  rcases exists_append_afterLast separator text with same | ⟨front, split⟩
  · rw [same]
    exact member
  · rw [split]
    simp [member]

/-- The last part of a text without separators is the text. -/
theorem afterLast_of_not_mem {text : List Char} (single : separator ∉ text) :
    afterLast separator text = text := by
  rcases exists_append_afterLast separator text with same | ⟨front, split⟩
  · exact same.symm
  · rw [split] at single
    simp at single

/-- What follows without separators belongs to the last part. -/
theorem afterLast_append {tail : List Char} (single : separator ∉ tail) (front : List Char) :
    afterLast separator (front ++ tail) = afterLast separator front ++ tail := by
  unfold afterLast
  rw [List.reverse_append, List.takeWhile_append_of_pos, List.reverse_append,
    List.reverse_reverse]
  intro char member
  have apart : char ≠ separator := by
    rintro rfl
    exact single (List.mem_reverse.1 member)
  simpa using apart

/-- What stands before a separator has no influence on the last part. -/
theorem afterLast_append_cons (front tail : List Char) :
    afterLast separator (front ++ separator :: tail) = afterLast separator tail := by
  have stops : ∀ text rest : List Char, (text ++ separator :: rest).takeWhile (· != separator) =
      text.takeWhile (· != separator) := by
    intro text rest
    induction text with
    | nil => simp
    | cons char others inductionHypothesis => simp [List.takeWhile_cons, inductionHypothesis]
  unfold afterLast
  rw [List.reverse_append, List.reverse_cons, List.append_assoc, List.singleton_append, stops]

/-- Looking for a separator from the end passes over what has none. -/
theorem dropWhile_reverse {tail : List Char} (single : separator ∉ tail) (rest : List Char) :
    (tail.reverse ++ rest).dropWhile (· != separator) = rest.dropWhile (· != separator) := by
  refine List.dropWhile_append_of_pos fun char member => ?_
  rw [bne_iff_ne]
  rintro rfl
  exact single (List.mem_reverse.1 member)

/-- A text is cut at a separator that no other one follows. -/
theorem splitLast?_append_cons {tail : List Char} (single : separator ∉ tail)
    (front : List Char) : splitLast? separator (front ++ separator :: tail) = some (front, tail) := by
  unfold splitLast?
  rw [List.reverse_append, List.reverse_cons, List.append_assoc, dropWhile_reverse single,
    afterLast_append_cons, afterLast_of_not_mem single]
  simp

/-- A text without separators is not cut. -/
theorem splitLast?_of_not_mem {text : List Char} (single : separator ∉ text) :
    splitLast? separator text = none := by
  have passed := dropWhile_reverse single []
  rw [List.append_nil, List.dropWhile_nil] at passed
  unfold splitLast?
  rw [passed]

/-- The last part of a text is longer the more of the text there is. -/
theorem afterLast_suffix {short long : List Char} (suffix : short <:+ long) :
    afterLast separator short <:+ afterLast separator long := by
  obtain ⟨front, rfl⟩ := suffix
  rcases exists_append_afterLast separator short with same | ⟨middle, split⟩
  · have single := not_mem_afterLast separator short
    rw [← same] at single ⊢
    rw [afterLast_append single]
    exact List.suffix_append _ _
  · have same : afterLast separator (front ++ short) = afterLast separator short := by
      rw [split, ← List.append_assoc, afterLast_append_cons, afterLast_append_cons]
    exact same ▸ List.suffix_rfl

/-- Characters are replaced in the last part alike, if no other character becomes a
separator. -/
theorem afterLast_map {replace : Char → Char} (keeps : ∀ char, replace char = separator ↔
    char = separator) (text : List Char) :
    afterLast separator (text.map replace) = (afterLast separator text).map replace := by
  have same : ((· != separator) ∘ replace) = (· != separator) := by
    funext char
    by_cases isSeparator : char = separator
    · simp [isSeparator, (keeps separator).2 rfl]
    · have apart : replace char ≠ separator := mt (keeps char).1 isSeparator
      rw [Function.comp_apply, bne_iff_ne.2 apart, bne_iff_ne.2 isSeparator]
  unfold afterLast
  rw [← List.map_reverse, List.takeWhile_map, List.map_reverse, same]

/-- If separators become other separators, the last part may only get shorter. -/
theorem mem_afterLast_of_map {other char : Char} {replace : Char → Char} {text : List Char}
    (becomes : replace separator = other)
    (member : char ∈ afterLast other (text.map replace)) :
    ∃ original ∈ afterLast separator text, replace original = char := by
  rcases exists_append_afterLast separator text with same | ⟨front, split⟩
  · rw [← same]
    exact List.mem_map.1 (mem_of_mem_afterLast member)
  · rw [split, List.map_append, List.map_cons, becomes, afterLast_append_cons] at member
    exact List.mem_map.1 (mem_of_mem_afterLast member)

/-- The last piece of a text is its last part. -/
theorem splitOn_eq_append_afterLast (separator : Char) (text : List Char) :
    ∃ before, text.splitOn separator = before ++ [afterLast separator text] := by
  have last := List.splitOn_eq_singleton (not_mem_afterLast separator text)
  rcases exists_append_afterLast separator text with same | ⟨front, split⟩
  · rw [← same] at last
    exact ⟨[], by rw [last, ← same, List.nil_append]⟩
  · refine ⟨front.splitOn separator, ?_⟩
    rw [← last, ← List.splitOn_append_cons_self, ← split]

end DocblockScan.Text

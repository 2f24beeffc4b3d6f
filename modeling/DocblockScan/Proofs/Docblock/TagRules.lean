import DocblockScan.Docblock.Tags
import DocblockScan.Proofs.Text.Blank

/-!
# Rules for the tags of a text

What stands at the start of a text decides how reading its tags goes on:
`readTags_blank` passes over a blank, `readTags_mark` looks up the name after an at
sign. Only names that can be written are ever looked up: `readTags_congr`.
-/

namespace DocblockScan.Docblock

open Text (Blank)

/-- A blank is passed over, and a tag may come after it. -/
theorem readTags_blank (vocabulary : Vocabulary) (atBreak : Bool) {char : Char}
    (blank : Text.isBlank char = true) (rest : List Char) :
    readTags vocabulary atBreak (char :: rest) = readTags vocabulary true rest := by
  have noMark : ¬(char = '@' ∧ atBreak = true ∧ nameFollows rest = true) := by
    rintro ⟨rfl, -⟩
    exact absurd blank (by decide)
  rw [readTags, dif_neg noMark, blank]

/-- Blanks at a break are passed over. -/
theorem readTags_append_blank (vocabulary : Vocabulary) {gap : List Char} (blank : Blank gap)
    (text : List Char) :
    readTags vocabulary true (gap ++ text) = readTags vocabulary true text := by
  induction gap with
  | nil => rfl
  | cons char gap inductionHypothesis =>
      rw [List.cons_append, readTags_blank vocabulary true (blank char List.mem_cons_self)]
      exact inductionHypothesis fun other member => blank other (.tail _ member)

/-- Nothing but blanks holds no tag. -/
theorem readTags_of_blank (vocabulary : Vocabulary) (atBreak : Bool) {text : List Char}
    (blank : Blank text) : readTags vocabulary atBreak text = .ok [] := by
  induction text generalizing atBreak with
  | nil => rw [readTags]
  | cons char rest inductionHypothesis =>
      rw [readTags_blank vocabulary atBreak (blank char List.mem_cons_self)]
      exact inductionHypothesis true fun other member => blank other (.tail _ member)

/-- The tags of a text that starts with a name, given what the name means. -/
def readTagsAfter (vocabulary : Vocabulary) (after : List Char) :
    Option (String × TagKind) → Except Failure (List Tag)
  | none => readTags vocabulary false after
  | some (name, kind) =>
      match Text.skipBlanks after with
      | '(' :: inner =>
          match readArguments inner with
          | .error failure => .error failure
          | .ok arguments =>
              (readTags vocabulary false arguments.rest).map (⟨name, kind, arguments.value⟩ :: ·)
      | _ => (readTags vocabulary false after).map (⟨name, kind, .none⟩ :: ·)

/-- After an at sign the longest name is looked up. -/
theorem readTags_mark (vocabulary : Vocabulary) {rest : List Char}
    (follows : nameFollows rest = true) :
    readTags vocabulary true ('@' :: rest) =
      readTagsAfter vocabulary (spanName rest).2 (vocabulary (.ofList (spanName rest).1)) := by
  rw [readTags, dif_pos ⟨rfl, rfl, follows⟩]
  simp only
  cases vocabulary (.ofList (spanName rest).1) with
  | none => rfl
  | some known =>
      obtain ⟨name, kind⟩ := known
      simp only [readTagsAfter]
      split
      · next inner opened =>
          cases read : readArguments inner <;> simp only [opened, read]
      · next notOpened =>
          split
          · next inner opened => exact absurd opened (notOpened inner)
          · rfl

/-- Tags depend on what the vocabulary says of names that can be written. -/
theorem readTags_congr {left right : Vocabulary}
    (same : ∀ text, left (.ofList (spanName text).1) = right (.ofList (spanName text).1))
    (atBreak : Bool) (text : List Char) :
    readTags left atBreak text = readTags right atBreak text := by
  induction length : text.length using Nat.strongRecOn generalizing atBreak text with
  | _ bound inductionHypothesis =>
      cases text with
      | nil => rw [readTags, readTags]
      | cons char rest =>
          have shorter : ∀ others : List Char, others.length ≤ rest.length → ∀ atBreak,
              readTags left atBreak others = readTags right atBreak others := by
            intro others bounded atBreak
            refine inductionHypothesis others.length ?_ atBreak others rfl
            rw [← length, List.length_cons]
            exact Nat.lt_succ_of_le bounded
          by_cases tagged : char = '@' ∧ atBreak = true ∧ nameFollows rest = true
          · obtain ⟨rfl, rfl, follows⟩ := tagged
            have bound := length_spanName_le rest
            rw [readTags_mark left follows, readTags_mark right follows, same]
            cases right (.ofList (spanName rest).1) with
            | none => exact shorter _ bound false
            | some known =>
                simp only [readTagsAfter]
                split
                · next inner opened =>
                    have inside := Text.length_skipBlanks_le (spanName rest).2
                    rw [opened, List.length_cons] at inside
                    split
                    · rfl
                    · next arguments read =>
                        have taken := arguments.shorter
                        rw [shorter arguments.rest (by omega) false]
                · rw [shorter _ bound false]
          · rw [readTags, dif_neg tagged, readTags, dif_neg tagged]
            exact shorter rest (Nat.le_refl _) _

end DocblockScan.Docblock

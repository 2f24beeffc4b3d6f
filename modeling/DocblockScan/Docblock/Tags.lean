import DocblockScan.Docblock.ArgumentList
import DocblockScan.Docblock.Comment
import DocblockScan.Tag

/-!
# The tags of a docblock

A docblock is read from left to right. An at sign that starts the text or
follows a blank, and is followed by a name, is looked up in a vocabulary; a name
that the vocabulary does not know is passed over, and whatever follows it is
prose again.
-/

namespace DocblockScan.Docblock

/-- Which written names are tags, with the full name and the kind of each. -/
abbrev Vocabulary := String → Option (String × TagKind)

/-- Whether an at sign followed by this text is followed by a name. -/
def nameFollows (text : List Char) : Bool :=
  text.head?.any startsName

/-- A text that starts with a name is longer than what follows the name. -/
theorem length_spanName_lt_of_nameFollows {text : List Char}
    (follows : nameFollows text = true) :
    (spanName text).2.length < text.length := by
  cases text with
  | nil => simp [nameFollows] at follows
  | cons char rest =>
      exact length_spanName_lt rest (isNameChar_of_startsName (by simpa [nameFollows] using follows))

/-- The tags in the rest of a text, where `atBreak` says whether the rest starts
the text or follows a blank. -/
def readTags (vocabulary : Vocabulary) (atBreak : Bool) (text : List Char) :
    Except Failure (List Tag) :=
  match text with
  | [] => .ok []
  | char :: rest =>
      if tagged : char = '@' ∧ atBreak = true ∧ nameFollows rest = true then
        match named : spanName rest with
        | (written, after) =>
          have _shorter : after.length < rest.length := by
            have bound := length_spanName_lt_of_nameFollows tagged.2.2
            rw [named] at bound
            exact bound
          match vocabulary (.ofList written) with
          | none => readTags vocabulary false after
          | some (name, kind) =>
            match opened : Text.skipBlanks after with
            | '(' :: inner =>
                have _inside : inner.length < after.length := by
                  have bound := Text.length_skipBlanks_le after
                  rw [opened] at bound
                  simp only [List.length_cons] at bound
                  omega
                match readArguments inner with
                | .error failure => .error failure
                | .ok arguments =>
                    have _taken := arguments.shorter
                    (readTags vocabulary false arguments.rest).map
                      (⟨name, kind, arguments.value⟩ :: ·)
            | _ => (readTags vocabulary false after).map (⟨name, kind, .none⟩ :: ·)
      else readTags vocabulary (Text.isBlank char) rest
termination_by text.length
decreasing_by all_goals simp only [List.length_cons] at *; omega

/-- The line of a text on which its unread rest starts, counted from one. -/
def lineOf (text rest : List Char) : Nat :=
  1 + (text.count '\n' - rest.count '\n')

/-- All tags of a comment, in order, or the first fault in the arguments of a
known one. -/
def parse (vocabulary : Vocabulary) (comment : String) : Except LocatedFault (List Tag) :=
  let text := contents comment.toList
  match readTags vocabulary true text with
  | .ok tags => .ok tags
  | .error failure => .error ⟨lineOf text failure.rest, failure.fault⟩

end DocblockScan.Docblock

import DocblockScan.Proofs.Docblock.RenderedLines
import DocblockScan.Proofs.Docblock.TagRules

/-!
# Reading rendered tags back

A comment with one rendered tag on each line is read back as exactly these tags.
The reader takes one line at a time, and from line to line only the place after a
tag is carried. Keys of array entries must be texts that comment lines keep: a key
with a margin inside it loses the margin.
-/

namespace DocblockScan.Docblock.Rendering

open Grammar
open Text (Blank)

/-- A known name with a readable argument list is a tag. -/
theorem readTags_of_arguments {vocabulary : Vocabulary} {written inner after : List Char}
    {name : String} {kind : TagKind} {arguments : Arguments}
    (starts : StartsWith startsName written) (spelled : NameText written)
    (known : vocabulary (.ofList written) = some (name, kind))
    (read : argumentsOutcome .none inner = .ok (arguments, after)) :
    readTags vocabulary true ('@' :: (written ++ '(' :: inner)) =
      (readTags vocabulary false after).map (⟨name, kind, arguments⟩ :: ·) := by
  have longest : ¬ ExtendsName ('(' :: inner) := by
    rintro (⟨_, _, ⟨⟩, accepted⟩ | ⟨_, ⟨⟩⟩)
    exact absurd accepted (by decide)
  have taken := spanName_of_name ⟨spelled, longest⟩
  have follows : nameFollows (written ++ '(' :: inner) = true := by
    obtain ⟨char, rest, rfl, starts⟩ := starts
    exact starts
  obtain ⟨reading, found, rfl, rfl⟩ := (argumentsOutcome_eq_ok_iff _ _ _).1 read
  rw [readTags_mark vocabulary follows, taken]
  simp only [known, readTagsAfter, Text.skipBlanks_cons (show Text.isBlank '(' = false by decide),
    found]

/-- A rendered tag is read, and reading goes on after it. -/
theorem readTags_tagText {isKey : String → Prop} {vocabulary : Vocabulary} {tag : Tag}
    (known : vocabulary tag.name = some (tag.name, tag.kind))
    (renderable : RenderableTag isKey tag) (after : List Char) :
    readTags vocabulary true (tagText tag ++ after) =
      (readTags vocabulary false after).map (tag :: ·) := by
  have spelled : ∀ {written : List Char}, (∀ char ∈ written, isNameChar char = true) →
      NameText written := by
    intro written accepted
    induction written with
    | nil => exact .nil
    | cons char rest inductionHypothesis =>
        exact .char (accepted char List.mem_cons_self)
          (inductionHypothesis fun other member => accepted other (.tail _ member))
  have starts : StartsWith startsName tag.name.toList := by
    obtain ⟨char, rest, same, letter⟩ := renderable.starts
    exact ⟨char, rest, same, by simp [startsName, letter]⟩
  rw [← @String.ofList_toList tag.name] at known
  simpa [tagText] using readTags_of_arguments starts (spelled renderable.spelled) known
    (argumentsOutcome_of_renderable renderable after)

/-- Lines with a tag each are read one after the other. -/
theorem readTags_lines {isKey : String → Prop} {vocabulary : Vocabulary} {tags : List Tag}
    (known : ∀ tag ∈ tags, vocabulary tag.name = some (tag.name, tag.kind))
    (renderable : ∀ tag ∈ tags, RenderableTag isKey tag) {last : List Char} (blank : Blank last)
    (atBreak : Bool) :
    readTags vocabulary atBreak ((tags.flatMap fun tag => '\n' :: ' ' :: tagText tag) ++ last) =
      .ok tags := by
  induction tags generalizing atBreak with
  | nil => exact readTags_of_blank vocabulary atBreak blank
  | cons tag others inductionHypothesis =>
      have rest := inductionHypothesis (fun other member => known other (.tail _ member))
        (fun other member => renderable other (.tail _ member)) false
      rw [List.flatMap_cons, List.append_assoc, List.cons_append, List.cons_append,
        readTags_blank _ _ (by decide), readTags_blank _ _ (by decide),
        readTags_tagText (known tag List.mem_cons_self) (renderable tag List.mem_cons_self), rest]
      rfl

/-- Parsing a comment with one rendered tag on each line returns exactly these tags, for
every registry that takes their names for what they are, if comment lines keep the keys
of all array entries. -/
theorem parse_commentText (registry : Registry) (lines : List (List Char × Tag))
    (closing : List Char) (indented : ∀ line ∈ lines, Indentation line.1)
    (closingIndented : Indentation closing)
    (resolved : ∀ line ∈ lines,
      registry.resolve? line.2.name = some (line.2.name, line.2.kind))
    (renderable : ∀ line ∈ lines, RenderableTag KeepsLines line.2) :
    parse registry.resolve? (.ofList (commentText lines closing)) = .ok (lines.map Prod.snd) := by
  have blank : Blank (if closing = [] then [] else ['\n']) := by
    intro char member
    split at member
    · simp at member
    · obtain rfl := List.mem_singleton.1 member
      decide
  have known : ∀ tag ∈ lines.map Prod.snd,
      registry.resolve? tag.name = some (tag.name, tag.kind) := by
    intro tag member
    obtain ⟨line, present, rfl⟩ := List.mem_map.1 member
    exact resolved line present
  have written : ∀ tag ∈ lines.map Prod.snd, RenderableTag KeepsLines tag := by
    intro tag member
    obtain ⟨line, present, rfl⟩ := List.mem_map.1 member
    exact renderable line present
  have read := readTags_lines known written blank true
  rw [List.flatMap_map] at read
  simp only [parse, String.toList_ofList, contents_commentText indented closingIndented renderable,
    read]

/-- A tag whose only argument is an array with one entry. -/
def singleEntryTag (key : String) : Tag :=
  ⟨"Annoscan\\Routing\\Annotations\\Where", .whereClause,
    ⟨[.array [(some key, .integer 1)]], .empty⟩⟩

/-- The tag can be written, if its key is of the class. -/
theorem renderable_singleEntryTag {isKey : String → Prop} {key : String} (accepted : isKey key) :
    RenderableTag isKey (singleEntryTag key) where
  spelled := by
    show ∀ char ∈ "Annoscan\\Routing\\Annotations\\Where".toList, isNameChar char = true
    exact List.all_eq_true.1 (by decide)
  starts := by
    refine ⟨'A', "nnoscan\\Routing\\Annotations\\Where".toList, ?_, by decide⟩
    show "Annoscan\\Routing\\Annotations\\Where".toList = _
    decide
  positional := by
    intro literal member
    obtain rfl := List.mem_singleton.1 member
    refine .array (by simpa [keysOf] using accepted) ?_
    intro entry isEntry
    obtain rfl := List.mem_singleton.1 isEntry
    exact .integer (by decide)
  names := by simp [singleEntryTag, OrderedMap.empty]
  named := by simp [singleEntryTag, OrderedMap.empty]

/-- The built-in registry knows the tag by its full name. -/
theorem resolve?_singleEntryTag (key : String) :
    Registry.routing.resolve? (singleEntryTag key).name =
      some ((singleEntryTag key).name, (singleEntryTag key).kind) := by
  show Registry.routing.resolve? "Annoscan\\Routing\\Annotations\\Where" =
    some ("Annoscan\\Routing\\Annotations\\Where", .whereClause)
  decide +kernel

/-- A key with a line feed and a letter after it is read back. -/
theorem parse_commentText_two_lines :
    parse Registry.routing.resolve?
        (.ofList (commentText [([' '], singleEntryTag "a\nb")] [' '])) =
      .ok [singleEntryTag "a\nb"] := by
  have indentation : Indentation [' '] := ⟨by decide, by decide⟩
  have kept : KeepsLines "a\nb" := by
    show ['a', '\n', 'b'].IsChain KeepsBreak
    unfold KeepsBreak
    decide
  exact parse_commentText Registry.routing [([' '], singleEntryTag "a\nb")] [' ']
    (by simpa using indentation) indentation (by simpa using resolve?_singleEntryTag "a\nb")
    (by simpa using renderable_singleEntryTag kept)

/-- A key with a blank after a line feed loses the blank: not every key that can be
written is read back. -/
theorem parse_commentText_margin_in_key :
    ¬ ∀ (registry : Registry) (lines : List (List Char × Tag)) (closing : List Char),
      (∀ line ∈ lines, Indentation line.1) → Indentation closing →
      (∀ line ∈ lines, registry.resolve? line.2.name = some (line.2.name, line.2.kind)) →
      (∀ line ∈ lines, RenderableTag (fun _ => True) line.2) →
      parse registry.resolve? (.ofList (commentText lines closing)) = .ok (lines.map Prod.snd) := by
  intro claim
  have indentation : Indentation [' '] := ⟨by decide, by decide⟩
  have claimed := claim Registry.routing [([' '], singleEntryTag "a\n b")] [' ']
    (by simpa using indentation) indentation (by simpa using resolve?_singleEntryTag "a\n b")
    (by simpa using renderable_singleEntryTag trivial)
  -- Without its margin the second line is that of a tag with another key.
  have contained : contents (commentText [([' '], singleEntryTag "a\n b")] [' ']) =
      ([singleEntryTag "a\nb"].flatMap fun tag => '\n' :: ' ' :: tagText tag) ++ ['\n'] := by
    decide +kernel
  have written : RenderableTag (fun _ => True) (singleEntryTag "a\nb") :=
    renderable_singleEntryTag trivial
  have blank : Blank ['\n'] := by decide
  have read : readTags Registry.routing.resolve? true
      (([singleEntryTag "a\nb"].flatMap fun tag => '\n' :: ' ' :: tagText tag) ++ ['\n']) =
      .ok [singleEntryTag "a\nb"] :=
    readTags_lines (by simpa using resolve?_singleEntryTag "a\nb") (by simpa using written) blank
      true
  simp only [parse, String.toList_ofList, contained, read] at claimed
  simp [singleEntryTag] at claimed

end DocblockScan.Docblock.Rendering

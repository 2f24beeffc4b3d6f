import DocblockScan.Proofs.Docblock.Remainders
import DocblockScan.Proofs.Text.Lines
import DocblockScan.Registry

/-!
# Lines below other lines

A comment whose marks stand on lines of their own contains its lines one after the
other, and so what a comment contains that has further lines above is known from both
parts: `contents_append`. Where the lines above are read to their end, reading goes on
with the lines below as if nothing stood above them, `readTags_append`, unless a list of
the lines below belongs to a name at the end of the lines above. Faults are found as many
lines further down as there are lines above: `parse_below`.
-/

namespace DocblockScan.Docblock

open Grammar (ExtendsName StartsWith)
open Text (Blank withoutReturn)

/-- A comment with given lines between its marks, which stand on lines of their own. -/
def linesComment (lines : List (List Char)) : List Char :=
  "/**\n".toList ++ (lines.flatMap (· ++ ['\n']) ++ "*/".toList)

/-- What is read of lines below others: their tags come after those of the lines above,
and a fault is as many lines further down. -/
def placedBelow (count : Nat) (tags : List Tag) :
    Except LocatedFault (List Tag) → Except LocatedFault (List Tag)
  | .ok others => .ok (tags ++ others)
  | .error located => .error ⟨located.line + count, located.fault⟩

/-! ## What a comment contains -/

/-- A line as the text of a comment keeps it. -/
def keptLine (line : List Char) : List Char :=
  withoutMargin (withoutReturn line)

/-- A line without its margin has no other characters. -/
theorem mem_of_mem_withoutMargin {char : Char} {line : List Char}
    (member : char ∈ withoutMargin line) : char ∈ line := by
  have inside : char ∈ Text.skipBlanks line := by
    unfold withoutMargin at member
    split at member
    · next rest same => exact same ▸ .tail _ member
    · exact member
  exact (Text.skipBlanks_suffix _).subset inside

/-- A kept line has no other characters. -/
theorem mem_of_mem_keptLine {char : Char} {line : List Char} (member : char ∈ keptLine line) :
    char ∈ line :=
  Text.mem_of_mem_withoutReturn (mem_of_mem_withoutMargin member)

/-- Between the marks of a comment stands its text, whatever blanks stand around it. -/
theorem withoutDelimiters_marks {front back : List Char} (frontBlank : Blank front)
    (backBlank : Blank back) (inner : List Char) :
    withoutDelimiters (Text.trim (front ++ ("/**".toList ++ (inner ++ ("*/".toList ++ back))))) =
      inner := by
  have whole : front ++ ("/**".toList ++ (inner ++ ("*/".toList ++ back))) =
      front ++ '/' :: (("**".toList ++ (inner ++ ['*'])) ++ '/' :: back) := by
    simp
  have marked : '/' :: (("**".toList ++ (inner ++ ['*'])) ++ ['/']) =
      "/**".toList ++ (inner ++ "*/".toList) := by
    simp
  have opened : Text.dropStart? "/**".toList ("/**".toList ++ (inner ++ "*/".toList)) =
      some (inner ++ "*/".toList) := by
    simp [Text.dropStart?, List.isPrefixOf]
  rw [whole, Text.trim_of_padded frontBlank backBlank (by decide) (by decide), marked]
  simp only [withoutDelimiters, opened, Option.some_or, Option.getD_some, Text.dropEnd?_append]

/-- Between the marks of a comment stand its lines. -/
theorem withoutDelimiters_linesComment (lines : List (List Char)) :
    withoutDelimiters (Text.trim (linesComment lines)) = '\n' :: lines.flatMap (· ++ ['\n']) :=
  withoutDelimiters_marks .nil .nil ('\n' :: lines.flatMap (· ++ ['\n']))

/-- Lines that end with a line feed each are cut as they were put together, before the lines
of what follows them. -/
theorem lines_flatMap_append {lines : List (List Char)} (oneLine : ∀ line ∈ lines, '\n' ∉ line)
    (rest : List Char) :
    Text.lines (lines.flatMap (· ++ ['\n']) ++ rest) =
      lines.map withoutReturn ++ Text.lines rest := by
  induction lines with
  | nil => rfl
  | cons first others inductionHypothesis =>
      have below := inductionHypothesis fun line member => oneLine line (.tail _ member)
      rw [List.flatMap_cons, List.append_assoc, List.append_assoc, List.singleton_append,
        Text.lines_append_feed (oneLine first List.mem_cons_self), below, List.map_cons,
        List.cons_append]

/-- Lines that end with a line feed each are cut as they were put together. -/
theorem lines_flatMap {lines : List (List Char)} (oneLine : ∀ line ∈ lines, '\n' ∉ line) :
    Text.lines (lines.flatMap (· ++ ['\n'])) = lines.map withoutReturn := by
  simpa [show Text.lines [] = [] from rfl] using lines_flatMap_append oneLine []

/-- A comment contains its lines as they are kept, with a line feed before each. -/
theorem contents_linesComment {lines : List (List Char)}
    (oneLine : ∀ line ∈ lines, '\n' ∉ line) :
    contents (linesComment lines) = lines.flatMap fun line => '\n' :: keptLine line := by
  rw [contents, withoutDelimiters_linesComment, Text.lines_feed, lines_flatMap oneLine,
    List.map_cons, List.map_map, show withoutMargin [] = [] from rfl, Text.intercalate_feed,
    List.flatMap_map]
  rfl

/-- A comment that has further lines above contains both parts one after the other. -/
theorem contents_append {above below : List (List Char)}
    (oneLine : ∀ line ∈ above ++ below, '\n' ∉ line) :
    contents (linesComment (above ++ below)) =
      contents (linesComment above) ++ contents (linesComment below) := by
  rw [contents_linesComment oneLine, List.flatMap_append,
    contents_linesComment fun line member => oneLine line (List.mem_append_left _ member),
    contents_linesComment fun line member => oneLine line (List.mem_append_right _ member)]

/-- There is a line feed for each line in what a comment contains. -/
theorem count_contents {lines : List (List Char)} (oneLine : ∀ line ∈ lines, '\n' ∉ line) :
    (contents (linesComment lines)).count '\n' = lines.length := by
  have kept : ∀ text ∈ lines.map keptLine, '\n' ∉ text := by
    intro text member feed
    obtain ⟨line, present, rfl⟩ := List.mem_map.1 member
    exact oneLine line present (mem_of_mem_keptLine feed)
  have count := Text.count_flatMap_feed kept
  rw [List.flatMap_map, List.length_map] at count
  rw [contents_linesComment oneLine, count]

/-! ## Reading on in the lines below -/

/-- A text that starts a line: nothing, or what stands after the end of a line. -/
def StartsLine (text : List Char) : Prop :=
  ∀ char ∈ text.head?, char = '\n'

/-- What a comment contains starts a line. -/
theorem startsLine_contents {lines : List (List Char)} (oneLine : ∀ line ∈ lines, '\n' ∉ line) :
    StartsLine (contents (linesComment lines)) := by
  rw [contents_linesComment oneLine]
  cases lines with
  | nil => exact nofun
  | cons first others => exact fun char member => (Option.some.inj member).symm

variable {vocabulary : Vocabulary} {previous : Option Char}
variable {text tail written after rest : List Char} {segment : Segment}

/-- Where a line starts, a mark may stand after its blanks. -/
theorem StartsLine.readTags_eq (starts : StartsLine tail) (atBreak : Bool) :
    readTags vocabulary atBreak tail = readTags vocabulary true tail := by
  cases tail with
  | nil => rw [readTags, readTags]
  | cons char rest =>
      obtain rfl : char = '\n' := starts char rfl
      rw [readTags_blank vocabulary _ (by decide), readTags_blank vocabulary _ (by decide)]

/-- No class of characters without the line feed is found at the start of a line. -/
theorem StartsLine.not_startsWith (starts : StartsLine tail) {accepts : Char → Bool}
    (noFeed : accepts '\n' = false) : ¬ StartsWith accepts tail := by
  rintro ⟨char, rest, rfl, accepted⟩
  obtain rfl : char = '\n' := starts char rfl
  simp [noFeed] at accepted

/-- A text starts with a character of a class if it does so with a line below. -/
theorem StartsLine.startsWith_of_append (starts : StartsLine tail) {accepts : Char → Bool}
    (noFeed : accepts '\n' = false) (found : StartsWith accepts (text ++ tail)) :
    StartsWith accepts text := by
  cases text with
  | nil => exact absurd found (starts.not_startsWith noFeed)
  | cons char rest =>
      obtain ⟨first, others, same, accepted⟩ := found
      obtain ⟨rfl, -⟩ := List.cons.inj same
      exact ⟨char, rest, rfl, accepted⟩

/-- No name goes on in the line below. -/
theorem StartsLine.extendsName_of_append (starts : StartsLine tail)
    (longer : ExtendsName (text ++ tail)) : ExtendsName text := by
  rcases longer with accepted | ⟨rest, same⟩
  · exact .inl (starts.startsWith_of_append (by decide) accepted)
  · match text with
    | [] =>
        rw [List.nil_append] at same
        exact absurd (starts ':' (by rw [same]; rfl)) (by decide)
    | [char] =>
        have below : tail = ':' :: rest := (List.cons.inj same).2
        exact absurd (starts ':' (by rw [below]; rfl)) (by decide)
    | first :: second :: more =>
        obtain ⟨rfl, others⟩ := List.cons.inj same
        obtain ⟨rfl, -⟩ := List.cons.inj others
        exact .inr ⟨more, rfl⟩

/-- No name after an at sign starts in the line below. -/
theorem StartsLine.nameFollows_of_append (starts : StartsLine tail)
    (follows : nameFollows (text ++ tail) = true) : nameFollows text = true := by
  cases text with
  | nil =>
      cases tail with
      | nil => exact follows
      | cons char rest =>
          obtain rfl : char = '\n' := starts char rfl
          simp [nameFollows, startsName, isLetter] at follows
  | cons char rest => exact follows

/-- A mark stays one with a line below. -/
theorem Mark.append_line (starts : StartsLine tail) (mark : Mark previous text written after) :
    Mark previous (text ++ tail) written (after ++ tail) where
  whole := by rw [mark.whole]; simp
  breaks := mark.breaks
  starts := mark.starts
  name := ⟨mark.name.spelled, fun longer => mark.name.longest (starts.extendsName_of_append longer)⟩

/-- A character is passed over also with a line below. -/
theorem readTags_prose_append (starts : StartsLine tail) {char : Char}
    (noMark : ∀ written after, ¬ Mark previous (char :: rest) written after) :
    readTags vocabulary (atBreak previous) (char :: rest ++ tail) =
      readTags vocabulary (atBreak (some char)) (rest ++ tail) := by
  refine readTags_of_noMark fun written after mark => ?_
  obtain ⟨others, same, follows, -⟩ := mark.follows
  obtain ⟨rfl, rfl⟩ := List.cons.inj same
  exact noMark _ _ (mark_of_follows mark.breaks (starts.nameFollows_of_append follows))

/-- A name takes the same segment with a line below, unless a list that stands there is
taken for its own. -/
theorem Takes.append_line (noList : (Text.skipBlanks tail).head? ≠ some '(')
    (takes : Takes vocabulary written after segment rest) :
    Takes vocabulary written (after ++ tail) segment (rest ++ tail) := by
  cases takes with
  | unknown notKnown => exact .unknown notKnown
  | bare known noListAfter =>
      refine .bare known ?_
      obtain ⟨gap, blank, whole⟩ := Text.exists_blank_append after
      rw [whole, List.append_assoc, Text.skipBlanks_append blank]
      cases left : Text.skipBlanks after with
      | nil => exact noList
      | cons char others =>
          rw [left] at noListAfter
          rw [List.cons_append, Text.skipBlanks_cons (Text.isBlank_of_skipBlanks left)]
          exact noListAfter
  | listed known blank isList =>
      rw [List.append_assoc, List.append_assoc]
      exact .listed known blank isList

/-- Where lines are read to their end, reading goes on with the lines below as if nothing
stood above them. -/
theorem readTags_append {segments : List Segment} (starts : StartsLine tail)
    (noList : (Text.skipBlanks tail).head? ≠ some '(')
    (cut : Segmentation vocabulary previous text segments none) :
    readTags vocabulary (atBreak previous) (text ++ tail) =
      (readTags vocabulary true tail).map (segments.filterMap Segment.tag? ++ ·) := by
  generalize complete : none = ending at cut
  induction cut with
  | complete =>
      rw [List.nil_append, starts.readTags_eq]
      cases readTags vocabulary true tail <;> rfl
  | prose noMark _ inductionHypothesis =>
      rw [readTags_prose_append starts noMark, inductionHypothesis complete]
      rfl
  | @mark _ _ _ _ _ segment _ _ mark takes _ inductionHypothesis =>
      rw [mark.not_atBreak takes] at inductionHypothesis
      rw [readTags_of_mark vocabulary (mark.append_line starts),
        readTagsAfter_of_takes (takes.append_line noList), inductionHypothesis complete,
        List.filterMap_cons]
      cases segment.tag? <;> cases readTags vocabulary true tail <;> rfl
  | refused _ _ => simp at complete

/-- A text without an at sign is passed over, and reading goes on with the lines below. -/
theorem readTags_append_of_not_mem (starts : StartsLine tail) (noMark : '@' ∉ text)
    (atBreak : Bool) :
    readTags vocabulary atBreak (text ++ tail) = readTags vocabulary true tail := by
  induction text generalizing atBreak with
  | nil => exact starts.readTags_eq atBreak
  | cons char rest inductionHypothesis =>
      rw [List.mem_cons, not_or] at noMark
      rw [List.cons_append, readTags, dif_neg fun tagged => noMark.1 tagged.1.symm]
      exact inductionHypothesis noMark.2 _

/-! ## Lines of faults -/

/-- The line of an unread rest does not depend on what stands above the text, but for the
lines there. -/
theorem lineOf_append {unread : List Char} (within : unread <:+ tail) (text : List Char) :
    lineOf (text ++ tail) unread = lineOf tail unread + text.count '\n' := by
  have bound := within.sublist.count_le '\n'
  simp only [lineOf, List.count_append]
  omega

/-- What is parsed of the lines below stands below what is parsed of the lines above. -/
theorem parse_of_readTags {above below : List (List Char)}
    (oneLine : ∀ line ∈ above ++ below, '\n' ∉ line) {tags : List Tag}
    (read : readTags vocabulary true
        (contents (linesComment above) ++ contents (linesComment below)) =
      (readTags vocabulary true (contents (linesComment below))).map (tags ++ ·)) :
    parse vocabulary (.ofList (linesComment (above ++ below))) =
      placedBelow above.length tags (parse vocabulary (.ofList (linesComment below))) := by
  simp only [parse, String.toList_ofList, contents_append oneLine, read]
  cases alone : readTags vocabulary true (contents (linesComment below)) with
  | ok others => rfl
  | error failure =>
      have within : failure.rest <:+ contents (linesComment below) :=
        readTags_suffix (show readTags vocabulary (atBreak none) _ = _ from alone)
      have count := count_contents fun line member => oneLine line (List.mem_append_left _ member)
      simp only [Except.map, placedBelow, lineOf_append within, count]

/-- Marks are taken off the ends of a text. -/
theorem withoutDelimiters_sublist (text : List Char) : (withoutDelimiters text).Sublist text := by
  have starts : ∀ mark, ((Text.dropStart? mark text).getD text).Sublist text := by
    intro mark
    unfold Text.dropStart?
    split
    · exact List.drop_sublist _ _
    · exact List.Sublist.refl _
  have ends : ∀ opened : List Char, ((Text.dropEnd? "*/".toList opened).getD opened).Sublist opened := by
    intro opened
    unfold Text.dropEnd?
    split
    · exact List.take_sublist _ _
    · exact List.Sublist.refl _
  refine (ends _).trans ?_
  cases long : Text.dropStart? "/**".toList text with
  | none => exact starts "/*".toList
  | some opened =>
      have taken := starts "/**".toList
      rw [long] at taken
      exact taken

/-- What a comment contains has no more lines than the trimmed comment. -/
theorem count_contents_lt {comment : List Char} (notEmpty : contents comment ≠ []) :
    (contents comment).count '\n' < (Text.lines (Text.trim comment)).length := by
  obtain ⟨first, others, cut⟩ :
      ∃ first others, Text.lines (withoutDelimiters (Text.trim comment)) = first :: others := by
    refine List.exists_cons_of_ne_nil fun none => notEmpty ?_
    simp [contents, none]
  have kept : ∀ text ∈ (first :: others).map withoutMargin, '\n' ∉ text := by
    intro text member feed
    obtain ⟨line, present, rfl⟩ := List.mem_map.1 member
    exact Text.not_mem_of_mem_lines (cut ▸ present) (mem_of_mem_withoutMargin feed)
  have count : (contents comment).count '\n' + 1 = (first :: others).length := by
    have feeds := Text.count_flatMap_feed kept
    rw [List.map_cons, Text.flatMap_feed, List.count_cons_self, ← List.map_cons,
      List.length_map] at feeds
    simpa only [contents, cut] using feeds
  obtain ⟨last, ends⟩ : ∃ last, (Text.trim comment).getLast? = some last := by
    refine Option.ne_none_iff_exists'.1 fun none => ?_
    rw [List.getLast?_eq_none_iff.1 none] at cut
    simp [withoutDelimiters, Text.dropStart?, Text.dropEnd?, Text.lines] at cut
  have noFeed : last ≠ '\n' := by
    rintro rfl
    exact absurd (Text.getLast?_trimBy ends) (by decide)
  have inside := (withoutDelimiters_sublist (Text.trim comment)).count_le '\n'
  have atMost := Text.length_lines_le (withoutDelimiters (Text.trim comment))
  rw [cut] at atMost
  rw [Text.length_lines ends noFeed]
  omega

/-- A fault is reported on one of the lines of the trimmed comment. -/
theorem line_of_parse {comment : String} {located : LocatedFault}
    (fails : parse vocabulary comment = .error located) :
    1 ≤ located.line ∧ located.line ≤ (Text.lines (Text.trim comment.toList)).length := by
  simp only [parse] at fails
  split at fails
  · simp at fails
  · next failure read =>
      have notEmpty : contents comment.toList ≠ [] := by
        intro empty
        rw [empty, readTags] at read
        simp at read
      have bound := count_contents_lt notEmpty
      rw [← Except.error.inj fails]
      simp only [lineOf]
      omega

/-- A comment is parsed if its tags are read. -/
theorem parse_eq_ok_iff {comment : String} {tags : List Tag} :
    parse vocabulary comment = .ok tags ↔
      readTags vocabulary true (contents comment.toList) = .ok tags := by
  cases read : readTags vocabulary true (contents comment.toList) <;> simp [parse, read]

/-- Parsing goes line by line. Whatever the vocabulary is, what is parsed of lines stands
below what is parsed of the lines above them, if these can be parsed and the lines below
do not start with a list; if there is no at sign above, the lines below may start with
anything. Every fault is reported on a line of the comment. -/
theorem parse_below (vocabulary : Vocabulary) :
    (∀ above below : List (List Char), (∀ line ∈ above ++ below, '\n' ∉ line) →
      (Text.skipBlanks (contents (linesComment below))).head? ≠ some '(' →
      ∀ tags, parse vocabulary (.ofList (linesComment above)) = .ok tags →
        parse vocabulary (.ofList (linesComment (above ++ below))) =
          placedBelow above.length tags (parse vocabulary (.ofList (linesComment below)))) ∧
    (∀ above below : List (List Char), (∀ line ∈ above ++ below, '\n' ∉ line) →
      (∀ line ∈ above, '@' ∉ line) →
        parse vocabulary (.ofList (linesComment (above ++ below))) =
          placedBelow above.length [] (parse vocabulary (.ofList (linesComment below)))) ∧
    ∀ comment located, parse vocabulary comment = .error located →
      1 ≤ located.line ∧ located.line ≤ (Text.lines (Text.trim comment.toList)).length := by
  refine ⟨?_, ?_, fun comment located => line_of_parse⟩
  · intro above below oneLine noList tags parsed
    have starts := startsLine_contents fun line member =>
      oneLine line (List.mem_append_right above member)
    rw [parse_eq_ok_iff, String.toList_ofList] at parsed
    obtain ⟨segments, ending, cut⟩ :=
      exists_segmentation vocabulary none (contents (linesComment above))
    cases ending with
    | none =>
        obtain rfl := Except.ok.inj ((readTags_of_complete cut).symm.trans parsed)
        exact parse_of_readTags oneLine (readTags_append starts noList cut)
    | some inner =>
        obtain ⟨failure, -, refused⟩ := readTags_of_refused cut
        exact absurd (refused.symm.trans parsed) (by simp)
  · intro above below oneLine noMark
    have starts := startsLine_contents fun line member =>
      oneLine line (List.mem_append_right above member)
    have noMarkKept : '@' ∉ contents (linesComment above) := by
      rw [contents_linesComment fun line member => oneLine line (List.mem_append_left _ member)]
      intro member
      obtain ⟨line, present, mark⟩ := List.mem_flatMap.1 member
      rcases List.mem_cons.1 mark with feed | mark
      · exact absurd feed (by decide)
      · exact noMark line present (mem_of_mem_keptLine mark)
    refine parse_of_readTags oneLine ?_
    rw [readTags_append_of_not_mem starts noMarkKept]
    cases readTags vocabulary true (contents (linesComment below)) <;> rfl

/-- Below two lines of which the first has a tag a fault is found two lines further down,
and below a line of prose one line. -/
theorem parse_below_get :
    parse Registry.routing.resolve?
        (.ofList (linesComment (["@Get(\"/\")".toList, []] ++ ["@Post(\"/\" \"b\")".toList]))) =
      .error ⟨4, .expectedSeparator ')' '"'⟩ ∧
    parse Registry.routing.resolve?
        (.ofList (linesComment (["Home".toList] ++ ["@Post(\"/\" \"b\")".toList]))) =
      .error ⟨3, .expectedSeparator ')' '"'⟩ := by
  have alone : parse Registry.routing.resolve?
      (.ofList (linesComment ["@Post(\"/\" \"b\")".toList])) =
        .error ⟨2, .expectedSeparator ')' '"'⟩ := by
    have fault : (match parse Registry.routing.resolve?
        (.ofList (linesComment ["@Post(\"/\" \"b\")".toList])) with
        | .ok _ => none
        | .error located => some located) = some ⟨2, .expectedSeparator ')' '"'⟩ := by
      decide +kernel
    split at fault
    · simp at fault
    · next located fails => rw [fails, Option.some.inj fault]
  obtain ⟨tags, parsed⟩ : ∃ tags, parse Registry.routing.resolve?
      (.ofList (linesComment ["@Get(\"/\")".toList, []])) = .ok tags := by
    have accepted : (parse Registry.routing.resolve?
        (.ofList (linesComment ["@Get(\"/\")".toList, []]))).isOk = true := by decide +kernel
    cases parsed : parse Registry.routing.resolve?
        (.ofList (linesComment ["@Get(\"/\")".toList, []])) with
    | ok tags => exact ⟨tags, rfl⟩
    | error located =>
        rw [parsed] at accepted
        cases accepted
  obtain ⟨append, untagged, -⟩ := parse_below Registry.routing.resolve?
  have below := append ["@Get(\"/\")".toList, []] ["@Post(\"/\" \"b\")".toList] (by decide)
    (by decide +kernel) tags parsed
  have belowProse := untagged ["Home".toList] ["@Post(\"/\" \"b\")".toList] (by decide) (by decide)
  rw [alone] at below belowProse
  exact ⟨below, belowProse⟩

end DocblockScan.Docblock

import DocblockScan.Proofs.Docblock.CommentCleaning
import DocblockScan.Proofs.Docblock.Segmentation
import DocblockScan.Proofs.Docblock.StringReplacement
import DocblockScan.Registry

/-!
# Comments as their segments

Parsing a comment gives the tags of its segments, or the fault of the first list outside
the grammar. What stands inside a list is no mark, and in particular a string may have any
content: with another one the comment has the same segments but for this string. The
segments before the string stay because none of them sees further than the at sign of the
next one: `Segmentation.replace_tail`.
-/

namespace DocblockScan.Docblock

open Grammar
open Text (Blank)

variable {vocabulary : Vocabulary} {previous : Option Char}
variable {text written after rest left right : List Char} {segment : Segment}

/-! ## What stands after a character -/

/-- A text shows its first character also if another text follows it. -/
theorem head?_append_cons (start : List Char) (char : Char) (left right : List Char) :
    (start ++ char :: left).head? = (start ++ char :: right).head? := by
  cases start <;> rfl

/-- A name is not longer with another text after a character that is no colon. -/
theorem extendsName_append_cons {char : Char} (noColon : char ≠ ':') {start : List Char}
    (longer : ExtendsName (start ++ char :: left)) : ExtendsName (start ++ char :: right) := by
  rcases longer with ⟨first, tail, same, accepted⟩ | ⟨tail, same⟩
  · have head := head?_append_cons start char right left
    rw [same] at head
    obtain ⟨others, starts⟩ := List.head?_eq_some_iff.1 head
    exact .inl ⟨first, others, starts, accepted⟩
  · match start with
    | [] => exact absurd (List.cons.inj same).1 noColon
    | [first] => exact absurd (List.cons.inj (List.cons.inj same).2).1 noColon
    | first :: second :: more =>
        obtain ⟨rfl, second⟩ := List.cons.inj same
        obtain ⟨rfl, -⟩ := List.cons.inj second
        exact .inr ⟨_, rfl⟩

/-- A mark stays one with another text after a character that is no colon. -/
theorem Mark.append_cons {char : Char} (noColon : char ≠ ':') {start : List Char}
    (mark : Mark previous text written (start ++ char :: left)) (right : List Char) :
    Mark previous ('@' :: (written ++ (start ++ char :: right))) written
      (start ++ char :: right) where
  whole := rfl
  breaks := mark.breaks
  starts := mark.starts
  name := ⟨mark.name.spelled, mt (extendsName_append_cons noColon) mark.name.longest⟩

/-- A name takes the same segment if another text follows the next at sign. -/
theorem Takes.append_mark {tail : List Char}
    (takes : Takes vocabulary written after segment (tail ++ '@' :: left)) (right : List Char) :
    ∃ start, after = start ++ '@' :: left ∧
      Takes vocabulary written (start ++ '@' :: right) segment (tail ++ '@' :: right) := by
  cases takes with
  | unknown notKnown => exact ⟨tail, rfl, .unknown notKnown⟩
  | bare known noList =>
      refine ⟨tail, rfl, .bare known ?_⟩
      have solid : Text.isBlank '@' = false := by decide
      rw [Text.skipBlanks_append_cons solid] at noList ⊢
      rwa [head?_append_cons _ '@' right left]
  | @listed gap list _ _ _ _ known blank isList =>
      refine ⟨gap ++ (list ++ tail), by simp, ?_⟩
      have listed : Takes vocabulary written (gap ++ (list ++ (tail ++ '@' :: right))) _ _ :=
        .listed known blank isList
      simpa using listed

/-! ## Other segments after some others -/

/-- The list of a segment is one of the grammar and stands for the arguments of its tag. -/
theorem Segmentation.isList_of_mem {segments : List Segment} {ending : Option (List Char)}
    {gap list : List Char} {tag : Tag}
    (cut : Segmentation vocabulary previous text segments ending)
    (member : .listed written gap list tag ∈ segments) : ArgumentList list tag.arguments := by
  induction cut with
  | complete => simp at member
  | prose _ _ inductionHypothesis =>
      exact inductionHypothesis (by simpa using member)
  | mark _ takes _ inductionHypothesis =>
      rcases List.mem_cons.1 member with rfl | later
      · cases takes with
        | listed _ _ isList => exact isList
      · exact inductionHypothesis later
  | refused _ _ => simp at member

/-- Segments stay as they are if other segments follow them, from the next at sign on. -/
theorem Segmentation.replace_tail {before others changed : List Segment}
    {ending otherEnding : Option (List Char)}
    (cut : Segmentation vocabulary previous text (before ++ others) ending)
    (whole : text = before.flatMap Segment.text ++ '@' :: left)
    (tail : ∀ place, Segmentation vocabulary place ('@' :: left) others ending →
      Segmentation vocabulary place ('@' :: right) changed otherEnding) :
    Segmentation vocabulary previous (before.flatMap Segment.text ++ '@' :: right)
      (before ++ changed) otherEnding := by
  induction before generalizing previous text with
  | nil =>
      obtain rfl := whole
      exact tail previous cut
  | cons segment before inductionHypothesis =>
      cases cut with
      | @prose _ char rest _ _ noMark cutRest =>
          have sameRest : rest = before.flatMap Segment.text ++ '@' :: left :=
            (List.cons.inj whole).2
          refine .prose (fun written after mark => ?_) (inductionHypothesis cutRest sameRest)
          -- a mark would have been there before, for the same name follows the at sign
          obtain ⟨others, same, follows, -⟩ := mark.follows
          obtain ⟨rfl, rfl⟩ := List.cons.inj same
          have followed : nameFollows rest = true := by
            rwa [nameFollows, sameRest, head?_append_cons _ '@' left right]
          exact noMark _ _ (mark_of_follows mark.breaks followed)
      | @mark _ _ written after rest _ _ _ mark takes cutRest =>
          have split := mark.text_eq takes
          rw [whole, List.flatMap_cons, List.append_assoc] at split
          obtain rfl := List.append_cancel_left split
          obtain ⟨start, rfl, takesToo⟩ := takes.append_mark right
          have markToo := mark.append_cons (by decide) right
          rw [List.flatMap_cons, List.append_assoc, ← markToo.text_eq takesToo]
          exact .mark markToo takesToo (inductionHypothesis cutRest rfl)

/-- The list of a segment may be replaced by another one. -/
theorem Segmentation.replace_list {gap list otherList : List Char} {tag : Tag}
    {others : List Segment} {ending : Option (List Char)} {arguments : Arguments}
    (cut : Segmentation vocabulary previous ('@' :: (written ++ (gap ++ (list ++ rest))))
      (.listed written gap list tag :: others) ending)
    (isList : ArgumentList otherList arguments) :
    Segmentation vocabulary previous ('@' :: (written ++ (gap ++ (otherList ++ rest))))
      (.listed written gap otherList ⟨tag.name, tag.kind, arguments⟩ :: others) ending := by
  cases cut with
  | @mark _ _ _ _ tail _ _ _ mark takes cutRest =>
      have split := mark.text_eq takes
      cases takes with
      | listed known blank wasList =>
          obtain rfl : rest = tail := by simpa [Segment.text] using split
          obtain ⟨body, -, rfl, -⟩ := id isList
          obtain ⟨oldBody, -, rfl, -⟩ := id wasList
          have markToo := mark.append_cons (by decide) (body ++ rest)
          refine .mark markToo (.listed known blank isList) ?_
          rw [getLast?_listed isList]
          rwa [getLast?_listed wasList] at cutRest

/-! ## Comments -/

/-- A string in the list of a segment: where it stands in the comment, and where what the
comment keeps of it stands in the list. -/
structure ListString (comment : String) (segments : List Segment) where
  front : List Char
  content : List Char
  rest : List Char
  inComment : comment.toList = front ++ (quoted content ++ rest)
  before : List Segment
  written : List Char
  gap : List Char
  list : List Char
  tag : Tag
  after : List Segment
  inSegments : segments = before ++ .listed written gap list tag :: after
  opening : List Char
  closing : List Char
  inList : HasString list opening (keptContent content) closing
  samePlace : contentsBefore front =
    before.flatMap Segment.text ++ '@' :: (written ++ (gap ++ opening))

/-- The comment with another content for a string. -/
def ListString.withContent {comment : String} {segments : List Segment}
    (string : ListString comment segments) (content : List Char) : String :=
  .ofList (string.front ++ (quoted content ++ string.rest))

/-- What parsing a comment gives that has these segments, up to its end or up to a list
outside the grammar. -/
structure ParsesAs (vocabulary : Vocabulary) (comment : String) (segments : List Segment)
    (ending : Option (List Char)) : Prop where
  /-- The text inside the comment has these segments. -/
  cut : Segmentation vocabulary none (contents comment.toList) segments ending
  /-- It has no other ones. -/
  unique : ∀ others otherEnding,
    Segmentation vocabulary none (contents comment.toList) others otherEnding →
    others = segments ∧ otherEnding = ending
  /-- The tags of the comment are those of its segments, in order. -/
  tags : ending = none → parse vocabulary comment = .ok (segments.filterMap Segment.tag?)
  /-- The fault of the comment is that of the list outside the grammar. -/
  fault : ∀ inner, ending = some inner → ∃ failure, readArguments inner = .error failure ∧
    parse vocabulary comment =
      .error ⟨lineOf (contents comment.toList) failure.rest, failure.fault⟩
  /-- No tag comes from an at sign inside the list of a segment. -/
  outside : ∀ front written gap list tag back before segment others,
    segments = front ++ .listed written gap list tag :: back →
    segments = before ++ segment :: others → segment.tag? ≠ none →
    let start := (front.flatMap Segment.text).length + 1 + written.length + gap.length
    (before.flatMap Segment.text).length < start ∨
      start + list.length ≤ (before.flatMap Segment.text).length
  /-- With another content for a string of a list the comment has the same tags, but that
  one string of the list is what the comment keeps of the new content. -/
  strings : ending = none → ∀ (string : ListString comment segments) (content : List Char),
    ∃ arguments,
      parse vocabulary (string.withContent content) =
        .ok (string.before.filterMap Segment.tag? ++
          ⟨string.tag.name, string.tag.kind, arguments⟩ ::
            string.after.filterMap Segment.tag?) ∧
      ArgumentsReplaced (.ofList (keptContent string.content)) (.ofList (keptContent content))
        string.tag.arguments arguments
  /-- The comment keeps all of a content in which no margin can be mistaken. -/
  kept : ∀ content, content.IsChain Rendering.KeepsBreak → keptContent content = content

/-- The text of a comment that is covered by segments gives their tags. -/
theorem parse_of_complete {comment : String} {segments : List Segment}
    (cut : Segmentation vocabulary none (contents comment.toList) segments none) :
    parse vocabulary comment = .ok (segments.filterMap Segment.tag?) := by
  have read : readTags vocabulary true (contents comment.toList) = _ := readTags_of_complete cut
  simp only [parse, read]

/-- With another content for a string a comment has the same segments but for this one. -/
theorem ListString.exists_segmentation {comment : String} {segments : List Segment}
    (string : ListString comment segments)
    (cut : Segmentation vocabulary none (contents comment.toList) segments none)
    (content : List Char) :
    ∃ list arguments,
      Segmentation vocabulary none (contents (string.withContent content).toList)
        (string.before ++ .listed string.written string.gap list
          ⟨string.tag.name, string.tag.kind, arguments⟩ :: string.after) none ∧
      ArgumentsReplaced (.ofList (keptContent string.content)) (.ofList (keptContent content))
        string.tag.arguments arguments := by
  obtain ⟨front, old, rest, inComment, before, written, gap, list, tag, after, rfl, opening,
    closing, inList, samePlace⟩ := string
  have isList : ArgumentList list tag.arguments :=
    cut.isList_of_mem (List.mem_append_right before List.mem_cons_self)
  obtain ⟨arguments, isListToo, differs⟩ :=
    argumentList_of_replaced isList inList (keptContent content)
  have whole : contents comment.toList = before.flatMap Segment.text ++
      '@' :: (written ++ (gap ++ (list ++ after.flatMap Segment.text))) := by
    rw [cut.text_eq]
    simp [Segment.text]
  have sameRest : contentsAfter rest = closing ++ after.flatMap Segment.text := by
    have parts := contents_append_quoted front old rest
    rw [← inComment, whole, samePlace, inList.split] at parts
    simpa using parts.symm
  have changed : contents (String.ofList (front ++ (quoted content ++ rest))).toList =
      before.flatMap Segment.text ++ '@' :: (written ++ (gap ++
        ((opening ++ (quoted (keptContent content) ++ closing)) ++
          after.flatMap Segment.text))) := by
    rw [String.toList_ofList, contents_append_quoted, samePlace, sameRest]
    simp
  refine ⟨opening ++ (quoted (keptContent content) ++ closing), arguments, ?_, differs⟩
  simp only [ListString.withContent, changed]
  exact cut.replace_tail whole fun place cutList => cutList.replace_list isListToo

/-- Every comment is cut into segments in exactly one way, and parsing it gives what they
say, whatever the vocabulary is. -/
theorem parse_segments (vocabulary : Vocabulary) (comment : String) :
    ∃ segments ending, ParsesAs vocabulary comment segments ending := by
  obtain ⟨segments, ending, cut⟩ :=
    exists_segmentation vocabulary none (contents comment.toList)
  refine ⟨segments, ending, cut, fun others otherEnding other => ?_, ?_, ?_, ?_, ?_, ?_⟩
  · exact other.unique cut
  · rintro rfl
    exact parse_of_complete cut
  · rintro inner rfl
    obtain ⟨failure, refused, read⟩ := readTags_of_refused cut
    have read : readTags vocabulary true (contents comment.toList) = .error failure := read
    exact ⟨failure, refused, by simp only [parse, read]⟩
  · intro front written gap list tag back before segment others lists tags _
    have outside := place_outside_list lists tags
    dsimp only
    omega
  · rintro rfl string content
    obtain ⟨list, arguments, cutToo, differs⟩ := string.exists_segmentation cut content
    refine ⟨arguments, ?_, differs⟩
    rw [parse_of_complete cutToo, List.filterMap_append, List.filterMap_cons]
    rfl
  · exact fun content => keptContent_of_keepsBreak

/-- The one tag of a short comment. -/
def homeTag : Tag :=
  ⟨"Annoscan\\Routing\\Annotations\\Get", .route .get, ⟨[.string "/"], .empty⟩⟩

/-- The segments of the short comment. -/
theorem segmentation_homeTag :
    Segmentation Registry.routing.resolve? none (contents "/** @Get(\"/\") */".toList)
      [.listed "Get".toList [] "(\"/\")".toList homeTag, .prose ' '] none := by
  have inside : contents "/** @Get(\"/\") */".toList = "@Get(\"/\") ".toList := by decide +kernel
  have string : Value ['"', '/', '"'] [')'] (.string "/") :=
    .scalar .nil (@Scalar.string ['/'] [')'] (by decide))
  have isList : ArgumentList "(\"/\")".toList homeTag.arguments := by
    refine ⟨['"', '/', '"', ')'], [(none, .string "/")], by decide, ?_, by decide, rfl, rfl⟩
    exact .single .nil .nil (.of_value string (.closer .nil .arguments []))
  have mark : Mark none "@Get(\"/\") ".toList "Get".toList "(\"/\") ".toList := by
    refine ⟨by decide, by decide, ⟨'G', ['e', 't'], by decide, by decide⟩, ?_⟩
    have name := name_spanName "Get(\"/\") ".toList
    rwa [show spanName "Get(\"/\") ".toList = ("Get".toList, "(\"/\") ".toList) by decide] at name
  have takes : Takes Registry.routing.resolve? "Get".toList "(\"/\") ".toList
      (.listed "Get".toList [] "(\"/\")".toList homeTag) [' '] :=
    @Takes.listed _ _ [] "(\"/\")".toList [' '] _ _ _ (by decide +kernel) .nil isList
  rw [inside]
  refine .mark mark takes (.prose ?_ .complete)
  intro written after mark
  exact absurd (List.cons.inj mark.whole).1 (by decide)

/-- A path that looks like a tag is a path. -/
theorem parse_segments_homeTag :
    ∃ arguments,
      parse Registry.routing.resolve?
        (.ofList ("/** @Get(".toList ++ (quoted "@Post(".toList ++ ") */".toList))) =
          .ok [⟨homeTag.name, homeTag.kind, arguments⟩] ∧
        ArgumentsReplaced "/" "@Post(" homeTag.arguments arguments := by
  obtain ⟨segments, ending, parses⟩ :=
    parse_segments Registry.routing.resolve? "/** @Get(\"/\") */"
  obtain ⟨rfl, rfl⟩ := parses.unique _ _ segmentation_homeTag
  have keptOld : keptContent ['/'] = ['/'] := by decide +kernel
  have keptNew : keptContent "@Post(".toList = "@Post(".toList := by decide +kernel
  have inList : HasString "(\"/\")".toList ['('] (keptContent ['/']) [')'] :=
    ⟨by rw [keptOld]; decide, by decide, by decide, by decide⟩
  have changed := parses.strings rfl
    { front := "/** @Get(".toList, content := ['/'], rest := ") */".toList
      inComment := by decide
      before := [], written := "Get".toList, gap := [], list := "(\"/\")".toList, tag := homeTag
      after := [.prose ' '], inSegments := rfl, opening := ['('], closing := [')'], inList
      samePlace := by decide +kernel } "@Post(".toList
  obtain ⟨arguments, read, differs⟩ := changed
  rw [keptOld, keptNew] at differs
  exact ⟨arguments, read, differs⟩

end DocblockScan.Docblock

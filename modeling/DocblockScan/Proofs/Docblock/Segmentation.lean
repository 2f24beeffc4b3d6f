import DocblockScan.Proofs.Docblock.Soundness
import DocblockScan.Proofs.Docblock.TagRules

/-!
# How a comment is cut into segments

From left to right a text is cut into characters of prose and marks: an at sign with a
name, and the argument list after it if the name is known. The rules speak of texts, of
the vocabulary and of the grammar of argument lists, and call no reader. Every text is
cut in exactly one way, `exists_segmentation` and `Segmentation.unique`, and the tags
that are read are those of the segments: `readTags_of_complete`, `readTags_of_refused`.
-/

namespace DocblockScan.Docblock

open Grammar (Name NameText StartsWith ArgumentList)
open Text (Blank)

/-! ## Segments -/

/-- A segment of a text: a character that belongs to no mark, a name that is not known, a
known name without a list, or a known name with blanks and a list after it. -/
inductive Segment where
  | prose (char : Char)
  | unknown (written : List Char)
  | bare (written : List Char) (tag : Tag)
  | listed (written gap list : List Char) (tag : Tag)

namespace Segment

/-- The text of a segment. -/
def text : Segment → List Char
  | prose char => [char]
  | unknown written => '@' :: written
  | bare written _ => '@' :: written
  | listed written gap list _ => '@' :: (written ++ (gap ++ list))

/-- The tag of a segment, if it has one. -/
def tag? : Segment → Option Tag
  | prose _ => none
  | unknown _ => none
  | bare _ tag => some tag
  | listed _ _ _ tag => some tag

end Segment

/-- Whether a mark may stand after a character: at the start of a text, or after a
blank. -/
def atBreak (previous : Option Char) : Bool :=
  previous.all Text.isBlank

/-- A text that starts with a mark: an at sign at a break, and the longest name after it,
which has to start as the names of tags do. -/
structure Mark (previous : Option Char) (text written after : List Char) : Prop where
  whole : text = '@' :: (written ++ after)
  breaks : atBreak previous = true
  starts : StartsWith startsName written
  name : Name written after

/-- The segment that a name and the text after it start with, and what follows the
segment. A list is taken up to its closing parenthesis. -/
inductive Takes (vocabulary : Vocabulary) (written : List Char) :
    List Char → Segment → List Char → Prop where
  | unknown {after : List Char} (notKnown : vocabulary (.ofList written) = none) :
      Takes vocabulary written after (.unknown written) after
  | bare {after : List Char} {name : String} {kind : TagKind}
      (known : vocabulary (.ofList written) = some (name, kind))
      (noList : (Text.skipBlanks after).head? ≠ some '(') :
      Takes vocabulary written after (.bare written ⟨name, kind, .none⟩) after
  | listed {gap list rest : List Char} {name : String} {kind : TagKind}
      {arguments : Arguments} (known : vocabulary (.ofList written) = some (name, kind))
      (blank : Blank gap) (isList : ArgumentList list arguments) :
      Takes vocabulary written (gap ++ (list ++ rest))
        (.listed written gap list ⟨name, kind, arguments⟩) rest

/-- A known name before an opening parenthesis that starts no list of the grammar. -/
structure Refuses (vocabulary : Vocabulary) (written after inner : List Char) : Prop where
  known : vocabulary (.ofList written) ≠ none
  opens : Text.skipBlanks after = '(' :: inner
  outside : ∀ body rest arguments, inner = body ++ rest → ¬ ArgumentList ('(' :: body) arguments

/-- The segments of a text that stands after a character. They cover the whole text, or
they end before a known name whose list is outside the grammar; then the text after its
opening parenthesis is given. -/
inductive Segmentation (vocabulary : Vocabulary) :
    Option Char → List Char → List Segment → Option (List Char) → Prop where
  | complete {previous : Option Char} : Segmentation vocabulary previous [] [] none
  | prose {previous : Option Char} {char : Char} {rest : List Char}
      {segments : List Segment} {ending : Option (List Char)}
      (noMark : ∀ written after, ¬ Mark previous (char :: rest) written after)
      (others : Segmentation vocabulary (some char) rest segments ending) :
      Segmentation vocabulary previous (char :: rest) (.prose char :: segments) ending
  | mark {previous : Option Char} {text written after rest : List Char} {segment : Segment}
      {segments : List Segment} {ending : Option (List Char)}
      (mark : Mark previous text written after)
      (takes : Takes vocabulary written after segment rest)
      (others : Segmentation vocabulary segment.text.getLast? rest segments ending) :
      Segmentation vocabulary previous text (segment :: segments) ending
  | refused {previous : Option Char} {text written after inner : List Char}
      (mark : Mark previous text written after)
      (refuses : Refuses vocabulary written after inner) :
      Segmentation vocabulary previous text [] (some inner)

variable {vocabulary : Vocabulary} {previous : Option Char}
variable {text written after rest inner : List Char} {segment : Segment}

/-! ## Marks -/

/-- A text has at most one mark at its start. -/
theorem Mark.unique {otherWritten otherAfter : List Char}
    (mark : Mark previous text written after) (other : Mark previous text otherWritten otherAfter) :
    written = otherWritten ∧ after = otherAfter := by
  have same : written ++ after = otherWritten ++ otherAfter :=
    (List.cons.inj (mark.whole.symm.trans other.whole)).2
  have read := Grammar.spanName_of_name mark.name
  rw [same, Grammar.spanName_of_name other.name] at read
  exact ⟨(Prod.mk.inj read).1.symm, (Prod.mk.inj read).2.symm⟩

/-- A name follows the at sign of a mark, and it is read. -/
theorem Mark.follows (mark : Mark previous text written after) :
    ∃ rest, text = '@' :: rest ∧ nameFollows rest = true ∧ spanName rest = (written, after) := by
  refine ⟨written ++ after, mark.whole, ?_, Grammar.spanName_of_name mark.name⟩
  obtain ⟨char, rest, rfl, starts⟩ := mark.starts
  simpa [nameFollows] using starts

/-- Where a name follows an at sign at a break, there is a mark. -/
theorem mark_of_follows (breaks : atBreak previous = true) (follows : nameFollows rest = true) :
    Mark previous ('@' :: rest) (spanName rest).1 (spanName rest).2 where
  whole := by rw [spanName_append]
  breaks := breaks
  starts := by
    cases rest with
    | nil => simp [nameFollows] at follows
    | cons char others =>
        have starts : startsName char = true := by simpa [nameFollows] using follows
        rw [Grammar.spanName_cons (isNameChar_of_startsName starts)]
        exact ⟨char, _, rfl, starts⟩
  name := Grammar.name_spanName rest

/-- The name of a mark is not empty, and what follows it is shorter than the text. -/
theorem Mark.shorter (mark : Mark previous text written after) : after.length < text.length := by
  rw [mark.whole]
  simp only [List.length_cons, List.length_append]
  omega

/-- A name ends with no blank. -/
theorem atBreak_of_nameText (spelled : NameText written) (some : written ≠ []) :
    atBreak written.getLast? = false := by
  induction spelled with
  | nil => exact absurd rfl some
  | @char char rest accepted _ inductionHypothesis =>
      cases rest with
      | nil => simpa [atBreak] using Grammar.solid_of_isNameChar accepted
      | cons next others => simpa using inductionHypothesis (by simp)
  | @colons rest _ inductionHypothesis =>
      cases rest with
      | nil => decide
      | cons next others => simpa using inductionHypothesis (by simp)

/-! ## What a mark takes -/

/-- A list of the grammar ends with its closer. -/
theorem exists_closer_of_listing {kind : Grammar.ListKind} {body : List Char}
    {items : List (Option String × Literal)} (listing : Grammar.Listing kind body items) :
    ∃ front, body = front ++ [kind.closer] := by
  rcases listing.step with ⟨gap, shape, -⟩ | ⟨gap, item, gapAfter, _, shape, -⟩ |
    ⟨gap, item, gapAfter, tail, _, _, shape, -, -, -, others, -⟩
  · exact ⟨gap, shape⟩
  · exact ⟨gap ++ (item ++ gapAfter), by rw [shape]; simp⟩
  · have shorter : tail.length < body.length := by
      rw [shape]
      simp
      omega
    obtain ⟨front, rfl⟩ := exists_closer_of_listing others
    exact ⟨gap ++ (item ++ (gapAfter ++ ',' :: front)), by rw [shape]; simp⟩
termination_by body.length

/-- The opening parenthesis of a list is what follows the blanks before it. -/
theorem skipBlanks_list {gap list : List Char} {arguments : Arguments} (blank : Blank gap)
    (isList : ArgumentList list arguments) (rest : List Char) :
    Text.skipBlanks (gap ++ (list ++ rest)) = list ++ rest := by
  obtain ⟨body, items, rfl, -⟩ := isList
  rw [Text.skipBlanks_append blank, List.cons_append]
  exact Text.skipBlanks_cons (by decide) _

/-- A text starts with at most one list, and the list stands for one thing. -/
theorem argumentList_unique {list other : List Char} {arguments otherArguments : Arguments}
    (isList : ArgumentList list arguments) (isOther : ArgumentList other otherArguments)
    {rest otherRest : List Char} (same : list ++ rest = other ++ otherRest) :
    list = other ∧ arguments = otherArguments ∧ rest = otherRest := by
  obtain ⟨body, -, rfl, -⟩ := id isList
  obtain ⟨otherBody, -, rfl, -⟩ := id isOther
  have sameBody : body ++ rest = otherBody ++ otherRest := (List.cons.inj same).2
  have read := (Grammar.argumentsOutcome_none_iff (body ++ rest) rest _).2 ⟨body, rfl, isList⟩
  have readOther := (Grammar.argumentsOutcome_none_iff (otherBody ++ otherRest) otherRest _).2
    ⟨otherBody, rfl, isOther⟩
  rw [sameBody, readOther] at read
  obtain ⟨rfl, rfl⟩ := Prod.mk.inj (Except.ok.inj read)
  exact ⟨List.append_cancel_right same, rfl, rfl⟩

/-- The blanks before a list and the list are known from the text. -/
theorem gap_unique {gap list other otherGap : List Char} {arguments otherArguments : Arguments}
    (blank : Blank gap) (isList : ArgumentList list arguments) (blankOther : Blank otherGap)
    (isOther : ArgumentList other otherArguments) {rest otherRest : List Char}
    (same : gap ++ (list ++ rest) = otherGap ++ (other ++ otherRest)) :
    gap = otherGap ∧ list ++ rest = other ++ otherRest := by
  have lists := skipBlanks_list blank isList rest
  rw [same, skipBlanks_list blankOther isOther] at lists
  rw [lists] at same
  exact ⟨(List.append_cancel_right same).symm ▸ rfl, lists.symm⟩

/-- A name takes only one segment. -/
theorem Takes.unique {other : Segment} {otherRest : List Char}
    (takes : Takes vocabulary written after segment rest)
    (takesOther : Takes vocabulary written after other otherRest) :
    segment = other ∧ rest = otherRest := by
  cases takes with
  | unknown notKnown =>
      cases takesOther with
      | unknown _ => exact ⟨rfl, rfl⟩
      | bare known _ => simp [notKnown] at known
      | listed known _ _ => simp [notKnown] at known
  | bare known noList =>
      cases takesOther with
      | unknown notKnown => simp [notKnown] at known
      | bare knownToo _ =>
          obtain ⟨rfl, rfl⟩ := Prod.mk.inj (Option.some.inj (known.symm.trans knownToo))
          exact ⟨rfl, rfl⟩
      | listed _ blank isList =>
          rw [skipBlanks_list blank isList] at noList
          obtain ⟨body, -, rfl, -⟩ := isList
          exact absurd rfl noList
  | @listed gap list _ _ _ _ known blank isList =>
      generalize whole : gap ++ (list ++ rest) = after at takesOther
      cases takesOther with
      | unknown notKnown => simp [notKnown] at known
      | bare _ noList =>
          rw [← whole, skipBlanks_list blank isList] at noList
          obtain ⟨body, -, rfl, -⟩ := isList
          exact absurd rfl noList
      | listed knownToo blankToo isListToo =>
          obtain ⟨rfl, rfl⟩ := Prod.mk.inj (Option.some.inj (known.symm.trans knownToo))
          obtain ⟨rfl, same⟩ := gap_unique blank isList blankToo isListToo whole
          obtain ⟨rfl, rfl, rfl⟩ := argumentList_unique isList isListToo same
          exact ⟨rfl, rfl⟩

/-- A name whose list is outside the grammar takes no segment. -/
theorem Refuses.not_takes (refuses : Refuses vocabulary written after inner) :
    ¬ Takes vocabulary written after segment rest := by
  intro takes
  cases takes with
  | unknown notKnown => exact refuses.known notKnown
  | bare _ noList => exact noList (by rw [refuses.opens]; rfl)
  | listed _ blank isList =>
      have opens := refuses.opens
      rw [skipBlanks_list blank isList] at opens
      obtain ⟨body, _, rfl, _⟩ := id isList
      exact refuses.outside body _ _ (List.cons.inj opens).2.symm isList

/-- A name takes a segment, or its list is outside the grammar. -/
theorem exists_takes_or_refuses (vocabulary : Vocabulary) (written after : List Char) :
    (∃ segment rest, Takes vocabulary written after segment rest) ∨
      ∃ inner, Refuses vocabulary written after inner := by
  cases known : vocabulary (.ofList written) with
  | none => exact .inl ⟨_, _, .unknown known⟩
  | some entry =>
      obtain ⟨name, kind⟩ := entry
      by_cases opens : (Text.skipBlanks after).head? = some '('
      · obtain ⟨inner, skipped⟩ := List.head?_eq_some_iff.1 opens
        obtain ⟨gap, blank, whole⟩ := Text.exists_blank_append after
        cases read : Grammar.argumentsOutcome .none inner with
        | ok found =>
            obtain ⟨arguments, rest⟩ := found
            obtain ⟨body, rfl, isList⟩ := (Grammar.argumentsOutcome_none_iff _ _ _).1 read
            rw [whole, skipped]
            exact .inl ⟨_, rest, .listed known blank isList⟩
        | error failure =>
            refine .inr ⟨inner, by simp [known], skipped, ?_⟩
            rintro body rest arguments rfl isList
            have accepted :=
              (Grammar.argumentsOutcome_none_iff (body ++ rest) rest _).2 ⟨body, rfl, isList⟩
            simp [read] at accepted
      · exact .inl ⟨_, _, .bare known opens⟩

/-- What follows a segment is no longer than what follows its name. -/
theorem Takes.length_le (takes : Takes vocabulary written after segment rest) :
    rest.length ≤ after.length := by
  cases takes with
  | unknown _ => exact Nat.le_refl _
  | bare _ _ => exact Nat.le_refl _
  | listed _ _ _ =>
      simp only [List.length_append]
      omega

/-- A mark and its segment are the text up to what follows the segment. -/
theorem Mark.text_eq (mark : Mark previous text written after)
    (takes : Takes vocabulary written after segment rest) : text = segment.text ++ rest := by
  cases takes <;> simp [mark.whole, Segment.text]

/-- A segment with a list ends with the closing parenthesis. -/
theorem getLast?_listed {list : List Char} {arguments : Arguments}
    (isList : ArgumentList list arguments) (written gap : List Char) (tag : Tag) :
    (Segment.listed written gap list tag).text.getLast? = some ')' := by
  obtain ⟨body, items, rfl, listing, -⟩ := isList
  obtain ⟨front, rfl⟩ := exists_closer_of_listing listing
  show ('@' :: (written ++ (gap ++ '(' :: (front ++ [')'])))).getLast? = some ')'
  rw [← List.cons_append, ← List.append_assoc, ← List.cons_append, ← List.append_assoc,
    List.getLast?_concat]

/-- No mark stands right after the segment of another one. -/
theorem Mark.not_atBreak (mark : Mark previous text written after)
    (takes : Takes vocabulary written after segment rest) :
    atBreak segment.text.getLast? = false := by
  obtain ⟨first, others, rfl, -⟩ := mark.starts
  have ends := atBreak_of_nameText mark.name.spelled (by simp)
  cases takes with
  | unknown _ => simpa [Segment.text] using ends
  | bare _ _ => simpa [Segment.text] using ends
  | listed _ _ isList =>
      rw [getLast?_listed isList]
      decide

/-! ## Every text is cut in one way -/

/-- Every text has segments. -/
theorem exists_segmentation (vocabulary : Vocabulary) (previous : Option Char)
    (text : List Char) :
    ∃ segments ending, Segmentation vocabulary previous text segments ending := by
  induction length : text.length using Nat.strongRecOn generalizing previous text with
  | _ bound inductionHypothesis =>
      by_cases marked : ∃ written after, Mark previous text written after
      · obtain ⟨written, after, mark⟩ := marked
        rcases exists_takes_or_refuses vocabulary written after with
          ⟨segment, rest, takes⟩ | ⟨inner, refuses⟩
        · have shorter : rest.length < bound := by
            have within := takes.length_le
            have marks := mark.shorter
            omega
          obtain ⟨segments, ending, others⟩ :=
            inductionHypothesis rest.length shorter segment.text.getLast? rest rfl
          exact ⟨_, _, .mark mark takes others⟩
        · exact ⟨_, _, .refused mark refuses⟩
      · cases text with
        | nil => exact ⟨_, _, .complete⟩
        | cons char rest =>
            have shorter : rest.length < bound := by
              rw [← length, List.length_cons]
              exact Nat.lt_succ_self _
            obtain ⟨segments, ending, others⟩ :=
              inductionHypothesis rest.length shorter (some char) rest rfl
            exact ⟨_, _, .prose (fun written after mark => marked ⟨written, after, mark⟩) others⟩

/-- A text has only one list of segments, and one end. -/
theorem Segmentation.unique {segments others : List Segment}
    {ending otherEnding : Option (List Char)}
    (cut : Segmentation vocabulary previous text segments ending)
    (other : Segmentation vocabulary previous text others otherEnding) :
    segments = others ∧ ending = otherEnding := by
  induction cut generalizing others otherEnding with
  | complete =>
      cases other with
      | complete => exact ⟨rfl, rfl⟩
      | mark mark _ _ => exact absurd mark.whole (by simp)
      | refused mark _ => exact absurd mark.whole (by simp)
  | prose noMark _ inductionHypothesis =>
      cases other with
      | prose _ tail =>
          obtain ⟨rfl, rfl⟩ := inductionHypothesis tail
          exact ⟨rfl, rfl⟩
      | mark mark _ _ => exact absurd mark (noMark _ _)
      | refused mark _ => exact absurd mark (noMark _ _)
  | mark mark takes _ inductionHypothesis =>
      cases other with
      | complete => exact absurd mark.whole (by simp)
      | prose noMark _ => exact absurd mark (noMark _ _)
      | mark markToo takesToo tail =>
          obtain ⟨rfl, rfl⟩ := mark.unique markToo
          obtain ⟨rfl, rfl⟩ := takes.unique takesToo
          obtain ⟨rfl, rfl⟩ := inductionHypothesis tail
          exact ⟨rfl, rfl⟩
      | refused markToo refuses =>
          obtain ⟨rfl, rfl⟩ := mark.unique markToo
          exact absurd takes refuses.not_takes
  | refused mark refuses =>
      cases other with
      | complete => exact absurd mark.whole (by simp)
      | prose noMark _ => exact absurd mark (noMark _ _)
      | mark markToo takes _ =>
          obtain ⟨rfl, rfl⟩ := mark.unique markToo
          exact absurd takes refuses.not_takes
      | refused markToo refusesToo =>
          obtain ⟨rfl, rfl⟩ := mark.unique markToo
          have opens := refuses.opens.symm.trans refusesToo.opens
          exact ⟨rfl, congrArg some (List.cons.inj opens).2⟩

/-- Segments that cover a text are the text. -/
theorem Segmentation.text_eq {segments : List Segment}
    (cut : Segmentation vocabulary previous text segments none) :
    text = segments.flatMap Segment.text := by
  generalize complete : none = ending at cut
  induction cut with
  | complete => rfl
  | prose _ _ inductionHypothesis =>
      rw [List.flatMap_cons, ← inductionHypothesis complete]
      rfl
  | mark mark takes _ inductionHypothesis =>
      rw [List.flatMap_cons, ← inductionHypothesis complete]
      exact mark.text_eq takes
  | refused _ _ => simp at complete

/-! ## Reading follows the segments -/

/-- Where no mark stands, a character is passed over. -/
theorem readTags_of_noMark {char : Char}
    (noMark : ∀ written after, ¬ Mark previous (char :: rest) written after) :
    readTags vocabulary (atBreak previous) (char :: rest) =
      readTags vocabulary (atBreak (some char)) rest := by
  rw [readTags, dif_neg]
  · rfl
  · rintro ⟨rfl, breaks, follows⟩
    exact noMark _ _ (mark_of_follows breaks follows)

/-- The name of a mark is looked up. -/
theorem readTags_of_mark (vocabulary : Vocabulary) (mark : Mark previous text written after) :
    readTags vocabulary (atBreak previous) text =
      readTagsAfter vocabulary after (vocabulary (.ofList written)) := by
  obtain ⟨rest, rfl, follows, named⟩ := mark.follows
  rw [mark.breaks, readTags_mark vocabulary follows, named]

/-- The tag of a segment is read, and reading goes on after the segment. -/
theorem readTagsAfter_of_takes (takes : Takes vocabulary written after segment rest) :
    readTagsAfter vocabulary after (vocabulary (.ofList written)) =
      (readTags vocabulary false rest).map (segment.tag?.toList ++ ·) := by
  cases takes with
  | unknown notKnown =>
      rw [notKnown, readTagsAfter]
      cases readTags vocabulary false after <;> rfl
  | bare known noList =>
      rw [known]
      simp only [readTagsAfter]
      split
      · next inner opens => exact absurd (by rw [opens]; rfl) noList
      · rfl
  | @listed gap list _ _ _ arguments known blank isList =>
      rw [known]
      simp only [readTagsAfter, skipBlanks_list blank isList]
      obtain ⟨body, -, rfl, -⟩ := id isList
      obtain ⟨reading, found, rfl, left⟩ := (Grammar.argumentsOutcome_eq_ok_iff _ _ _).1
        ((Grammar.argumentsOutcome_none_iff (body ++ rest) rest arguments).2 ⟨body, rfl, isList⟩)
      simp only [List.cons_append, found, left]
      rfl

/-- The fault of a list outside the grammar is reported. -/
theorem readTagsAfter_of_refuses (refuses : Refuses vocabulary written after inner) :
    ∃ failure, readArguments inner = .error failure ∧
      readTagsAfter vocabulary after (vocabulary (.ofList written)) = .error failure := by
  cases found : readArguments inner with
  | ok reading =>
      have read := (Grammar.argumentsOutcome_eq_ok_iff inner reading.rest reading.value).2
        ⟨reading, found, rfl, rfl⟩
      obtain ⟨body, whole, isList⟩ := (Grammar.argumentsOutcome_none_iff _ _ _).1 read
      exact absurd isList (refuses.outside body _ _ whole)
  | error failure =>
      refine ⟨failure, rfl, ?_⟩
      obtain ⟨⟨name, kind⟩, known⟩ := Option.ne_none_iff_exists'.1 refuses.known
      simp only [known, readTagsAfter, refuses.opens, found]

/-- The tags of a text that is covered by segments are those of the segments. -/
theorem readTags_of_complete {segments : List Segment}
    (cut : Segmentation vocabulary previous text segments none) :
    readTags vocabulary (atBreak previous) text = .ok (segments.filterMap Segment.tag?) := by
  generalize complete : none = ending at cut
  induction cut with
  | complete => rw [readTags]; rfl
  | prose noMark _ inductionHypothesis =>
      rw [readTags_of_noMark noMark, inductionHypothesis complete]
      rfl
  | @mark _ _ _ _ _ segment _ _ mark takes _ inductionHypothesis =>
      rw [mark.not_atBreak takes] at inductionHypothesis
      rw [readTags_of_mark vocabulary mark, readTagsAfter_of_takes takes,
        inductionHypothesis complete, List.filterMap_cons]
      cases segment.tag? <;> rfl
  | refused _ _ => simp at complete

/-- Reading a text fails with the fault of the list that its segments end at. -/
theorem readTags_of_refused {segments : List Segment}
    (cut : Segmentation vocabulary previous text segments (some inner)) :
    ∃ failure, readArguments inner = .error failure ∧
      readTags vocabulary (atBreak previous) text = .error failure := by
  generalize ends : some inner = ending at cut
  induction cut with
  | complete => simp at ends
  | prose noMark _ inductionHypothesis =>
      rw [readTags_of_noMark noMark]
      exact inductionHypothesis ends
  | mark mark takes _ inductionHypothesis =>
      obtain ⟨failure, refused, read⟩ := inductionHypothesis ends
      rw [mark.not_atBreak takes] at read
      refine ⟨failure, refused, ?_⟩
      rw [readTags_of_mark vocabulary mark, readTagsAfter_of_takes takes, read]
      rfl
  | refused mark refuses =>
      obtain rfl := Option.some.inj ends
      obtain ⟨failure, refused, read⟩ := readTagsAfter_of_refuses refuses
      exact ⟨failure, refused, (readTags_of_mark vocabulary mark).trans read⟩

/-! ## Places of tags and lists -/

/-- No segment starts inside the list of another one. -/
theorem place_outside_list {segments before front back others : List Segment}
    {written gap list : List Char} {tag : Tag}
    (lists : segments = front ++ .listed written gap list tag :: back)
    (tags : segments = before ++ segment :: others) :
    (before.flatMap Segment.text).length ≤ (front.flatMap Segment.text).length ∨
      (front.flatMap Segment.text).length + 1 + written.length + gap.length + list.length ≤
        (before.flatMap Segment.text).length := by
  rcases List.append_eq_append_iff.1 (lists.symm.trans tags) with
    ⟨between, rfl, same⟩ | ⟨between, rfl, -⟩
  · cases between with
    | nil => exact .inl (by simp)
    | cons first more =>
        obtain ⟨rfl, -⟩ := List.cons.inj same
        refine .inr ?_
        simp only [List.flatMap_append, List.flatMap_cons, List.length_append, Segment.text,
          List.length_cons]
        omega
  · refine .inl ?_
    simp only [List.flatMap_append, List.length_append]
    omega

end DocblockScan.Docblock

import DocblockScan.Proofs.Docblock.ConsecutiveLines
import DocblockScan.Proofs.Docblock.RelaidReading
import DocblockScan.Proofs.Docblock.RenderedLines
import DocblockScan.Proofs.Outcome

/-!
# The layout of a comment

The same lines may stand in a comment with any margins: blanks, an asterisk or none, and
blanks again, chosen for each line. `parse_layouts` says that the layout has no influence on
what is parsed, if no string runs across a line end. Only the closing mark matters: with
blanks before it there is a last line without characters, and a fault at the end of the text
is reported one line further down, `parse_layouts_closing`.
-/

namespace DocblockScan.Docblock

open Grammar (Relaid Remains Agrees)
open Rendering (Indentation withoutMargin_cons withoutMargin_indented withoutMargin_blank)
open Text (Blank withoutReturn)

/-! ## Layouts -/

/-- Blanks that stay on one line. -/
abbrev Indent := {gap : List Char // Indentation gap}

/-- A line with a margin of its own. The line itself starts with no blank and no asterisk. -/
structure LaidLine where
  indent : Indent
  asterisk : Bool
  gap : Indent
  line : List Char
  oneLine : '\n' ∉ line
  starts : ∀ char ∈ line.head?, Text.isBlank char = false ∧ char ≠ '*'

/-- A line as it is written. -/
def LaidLine.text (laid : LaidLine) : List Char :=
  laid.indent.val ++ ((if laid.asterisk then ['*'] else []) ++ (laid.gap.val ++ laid.line))

/-- A comment whose marks stand on lines of their own, with blanks around each of them. -/
structure Layout where
  indent : Indent
  afterOpening : Indent
  body : List LaidLine
  closing : Indent
  afterClosing : Indent

namespace Layout

/-- The lines between the marks, without their margins. -/
def lines (layout : Layout) : List (List Char) :=
  layout.body.map LaidLine.line

/-- A comment as it is written. -/
def comment (layout : Layout) : List Char :=
  layout.indent.val ++ ("/**".toList ++ (layout.afterOpening.val ++ '\n' ::
    ((layout.body.map LaidLine.text).flatMap (· ++ ['\n']) ++
      (layout.closing.val ++ ("*/".toList ++ layout.afterClosing.val)))))

/-- What the text of a comment ends with: a last line without characters, if there are
blanks before the closing mark. -/
def ending (layout : Layout) : List Char :=
  if layout.closing.val = [] then [] else ['\n']

/-- The line of a comment on which its text ends: that of the closing mark, if there are
blanks before it, and else the line above. -/
def lastLine (layout : Layout) : Nat :=
  1 + (layout.lines.length + layout.ending.length)

end Layout

/-- No blanks. -/
def Indent.none : Indent :=
  ⟨[], .nil, List.not_mem_nil⟩

/-- A single blank. -/
def Indent.one : Indent :=
  ⟨[' '], by decide, by decide⟩

/-- A comment with a call over two lines and an asterisk before each of them. -/
def withMargins : Layout :=
  ⟨.none, .none, [⟨.one, true, .one, "@Get(".toList, by decide, by simp; decide⟩,
    ⟨.one, true, .one, "\"/\")".toList, by decide, by simp; decide⟩], .none, .none⟩

/-- A comment with a call over two lines and no margins. -/
def withoutMargins : Layout :=
  ⟨.none, .none, [⟨.none, false, .none, "@Get(".toList, by decide, by simp; decide⟩,
    ⟨.none, false, .none, "\"/\")".toList, by decide, by simp; decide⟩], .none, .none⟩

/-- A comment with a list that does not end, and given blanks before the closing mark. -/
def openList (closing : Indent) : Layout :=
  ⟨.none, .none, [⟨.none, false, .none, "@Get(".toList, by decide, by simp; decide⟩], closing, .none⟩

/-! ## What a comment of some layout contains -/

/-- Blanks are taken away, and the rest of a line that starts with no asterisk stays. -/
theorem withoutMargin_append {gap rest : List Char} (blank : Blank gap)
    (starts : ∀ char ∈ rest.head?, Text.isBlank char = false ∧ char ≠ '*') :
    withoutMargin (gap ++ rest) = rest := by
  have same : withoutMargin (gap ++ rest) = withoutMargin rest := by
    unfold withoutMargin
    rw [Text.skipBlanks_append blank]
  rw [same]
  cases rest with
  | nil => rfl
  | cons char rest => exact withoutMargin_cons (starts char rfl).1 (starts char rfl).2 rest

/-- The carriage return at the end of a line is no asterisk. -/
theorem withoutReturn_asterisk (rest : List Char) :
    withoutReturn ('*' :: rest) = '*' :: withoutReturn rest := by
  cases rest with
  | nil => rfl
  | cons char rest => exact Text.withoutReturn_append ['*'] (List.cons_ne_nil char rest)

/-- Before a line its carriage return leaves blanks as they are, and it is taken from them if
they are the whole line. -/
theorem withoutReturn_indented {gap : List Char} (indented : Indentation gap) (line : List Char) :
    ∃ kept, Indentation kept ∧ withoutReturn (gap ++ line) = kept ++ withoutReturn line := by
  cases line with
  | nil =>
      refine ⟨withoutReturn gap, ⟨?_, ?_⟩, by simp [show withoutReturn [] = [] from rfl]⟩
      · exact fun char member => indented.blank char (Text.mem_of_mem_withoutReturn member)
      · exact fun feed => indented.oneLine (Text.mem_of_mem_withoutReturn feed)
  | cons char rest =>
      exact ⟨gap, indented, Text.withoutReturn_append gap (List.cons_ne_nil char rest)⟩

namespace LaidLine

/-- A margin does not end a line. -/
theorem oneLine_text (laid : LaidLine) : '\n' ∉ laid.text := by
  simp only [text, List.mem_append, not_or]
  refine ⟨laid.indent.property.oneLine, ?_, laid.gap.property.oneLine, laid.oneLine⟩
  cases laid.asterisk <;> decide

/-- Of the margin only blanks are kept. -/
theorem keptLine_text (laid : LaidLine) :
    ∃ gap, Indentation gap ∧ keptLine laid.text = gap ++ withoutReturn laid.line := by
  have starts : ∀ char ∈ (withoutReturn laid.line).head?,
      Text.isBlank char = false ∧ char ≠ '*' := by
    obtain ⟨ending, whole⟩ := Text.withoutReturn_prefix laid.line
    intro char first
    refine laid.starts char ?_
    rw [← whole, List.head?_append, Option.mem_def.1 first]
    rfl
  obtain ⟨kept, indented, line⟩ := withoutReturn_indented laid.gap.property laid.line
  cases asterisk : laid.asterisk with
  | true =>
      refine ⟨kept, indented, ?_⟩
      simp only [keptLine, text, asterisk, if_true, List.singleton_append]
      rw [Text.withoutReturn_append _ (List.cons_ne_nil _ _), withoutReturn_asterisk,
        withoutMargin_indented laid.indent.property.blank, line]
  | false =>
      have both : Indentation (laid.indent.val ++ laid.gap.val) :=
        ⟨laid.indent.property.blank.append laid.gap.property.blank, by
          simp [laid.indent.property.oneLine, laid.gap.property.oneLine]⟩
      obtain ⟨kept, indented, line⟩ := withoutReturn_indented both laid.line
      refine ⟨[], ⟨.nil, List.not_mem_nil⟩, ?_⟩
      simp only [keptLine, text, asterisk, Bool.false_eq_true, if_false, List.nil_append]
      rw [← List.append_assoc, line, withoutMargin_append indented.blank starts]

end LaidLine

/-- Between the marks of a comment stand its lines, whatever stands around the marks. -/
theorem withoutDelimiters_comment (layout : Layout) :
    withoutDelimiters (Text.trim layout.comment) = layout.afterOpening.val ++ '\n' ::
      ((layout.body.map LaidLine.text).flatMap (· ++ ['\n']) ++ layout.closing.val) := by
  have whole : layout.comment = layout.indent.val ++ ("/**".toList ++
      ((layout.afterOpening.val ++ '\n' ::
        ((layout.body.map LaidLine.text).flatMap (· ++ ['\n']) ++ layout.closing.val)) ++
          ("*/".toList ++ layout.afterClosing.val))) := by
    simp [Layout.comment]
  rw [whole]
  exact withoutDelimiters_marks layout.indent.property.blank layout.afterClosing.property.blank _

/-- A comment contains its lines as they are kept, with a line feed before each, and its
ending. -/
theorem contents_comment (layout : Layout) :
    contents layout.comment =
      (layout.body.flatMap fun laid => '\n' :: keptLine laid.text) ++ layout.ending := by
  have oneLine : ∀ line ∈ layout.body.map LaidLine.text, '\n' ∉ line := by
    intro line member
    obtain ⟨laid, -, rfl⟩ := List.mem_map.1 member
    exact laid.oneLine_text
  have first : withoutMargin (withoutReturn layout.afterOpening.val) = [] :=
    withoutMargin_blank fun char member =>
      layout.afterOpening.property.blank char (Text.mem_of_mem_withoutReturn member)
  have last : ((Text.lines layout.closing.val).map withoutMargin).flatMap
      (fun line => '\n' :: line) = layout.ending := by
    rw [Text.lines_of_not_mem layout.closing.property.oneLine, Layout.ending]
    split
    · rfl
    · simp [withoutMargin_blank layout.closing.property.blank]
  rw [contents, withoutDelimiters_comment,
    Text.lines_append_feed layout.afterOpening.property.oneLine, lines_flatMap_append oneLine,
    List.map_cons, first, Text.intercalate_feed, List.map_append, List.flatMap_append, last,
    List.map_map, List.map_map, List.flatMap_map]
  rfl

/-- A comment contains a line feed for each of its lines, and one for its ending. -/
theorem count_contents_comment (layout : Layout) :
    (contents layout.comment).count '\n' = layout.lines.length + layout.ending.length := by
  have kept : ∀ line ∈ layout.body.map fun laid => keptLine laid.text, '\n' ∉ line := by
    intro line member feed
    obtain ⟨laid, -, rfl⟩ := List.mem_map.1 member
    exact laid.oneLine_text (mem_of_mem_keptLine feed)
  have count := Text.count_flatMap_feed kept
  rw [List.flatMap_map, List.length_map] at count
  have ending : layout.ending.count '\n' = layout.ending.length := by
    unfold Layout.ending
    split <;> rfl
  rw [contents_comment, List.count_append, count, ending, Layout.lines, List.length_map]

/-! ## Two layouts -/

/-- The same text in front of two such texts. -/
theorem relaid_append {leftEnd rightEnd left right front : List Char} (oneLine : '\n' ∉ front)
    (others : Relaid leftEnd rightEnd left right) :
    Relaid leftEnd rightEnd (front ++ left) (front ++ right) := by
  induction front with
  | nil => exact others
  | cons char front inductionHypothesis =>
      rw [List.mem_cons, not_or] at oneLine
      exact .char (Ne.symm oneLine.1) (inductionHypothesis oneLine.2)

/-- The same lines with two margins each. -/
theorem relaid_lines {leftEnd rightEnd : List Char} (leftBlank : Blank leftEnd)
    (rightBlank : Blank rightEnd) {left right : List LaidLine}
    (same : left.map LaidLine.line = right.map LaidLine.line) :
    Relaid leftEnd rightEnd ((left.flatMap fun laid => '\n' :: keptLine laid.text) ++ leftEnd)
      ((right.flatMap fun laid => '\n' :: keptLine laid.text) ++ rightEnd) := by
  induction left generalizing right with
  | nil =>
      obtain rfl := List.map_eq_nil_iff.1 same.symm
      exact .close leftBlank rightBlank
  | cons first others inductionHypothesis =>
      obtain ⟨second, more, rfl, sameLine, sameLines⟩ := List.map_eq_cons_iff.1 same.symm
      obtain ⟨gap, indented, line⟩ := first.keptLine_text
      obtain ⟨otherGap, otherIndented, otherLine⟩ := second.keptLine_text
      rw [sameLine] at otherLine
      have oneLine : '\n' ∉ withoutReturn first.line :=
        fun feed => first.oneLine (Text.mem_of_mem_withoutReturn feed)
      have below := relaid_append oneLine (inductionHypothesis sameLines.symm)
      simpa [line, otherLine] using Relaid.feed indented otherIndented below

/-- Comments with the same lines contain the same but for the margins and the ending. -/
theorem relaid_contents {left right : Layout} (same : left.lines = right.lines) :
    Relaid left.ending right.ending (contents left.comment) (contents right.comment) := by
  have blank : ∀ layout : Layout, Blank layout.ending := by
    intro layout
    unfold Layout.ending
    split <;> decide
  rw [contents_comment, contents_comment]
  exact relaid_lines (blank left) (blank right) same

/-- Where nothing is left of the text of a comment, a fault is reported on its last line. -/
theorem lineOf_contents_nil (layout : Layout) :
    lineOf (contents layout.comment) [] = layout.lastLine := by
  simp [lineOf, count_contents_comment, Layout.lastLine]

/-- Where such texts are left of both comments, faults are reported on the same line. -/
theorem lineOf_relaid {leftEnd rightEnd left right leftRest rightRest : List Char}
    (texts : Relaid leftEnd rightEnd left right)
    (rests : Relaid leftEnd rightEnd leftRest rightRest) (within : leftRest <:+ left)
    (otherWithin : rightRest <:+ right) : lineOf left leftRest = lineOf right rightRest := by
  have whole := texts.count_add
  have unread := rests.count_add
  have bound := within.sublist.count_le '\n'
  have otherBound := otherWithin.sublist.count_le '\n'
  simp only [lineOf]
  omega

/-- A comment whose tags cannot be read is not parsed, and an end of its text is unread. -/
theorem parse_of_failure {vocabulary : Vocabulary} {comment : List Char} {failure : Failure}
    (fails : readTags vocabulary true (contents comment) = .error failure) :
    parse vocabulary (.ofList comment) =
        .error ⟨lineOf (contents comment) failure.rest, failure.fault⟩ ∧
      failure.rest <:+ contents comment := by
  refine ⟨?_, readTags_suffix (show readTags vocabulary (atBreak none) _ = _ from fails)⟩
  simp only [parse, String.toList_ofList, fails]

/-- The layout of a comment has no influence on what is parsed. Whatever the vocabulary is,
two comments with the same lines give the same tags or the same fault on the same line, if no
string that is read from the first one runs across a line end and the closing marks of both
stand after blanks or the closing marks of both stand alone. If only one of the closing marks
stands after blanks there is one exception: a fault that is noticed at the end of the text is
reported on the line where the text of each comment ends. -/
theorem parse_layouts (vocabulary : Vocabulary) {left right : Layout}
    (sameLines : left.lines = right.lines)
    (inLine : StringsInLine vocabulary (.tags none) (contents left.comment)) :
    ((left.closing.val = [] ↔ right.closing.val = []) →
      parse vocabulary (.ofList left.comment) = parse vocabulary (.ofList right.comment)) ∧
    (parse vocabulary (.ofList left.comment) = parse vocabulary (.ofList right.comment) ∨
      ∃ fault, parse vocabulary (.ofList left.comment) = .error ⟨left.lastLine, fault⟩ ∧
        parse vocabulary (.ofList right.comment) = .error ⟨right.lastLine, fault⟩) := by
  have relaid := relaid_contents sameLines
  have agrees : Agrees left.ending right.ending Eq
      (readTags vocabulary true (contents left.comment))
      (readTags vocabulary true (contents right.comment)) := tags_agree none relaid inLine
  cases read : readTags vocabulary true (contents left.comment) with
  | ok tags =>
      rw [read] at agrees
      generalize readToo : readTags vocabulary true (contents right.comment) = other at agrees
      cases agrees with
      | ok same =>
          subst same
          have equal : parse vocabulary (.ofList left.comment) =
              parse vocabulary (.ofList right.comment) := by
            simp only [parse, String.toList_ofList, read, readToo]
          exact ⟨fun _ => equal, .inl equal⟩
  | error failure =>
      rw [read] at agrees
      obtain ⟨rest, readToo, rests⟩ := agrees.of_error
      obtain ⟨fails, within⟩ := parse_of_failure read
      obtain ⟨failsToo, otherWithin⟩ := parse_of_failure readToo
      obtain ⟨fault, leftRest⟩ := failure
      dsimp only at rests fails failsToo within otherWithin
      cases rests with
      | nothing =>
          rw [lineOf_contents_nil] at fails failsToo
          refine ⟨fun closings => ?_, .inr ⟨fault, fails, failsToo⟩⟩
          rw [fails, failsToo, Layout.lastLine, Layout.lastLine, sameLines, Layout.ending,
            Layout.ending]
          simp only [closings]
      | text unread =>
          have equal : parse vocabulary (.ofList left.comment) =
              parse vocabulary (.ofList right.comment) := by
            rw [fails, failsToo, lineOf_relaid relaid unread within otherWithin]
          exact ⟨fun _ => equal, .inl equal⟩

/-- A call over two lines is the same call with margins and without. -/
theorem parse_layouts_get :
    withMargins.lines = withoutMargins.lines ∧
    StringsInLine Registry.routing.resolve? (.tags none) (contents withMargins.comment) ∧
    parse Registry.routing.resolve? (.ofList withMargins.comment) =
      parse Registry.routing.resolve? (.ofList withoutMargins.comment) := by
  have inLine : StringsInLine Registry.routing.resolve? (.tags none)
      (contents withMargins.comment) := by
    have whole : contents withMargins.comment =
        "\n @Get(\n ".toList ++ "\"/\")".toList := by decide +kernel
    rw [whole]
    exact stringsInLine_of_append (by decide) (by decide)
  have sameLines : withMargins.lines = withoutMargins.lines := rfl
  have closings : withMargins.closing.val = [] ↔ withoutMargins.closing.val = [] := Iff.rfl
  exact ⟨sameLines, inLine, (parse_layouts Registry.routing.resolve? sameLines inLine).1 closings⟩

/-- With a blank before the closing mark the end of an open list is one line further down. -/
theorem parse_layouts_closing :
    (openList .none).comment = "/**\n@Get(\n*/".toList ∧
    (openList .one).comment = "/**\n@Get(\n */".toList ∧
    ¬ ∀ (vocabulary : Vocabulary) (left right : Layout), left.lines = right.lines →
      StringsInLine vocabulary (.tags none) (contents left.comment) →
      StringsInLine vocabulary (.tags none) (contents right.comment) →
      parse vocabulary (.ofList left.comment) = parse vocabulary (.ofList right.comment) := by
  refine ⟨by decide, by decide, fun independent => ?_⟩
  have inLine : ∀ closing, (contents (openList closing).comment).contains '"' = false →
      StringsInLine Registry.routing.resolve? (.tags none) (contents (openList closing).comment) := by
    intro closing noQuote
    rw [← List.append_nil (contents _)]
    exact stringsInLine_of_append (by simpa using noQuote) List.not_mem_nil
  have same := independent Registry.routing.resolve? (openList .none) (openList .one) rfl
    (inLine _ (by decide +kernel)) (inLine _ (by decide +kernel))
  have first : Outcome.fault? (parse Registry.routing.resolve? (.ofList (openList .none).comment)) =
      some ⟨2, .missingValue⟩ := by decide +kernel
  have second : Outcome.fault? (parse Registry.routing.resolve? (.ofList (openList .one).comment)) =
      some ⟨3, .missingValue⟩ := by decide +kernel
  rw [same, second] at first
  exact absurd first (by decide)

end DocblockScan.Docblock

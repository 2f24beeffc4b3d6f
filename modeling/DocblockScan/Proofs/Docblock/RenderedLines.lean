import DocblockScan.Proofs.Docblock.ConsecutiveLines
import DocblockScan.Proofs.Docblock.RenderedArguments
import DocblockScan.Proofs.Text.Lines
import Mathlib.Data.List.Chain

/-!
# What a comment keeps of rendered lines

Taking the marks and margins of a rendered comment away leaves a blank and the tag
of every line: `contents_commentText`. A tag may go over several lines, as keys
can contain line feeds, and so its text is carried as `Sealed`: no margin can be
mistaken inside it, and no line feed stands at its ends.
-/

namespace DocblockScan.Docblock.Rendering

open Grammar
open Text (Blank)

/-! ## Sealed texts -/

/-- A text that comment lines keep, with no line feed at its ends. -/
structure Sealed (text : List Char) : Prop where
  kept : text.IsChain KeepsBreak
  opens : text.head? ≠ some '\n'
  closes : text.getLast? ≠ some '\n'

/-- Two characters that are no line feeds may stand side by side. -/
theorem keepsBreak_of_ne {left right : Char} (leftPlain : left ≠ '\n')
    (rightPlain : right ≠ '\n') : KeepsBreak left right :=
  ⟨fun feed => absurd feed rightPlain, fun feed => absurd feed leftPlain⟩

theorem Sealed.append {left right : List Char} (leftSealed : Sealed left)
    (rightSealed : Sealed right) : Sealed (left ++ right) := by
  refine ⟨List.isChain_append.2 ⟨leftSealed.kept, rightSealed.kept, ?_⟩, ?_, ?_⟩
  · intro last isLast first isFirst
    apply keepsBreak_of_ne
    · rintro rfl
      exact leftSealed.closes isLast
    · rintro rfl
      exact rightSealed.opens isFirst
  · rw [List.head?_append]
    cases found : left.head? with
    | none => exact rightSealed.opens
    | some char => simpa [found] using leftSealed.opens
  · rw [List.getLast?_append]
    cases found : right.getLast? with
    | none => exact leftSealed.closes
    | some char => simpa [found] using rightSealed.closes

/-- A text without a line feed is sealed. -/
theorem Sealed.of_not_mem {text : List Char} (oneLine : '\n' ∉ text) : Sealed text := by
  refine ⟨?_, fun feed => oneLine (List.mem_of_head? feed),
    fun feed => oneLine (List.mem_of_getLast? feed)⟩
  induction text with
  | nil => exact .nil
  | cons char rest inductionHypothesis =>
      rw [List.mem_cons, not_or] at oneLine
      rw [List.isChain_cons]
      refine ⟨?_, inductionHypothesis oneLine.2⟩
      rintro next isNext
      exact keepsBreak_of_ne (Ne.symm oneLine.1)
        fun feed => oneLine.2 (feed ▸ List.mem_of_head? isNext)

/-- A quote may stand before any character and after any. -/
theorem keepsBreak_quote (char : Char) : KeepsBreak '"' char ∧ KeepsBreak char '"' := by
  refine ⟨⟨fun _ => by decide, fun feed => absurd feed (by decide)⟩,
    ⟨fun feed => absurd feed (by decide), fun _ => .inr (by decide)⟩⟩

/-- A character stands with its neighbour after quotes are doubled as it did before. -/
theorem isChain_doubled {left : Char} {content : List Char}
    (kept : (left :: content).IsChain KeepsBreak) :
    (left :: (doubled content ++ ['"'])).IsChain KeepsBreak := by
  induction content generalizing left with
  | nil => exact List.isChain_pair.2 (keepsBreak_quote left).2
  | cons char rest inductionHypothesis =>
      obtain ⟨pair, tail⟩ := List.isChain_cons_cons.1 kept
      by_cases quote : char = '"'
      · subst quote
        simp only [doubled_cons, if_true, List.cons_append, List.nil_append]
        exact List.isChain_cons_cons.2 ⟨pair, List.isChain_cons_cons.2
          ⟨(keepsBreak_quote '"').1, inductionHypothesis tail⟩⟩
      · simp only [doubled_cons, if_neg quote, List.cons_append, List.nil_append]
        exact List.isChain_cons_cons.2 ⟨pair, inductionHypothesis tail⟩

/-- A string of a content that comment lines keep is sealed. -/
theorem Sealed.quoted {content : List Char} (kept : content.IsChain KeepsBreak) :
    Sealed (quoted content) := by
  refine ⟨isChain_doubled ?_, by simp [Grammar.quoted], ?_⟩
  · exact List.isChain_cons.2 ⟨fun next _ => (keepsBreak_quote next).1, kept⟩
  · rw [Grammar.quoted, ← List.cons_append, List.getLast?_concat]
    decide

/-- Sealed texts with commas between them are sealed. -/
theorem Sealed.listText {kind : ListKind} {items : List (List Char)}
    (each : ∀ item ∈ items, Sealed item) : Sealed (listText kind items) := by
  have closer : Sealed [kind.closer] := .of_not_mem (by cases kind <;> decide)
  refine .append ?_ closer
  induction items with
  | nil => exact .of_not_mem (by simp)
  | cons item others inductionHypothesis =>
      have tail := inductionHypothesis fun item member => each item (.tail _ member)
      have first := each item List.mem_cons_self
      cases others with
      | nil => simpa using first
      | cons second rest =>
          rw [List.intercalate_cons_cons]
          exact (first.append (.of_not_mem (by decide))).append tail

/-! ## Rendered tags are sealed -/

/-- A character that stands in no name is in no text of names. -/
theorem not_mem_of_nameText {written : List Char} (spelled : NameText written) {char : Char}
    (refused : isNameChar char = false) (noColon : char ≠ ':') : char ∉ written := by
  induction spelled with
  | nil => simp
  | @char found _ accepted _ inductionHypothesis =>
      rw [List.mem_cons, not_or]
      refine ⟨?_, inductionHypothesis⟩
      rintro rfl
      rw [refused] at accepted
      exact absurd accepted (by decide)
  | colons _ inductionHypothesis => simp [noColon, inductionHypothesis]

/-- A name that is read to its end stays on one line. -/
theorem ReadWhole.sealed {name : String} (whole : ReadWhole name) : Sealed name.toList := by
  have spelled := (name_spanName name.toList).spelled
  rw [whole] at spelled
  exact .of_not_mem (not_mem_of_nameText spelled (by decide) (by decide))

/-- An integer stays on one line. -/
theorem sealed_integerText (value : Int) : Sealed (integerText value) := by
  obtain ⟨negative, digits, written, -, allDigits, -⟩ := integerText_eq value
  rw [written]
  refine .append (.of_not_mem (by cases negative <;> decide)) (.of_not_mem ?_)
  intro feed
  exact absurd (allDigits _ feed) (by decide)

/-- An item is sealed, if its key and its literal are. -/
theorem sealed_itemText {kind : ListKind} {item : Option String × Literal}
    (names : kind = .arguments → ∀ key, item.1 = some key → ReadWhole key)
    (keys : kind = .entries → ∀ key, item.1 = some key → KeepsLines key)
    (literal : Sealed (literalText item.2)) : Sealed (itemText kind item) := by
  obtain ⟨key, value⟩ := item
  refine .append ?_ literal
  cases key with
  | none => exact .of_not_mem (by cases kind <;> simp [keyText])
  | some key =>
      cases kind with
      | arguments => exact (names rfl key rfl).sealed.append (.of_not_mem (by decide))
      | entries => exact (Sealed.quoted (keys rfl key rfl)).append (.of_not_mem (by decide))

/-- A literal is sealed, if comment lines keep the keys in it. -/
theorem sealed_literalText {literal : Literal} (renderable : Renderable KeepsLines literal) :
    Sealed (literalText literal) := by
  induction renderable with
  | string oneLine => exact .quoted (Sealed.of_not_mem oneLine).kept
  | integer _ => exact sealed_integerText _
  | bool value => cases value <;> exact .of_not_mem (by decide)
  | null => exact .of_not_mem (by decide)
  | constant whole _ _ => exact whole.sealed
  | @array entries keys values inductionHypothesis =>
      rw [literalText, entryTexts_eq_map]
      have brace : Sealed ['{'] := .of_not_mem (by decide)
      refine brace.append (.listText ?_)
      intro text member
      obtain ⟨entry, present, rfl⟩ := List.mem_map.1 member
      refine sealed_itemText (by simp) ?_ (inductionHypothesis entry present)
      rintro - key isKey
      exact keys key (List.mem_filterMap.2 ⟨entry, present, isKey⟩)

/-- A tag is sealed, if comment lines keep the keys in it. -/
theorem sealed_tagText {tag : Tag} (renderable : RenderableTag KeepsLines tag) :
    Sealed (tagText tag) := by
  have name : Sealed tag.name.toList := by
    refine .of_not_mem fun feed => ?_
    exact absurd (renderable.spelled _ feed) (by decide)
  have list : Sealed (listText .arguments
      ((argumentItems tag.arguments).map (itemText .arguments))) := by
    refine .listText fun text member => ?_
    obtain ⟨item, present, rfl⟩ := List.mem_map.1 member
    rcases List.mem_append.1 present with positional | named
    · obtain ⟨literal, isLiteral, rfl⟩ := List.mem_map.1 positional
      exact sealed_itemText (by simp) (by simp)
        (sealed_literalText (renderable.positional literal isLiteral))
    · obtain ⟨entry, isEntry, rfl⟩ := List.mem_map.1 named
      refine sealed_itemText ?_ (by simp) (sealed_literalText (renderable.named entry isEntry))
      rintro - key same
      obtain rfl := Option.some.inj same
      exact (renderable.names entry isEntry).1
  have marks : Sealed (['@'] ++ (tag.name.toList ++ (['('] ++ listText .arguments
      ((argumentItems tag.arguments).map (itemText .arguments))))) :=
    .append (.of_not_mem (by decide)) (name.append (.append (.of_not_mem (by decide)) list))
  simpa [tagText] using marks

/-! ## Lines -/

/-- A line that starts with no blank and no asterisk has no margin. -/
theorem withoutMargin_cons {char : Char} (solid : Text.isBlank char = false)
    (noAsterisk : char ≠ '*') (rest : List Char) :
    withoutMargin (char :: rest) = char :: rest := by
  unfold withoutMargin
  rw [Text.skipBlanks_cons solid]
  split
  · next same => exact absurd (List.cons.inj same).1 noAsterisk
  · rfl

/-- The margin of a line is its indentation and one asterisk. -/
theorem withoutMargin_indented {indent : List Char} (blank : Blank indent) (rest : List Char) :
    withoutMargin (indent ++ '*' :: rest) = rest := by
  unfold withoutMargin
  rw [Text.skipBlanks_append blank, Text.skipBlanks_cons (by decide)]
  rfl

/-- A line of nothing but blanks is all margin. -/
theorem withoutMargin_blank {indent : List Char} (blank : Blank indent) :
    withoutMargin indent = [] := by
  have skipped := Text.skipBlanks_append blank []
  rw [List.append_nil] at skipped
  unfold withoutMargin
  rw [skipped]
  rfl

/-- In a text that comment lines keep, no piece ends with a carriage return and none but
the first has a margin. -/
theorem kept_pieces {first : List Char} {others : List (List Char)}
    (oneLine : ∀ piece ∈ first :: others, '\n' ∉ piece)
    (kept : (List.intercalate ['\n'] (first :: others)).IsChain KeepsBreak)
    (closes : (List.intercalate ['\n'] (first :: others)).getLast? ≠ some '\r') :
    (∀ piece ∈ first :: others, piece.getLast? ≠ some '\r') ∧
      ∀ piece ∈ others, withoutMargin piece = piece := by
  induction others generalizing first with
  | nil => simpa using closes
  | cons second rest inductionHypothesis =>
      rw [List.intercalate_cons_cons, List.append_assoc, List.singleton_append] at kept closes
      obtain ⟨-, keptAfter, boundary⟩ := List.isChain_append.1 kept
      obtain ⟨afterFeed, keptTail⟩ := List.isChain_cons.1 keptAfter
      have closesTail : (List.intercalate ['\n'] (second :: rest)).getLast? ≠ some '\r' := by
        intro isReturn
        simp [List.getLast?_append, List.getLast?_cons, isReturn] at closes
      obtain ⟨ends, margins⟩ :=
        inductionHypothesis (fun piece member => oneLine piece (.tail _ member)) keptTail
          closesTail
      constructor
      · intro piece member
        rcases List.mem_cons.1 member with rfl | member
        · intro isReturn
          exact (boundary '\r' isReturn '\n' rfl).1 rfl rfl
        · exact ends piece member
      · intro piece member
        rcases List.mem_cons.1 member with rfl | member
        · cases piece with
          | nil => rfl
          | cons char tail =>
              have isNext : char ∈ (List.intercalate ['\n'] ((char :: tail) :: rest)).head? := by
                cases rest <;> simp [List.intercalate_cons_cons]
              have noFeed : char ≠ '\n' := by
                rintro rfl
                exact oneLine _ (.tail _ (.head _)) (.head _)
              rcases (afterFeed char isNext).2 rfl with feed | ⟨solid, noAsterisk⟩
              · exact absurd feed noFeed
              · exact withoutMargin_cons solid noAsterisk tail
        · exact margins piece member

/-- The pieces of a line with a tag. -/
def linePieces (line : List Char × Tag) : List (List Char) :=
  (line.1 ++ '*' :: ' ' :: tagText line.2).splitOn '\n'

/-- The pieces of a line without their margins are a blank and the tag again. -/
theorem linePieces_margins {line : List Char × Tag} (indented : Indentation line.1)
    (renderable : RenderableTag KeepsLines line.2) :
    (∀ piece ∈ linePieces line, piece.getLast? ≠ some '\r') ∧
      ((linePieces line).map withoutMargin).flatMap (fun piece => '\n' :: piece) =
        '\n' :: ' ' :: tagText line.2 := by
  obtain ⟨indent, tag⟩ := line
  have isSealed := sealed_tagText renderable
  obtain ⟨first, others, pieces⟩ :=
    List.exists_cons_of_ne_nil (List.splitOn_ne_nil '\n' (tagText tag))
  have joined : List.intercalate ['\n'] ((tagText tag).splitOn '\n') = tagText tag :=
    List.intercalate_splitOn '\n'
  have oneLine : ∀ piece ∈ first :: others, '\n' ∉ piece := by
    intro piece member
    exact Text.not_mem_of_mem_splitOn (pieces ▸ member)
  rw [pieces] at joined
  have closes : (List.intercalate ['\n'] (first :: others)).getLast? ≠ some '\r' := by
    rw [joined]
    simp [tagText, listText, List.getLast?_append, List.getLast?_cons, ListKind.closer]
  obtain ⟨ends, margins⟩ := kept_pieces oneLine (joined ▸ isSealed.kept) closes
  have whole : linePieces (indent, tag) = (indent ++ '*' :: ' ' :: first) :: others := by
    have startPlain : '\n' ∉ indent ++ ['*', ' '] := by
      simp [indented.oneLine]
    simpa [linePieces] using Text.splitOn_append_of_not_mem startPlain pieces
  rw [whole]
  constructor
  · intro piece member
    rcases List.mem_cons.1 member with rfl | member
    · have ending := ends first List.mem_cons_self
      simp only [List.getLast?_append, List.getLast?_cons]
      cases found : first.getLast? with
      | none => simp
      | some char => simpa [found] using ending
    · exact ends piece (.tail _ member)
  · have kept : others.map withoutMargin = others := by
      rw [List.map_congr_left margins, List.map_id']
    rw [List.map_cons, withoutMargin_indented indented.blank, kept, Text.flatMap_feed]
    cases others with
    | nil => simpa using joined
    | cons second rest =>
        rw [List.intercalate_cons_cons] at joined ⊢
        simpa using joined

/-- Between the marks of a rendered comment stand its lines. -/
theorem withoutDelimiters_commentText (lines : List (List Char × Tag)) (closing : List Char) :
    withoutDelimiters (Text.trim (commentText lines closing)) =
      '\n' :: (lines.flatMap lineText ++ closing) := by
  have whole : commentText lines closing = "/**".toList ++
      ('\n' :: (lines.flatMap lineText ++ closing) ++ ("*/".toList ++ [])) := by
    simp [commentText]
  rw [whole]
  exact withoutDelimiters_marks .nil .nil _

/-- The pieces of rendered lines are those of each of them. -/
theorem splitOn_lines (lines : List (List Char × Tag)) {closing : List Char}
    (oneLine : '\n' ∉ closing) :
    (lines.flatMap lineText ++ closing).splitOn '\n' = lines.flatMap linePieces ++ [closing] := by
  induction lines with
  | nil => exact List.splitOn_eq_singleton oneLine
  | cons line rest inductionHypothesis =>
      have split : lineText line ++ (rest.flatMap lineText ++ closing) =
          (line.1 ++ '*' :: ' ' :: tagText line.2) ++
            '\n' :: (rest.flatMap lineText ++ closing) := by
        simp [lineText]
      rw [List.flatMap_cons, List.append_assoc, split, List.splitOn_append_cons_self,
        inductionHypothesis, List.flatMap_cons, List.append_assoc]
      rfl

/-- A rendered comment contains a line with a blank and the tag for each of its lines,
and a last line without characters if the closing mark is indented. -/
theorem contents_commentText {lines : List (List Char × Tag)} {closing : List Char}
    (indented : ∀ line ∈ lines, Indentation line.1) (closingIndented : Indentation closing)
    (renderable : ∀ line ∈ lines, RenderableTag KeepsLines line.2) :
    contents (commentText lines closing) =
      (lines.flatMap fun line => '\n' :: ' ' :: tagText line.2) ++
        if closing = [] then [] else ['\n'] := by
  have pieces : ('\n' :: (lines.flatMap lineText ++ closing)).splitOn '\n' =
      ([] :: lines.flatMap linePieces) ++ [closing] := by
    rw [List.splitOn_cons_eq_if_modifyHead, if_pos (beq_self_eq_true _),
      splitOn_lines _ closingIndented.oneLine]
    rfl
  have kept : ∀ piece ∈ [] :: lines.flatMap linePieces, piece.getLast? ≠ some '\r' := by
    intro piece member
    rcases List.mem_cons.1 member with rfl | member
    · simp
    · obtain ⟨line, present, isPiece⟩ := List.mem_flatMap.1 member
      exact (linePieces_margins (indented line present) (renderable line present)).1 piece isPiece
  have perLine : ((lines.flatMap linePieces).map withoutMargin).flatMap
      (fun piece => '\n' :: piece) = lines.flatMap fun line => '\n' :: ' ' :: tagText line.2 := by
    rw [List.map_flatMap, List.flatMap_assoc]
    apply List.flatMap_congr
    intro line present
    exact (linePieces_margins (indented line present) (renderable line present)).2
  have last : ((if closing = [] then [] else [closing]).map withoutMargin).flatMap
      (fun piece => '\n' :: piece) = if closing = [] then [] else ['\n'] := by
    split
    · rfl
    · simp [withoutMargin_blank closingIndented.blank]
  unfold contents
  rw [withoutDelimiters_commentText]
  simp only [Text.lines_of_splitOn pieces kept]
  rw [List.cons_append, List.map_cons, show withoutMargin [] = [] from rfl,
    Text.intercalate_feed, List.map_append, List.flatMap_append, perLine, last]

end DocblockScan.Docblock.Rendering

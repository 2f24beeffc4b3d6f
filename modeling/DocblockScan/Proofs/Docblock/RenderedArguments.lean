import DocblockScan.Proofs.Docblock.Acceptance
import DocblockScan.Proofs.Docblock.Rendering

/-!
# Rendered arguments are in the grammar

A rendered literal derives that literal wherever an item ends, and a rendered list
derives its items. The reader accepts all of the grammar and so reads rendered
arguments back, whatever follows them: `argumentsOutcome_of_renderable`.
-/

namespace DocblockScan.Docblock.Rendering

open Grammar
open Text (Blank)

/-! ## Literals -/

/-- The digits of a natural spell it. -/
theorem decimal_toDigits (value : Nat) : decimal (Nat.toDigits 10 value) = value := by
  rw [← naturalOf_eq_decimal, naturalOf, ← Nat.ofDigitChars_eq_foldl,
    Nat.ofDigitChars_ten_toDigits]

theorem digits_toDigits (value : Nat) : Digits (Nat.toDigits 10 value) :=
  fun _ member => Nat.isDigit_of_mem_toDigits (by decide) (by decide) member

/-- A rendered integer is a sign and digits that spell it. -/
theorem integerText_eq (value : Int) :
    ∃ negative digits, integerText value = signText negative ++ digits ∧ digits ≠ [] ∧
      Digits digits ∧ signed negative digits = value := by
  cases value with
  | ofNat magnitude =>
      refine ⟨false, Nat.toDigits 10 magnitude, rfl, Nat.toDigits_ne_nil,
        digits_toDigits magnitude, ?_⟩
      simp [signed, decimal_toDigits]
  | negSucc predecessor =>
      refine ⟨true, Nat.toDigits 10 (predecessor + 1), rfl, Nat.toDigits_ne_nil,
        digits_toDigits (predecessor + 1), ?_⟩
      simp only [signed, decimal_toDigits, if_true]
      omega

/-- A rendered integer of 64 bits is a number. -/
theorem number_integerText {value : Int} {after : List Char}
    (inRange : -2 ^ 63 ≤ value ∧ value < 2 ^ 63) (ends : EndsItem after) :
    Number (integerText value) after (.integer value) := by
  obtain ⟨negative, digits, written, someDigits, allDigits, rfl⟩ := integerText_eq value
  rw [written]
  exact .integer someDigits allDigits ends.not_startsWith_digit ends.no_fraction inRange

/-- A name that is read to its end is a name wherever an item ends. -/
theorem ReadWhole.name {name : String} {after : List Char} (whole : ReadWhole name)
    (longest : ¬ ExtendsName after) : Name name.toList after := by
  have spelled := (name_spanName name.toList).spelled
  rw [whole] at spelled
  exact ⟨spelled, longest⟩

/-- A word is a scalar wherever an item ends. -/
theorem scalar_word (word : String) {literal : Literal} {after : List Char}
    (known : (word, literal) ∈ words) (ends : EndsItem after) :
    Scalar word.toList after literal := by
  have lowered : ∀ entry ∈ words, entry.1.toList.map Char.toLower = entry.1.toList ∧
      ReadWhole entry.1 := by
    intro entry member
    simp only [words, List.mem_cons, List.not_mem_nil, or_false] at member
    rcases member with rfl | rfl | rfl <;> exact ⟨by decide, by unfold ReadWhole; decide⟩
  obtain ⟨spelled, whole⟩ := lowered _ known
  exact .word (whole.name ends.not_extendsName) known spelled

/-! ## Items and lists -/

theorem blank_space : Blank [' '] := by
  decide

/-- A scalar with no blanks in front is a value. -/
theorem value_of_scalar {written after : List Char} {literal : Literal}
    (scalar : Scalar written after literal) : Value written after literal :=
  .scalar Blank.nil scalar

/-- More blanks in front of a value make no difference. -/
theorem value_blank_append {gap written after : List Char} {literal : Literal}
    (blank : Blank gap) (value : Value written after literal) :
    Value (gap ++ written) after literal := by
  cases value with
  | scalar inner scalar =>
      rw [← List.append_assoc]
      exact .scalar (blank.append inner) scalar
  | array inner listing =>
      rw [← List.append_assoc]
      exact .array (blank.append inner) listing

/-- What can be the key of an argument: a name that is read to its end. -/
def IsArgumentName (key : String) : Prop :=
  ReadWhole key ∧ StartsWith isLetter key.toList

/-- An equals sign makes no name longer. -/
theorem not_extendsName_equals (rest : List Char) : ¬ ExtendsName ('=' :: rest) := by
  rintro (⟨_, _, ⟨⟩, accepted⟩ | ⟨_, ⟨⟩⟩)
  exact absurd accepted (by decide)

/-- A rendered item derives that item, if its value does. -/
theorem item_itemText {kind : ListKind} {item : Option String × Literal}
    (names : kind = .arguments → ∀ key, item.1 = some key → IsArgumentName key)
    (means : ∀ after, EndsItem after → Value (literalText item.2) after item.2)
    {after : List Char} (ends : EndsItem after) : Item kind (itemText kind item) after item := by
  obtain ⟨key, literal⟩ := item
  have value := means after ends
  cases key with
  | none => exact .of_value value ends
  | some key =>
      have whole : String.ofList key.toList = key := String.ofList_toList
      cases kind with
      | arguments =>
          obtain ⟨read, starts⟩ := names rfl key rfl
          have name := read.name (not_extendsName_equals (literalText literal ++ after))
          have item := @Item.keyed .arguments _ [] _ _ _ '=' _ (.name name starts) .nil
            (by decide) value
          simpa [itemText, keyText, whole] using item
      | entries =>
          have spaced : Value (' ' :: literalText literal) after literal :=
            value_blank_append blank_space value
          have item := @Item.keyed .entries (quoted key.toList) [] _ after _ ':' _
            (.string (by simp)) .nil (by decide) spaced
          simpa [itemText, keyText, whole] using item

/-- Rendered items with commas between them are a list. -/
theorem listing_listText {kind : ListKind} {items : List (Option String × Literal)}
    (each : ∀ item ∈ items, ∀ after, EndsItem after → Item kind (itemText kind item) after item)
    {gap : List Char} (blank : Blank gap) :
    Listing kind (gap ++ listText kind (items.map (itemText kind))) items := by
  induction items generalizing gap with
  | nil => exact .empty blank
  | cons item others inductionHypothesis =>
      have first := each item List.mem_cons_self
      cases others with
      | nil =>
          have single := Listing.single blank .nil (first _ (.closer .nil kind []))
          simpa [listText] using single
      | cons second rest =>
          have tail := inductionHypothesis (fun item member => each item (.tail _ member))
            blank_space
          have list := Listing.cons blank .nil (first _ (.comma .nil _)) tail
          simpa [listText, List.intercalate_cons_cons] using list

/-- Entries are rendered one by one. -/
theorem entryTexts_eq_map (entries : List (Option String × Literal)) :
    entryTexts entries = entries.map (itemText .entries) := by
  induction entries with
  | nil => rfl
  | cons entry rest inductionHypothesis =>
      rw [entryTexts, inductionHypothesis]
      rfl

/-- A rendered literal derives that literal. -/
theorem value_literalText {isKey : String → Prop} {literal : Literal}
    (renderable : Renderable isKey literal) {after : List Char} (ends : EndsItem after) :
    Value (literalText literal) after literal := by
  induction renderable generalizing after with
  | @string text oneLine =>
      have scalar : Scalar (quoted text.toList) after (.string (.ofList text.toList)) :=
        .string (ends.head?_ne '"' (by decide) (by decide))
      rw [String.ofList_toList] at scalar
      exact value_of_scalar scalar
  | integer inRange => exact value_of_scalar (.number (number_integerText inRange ends))
  | bool value =>
      cases value with
      | true => exact value_of_scalar (scalar_word "true" (by simp [words]) ends)
      | false => exact value_of_scalar (scalar_word "false" (by simp [words]) ends)
  | null => exact value_of_scalar (scalar_word "null" (by simp [words]) ends)
  | @constant name whole starts qualified =>
      have scalar : Scalar name.toList after (.constant (.ofList name.toList)) :=
        .constant (whole.name ends.not_extendsName) starts qualified
      rw [String.ofList_toList] at scalar
      exact value_of_scalar scalar
  | @array entries keys values inductionHypothesis =>
      have each : ∀ entry ∈ entries, ∀ after, EndsItem after →
          Item .entries (itemText .entries entry) after entry := by
        intro entry member after ends
        exact item_itemText (by simp) (fun _ => inductionHypothesis entry member) ends
      rw [literalText, entryTexts_eq_map]
      exact .array Blank.nil (listing_listText each .nil)

/-! ## Arguments -/

/-- The items that arguments stand for collect to these arguments. -/
theorem collects_argumentItems (arguments : Arguments) :
    Collects (argumentItems arguments) arguments := by
  have namedKeys : keysOf (argumentItems arguments) = arguments.named.keys := by
    simp [keysOf, argumentItems, OrderedMap.keys, List.filterMap_append, List.filterMap_map]
  refine ⟨?_, ?_, ?_⟩
  · rw [namedKeys]
    exact arguments.named.distinct
  · simp [positionalOf, argumentItems, List.filterMap_append, List.filterMap_map]
  · simp [namedOf, argumentItems, List.filterMap_append, List.filterMap_map]

/-- Rendered arguments are read back, whatever follows them. -/
theorem argumentsOutcome_of_renderable {isKey : String → Prop} {tag : Tag}
    (renderable : RenderableTag isKey tag) (after : List Char) :
    argumentsOutcome .none
        (listText .arguments ((argumentItems tag.arguments).map (itemText .arguments)) ++ after) =
      .ok (tag.arguments, after) := by
  have each : ∀ item ∈ argumentItems tag.arguments, ∀ after, EndsItem after →
      Item .arguments (itemText .arguments item) after item := by
    intro item member after ends
    rcases List.mem_append.1 member with positional | named
    · obtain ⟨literal, present, rfl⟩ := List.mem_map.1 positional
      exact item_itemText (by simp)
        (fun _ => value_literalText (renderable.positional literal present)) ends
    · obtain ⟨entry, present, rfl⟩ := List.mem_map.1 named
      refine item_itemText ?_ (fun _ => value_literalText (renderable.named entry present)) ends
      rintro - key same
      obtain rfl := Option.some.inj same
      exact renderable.names entry present
  exact argumentsOutcome_of_listing (listing_listText each .nil)
    ((addItems_none_iff _ _).2 (collects_argumentItems tag.arguments)) after

end DocblockScan.Docblock.Rendering

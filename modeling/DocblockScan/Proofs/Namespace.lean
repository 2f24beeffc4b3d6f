import DocblockScan.Namespace
import DocblockScan.Proofs.Path
import DocblockScan.Proofs.Text.Blank
import DocblockScan.Proofs.Text.LastPart

/-!
# Trimmed names and names with a dot

A name that starts and ends with neither a blank nor a separator is not trimmed:
`trim_of_firm`.

No declared class has a dot in the last segment of its name. A name that has one there,
once it is trimmed, is called dotted. The file of a name has a second dot only if the
name is dotted: `exists_pieces_file`. A name joined from parts is dotted if the last of
them is: `isDotted_join`.
-/

namespace DocblockScan.Namespace

open Text

/-! ## Names that are not trimmed -/

/-- A text without blanks and separators at its ends is firm. -/
theorem firm_isEdge_of_isBlank {text : List Char} (firm : Firm Text.isBlank text)
    (starts : separator ∉ text.head?) (ends : separator ∉ text.getLast?) : Firm isEdge text where
  starts := by
    intro char first
    have apart : char ≠ separator := by
      rintro rfl
      exact starts first
    simp [isEdge, firm.starts char first, apart]
  ends := by
    intro char last
    have apart : char ≠ separator := by
      rintro rfl
      exact ends last
    simp [isEdge, firm.ends char last, apart]

/-- A trimmed name is firm. -/
theorem firm_trim (name : String) : Firm isEdge (trim name).toList := by
  rw [trim, String.toList_ofList]
  exact firm_trimBy isEdge name.toList

/-- A firm name is not trimmed. -/
theorem trim_of_firm {name : String} (firm : Firm isEdge name.toList) : trim name = name := by
  rw [trim, firm.trimBy_eq, String.ofList_toList]

/-- Trimming once is enough. -/
theorem trim_trim (name : String) : trim (trim name) = trim name :=
  trim_of_firm (firm_trim name)

/-- Whatever is trimmed around a name does not count. -/
theorem trim_padded {front back : String}
    (edges : ∀ char ∈ front.toList ++ back.toList, isEdge char = true) (name : String) :
    trim (front ++ name ++ back) = trim name := by
  rw [trim, trim, String.toList_append, String.toList_append, List.append_assoc,
    Text.trimBy_padded (fun char member => edges char (List.mem_append_left _ member))
      (fun char member => edges char (List.mem_append_right _ member))]

/-- Firm texts that are not empty are firm with separators between them. -/
theorem firm_intercalate {texts : List (List Char)} (some : texts ≠ [])
    (firm : ∀ text ∈ texts, Firm isEdge text ∧ text ≠ []) :
    Firm isEdge (List.intercalate [separator] texts) ∧ List.intercalate [separator] texts ≠ [] := by
  induction texts with
  | nil => exact absurd rfl some
  | cons first rest inductionHypothesis =>
      obtain ⟨firmFirst, someFirst⟩ := firm first List.mem_cons_self
      cases rest with
      | nil => simpa using ⟨firmFirst, someFirst⟩
      | cons second others =>
          obtain ⟨firmRest, someRest⟩ := inductionHypothesis (by simp)
            fun text member => firm text (.tail _ member)
          rw [List.intercalate_cons_cons, List.append_assoc]
          exact ⟨firmFirst.append someFirst firmRest someRest _, by simp⟩

/-- Parts are trimmed when they are joined. -/
theorem join_trim (name : String) (parts : List String) :
    join (trim name :: parts) = join (name :: parts) := by
  rw [join, join, List.map_cons, List.map_cons, trim_trim]

/-- The parts that a join consists of: trimmed, and without those that trim to nothing. -/
def kept (parts : List String) : List String :=
  (parts.map trim).filter (· != "")

/-- What is joined of some parts starts and ends as they do, if any of them is left. -/
theorem firm_join_of_kept {parts : List String} (some : kept parts ≠ []) :
    Firm isEdge (join parts).toList ∧ join parts ≠ "" := by
  have whole : (join parts).toList = List.intercalate [separator] ((kept parts).map String.toList) :=
    String.toList_intercalate
  rw [ne_eq, ← String.toList_eq_nil_iff, whole]
  refine firm_intercalate (by simpa using some) fun text member => ?_
  obtain ⟨name, isKept, rfl⟩ := List.mem_map.1 member
  obtain ⟨isPart, notEmpty⟩ := List.mem_filter.1 isKept
  obtain ⟨part, -, rfl⟩ := List.mem_map.1 isPart
  exact ⟨firm_trim part, by simpa using notEmpty⟩

/-- A join is empty exactly if no part is left. -/
theorem join_eq_empty_iff (parts : List String) : join parts = "" ↔ kept parts = [] := by
  refine ⟨fun empty => by_contra fun some => (firm_join_of_kept some).2 empty, fun nothing => ?_⟩
  rw [join, ← kept, nothing]
  rfl

/-- A joined name starts and ends with neither a blank nor a separator. -/
theorem firm_join (parts : List String) : Firm isEdge (join parts).toList := by
  by_cases none : kept parts = []
  · rw [(join_eq_empty_iff parts).2 none]
    decide
  · exact (firm_join_of_kept none).1

/-- A joined name is not trimmed. -/
theorem trim_join (parts : List String) : trim (join parts) = join parts :=
  trim_of_firm (firm_join parts)

/-! ## The last segment -/

/-- The last segment of a name is what follows the last separator, or the whole name if there
is none. -/
theorem lastSegment_eq_iff (name segment : String) :
    lastSegment name = segment ↔ separator ∉ segment.toList ∧
      (name = segment ∨ ∃ front, name = front ++ "\\" ++ segment) := by
  constructor
  · rintro rfl
    rw [lastSegment, String.toList_ofList]
    refine ⟨not_mem_afterLast separator name.toList, ?_⟩
    rcases exists_append_afterLast separator name.toList with whole | ⟨front, split⟩
    · exact .inl (by rw [← whole, String.ofList_toList])
    · exact .inr ⟨.ofList front, String.toList_inj.1 (by simpa [separator] using split)⟩
  · rintro ⟨single, rfl | ⟨front, rfl⟩⟩
    · rw [lastSegment, afterLast_of_not_mem single, String.ofList_toList]
    · have spelled : (front ++ "\\" ++ segment).toList =
          front.toList ++ separator :: segment.toList := by simp [separator]
      rw [lastSegment, spelled, afterLast_append_cons, afterLast_of_not_mem single,
        String.ofList_toList]

/-! ## Names with a dot -/

/-- Whether the last segment of a trimmed name contains a dot. -/
def isDotted (name : String) : Bool :=
  (lastSegment (trim name)).toList.contains '.'

theorem isDotted_iff (name : String) :
    isDotted name = true ↔ '.' ∈ afterLast separator (trim name).toList := by
  simp [isDotted, lastSegment]

/-- Trimming changes nothing about dots. -/
theorem isDotted_trim (name : String) : isDotted (trim name) = isDotted name := by
  rw [isDotted, isDotted, trim_trim]

/-! ## The file of a class -/

/-- The part of a name below a root is an end of the name. -/
theorem belowRoot_suffix (root name : List Char) : belowRoot root name <:+ name := by
  unfold belowRoot
  split
  · exact List.suffix_rfl
  split
  · exact List.nil_suffix
  · unfold dropStart?
    split
    · exact List.drop_suffix _ _
    · exact List.suffix_rfl

/-- The last name of a path has a dot only if the namespace has one in its last segment. -/
theorem isDotted_of_toPath {name root : String}
    (dot : '.' ∈ afterLast '/' (toPath name root).toList) : isDotted name = true := by
  rw [isDotted_iff]
  have suffix : trimBy isEdge (belowRoot (trim root).toList (trim name).toList) <:+
      (trim name).toList := by
    have below := belowRoot_suffix (trim root).toList (trim name).toList
    simp only [trim, String.toList_ofList] at below ⊢
    exact trimBy_suffix below
  refine (afterLast_suffix suffix).subset ?_
  rw [toPath, String.toList_ofList] at dot
  have inside : ∃ original ∈ afterLast separator
      (trimBy isEdge (belowRoot (trim root).toList (trim name).toList)),
      (if original = separator then '/' else original) = '.' :=
    mem_afterLast_of_map (if_pos rfl) dot
  obtain ⟨original, member, same⟩ := inside
  obtain rfl : original = '.' := by
    by_cases isSeparator : original = separator
    · simp [isSeparator] at same
    · simpa [isSeparator] using same
  exact member

/-- The file of a name has a dot before its extension only if the name is dotted. -/
theorem exists_pieces_file (base name root : String) {extension : String}
    (single : '/' ∉ extension.toList) :
    ∃ before stem, Path.pieces (file base name root extension) =
        before ++ [stem ++ "." ++ extension] ∧
      ('.' ∈ stem.toList → isDotted name = true) := by
  obtain ⟨outer, joined⟩ := Path.pieces_join base (toPath name root ++ "." ++ extension)
  obtain ⟨before, last⟩ :=
    Path.pieces_eq_append_afterLast (toPath name root ++ "." ++ extension)
  refine ⟨outer ++ before, .ofList (afterLast '/' (toPath name root).toList), ?_, ?_⟩
  · have tail : '/' ∉ '.' :: extension.toList := by simp [single]
    have letters : (toPath name root ++ "." ++ extension).toList =
        (toPath name root).toList ++ '.' :: extension.toList := by simp
    have piece : String.ofList (afterLast '/' (toPath name root).toList ++ '.' :: extension.toList) =
        .ofList (afterLast '/' (toPath name root).toList) ++ "." ++ extension := by
      rw [← String.toList_inj]
      simp
    rw [letters, afterLast_append tail, piece] at last
    rw [file, joined, last, List.append_assoc]
  · intro dot
    rw [String.toList_ofList] at dot
    exact isDotted_of_toPath dot

/-! ## The class of a file -/

/-- A joined name ends with its last part. -/
theorem exists_front_join (parts : List String) {last : String} (remains : trim last ≠ "") :
    ∃ front, join (parts ++ [last]) = front ++ trim last := by
  have kept : ((parts ++ [last]).map trim).filter (· != "") =
      (parts.map trim).filter (· != "") ++ [trim last] := by
    simp [List.filter_append, remains]
  rw [join, kept]
  cases others : (parts.map trim).filter (· != "") with
  | nil => exact ⟨"", by simp⟩
  | cons first rest =>
      rw [String.intercalate_append_of_ne_nil (by simp) (by simp), String.intercalate_singleton]
      exact ⟨_, rfl⟩

/-- A joined name is dotted if its last part has a dot between other characters. -/
theorem isDotted_join (parts : List String) {last : String} {first final : Char}
    {middle : List Char} (letters : last.toList = first :: (middle ++ [final]))
    (starts : isEdge first = false) (ends : isEdge final = false) (dot : '.' ∈ middle)
    (single : separator ∉ last.toList) : isDotted (join (parts ++ [last])) = true := by
  have solid : trim last = last := by
    rw [← String.toList_inj, trim, String.toList_ofList, letters, trimBy_of_solid starts ends]
  have remains : trim last ≠ "" := by
    rw [solid]
    rintro rfl
    simp at letters
  obtain ⟨front, joined⟩ := exists_front_join parts remains
  have stays : first :: (middle ++ [final]) <:+
      trimBy isEdge (front.toList ++ first :: (middle ++ [final])) :=
    suffix_trimBy starts ends front.toList
  rw [isDotted_iff, joined, solid, trim, String.toList_ofList, String.toList_append, letters]
  refine (afterLast_suffix stays).subset ?_
  rw [← letters, afterLast_of_not_mem single, letters]
  simp [dot]

end DocblockScan.Namespace

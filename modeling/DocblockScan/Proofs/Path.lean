import DocblockScan.Path
import DocblockScan.Proofs.Text.LastPart
import DocblockScan.Proofs.Text.Lines

/-!
# The pieces of joined paths

A joined path ends with its continuation, and so with the pieces of that. The parent
of a path to a file is what stands before the name of the file: `parent?_slash`. The
components of a path that goes on from a directory are those of the directory and the
names after it: `components_foldl_join` and `components_join_intercalate`.
-/

namespace DocblockScan.Path

/-- The last piece of a path is what follows its last slash. -/
theorem pieces_eq_append_afterLast (path : String) :
    ∃ before, pieces path = before ++ [String.ofList (Text.afterLast '/' path.toList)] := by
  obtain ⟨before, split⟩ := Text.splitOn_eq_append_afterLast '/' path.toList
  exact ⟨before.map String.ofList, by rw [pieces, split, List.map_append, List.map_singleton]⟩

/-- What stands before a slash is cut off. -/
theorem pieces_append_slash (front path : String) :
    pieces (front ++ "/" ++ path) = pieces front ++ pieces path := by
  have cut : (front ++ "/" ++ path).toList = front.toList ++ '/' :: path.toList := by simp
  rw [pieces, cut, List.splitOn_append_cons_self, List.map_append, pieces, pieces]

/-- A base directory puts pieces before those of a relative path, the same ones before
all of them. -/
theorem exists_pieces_join (base : String) :
    ∃ outer, ∀ path, isRelative path = true → pieces (join base path) = outer ++ pieces path := by
  by_cases empty : base = ""
  · exact ⟨[], fun path relative => by simp [join, relative, empty]⟩
  by_cases ended : base.toList.getLast? = some '/'
  · obtain ⟨front, split⟩ := List.getLast?_eq_some_iff.1 ended
    refine ⟨pieces (.ofList front), fun path relative => ?_⟩
    have whole : base = String.ofList front ++ "/" := by
      rw [← String.toList_inj]
      simp [split]
    rw [← pieces_append_slash, ← whole]
    simp [join, relative, empty, ended]
  · refine ⟨pieces base, fun path relative => ?_⟩
    rw [← pieces_append_slash]
    simp [join, relative, empty, ended]

/-- The pieces of a joined path end with those of its continuation. -/
theorem pieces_join (base path : String) :
    ∃ before, pieces (join base path) = before ++ pieces path := by
  by_cases relative : isRelative path = true
  · obtain ⟨outer, joined⟩ := exists_pieces_join base
    exact ⟨outer, joined path relative⟩
  · exact ⟨[], by simp [join, relative]⟩

/-- A name that is a single piece of a path. -/
def IsFileName (name : String) : Prop :=
  '/' ∉ name.toList ∧ isIdle name = false

theorem IsFileName.isRelative {name : String} (single : IsFileName name) :
    isRelative name = true := by
  unfold Path.isRelative
  cases letters : name.toList with
  | nil => simp
  | cons first rest =>
      have apart : first ≠ '/' := by
        rintro rfl
        exact single.1 (by simp [letters])
      simpa using apart

theorem IsFileName.pieces {name : String} (single : IsFileName name) :
    pieces name = [name] := by
  rw [Path.pieces, List.splitOn_eq_singleton single.1, List.map_singleton, String.ofList_toList]

/-- The pieces of a path between slashes are the path. -/
theorem intercalate_pieces (path : String) : String.intercalate "/" (pieces path) = path := by
  have texts : (pieces path).map String.toList = path.toList.splitOn '/' := by
    simp [pieces, Function.comp_def]
  rw [← String.toList_inj, String.toList_intercalate, texts]
  exact List.intercalate_splitOn '/'

/-- The pieces of a path contain no slash. -/
theorem not_mem_of_mem_pieces {path piece : String} (member : piece ∈ pieces path) :
    '/' ∉ piece.toList := by
  obtain ⟨text, isPiece, rfl⟩ := List.mem_map.1 member
  rw [String.toList_ofList]
  exact Text.not_mem_of_mem_splitOn isPiece

/-- Names between slashes are pieces. -/
theorem pieces_intercalate {names : List String} (some : names ≠ [])
    (single : ∀ name ∈ names, '/' ∉ name.toList) :
    pieces (String.intercalate "/" names) = names := by
  have cut : (String.intercalate "/" names).toList.splitOn '/' = names.map String.toList := by
    rw [String.toList_intercalate]
    exact List.splitOn_intercalate '/' (by simpa using single) (by simpa using some)
  rw [pieces, cut, List.map_map]
  exact (List.map_congr_left fun name _ => String.ofList_toList).trans (List.map_id names)

/-- A path starts at the root if its first piece is empty and not the only one. -/
theorem isRelative_iff {path first : String} {rest : List String}
    (cut : pieces path = first :: rest) : isRelative path = true ↔ first ≠ "" ∨ rest = [] := by
  unfold pieces at cut
  unfold isRelative
  cases letters : path.toList with
  | nil =>
      rw [letters] at cut
      obtain ⟨-, rfl⟩ := List.cons.inj cut
      simp
  | cons char others =>
      obtain ⟨second, more, split⟩ := List.exists_cons_of_ne_nil (List.splitOn_ne_nil '/' others)
      rw [letters, List.splitOn_cons_eq_if_modifyHead, split] at cut
      by_cases slash : char = '/'
      · rw [if_pos (by simpa using slash), List.map_cons] at cut
        obtain ⟨rfl, rfl⟩ := List.cons.inj cut
        simp [slash]
      · rw [if_neg (by simpa using slash), List.modifyHead_cons, List.map_cons] at cut
        obtain ⟨rfl, -⟩ := List.cons.inj cut
        simp [slash]

/-- Each of the shorter paths is empty, or it has the first pieces of the path, and perhaps
idle ones after them. -/
theorem exists_of_mem_shorterPaths {first outer : String} {before : List String}
    (single : ∀ piece ∈ first :: before, '/' ∉ piece.toList) (notEmpty : outer ≠ "")
    (member : outer ∈ shorterPaths first before) :
    ∃ kept idles, kept <+: before.reverse ∧ (∀ piece ∈ idles, isIdle piece = true) ∧
      pieces outer = first :: (kept ++ idles) ∧ (first = "" → kept ++ idles ≠ []) := by
  induction before with
  | nil =>
      simp only [shorterPaths] at member
      split at member
      · next empty =>
          obtain rfl := List.mem_singleton.1 member
          refine ⟨[], [""], List.nil_prefix, by decide, ?_, by simp⟩
          rw [empty]
          decide
      · next someFirst =>
          rcases List.mem_cons.1 member with rfl | isEmpty
          · refine ⟨[], [], List.nil_prefix, nofun, ?_, fun empty => absurd empty someFirst⟩
            rw [pieces, List.splitOn_eq_singleton (by simpa using single), List.map_singleton,
              String.ofList_toList, List.append_nil]
          · exact absurd (by simpa using isEmpty) notEmpty
  | cons piece others inductionHypothesis =>
      have singleOthers : ∀ name ∈ first :: others, '/' ∉ name.toList := by
        intro name isName
        rcases List.mem_cons.1 isName with rfl | isName
        · exact single _ List.mem_cons_self
        · exact single name (.tail _ (.tail _ isName))
      by_cases isShorter : outer ∈ shorterPaths first others
      · obtain ⟨kept, idles, within, rest⟩ := inductionHypothesis singleOthers isShorter
        exact ⟨kept, idles, List.reverse_cons ▸ within.trans (List.prefix_append _ _), rest⟩
      · simp only [shorterPaths] at member
        split at member
        · exact absurd member isShorter
        obtain rfl := (List.mem_cons.1 member).resolve_right isShorter
        refine ⟨(piece :: others).reverse, [], List.prefix_rfl, nofun, ?_, by simp⟩
        rw [List.append_nil]
        refine pieces_intercalate (by simp) fun name isName => single name ?_
        rcases List.mem_cons.1 isName with rfl | isName
        · exact List.mem_cons_self
        · exact .tail _ (List.mem_reverse.1 isName)

/-- An ancestor of a path is empty, or it starts where the path starts and has its first
pieces, and perhaps idle ones after them. -/
theorem exists_of_mem_ancestors {path outer : String} (member : outer ∈ ancestors path)
    (notEmpty : outer ≠ "") :
    isRelative outer = isRelative path ∧
      ∃ kept idles dropped, (∀ piece ∈ idles, isIdle piece = true) ∧
        pieces outer = kept ++ idles ∧ pieces path = kept ++ dropped := by
  unfold ancestors at member
  cases cut : pieces path with
  | nil => simp [cut] at member
  | cons first rest =>
      have single : ∀ piece ∈ first :: rest, '/' ∉ piece.toList := by
        intro piece isPiece
        exact not_mem_of_mem_pieces (cut ▸ isPiece)
      rw [cut] at member
      dsimp only at member
      split at member
      · split at member
        · simp at member
        · exact absurd (by simpa using member) notEmpty
      · next last before dropped =>
          have within : before.reverse <+: rest := by
            have ends := (List.suffix_cons last before).trans
              (dropped ▸ List.dropWhile_suffix (l := rest.reverse) isIdle)
            simpa using List.reverse_prefix.2 ends
          have someRest : rest ≠ [] := by
            rintro rfl
            simp at dropped
          obtain ⟨kept, idles, inside, idle, spelled, rooted⟩ := exists_of_mem_shorterPaths
            (fun piece isPiece => single piece (by
              rcases List.mem_cons.1 isPiece with rfl | isPiece
              · exact List.mem_cons_self
              · exact .tail _ (within.subset (List.mem_reverse.2 isPiece)))) notEmpty member
          obtain ⟨more, rfl⟩ := inside.trans within
          refine ⟨?_, first :: kept, idles, more, idle, spelled, rfl⟩
          rw [Bool.eq_iff_iff, isRelative_iff spelled, isRelative_iff cut]
          by_cases empty : first = ""
          · simp only [empty, ne_eq, not_true_eq_false, false_or]
            exact ⟨fun none => absurd none (rooted empty), fun none => absurd none someRest⟩
          · simp [empty]

/-- The parent of a path to a file is what stands before its last slash, unless that ends
with an idle piece. -/
theorem parent?_slash {base name piece : String} {before : List String}
    (single : IsFileName name) (ends : pieces base = before ++ [piece])
    (solid : isIdle piece = false) : parent? (base ++ "/" ++ name) = some base := by
  have spelled := intercalate_pieces base
  rw [ends] at spelled
  unfold parent? ancestors
  rw [pieces_append_slash, single.pieces, ends]
  cases before with
  | nil =>
      have notEmpty : piece ≠ "" := by
        rintro rfl
        simp [isIdle] at solid
      simpa [shorterPaths, single.2, notEmpty] using spelled
  | cons first rest => simpa [shorterPaths, single.2, solid] using spelled

/-- A path starts where what stands before a slash in it starts. -/
theorem isRelative_slash {base : String} (notEmpty : base ≠ "") (path : String) :
    isRelative (base ++ "/" ++ path) = isRelative base := by
  cases letters : base.toList with
  | nil => exact absurd (String.toList_inj.1 (by simpa using letters)) notEmpty
  | cons first rest => simp [isRelative, letters]

/-- A joined path ends with its continuation. -/
theorem exists_join_eq (base path : String) : ∃ front, join base path = front ++ path := by
  unfold join
  split
  · exact ⟨"", by simp⟩
  split
  · exact ⟨"", by simp⟩
  split
  · exact ⟨base, rfl⟩
  · exact ⟨base ++ "/", rfl⟩

/-- A path goes on after a slash as it does from the joined path before the slash. -/
theorem join_slash {front : String} (notEmpty : front ≠ "") (base path : String) :
    join base (front ++ "/" ++ path) = join base front ++ "/" ++ path := by
  simp only [join, isRelative_slash notEmpty]
  split
  · rfl
  split
  · rfl
  split <;> simp only [String.append_assoc]

/-! ## Components -/

/-- The components of what stands before a slash come first, then those of the pieces
after it. -/
theorem components_slash {front : String} (notEmpty : front ≠ "") (path : String) :
    components (front ++ "/" ++ path) =
      components front ++ (pieces path).filterMap innerComponent? := by
  have spelled := intercalate_pieces front
  unfold components
  rw [pieces_append_slash]
  cases cut : pieces front with
  | nil => exact absurd cut (by simp [pieces])
  | cons first rest =>
      have isRoot : first = "" → rest.isEmpty = false := by
        rintro rfl
        cases rest with
        | nil => exact absurd (by simpa [cut] using spelled.symm) notEmpty
        | cons second others => rfl
      by_cases empty : first = ""
      · have rooted := isRoot empty
        simp only [List.isEmpty_eq_false_iff] at rooted
        simp [empty, rooted]
      · simp [empty]

/-- A name of an entry of a directory. -/
structure IsEntryName (name : String) : Prop where
  single : IsFileName name
  notParent : name ≠ ".."

/-- The name of an entry is a component of its own. -/
theorem IsEntryName.innerComponent?_eq {name : String} (isName : IsEntryName name) :
    innerComponent? name = some (.name name) := by
  rw [innerComponent?, if_neg (by simp [isName.single.2]), if_neg isName.notParent]

/-- The names of entries are components. -/
theorem filterMap_innerComponent? {names : List String}
    (areNames : ∀ name ∈ names, IsEntryName name) :
    names.filterMap innerComponent? = names.map .name := by
  induction names with
  | nil => rfl
  | cons first rest inductionHypothesis =>
      rw [List.filterMap_cons_some (areNames first List.mem_cons_self).innerComponent?_eq,
        inductionHypothesis fun name member => areNames name (.tail _ member), List.map_cons]

/-- Names of entries between slashes are the components of a path. -/
theorem components_intercalate {names : List String} (some : names ≠ [])
    (areNames : ∀ name ∈ names, IsEntryName name) :
    components (String.intercalate "/" names) = names.map .name := by
  obtain ⟨first, rest, rfl⟩ := List.exists_cons_of_ne_nil some
  obtain ⟨isFirst, areOthers⟩ := List.forall_mem_cons.1 areNames
  have notIdle := isFirst.single.2
  simp only [isIdle, Bool.or_eq_false_iff, beq_eq_false_iff_ne] at notIdle
  rw [components, pieces_intercalate some fun name member => (areNames name member).single.1]
  simp [notIdle, isFirst.innerComponent?_eq, filterMap_innerComponent? areOthers]

/-- The name of an entry is one component more. -/
theorem components_join_name (base : String) {name : String} (isName : IsEntryName name) :
    components (join base name) = components base ++ [.name name] := by
  have inner : (pieces name).filterMap innerComponent? = [.name name] := by
    rw [isName.single.pieces]
    exact filterMap_innerComponent? (by simpa using isName)
  have alone : components name = [.name name] := by
    have notIdle := isName.single.2
    simp only [isIdle, Bool.or_eq_false_iff, beq_eq_false_iff_ne] at notIdle
    simp [components, isName.single.pieces, notIdle, isName.innerComponent?_eq]
  unfold join
  rw [isName.single.isRelative, if_neg (by simp)]
  by_cases empty : base = ""
  · rw [if_pos empty, alone, empty]
    rfl
  rw [if_neg empty]
  by_cases ended : base.toList.getLast? = some '/'
  · obtain ⟨letters, split⟩ := List.getLast?_eq_some_iff.1 ended
    have whole : base = String.ofList letters ++ "/" := by
      rw [← String.toList_inj]
      simp [split]
    rw [if_pos ended, whole]
    by_cases root : String.ofList letters = ""
    · rw [root]
      have pair : pieces ("" ++ "/" ++ name) = "" :: pieces name := pieces_append_slash "" name
      have outer : components ("" ++ "/") = [.root] := by decide
      rw [outer]
      simp only [components, pair]
      rw [inner, isName.single.pieces]
      rfl
    · have ends := components_slash root ""
      rw [String.append_empty] at ends
      rw [components_slash root, inner, ends]
      simp [pieces, innerComponent?, isIdle]
  · rw [if_neg ended, components_slash empty, inner]

/-- The components of a way from a directory are those of the directory and the names on
the way. -/
theorem components_foldl_join (base : String) {way : List String}
    (areNames : ∀ name ∈ way, IsEntryName name) :
    components (way.foldl join base) = components base ++ way.map .name := by
  induction way generalizing base with
  | nil => simp
  | cons first rest inductionHypothesis =>
      rw [List.foldl_cons, inductionHypothesis _ fun name member => areNames name (.tail _ member),
        components_join_name base (areNames first List.mem_cons_self), List.append_assoc,
        List.map_cons, List.singleton_append]

/-- A written way adds the names on it to the components of the path it goes on from. -/
theorem components_join_intercalate (base : String) {way : List String} (some : way ≠ [])
    (areNames : ∀ name ∈ way, IsEntryName name) :
    components (join base (String.intercalate "/" way)) = components base ++ way.map .name := by
  cases way with
  | nil => exact absurd rfl some
  | cons first rest =>
      have isName := areNames first List.mem_cons_self
      cases rest with
      | nil => exact components_join_name base isName
      | cons second others =>
          have others' := fun name member => areNames name (.tail _ member)
          have notEmpty : join base first ≠ "" := by
            intro empty
            have none : components (join base first) = [] := by
              rw [empty]
              decide
            simp [components_join_name base isName] at none
          have notIdle : first ≠ "" := by
            rintro rfl
            exact absurd isName.single.2 (by decide)
          rw [String.intercalate_cons_cons, join_slash notIdle, components_slash notEmpty,
            pieces_intercalate (by simp) fun name member => (others' name member).single.1,
            filterMap_innerComponent? others', components_join_name base isName,
            List.append_assoc]
          rfl

/-! ## Extensions -/

/-- A file name with an extension: what stands before its last dot, which is not nothing, and
what stands after it. -/
structure IsExtended (fileName before extension : String) : Prop where
  spelled : fileName = before ++ "." ++ extension
  notHidden : before ≠ ""
  last : '.' ∉ extension.toList

/-- A name is split at its last dot if it has an extension. -/
theorem splitExtension?_eq_some_iff (fileName before extension : String) :
    splitExtension? fileName = some (before, extension) ↔ IsExtended fileName before extension := by
  unfold splitExtension?
  constructor
  · intro found
    have split := List.takeWhile_append_dropWhile (p := (· != '.')) (l := fileName.toList.reverse)
    have head := List.head?_dropWhile_not (· != '.') fileName.toList.reverse
    cases dropped : fileName.toList.reverse.dropWhile (· != '.') with
    | nil => simp [dropped] at found
    | cons dot others =>
        rw [dropped] at found head split
        obtain rfl : dot = '.' := by simpa using head
        simp only [Option.ite_none_left_eq_some, Option.some.injEq, Prod.mk.injEq] at found
        obtain ⟨notHidden, rfl, rfl⟩ := found
        refine ⟨?_, by simpa using notHidden, fun dot => ?_⟩
        · rw [← String.toList_inj, ← List.reverse_inj]
          exact split.symm.trans (by simp)
        · rw [String.toList_ofList, List.mem_reverse] at dot
          simpa using List.all_eq_true.1 List.all_takeWhile _ dot
  · rintro ⟨rfl, notHidden, last⟩
    have spelled : (before ++ "." ++ extension).toList.reverse =
        extension.toList.reverse ++ '.' :: before.toList.reverse := by simp
    have others : ∀ char ∈ extension.toList.reverse, (char != '.') = true := by
      intro char member
      rw [bne_iff_ne]
      rintro rfl
      exact last (List.mem_reverse.1 member)
    rw [spelled, List.dropWhile_append_of_pos others, List.takeWhile_append_of_pos others]
    simp [notHidden]

/-- The extension of a name is what it has after its last dot. -/
theorem extension?_eq_some_iff (fileName extension : String) :
    extension? fileName = some extension ↔ ∃ before, IsExtended fileName before extension := by
  simp [extension?, ← splitExtension?_eq_some_iff]

/-- Without its extension a name is what it has before its last dot. -/
theorem IsExtended.stem_eq {fileName before extension : String}
    (extended : IsExtended fileName before extension) : stem fileName = before := by
  rw [stem, (splitExtension?_eq_some_iff _ _ _).2 extended]

end DocblockScan.Path

import DocblockScan.ClassSource
import DocblockScan.Discovery
import DocblockScan.Proofs.FileSystem.Walk
import DocblockScan.Proofs.Namespace
import DocblockScan.Proofs.Outcome

/-!
# Discovery and lookup

Discovery names a class by the namespace whose directory its file is below and by the way
down to the file; lookup goes from the name of a class to the path of a file. Both take
the same root namespace off, one from the namespace and the other from the whole name.
The path is that of the file (`components_fileOf`) unless the namespace is above the
root, and so two files never have classes of one name: `classesIn_finds_files`.
-/

namespace DocblockScan

open Text (Firm trimBy)

namespace Namespace

/-! ## Names and namespaces -/

/-- A name of a directory, or of a file without its extension, that is a segment of class
names: it contains no separator, and there is no blank at its ends. -/
structure IsSegment (name : String) : Prop where
  single : separator ∉ name.toList
  firm : Firm Text.isBlank name.toList

/-- Trimming does not change segments. -/
theorem IsSegment.firm_isEdge {name : String} (segment : IsSegment name) :
    Firm isEdge name.toList :=
  firm_isEdge_of_isBlank segment.firm (fun first => segment.single (List.mem_of_head? first))
    fun last => segment.single (List.mem_of_getLast? last)

/-- A namespace above a root: the root is not blank, and the namespace is blank or stands
for a beginning of the root that ends before a separator. -/
def IsAbove (name root : String) : Prop :=
  trim root ≠ "" ∧ (trim name = "" ∨ ∃ rest, trim root = trim name ++ "\\" ++ rest)

/-! ## The name of a listed class -/

/-- Segments with separators between them. -/
def chained (segments : List String) : List Char :=
  List.intercalate [separator] (segments.map String.toList)

/-- Segments that are not empty are firm with separators between them. -/
theorem firm_chained {segments : List String} (some : segments ≠ [])
    (areSegments : ∀ segment ∈ segments, IsSegment segment ∧ segment ≠ "") :
    Firm isEdge (chained segments) ∧ chained segments ≠ [] := by
  refine firm_intercalate (by simpa using some) fun text member => ?_
  obtain ⟨segment, isSegment, rfl⟩ := List.mem_map.1 member
  exact ⟨(areSegments segment isSegment).1.firm_isEdge,
    by simpa using (areSegments segment isSegment).2⟩

/-- The class of a file below a namespace is the trimmed namespace and the way down to
the file. -/
theorem toList_join (name : String) {segments : List String} (some : segments ≠ [])
    (areSegments : ∀ segment ∈ segments, IsSegment segment ∧ segment ≠ "") :
    (join (name :: segments)).toList =
      if trim name = "" then chained segments
      else (trim name).toList ++ separator :: chained segments := by
  have kept : (segments.map trim).filter (· != "") = segments := by
    have same : segments.map trim = segments := by
      refine (List.map_congr_left fun segment member => ?_).trans (List.map_id segments)
      exact trim_of_firm (areSegments segment member).1.firm_isEdge
    rw [same, List.filter_eq_self]
    exact fun segment member => by simpa using (areSegments segment member).2
  rw [join, List.map_cons, List.filter_cons, kept]
  by_cases blank : trim name = ""
  · simp [blank, chained, String.toList_intercalate, separator]
  · obtain ⟨first, rest, rfl⟩ := List.exists_cons_of_ne_nil some
    simp [blank, chained, String.toList_intercalate, String.intercalate_cons_cons, separator]

/-- Names below one namespace are the same only if their segments are. -/
theorem join_injective {name : String} {left right : List String} (someLeft : left ≠ [])
    (someRight : right ≠ []) (areLeft : ∀ segment ∈ left, IsSegment segment ∧ segment ≠ "")
    (areRight : ∀ segment ∈ right, IsSegment segment ∧ segment ≠ "")
    (same : join (name :: left) = join (name :: right)) : left = right := by
  have chains : chained left = chained right := by
    have letters := congrArg String.toList same
    rw [toList_join name someLeft areLeft, toList_join name someRight areRight] at letters
    split at letters
    · exact letters
    · exact (List.cons.inj (List.append_cancel_left letters)).2
  have parts : ∀ {segments : List String}, segments ≠ [] →
      (∀ segment ∈ segments, IsSegment segment ∧ segment ≠ "") →
      (chained segments).splitOn separator = segments.map String.toList := by
    intro segments some areSegments
    refine List.splitOn_intercalate separator ?_ (by simpa using some)
    simpa using fun segment member => (areSegments segment member).1.single
  have letters : left.map String.toList = right.map String.toList := by
    rw [← parts someLeft areLeft, ← parts someRight areRight, chains]
  exact List.map_injective_iff.2 (fun _ _ => String.toList_inj.1) letters

/-! ## The path of a class -/

/-- A fixed beginning is dropped. -/
theorem dropStart?_append (start rest : List Char) :
    Text.dropStart? start (start ++ rest) = some rest := by
  rw [Text.dropStart?, if_pos (List.isPrefixOf_iff_prefix.2 (List.prefix_append _ _)),
    List.drop_left]

/-- Without a fixed beginning nothing is dropped. -/
theorem dropStart?_eq_none {start text : List Char} (apart : ¬ start <+: text) :
    Text.dropStart? start text = none := by
  rw [Text.dropStart?, if_neg (mt List.isPrefixOf_iff_prefix.1 apart)]

/-- A root with a separator starts a class of a namespace only if it starts the namespace,
or if the namespace is the root or above it. -/
theorem prefix_of_prefix_append {root name tail : List Char} (other : name ≠ root)
    (notAbove : ∀ rest, root ≠ name ++ separator :: rest)
    (starts : root ++ [separator] <+: name ++ separator :: tail) :
    root ++ [separator] <+: name := by
  rcases List.prefix_or_prefix_of_prefix starts (List.prefix_append name _) with within | longer
  · exact within
  obtain ⟨rest, split⟩ := longer
  rcases List.eq_nil_or_concat rest with rfl | ⟨between, last, rfl⟩
  · exact ⟨[], by simpa using split.symm⟩
  rw [List.concat_eq_append, ← List.append_assoc] at split
  obtain ⟨rootEq, lastEq⟩ := List.append_inj' split rfl
  cases between with
  | nil => exact absurd (by simpa using rootEq) other
  | cons char more =>
      rw [← rootEq, List.append_assoc, List.prefix_append_right_inj, List.cons_append,
        List.cons_prefix_cons] at starts
      exact absurd (starts.1 ▸ rootEq.symm) (notAbove more)

/-- Below a root that a namespace is not above, a class of the namespace stands as the
namespace does. -/
theorem belowRoot_append {root name : List Char} (someName : name ≠ [])
    (notAbove : ∀ rest, root ≠ name ++ separator :: rest) (tail : List Char) :
    belowRoot root (name ++ separator :: tail) =
      if name = root then tail else belowRoot root name ++ separator :: tail := by
  have notRoot : name ++ separator :: tail ≠ root := fun same => notAbove tail same.symm
  unfold belowRoot
  by_cases blank : root = []
  · simp [blank, someName]
  rw [if_neg blank, if_neg blank, if_neg notRoot]
  by_cases same : name = root
  · have whole : name ++ separator :: tail = root ++ [separator] ++ tail := by simp [same]
    rw [if_pos same, whole, dropStart?_append]
    rfl
  rw [if_neg same, if_neg same]
  by_cases starts : root ++ [separator] <+: name
  · obtain ⟨rest, rfl⟩ := starts
    rw [List.append_assoc _ rest, dropStart?_append, dropStart?_append]
    rfl
  · rw [dropStart?_eq_none starts,
      dropStart?_eq_none (mt (prefix_of_prefix_append same notAbove) starts)]
    rfl

/-- Characters of a name in a path. -/
def inPath (char : Char) : Char :=
  if char = separator then '/' else char

/-- Segments are in a path what they are. -/
theorem map_inPath {segments : List String}
    (areSegments : ∀ segment ∈ segments, IsSegment segment ∧ segment ≠ "") :
    (chained segments).map inPath = (String.intercalate "/" segments).toList := by
  have same : ∀ segment ∈ segments, segment.toList.map inPath = segment.toList := by
    intro segment member
    refine (List.map_congr_left fun char inside => ?_).trans (List.map_id _)
    refine if_neg ?_
    rintro rfl
    exact (areSegments segment member).1.single inside
  have isSlash : inPath separator = '/' := if_pos rfl
  induction segments with
  | nil => rfl
  | cons first rest inductionHypothesis =>
      have others := inductionHypothesis (fun segment member => areSegments segment (.tail _ member))
        fun segment member => same segment (.tail _ member)
      have head := same first List.mem_cons_self
      cases rest with
      | nil => simpa [chained] using head
      | cons second more =>
          simp only [chained, List.map_cons, List.intercalate_cons_cons, List.map_append, List.map_nil,
            String.intercalate_cons_cons, String.toList_append] at others ⊢
          rw [others, head, isSlash]
          rfl

/-- The part of a name below a root, which its path is made from. -/
def below (name root : String) : List Char :=
  trimBy isEdge (belowRoot (trim root).toList (trim name).toList)

/-- The path of a name below a root, character by character. -/
theorem toList_toPath (name root : String) : (toPath name root).toList = (below name root).map inPath :=
  String.toList_ofList

/-- A name has no path exactly if nothing of it is below the root. -/
theorem toPath_eq_empty_iff (name root : String) : toPath name root = "" ↔ below name root = [] := by
  rw [← String.toList_eq_nil_iff, toList_toPath, List.map_eq_nil_iff]

/-- The part of a name below a root ends as the trimmed name does. -/
theorem ends_belowRoot (name : String) (root : List Char) :
    ∀ last ∈ (belowRoot root (trim name).toList).getLast?, isEdge last = false := by
  intro last isLast
  obtain ⟨before, split⟩ := belowRoot_suffix root (trim name).toList
  refine (firm_trim name).ends last ?_
  rw [← split, List.getLast?_append, Option.mem_def.1 isLast]
  rfl

/-- Without a namespace and a root all of a class is below. -/
theorem below_join_of_blank {name root : String} (blank : trim name = "")
    (blankRoot : trim root = "") {segments : List String} (some : segments ≠ [])
    (areSegments : ∀ segment ∈ segments, IsSegment segment ∧ segment ≠ "") :
    below name root = [] ∧ below (join (name :: segments)) root = chained segments := by
  obtain ⟨firm, -⟩ := firm_chained some areSegments
  have whole := toList_join name some areSegments
  rw [if_pos blank] at whole
  have trimmed : trim (join (name :: segments)) = join (name :: segments) := by
    apply trim_of_firm
    rw [whole]
    exact firm
  constructor
  · simp [below, blank, blankRoot, belowRoot, trimBy, Text.dropEndWhile]
  · rw [below, trimmed, whole, blankRoot]
    exact firm.trimBy_eq

/-- Below a root that its namespace is not above a class is what the namespace is, and the
way from there. -/
theorem below_join {name root : String} (notAbove : ¬ IsAbove name root)
    {segments : List String} (some : segments ≠ [])
    (areSegments : ∀ segment ∈ segments, IsSegment segment ∧ segment ≠ "") :
    below (join (name :: segments)) root =
      if below name root = [] then chained segments
      else below name root ++ separator :: chained segments := by
  by_cases blank : trim name = ""
  · have blankRoot : trim root = "" := by
      by_contra rooted
      exact notAbove ⟨rooted, .inl blank⟩
    obtain ⟨nothing, all⟩ := below_join_of_blank blank blankRoot some areSegments
    rw [if_pos nothing, all]
  obtain ⟨firm, notEmpty⟩ := firm_chained some areSegments
  have whole := toList_join name some areSegments
  rw [if_neg blank] at whole
  have someName : (trim name).toList ≠ [] := by simpa using blank
  have joined := (firm_trim name).append someName firm notEmpty [separator]
  rw [List.singleton_append, ← whole] at joined
  have trimmed := trim_of_firm joined
  have apart : ∀ rest, (trim root).toList ≠ (trim name).toList ++ separator :: rest := by
    intro rest same
    refine notAbove ⟨fun blankRoot => by simp [blankRoot] at same, .inr ⟨.ofList rest, ?_⟩⟩
    rw [← String.toList_inj, same]
    simp [separator]
  rw [below, trimmed, whole, belowRoot_append someName apart]
  by_cases isRoot : (trim name).toList = (trim root).toList
  · have nothing : below name root = [] := by
      rw [isRoot] at someName
      simp [below, isRoot, belowRoot, someName, trimBy, Text.dropEndWhile]
    rw [if_pos isRoot, if_pos nothing, firm.trimBy_eq]
  · rw [if_neg isRoot, Text.trimBy_append_cons (by decide) (ends_belowRoot name _) firm notEmpty]
    rfl

/-- The path of a class below a root that its namespace is not above is the path of the
namespace, and the way from there. -/
theorem toPath_join {name root : String} (notAbove : ¬ IsAbove name root)
    {segments : List String} (some : segments ≠ [])
    (areSegments : ∀ segment ∈ segments, IsSegment segment ∧ segment ≠ "") :
    toPath (join (name :: segments)) root =
      if toPath name root = "" then String.intercalate "/" segments
      else toPath name root ++ "/" ++ String.intercalate "/" segments := by
  have way := map_inPath areSegments
  have parts := below_join notAbove some areSegments
  by_cases empty : toPath name root = ""
  · rw [if_pos ((toPath_eq_empty_iff name root).1 empty)] at parts
    rw [if_pos empty, ← String.toList_inj, toList_toPath, parts, way]
  · rw [if_neg (mt (toPath_eq_empty_iff name root).2 empty)] at parts
    rw [if_neg empty, ← String.toList_inj, toList_toPath, parts, List.map_append, List.map_cons, way,
      String.toList_append, String.toList_append, toList_toPath, List.append_assoc]
    rfl

end Namespace

/-! ## The file of a listed class -/

open Namespace DocblockScan.Path

/-- A way has a class if the file at its end has the extension. -/
theorem Discovery.classOfWay?_eq_some_iff (discovery : Discovery) (name : String) (way : Location)
    (className : String) :
    discovery.classOfWay? name way = some className ↔
      ∃ directories fileName before, way = directories ++ [fileName] ∧
        IsExtended fileName before discovery.extension ∧
        Namespace.join (name :: (directories ++ [before])) = className := by
  have named : ∀ {directories : List String} {fileName before : String},
      IsExtended fileName before discovery.extension →
        classOfFile name (directories ++ [fileName]).dropLast fileName =
          Namespace.join (name :: (directories ++ [before])) := by
    intro directories fileName before extended
    rw [classOfFile, extended.stem_eq, List.dropLast_concat, List.cons_append]
  simp only [classOfWay?, Option.bind_eq_bind, Option.bind_eq_some_iff,
    Option.ite_none_right_eq_some, Option.some.injEq, List.getLast?_eq_some_iff]
  constructor
  · rintro ⟨fileName, ⟨directories, rfl⟩, found, rfl⟩
    obtain ⟨before, extended⟩ := (extension?_eq_some_iff _ _).1 found
    exact ⟨directories, fileName, before, rfl, extended, (named extended).symm⟩
  · rintro ⟨directories, fileName, before, rfl, extended, rfl⟩
    exact ⟨fileName, ⟨directories, rfl⟩, (extension?_eq_some_iff _ _).2 ⟨before, extended⟩,
      named extended⟩

/-- What follows joined names follows the last of them. -/
theorem Path.intercalate_append (names : List String) (last rest : String) :
    String.intercalate "/" (names ++ [last]) ++ rest =
      String.intercalate "/" (names ++ [last ++ rest]) := by
  induction names with
  | nil => simp
  | cons first others inductionHypothesis =>
      have cons : ∀ final, String.intercalate "/" (first :: (others ++ [final])) =
          first ++ "/" ++ String.intercalate "/" (others ++ [final]) := by
        intro final
        obtain ⟨second, more, split⟩ := List.exists_cons_of_ne_nil
          (show others ++ [final] ≠ [] by simp)
        rw [split, String.intercalate_cons_cons]
      rw [List.cons_append, List.cons_append, cons, cons, String.append_assoc, inductionHypothesis]

/-- A way to a file on which the names of all directories, and of the file without its
extension, are segments of class names. -/
structure IsPlainWay (way : Location) : Prop where
  areNames : ∀ name ∈ way, IsEntryName name
  directories : ∀ name ∈ way.dropLast, IsSegment name
  file : ∀ name ∈ way.getLast?, IsSegment (stem name)

/-- A relative path that names directories and a file stands for the class of the file. -/
theorem classOfPath?_intercalate (name : String) {directories : List String} {fileName : String}
    (areNames : ∀ entry ∈ directories ++ [fileName], IsEntryName entry) :
    classOfPath? name (String.intercalate "/" (directories ++ [fileName])) =
      some (classOfFile name directories fileName) := by
  have named : (directories.map Component.name).filterMap Component.name? = directories := by
    rw [List.filterMap_map]
    exact List.filterMap_some
  rw [classOfPath?, components_intercalate (by simp) areNames, List.map_append, List.map_singleton]
  simp [named]

/-- Discovery makes the same of a way to a file as of the relative path that spells the way,
if the extension of the file counts. -/
theorem classOfWay?_eq_classOfPath? (discovery : Discovery) (name : String) {way : Location}
    (areNames : ∀ entry ∈ way, IsEntryName entry) :
    discovery.classOfWay? name way =
      if way.getLast?.bind extension? = some discovery.extension then
        classOfPath? name (String.intercalate "/" way)
      else none := by
  rcases List.eq_nil_or_concat way with rfl | ⟨directories, fileName, rfl⟩
  · rfl
  · rw [List.concat_eq_append] at areNames ⊢
    rw [classOfPath?_intercalate name areNames, Discovery.classOfWay?]
    simp

/-- The names on a plain way, without the extension of the file, are segments. -/
theorem IsPlainWay.segments {directories : List String} {fileName before : String}
    (isWay : IsPlainWay (directories ++ [fileName])) (extended : IsExtended fileName before extension) :
    ∀ segment ∈ directories ++ [before], IsSegment segment ∧ segment ≠ "" := by
  intro segment member
  rcases List.mem_append.1 member with directory | isFile
  · have isName := isWay.areNames segment (List.mem_append_left _ directory)
    refine ⟨isWay.directories segment (by simpa using directory), ?_⟩
    rintro rfl
    exact absurd isName.single.2 (by decide)
  · obtain rfl := List.mem_singleton.1 isFile
    exact ⟨extended.stem_eq ▸ isWay.file fileName (by simp), extended.notHidden⟩

/-- The class of a listed file is named by the way down to it without the extension. -/
theorem exists_segments {base name root className : String} {way : Location}
    (isWay : IsPlainWay way)
    (found : (Discovery.of base root Registry.sourceExtension).classOfWay? (trim name) way =
      some className) :
    ∃ segments, segments ≠ [] ∧ (∀ segment ∈ segments, IsSegment segment ∧ segment ≠ "") ∧
      className = Namespace.join (name :: segments) ∧ way ≠ [] ∧
      String.intercalate "/" segments ++ "." ++ Registry.sourceExtension =
        String.intercalate "/" way := by
  have isSource : (Discovery.of base root Registry.sourceExtension).extension =
      Registry.sourceExtension := by
    simp only [Discovery.of]
    decide
  obtain ⟨directories, fileName, before, rfl, extended, rfl⟩ :=
    (Discovery.classOfWay?_eq_some_iff _ _ _ _).1 found
  rw [isSource] at extended
  refine ⟨directories ++ [before], by simp, isWay.segments extended, join_trim name _, by simp, ?_⟩
  rw [String.append_assoc, Path.intercalate_append, ← String.append_assoc, ← extended.spelled]

/-- The path at which a class is looked up leads down the way on which it was found. -/
theorem components_fileOf {base name root className : String} {way : Location}
    (notAbove : ¬ IsAbove name root) (isWay : IsPlainWay way)
    (found : (Discovery.of base root Registry.sourceExtension).classOfWay? (trim name) way =
      some className) :
    components (ClassSource.fileOf base root className) =
      components (directory base name root) ++ way.map .name := by
  obtain ⟨segments, some, areSegments, rfl, someWay, written⟩ := exists_segments isWay found
  rw [ClassSource.fileOf, file, toPath_join notAbove some areSegments, directory]
  by_cases atBase : toPath name root = ""
  · simp only [atBase, if_true]
    rw [written, components_join_intercalate base someWay isWay.areNames]
  · have notEmpty : Path.join base (toPath name root) ≠ "" := by
      obtain ⟨front, joined⟩ := exists_join_eq base (toPath name root)
      rw [joined]
      intro empty
      simp [← String.toList_eq_nil_iff] at empty
      exact atBase (String.toList_eq_nil_iff.1 empty.2)
    have regroup : toPath name root ++ "/" ++ String.intercalate "/" segments ++ "." ++
        Registry.sourceExtension = toPath name root ++ "/" ++ String.intercalate "/" way := by
      rw [← written]
      simp only [String.append_assoc]
    simp only [if_neg atBase]
    rw [regroup, join_slash atBase, components_slash notEmpty,
      pieces_intercalate someWay fun name member => (isWay.areNames name member).single.1,
      filterMap_innerComponent? isWay.areNames]

/-- Two files below one directory have no class of one name. -/
theorem way_unique {discovery : Discovery} {name className : String} {way other : Location}
    (isWay : IsPlainWay way) (isOther : IsPlainWay other)
    (found : discovery.classOfWay? name way = some className)
    (foundOther : discovery.classOfWay? name other = some className) : way = other := by
  obtain ⟨directories, fileName, before, rfl, extended, rfl⟩ :=
    (discovery.classOfWay?_eq_some_iff _ _ _).1 found
  obtain ⟨otherDirectories, otherFile, otherBefore, rfl, otherExtended, same⟩ :=
    (discovery.classOfWay?_eq_some_iff _ _ _).1 foundOther
  have segments := Namespace.join_injective (by simp) (by simp) (isWay.segments extended)
    (isOther.segments otherExtended) same.symm
  obtain ⟨rfl, last⟩ := List.append_inj' segments rfl
  obtain rfl := List.singleton_inj.1 last
  rw [extended.spelled, otherExtended.spelled]

/-- Whether a file is a source file. -/
def isSourceFile (way : Location) : Bool :=
  way.getLast?.bind extension? == some Registry.sourceExtension

/-- What is made of the selected elements of a list, one by one. -/
theorem forall₂_filterMap {Element Name : Type} {toName : Element → Option Name}
    {selects : Element → Bool} {related : Element → Name → Prop} {elements : List Element}
    (named : ∀ element ∈ elements, (toName element).isSome = selects element)
    (relates : ∀ element ∈ elements, ∀ name, toName element = some name → related element name) :
    List.Forall₂ related (elements.filter selects) (elements.filterMap toName) := by
  induction elements with
  | nil => exact .nil
  | cons first rest inductionHypothesis =>
      have others := inductionHypothesis (fun element member => named element (.tail _ member))
        fun element member => relates element (.tail _ member)
      have isNamed := named first List.mem_cons_self
      cases found : toName first with
      | none =>
          rw [found] at isNamed
          rw [List.filter_cons_of_neg (by simp [← isNamed]), List.filterMap_cons_none found]
          exact others
      | some name =>
          rw [found] at isNamed
          rw [List.filter_cons_of_pos (by simp [← isNamed]), List.filterMap_cons_some found]
          exact .cons (relates first List.mem_cons_self name found) others

/-- What is listed are the classes of the files on a walk. -/
theorem classes_of_classesIn {files : FileSystem} {base root name : String}
    {ways : List Location} {classes : List String}
    (walks : files.walk (directory base name root) = .ok ways)
    (lists : (Discovery.of base root Registry.sourceExtension).classesIn files name = .ok classes) :
    classes = ways.filterMap
      ((Discovery.of base root Registry.sourceExtension).classOfWay? (trim name)) := by
  have sameDirectory : (Discovery.of base root Registry.sourceExtension).directoryOf (trim name) =
      directory base name root := by
    simp only [Discovery.directoryOf, Discovery.of, directory, toPath, trim_trim]
    rfl
  simp only [Discovery.classesIn, sameDirectory, walks] at lists
  split at lists
  · exact (Except.ok.inj lists).symm
  · simp at lists

/-- Every source file has a class. -/
theorem isSome_classOfWay? (base root name : String) (way : Location) :
    ((Discovery.of base root Registry.sourceExtension).classOfWay? name way).isSome =
      isSourceFile way := by
  have isSource : (Discovery.of base root Registry.sourceExtension).extension =
      Registry.sourceExtension := by
    simp only [Discovery.of]
    decide
  cases last : way.getLast? with
  | none => simp [Discovery.classOfWay?, isSourceFile, last]
  | some fileName =>
      by_cases extended : extension? fileName = some Registry.sourceExtension <;>
        simp [Discovery.classOfWay?, isSourceFile, last, isSource, extended]

/-- Discovery and lookup agree on where a class is, for every base directory, root and
namespace. Every class that is listed is looked up at the path of the file that it is
listed for, unless the namespace is above the root; and no class is listed twice. -/
theorem classesIn_finds_files (files : FileSystem) (base root name : String)
    {ways : List Location} {classes : List String}
    (walks : files.walk (directory base name root) = .ok ways)
    (lists : (Discovery.of base root Registry.sourceExtension).classesIn files name = .ok classes)
    (areWays : ∀ way ∈ ways, IsPlainWay way) :
    (List.Forall₂ (fun way className => components (ClassSource.fileOf base root className) =
        components (way.foldl Path.join (directory base name root)))
      (ways.filter isSourceFile) classes ∨ IsAbove name root) ∧
    classes.Nodup := by
  obtain rfl := classes_of_classesIn walks lists
  constructor
  · by_cases above : IsAbove name root
    · exact .inr above
    · refine .inl (forall₂_filterMap (fun way _ => isSome_classOfWay? base root _ way) ?_)
      intro way member className found
      have isWay := areWays way member
      rw [components_fileOf above isWay found, components_foldl_join _ isWay.areNames]
  · have distinct : ways.Nodup := by
      simp only [FileSystem.walk, Outcome.bind_eq_ok_iff] at walks
      obtain ⟨location, -, same⟩ := walks
      obtain rfl := Except.ok.inj same
      exact files.nodup_filesBelow location
    refine List.pairwise_filterMap.2 (distinct.imp_of_mem ?_)
    rintro way other member isOther differ className found sameName foundOther rfl
    exact differ (way_unique (areWays way member) (areWays other isOther) found foundOther)

/-- A class of a namespace above the root may be looked up elsewhere: this one is found in
the directory `App` below the base directory. -/
example : ClassSource.fileOf "base" "App" (classOfFile "" ["App"] "Page.php") = "base/Page.php" := by
  decide +kernel

/-- A class in a directory with a dot in its name. -/
def shelfFiles : FileSystem where
  entries := .ofList [(["app"], .directory), (["app", "Http"], .directory),
    (["app", "Http", "v1.0"], .directory), (["app", "Http", "v1.0", "Home.php"], .file ⟨#[]⟩)]
  workingDirectory := []

/-- The class is found although the namespace is written with blanks and a separator too
many. -/
theorem classesIn_finds_shelf :
    components (ClassSource.fileOf "app" "App" "App\\\\Http\\v1.0\\Home") =
      components (["v1.0", "Home.php"].foldl Path.join "app/Http") := by
  have walks : shelfFiles.walk (directory "app" " App\\\\Http\\" "App") =
      .ok [["v1.0", "Home.php"]] := by decide +kernel
  have lists : (Discovery.of "app" "App" Registry.sourceExtension).classesIn shelfFiles
      " App\\\\Http\\" = .ok ["App\\\\Http\\v1.0\\Home"] := by decide +kernel
  have areNames : ∀ name ∈ ["v1.0", "Home.php"], IsEntryName name := by
    intro name member
    have isOne : name = "v1.0" ∨ name = "Home.php" := by simpa using member
    rcases isOne with rfl | rfl <;> exact ⟨⟨by decide, by decide⟩, by decide⟩
  have isPlain : IsPlainWay ["v1.0", "Home.php"] := by
    refine ⟨areNames, ?_, ?_⟩
    · intro name member
      obtain rfl : name = "v1.0" := by simpa using member
      exact ⟨by decide, by decide +kernel⟩
    · intro name member
      obtain rfl : name = "Home.php" := by simpa using member.symm
      exact ⟨by decide, by decide +kernel⟩
  obtain ⟨found, -⟩ := classesIn_finds_files shelfFiles "app" "App" " App\\\\Http\\" walks lists
    (by simpa using isPlain)
  have notAbove : ¬ IsAbove " App\\\\Http\\" "App" := by
    have trimmed : trim " App\\\\Http\\" = "App\\\\Http" := by decide +kernel
    rintro ⟨-, blank | ⟨rest, longer⟩⟩
    · exact absurd (trimmed.symm.trans blank) (by decide)
    · rw [trimmed, show trim "App" = "App" by decide +kernel] at longer
      have lengths := congrArg String.length longer
      simp only [String.length_append] at lengths
      have short : "App".length = 3 ∧ "App\\\\Http".length = 9 := by decide
      omega
  have selected : [["v1.0", "Home.php"]].filter isSourceFile = [["v1.0", "Home.php"]] := by
    decide +kernel
  have below : directory "app" " App\\\\Http\\" "App" = "app/Http" := by decide +kernel
  rw [selected, below] at found
  exact (List.forall₂_cons.1 (found.resolve_right notAbove)).1

end DocblockScan

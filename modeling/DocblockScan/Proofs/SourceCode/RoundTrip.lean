import DocblockScan.Program.SourceCode.Growth
import DocblockScan.Proofs.Namespace
import DocblockScan.Proofs.SourceCode.Scopes

/-!
# Reading undoes writing

The classes that are read from a written file are the classes of the file, with their
docblocks and methods, in source order: `declaredClasses_render`. All that is asked of the
parser is that its tree shows the layout of the file. The full names of the classes are
joined from the names of the namespaces and of the classes, and joining leaves blanks at the
ends of names out. Names can have such blanks: a few of them are characters of names.
-/

namespace DocblockScan.SourceCode

open Text (Firm)

/-- That a tree is what a parser makes of a written file: it shows the layout of the file,
and its nodes start in the order in which they stand in it. -/
structure SourceFile.IsShownBy (file : SourceFile) (tree : Node) : Prop where
  root : tree.kind = "program"
  shown : Shows 0 file.parts tree.children
  ordered : InOrder tree.allSites

/-- Whether a tree shows a file. -/
def SourceFile.checks (file : SourceFile) (tree : Node) : Bool :=
  tree.kind = "program" && (restOf? 0 file.parts tree.children).any List.isEmpty &&
    decide (InOrder tree.allSites)

/-- A tree that is checked against a file shows it. -/
theorem SourceFile.isShownBy_of_checks {file : SourceFile} {tree : Node}
    (checked : file.checks tree = true) : file.IsShownBy tree := by
  simp only [SourceFile.checks, Bool.and_eq_true, decide_eq_true_eq] at checked
  exact ⟨checked.1.1, shows_of_restOf? checked.1.2, checked.2⟩

/-- The text of a file stands at its first byte. -/
theorem stands_render (file : SourceFile) : Stands file.render.toUTF8 0 (textOf file.parts) :=
  ⟨"", "", by simp [SourceFile.render], rfl⟩

/-- The body of a file declares the classes of the file. -/
theorem reads_body {bytes : ByteArray} {offset number : Nat} {file : SourceFile}
    {nodes : List Node} {path : List Nat} {outer : List Node} {previous : Option Node}
    (depicted : Depicts bytes offset file.bodyParts nodes) (quiet : Quiet previous) :
    Declares bytes (namespacesOf bytes (sitesOf path outer number previous nodes))
      (sitesOf path outer number previous nodes) (file.classes joined) := by
  cases file with
  | statements blocks =>
      obtain ⟨scopes, stretch⟩ := reads_blocks (fun _ _ _ _ isOpen => isOpen)
        (fun here _ => reads_statementBlock here) blocks depicted quiet
      have declares := stretch.declares [] [] (by simp) (by simp)
      rw [stretch.found]
      simpa [SourceFile.classes, SourceFile.blocks, List.flatMap_map] using declares
  | braced blocks =>
      obtain ⟨scopes, stretch⟩ := reads_blocks (fun _ _ _ before isPast => isPast.of_le before)
        (fun here _ => reads_bracedBlock here) blocks depicted quiet
      have declares := stretch.declares [] [] (by simp) (by simp)
      rw [stretch.found]
      simpa [SourceFile.classes, SourceFile.blocks, List.flatMap_map] using declares
  | global definitions =>
      have absent : "namespace_definition" ∉ kindsIn (definitionsParts 0 definitions) :=
        fun member => absurd (kindsIn_definitionsParts member) (by decide)
      rw [depicted.shown.namespacesOf_eq_nil absent]
      have classes : (SourceFile.global definitions).classes joined =
          definitions.filterMap (Definition.class? joined "") := by
        simp [SourceFile.classes, SourceFile.blocks]
      rw [classes]
      exact (reads_definitions definitions depicted quiet fun _ _ _ => rfl).1

/-- Reading a file gives back its classes, with names that are joined from those of the
namespaces and the classes. -/
theorem declaredClasses_render_joined {parser : Parser} {file : SourceFile} {tree : Node}
    (parsed : parser file.render = some tree) (shownBy : file.IsShownBy tree) :
    declaredClasses parser file.render = some (file.classes joined) := by
  have depicted : Depicts file.render.toUTF8 0 file.parts tree.children :=
    ⟨shownBy.shown, stands_render file⟩
  obtain ⟨tag, rest, split, nonempty, idle, after⟩ := depicted.exists_of_other
  rw [declaredClasses, parsed, Option.map_some]
  refine congrArg some (classesOf_allSites shownBy.root shownBy.ordered ?_)
  rw [split, sitesOf_append, namespacesOf_append, namespacesOf_eq_nil_of_isIdle idle,
    List.nil_append]
  exact .after_nothing (declares_nothing_of_isIdle idle _)
    (reads_body after (quiet_of_idle nonempty idle))

/-! ## Names without blanks at their ends -/

/-- Whether neither the namespaces of a file nor its classes have a blank at an end of their
names. -/
def SourceFile.HasFirmNames (file : SourceFile) : Prop :=
  ∀ block ∈ file.blocks, Firm Text.isBlank block.1.toList ∧
    ∀ declared : NamedClass, .named declared ∈ block.2 →
      Firm Text.isBlank declared.name.text.toList

/-- A word consists of characters of names. -/
theorem isNameChar_of_isWord {word : String} (isWhole : isWord word = true) {char : Char}
    (member : char ∈ word.toList) : isNameChar char = true := by
  rw [isWord, Bool.and_eq_true, List.all_eq_true] at isWhole
  exact isWhole.2 char member

/-- A word is not empty. -/
theorem exists_cons_of_isWord {word : String} (isWhole : isWord word = true) :
    ∃ first rest, word.toList = first :: rest := by
  rw [isWord, Bool.and_eq_true] at isWhole
  exact List.exists_cons_of_ne_nil (by simpa using isWhole.1)

/-- No character of names is a separator. -/
theorem ne_separator {char : Char} (name : isNameChar char = true) :
    char ≠ Namespace.separator := by
  rintro rfl
  exact absurd name (by decide)

/-- A word without blanks at its ends is not trimmed. -/
theorem trim_word {word : String} (isWhole : isWord word = true)
    (firm : Firm Text.isBlank word.toList) : Namespace.trim word = word :=
  Namespace.trim_of_firm <| Namespace.firm_isEdge_of_isBlank firm
    (fun first => ne_separator (isNameChar_of_isWord isWhole (List.mem_of_head? first)) rfl)
    fun last => ne_separator (isNameChar_of_isWord isWhole (List.mem_of_getLast? last)) rfl

/-- A name of a namespace ends with its last segment. -/
theorem exists_last_segment (path : NamespacePath) :
    ∃ front, ∃ segment : Identifier, path.text.toList = front ++ segment.text.toList := by
  rcases List.eq_nil_or_concat path.others with none | ⟨others, last, some⟩
  · exact ⟨[], path.first, by simp [NamespacePath.text, none, segmentsText]⟩
  · refine ⟨path.first.text.toList ++ (segmentsText others).toList ++ ['\\'], last, ?_⟩
    simp [NamespacePath.text, some, segmentsText]

/-- The name of a namespace without blanks at its ends is not trimmed. -/
theorem trim_path {path : NamespacePath} (firm : Firm Text.isBlank path.text.toList) :
    Namespace.trim path.text = path.text := by
  refine Namespace.trim_of_firm (Namespace.firm_isEdge_of_isBlank firm ?_ ?_)
  · intro first
    obtain ⟨char, rest, letters⟩ := exists_cons_of_isWord path.first.word
    have name := isNameChar_of_isWord path.first.word (letters ▸ List.mem_cons_self)
    have head : path.text.toList.head? = some char := by
      simp [NamespacePath.text, letters]
    exact ne_separator name (Option.some.inj (head.symm.trans first))
  · intro last
    obtain ⟨front, segment, split⟩ := exists_last_segment path
    obtain ⟨char, rest, letters⟩ := exists_cons_of_isWord segment.word
    rw [split, Text.getLast?_append_right (by simp [letters])] at last
    exact ne_separator (isNameChar_of_isWord segment.word (List.mem_of_getLast? last)) rfl

/-- Names without blanks at their ends are joined as they are. -/
theorem joined_eq_qualified {namespaceName : String} {className : Identifier}
    (outer : Namespace.trim namespaceName = namespaceName)
    (firm : Firm Text.isBlank className.text.toList) :
    joined namespaceName className.text = qualified namespaceName className.text := by
  have inner := trim_word className.word firm
  have someName : className.text ≠ "" := by
    obtain ⟨char, rest, letters⟩ := exists_cons_of_isWord className.word
    intro empty
    simp [empty] at letters
  have parts : joined namespaceName className.text = String.intercalate "\\"
      ([namespaceName, className.text].filter (· != "")) := by
    rw [joined, Namespace.join, List.map_cons, List.map_singleton, outer, inner]
  rw [parts, qualified]
  by_cases nowhere : namespaceName = ""
  · simp [someName, nowhere]
  · simp [someName, nowhere]

/-- The name of a block of a file is that of a namespace or empty. -/
theorem trim_block {file : SourceFile} {block : String × List Definition}
    (member : block ∈ file.blocks) (firm : Firm Text.isBlank block.1.toList) :
    Namespace.trim block.1 = block.1 := by
  have global : Namespace.trim "" = "" := rfl
  cases file with
  | statements blocks =>
      obtain ⟨written, -, rfl⟩ := List.mem_map.1 member
      exact trim_path firm
  | braced blocks =>
      obtain ⟨⟨name, definitions⟩, -, rfl⟩ := List.mem_map.1 member
      cases name with
      | none => exact global
      | some path => exact trim_path firm
  | global definitions =>
      obtain rfl := List.mem_singleton.1 member
      exact global

/-- Reading a file gives back exactly its classes in source order, with their docblocks and
methods. Where no name has a blank at an end, the full name of a class is that of the
namespace, a separator and that of the class. -/
theorem declaredClasses_render {parser : Parser} {file : SourceFile} {tree : Node}
    (parsed : parser file.render = some tree) (shownBy : file.IsShownBy tree) :
    declaredClasses parser file.render = some (file.classes joined) ∧
      (file.HasFirmNames →
        declaredClasses parser file.render = some (file.classes qualified)) := by
  have read := declaredClasses_render_joined parsed shownBy
  refine ⟨read, fun firm => read.trans (congrArg some ?_)⟩
  rw [SourceFile.classes, SourceFile.classes]
  refine List.flatMap_congr fun block inFile => List.filterMap_congr fun definition inBlock => ?_
  obtain ⟨outer, inner⟩ := firm block inFile
  cases definition with
  | named declared =>
      rw [Definition.class?, Definition.class?,
        joined_eq_qualified (trim_block inFile outer) (inner declared inBlock)]
  | other => rfl

/-- A file with an interface and a class in a namespace. A body of the class holds text that
looks like a class, and a class without a name; a comment stands between one docblock and
its method. -/
def library : SourceFile :=
  let get : Comment := .docblock " @Get ".toList (by decide +kernel)
  let draft : Comment :=
    .remark "class Draft \x7b \x7d".toList (by decide +kernel) (by decide +kernel)
      (by decide +kernel)
  let index : MethodHead := ⟨[get], ["public"], by decide, ⟨"index", by decide, by decide⟩⟩
  let store : MethodHead := ⟨[get, draft], [], by decide, ⟨"store", by decide, by decide⟩⟩
  let shelf : Identifier := ⟨"Shelf", by decide, by decide⟩
  let page : Identifier := ⟨"Page", by decide, by decide⟩
  let body : List Statement :=
    [.string "class Fake \x7b 'function", .object (some shelf) [.declared store]]
  .statements [(⟨⟨"App", by decide, by decide⟩, [⟨"Http", by decide, by decide⟩]⟩,
    [.other .interface [] shelf [.declared index],
      .named ⟨[get], ["final"], by decide, page, none, [.defined index body, .declared store]⟩])]

/-- Only the class of the file and its two methods are found. -/
theorem declaredClasses_render_library :
    library.HasFirmNames ∧ (∃ tree, Program.SourceCode.parse library.render = some tree ∧
      library.IsShownBy tree) ∧
      declaredClasses Program.SourceCode.parse library.render =
        some [⟨"App\\Http\\Page", some "/** @Get */",
          [⟨"index", some "/** @Get */"⟩, ⟨"store", none⟩], none⟩] := by
  have firm : library.HasFirmNames := by
    intro block member
    obtain rfl := List.mem_singleton.1 member
    refine ⟨by decide +kernel, fun declared inside => ?_⟩
    obtain absurd | same := List.mem_cons.1 inside
    · cases absurd
    · obtain rfl := Definition.named.inj (List.mem_singleton.1 same)
      decide +kernel
  have checked : (Program.SourceCode.parse library.render).any library.checks = true := by
    decide +kernel
  obtain ⟨tree, parsed, shows⟩ := (Option.any_eq_true ..).1 checked
  have shownBy := library.isShownBy_of_checks shows
  refine ⟨firm, ⟨tree, parsed, shownBy⟩,
    ((declaredClasses_render parsed shownBy).2 firm).trans ?_⟩
  decide +kernel

/-- A file with a class whose name ends with a blank that is a character of names. -/
def wideNamed : SourceFile :=
  .global [.named ⟨[], [], by decide, ⟨"Page\u3000", by decide, by decide⟩, none, []⟩]

/-- The blank at the end of the name is lost. -/
theorem declaredClasses_wideNamed :
    wideNamed.render = "<?php\nclass Page\u3000 \x7b\n\x7d" ∧
      (∃ tree, Program.SourceCode.parse wideNamed.render = some tree ∧
        wideNamed.IsShownBy tree) ∧
      declaredClasses Program.SourceCode.parse wideNamed.render = some [⟨"Page", none, [], none⟩] ∧
      declaredClasses Program.SourceCode.parse wideNamed.render ≠
        some (wideNamed.classes qualified) := by
  have checked : (Program.SourceCode.parse wideNamed.render).any wideNamed.checks = true := by
    decide +kernel
  obtain ⟨tree, parsed, shows⟩ := (Option.any_eq_true ..).1 checked
  have shownBy := wideNamed.isShownBy_of_checks shows
  rw [declaredClasses_render_joined parsed shownBy]
  exact ⟨by decide +kernel, ⟨tree, parsed, shownBy⟩, by decide +kernel, by decide +kernel⟩

end DocblockScan.SourceCode

import DocblockScan.ClassSource
import DocblockScan.Proofs.Discovery
import DocblockScan.Proofs.Text.Letter

/-!
# Class lookups among generated files

A dotted name is declared by no file, and any other name is looked for in no generated
file. A file system that grows by generated files therefore declares the same classes
as before: `ClassSource.resolve_iff`.
-/

namespace DocblockScan

open FileSystem Namespace

/-! ## Names up to case -/

/-- If one of two names that are the same up to case has a dot in the last segment, the
other one has. -/
theorem ClassSource.dot_mem_of_sameName {left right : String}
    (same : sameName left right = true) (dot : '.' ∈ (lastSegment right).toList) :
    '.' ∈ (lastSegment left).toList := by
  have isSeparator : ∀ char : Char, char.toLower = separator ↔ char = separator :=
    fun char => Text.toLower_eq_iff (by decide)
  have parts : (Text.afterLast separator left.toList).map Char.toLower =
      (Text.afterLast separator right.toList).map Char.toLower := by
    rw [← Text.afterLast_map isSeparator, ← Text.afterLast_map isSeparator,
      beq_iff_eq.1 same]
  rw [lastSegment, String.toList_ofList] at dot ⊢
  have lowered : '.' ∈ (Text.afterLast separator left.toList).map Char.toLower := by
    rw [parts]
    exact List.mem_map.2 ⟨'.', dot, by decide⟩
  obtain ⟨char, member, lower⟩ := List.mem_map.1 lowered
  rw [Text.toLower_eq_iff (by decide)] at lower
  rwa [← lower]

/-! ## Lookups -/

variable {parser : SourceCode.Parser}

/-- Every class that a text declares has no dot in the last segment of its name. -/
def DeclaresPlainly (parser : SourceCode.Parser) (text : String) : Prop :=
  ∀ classes, SourceCode.declaredClasses parser text = some classes →
    ∀ declaration ∈ classes, '.' ∉ (lastSegment declaration.name).toList

/-- Every class that a file of the file system declares has no dot in the last segment of
its name. -/
def NamesPlainly (parser : SourceCode.Parser) (files : FileSystem) : Prop :=
  ∀ location contents text, files.entry? location = some (.file contents) →
    String.fromUTF8? contents = some text → DeclaresPlainly parser text

/-- Whether the classes of a file have no dot in the last segment of their names. -/
def namesPlainly (parser : SourceCode.Parser) : FileEntry → Bool
  | .file contents =>
      match String.fromUTF8? contents with
      | some text => (SourceCode.declaredClasses parser text).all (List.all · fun declaration =>
          !(lastSegment declaration.name).toList.contains '.')
      | none => true
  | _ => true

/-- The classes of all files have plain names if those of all listed files have. -/
theorem namesPlainly_of_entries {files : FileSystem}
    (plain : ∀ entry ∈ files.entries.entries, namesPlainly parser entry.2 = true) :
    NamesPlainly parser files := by
  intro location contents text isFile decoded classes declared declaration member
  by_cases root : location = []
  · simp [root] at isFile
  · rw [entry?_of_ne_nil files root, OrderedMap.get?_eq_some_iff] at isFile
    have all := plain _ isFile
    simp only [namesPlainly, decoded, declared, Option.all_some, List.all_eq_true] at all
    simpa using all declaration member

namespace ClassSource

variable {old new : FileSystem} {directory rootNamespace : String}

/-- A class is found in its file if that declares it. -/
theorem lookUp_eq_ok_iff (files : FileSystem) (name : String) (declaration : ClassDeclaration) :
    lookUp parser files directory rootNamespace name = .ok declaration ↔
      ∃ text, files.readText (fileOf directory rootNamespace name) = .ok text ∧
        ∃ classes, SourceCode.declaredClasses parser text = some classes ∧
          ∃ found, classes.find? (sameName ·.name name) = some found ∧
            { found with origin := some (fileOf directory rootNamespace name) } =
              declaration := by
  unfold lookUp
  dsimp only
  cases files.readText (fileOf directory rootNamespace name) with
  | error failure => simp
  | ok text =>
      simp only [Except.ok.injEq, exists_eq_left', declarationIn]
      cases SourceCode.declaredClasses parser text with
      | none => simp
      | some classes =>
          simp only [Option.some.injEq, exists_eq_left']
          cases classes.find? (sameName ·.name name) with
          | none => simp
          | some found => simp

/-- A lookup in source files fails for the reason why the trimmed name is not declared. -/
theorem resolve_sourceFiles (files : FileSystem) (identifier : String) :
    (sourceFiles parser directory rootNamespace).resolve files identifier =
      (lookUp parser files directory rootNamespace (trim identifier)).mapError
        (.unresolvedClass (trim identifier)) := by
  simp only [sourceFiles]

/-- An identifier is resolved as its trimmed name is declared in its file. -/
theorem resolve_eq_ok_iff (files : FileSystem) (identifier : String)
    (declaration : ClassDeclaration) :
    (sourceFiles parser directory rootNamespace).resolve files identifier = .ok declaration ↔
      lookUp parser files directory rootNamespace (trim identifier) = .ok declaration := by
  rw [resolve_sourceFiles]
  exact Outcome.mapError_eq_ok_iff _ _ _

/-- No file declares a dotted name. -/
theorem resolve_ne_ok_of_isDotted {files : FileSystem} (plain : NamesPlainly parser files)
    {identifier : String} (dotted : isDotted identifier = true) (declaration : ClassDeclaration) :
    (sourceFiles parser directory rootNamespace).resolve files identifier ≠ .ok declaration := by
  rw [ne_eq, resolve_eq_ok_iff, lookUp_eq_ok_iff]
  rintro ⟨text, reads, classes, declared, found, finds, -⟩
  obtain ⟨location, contents, -, isFile, decoded⟩ := (readText_eq_ok_iff files _ _).1 reads
  refine plain location contents text isFile decoded classes declared found
    (List.mem_of_find?_eq_some finds) ?_
  have same : sameName found.name (trim identifier) = true := by
    simpa using List.find?_some finds
  exact dot_mem_of_sameName same (by simpa [isDotted] using dotted)

/-- The file of a name that is not dotted is no generated file. -/
theorem exists_endsWith_fileOf (directory rootNamespace : String) {name : String}
    (plain : isDotted name = false) :
    ∃ piece, EndsWith (fileOf directory rootNamespace name) piece ∧ piece ∉ generatedNames := by
  obtain ⟨before, stem, pieces, dotted⟩ :=
    exists_pieces_file directory name rootNamespace
      (show '/' ∉ Registry.sourceExtension.toList by decide)
  refine ⟨_, ⟨?_, before, pieces⟩, fun member => ?_⟩
  · have long : 4 ≤ (stem ++ "." ++ Registry.sourceExtension).length := by
      have tail : ("." ++ Registry.sourceExtension).length = 4 := by decide
      rw [String.append_assoc, String.length_append, tail]
      omega
    have other : ∀ short : String, short.length < 4 →
        stem ++ "." ++ Registry.sourceExtension ≠ short := by
      rintro short bound rfl
      omega
    refine ⟨?_, other ".." (by decide)⟩
    rw [Path.isIdle, Bool.or_eq_false_iff]
    exact ⟨beq_false_of_ne (other "" (by decide)), beq_false_of_ne (other "." (by decide))⟩
  · obtain ⟨kind, named⟩ := exists_kind_of_mem member
    rw [dotted (dot_mem_of_fileName named)] at plain
    simp at plain

/-- A class is declared afterwards exactly if it was declared before. -/
theorem resolve_iff (grows : Grows generatedNames old new) (closed : Closed old)
    (plain : NamesPlainly parser old ∧ NamesPlainly parser new) {identifier : String}
    (clear : KeepsClear old new (fileOf directory rootNamespace (trim identifier)))
    (declaration : ClassDeclaration) :
    (sourceFiles parser directory rootNamespace).resolve new identifier = .ok declaration ↔
      (sourceFiles parser directory rootNamespace).resolve old identifier = .ok declaration := by
  cases dotted : isDotted identifier with
  | true =>
      exact iff_of_false (resolve_ne_ok_of_isDotted plain.2 dotted declaration)
        (resolve_ne_ok_of_isDotted plain.1 dotted declaration)
  | false =>
      obtain ⟨piece, ends, free⟩ := exists_endsWith_fileOf directory rootNamespace
        ((isDotted_trim identifier).trans dotted)
      rw [resolve_eq_ok_iff, resolve_eq_ok_iff, lookUp_eq_ok_iff, lookUp_eq_ok_iff]
      simp only [grows.readText_iff closed ends free clear]

end ClassSource

/-! ## Lists of lookups -/

namespace ResolvedClasses

/-- What is found of some identifiers with any lookup. -/
def collect (lookup : String → Except ScanError ClassDeclaration) (identifiers : List String) :
    ResolvedClasses :=
  identifiers.foldr (fun identifier => including identifier (lookup identifier)) {}

theorem of_eq_collect (source : ClassSource) (files : FileSystem) :
    of source files = collect (source.resolve files) := rfl

section Collecting

variable {lookup : String → Except ScanError ClassDeclaration}

theorem collect_cons_ok {identifier : String} {declaration : ClassDeclaration}
    (found : lookup identifier = .ok declaration) (others : List String) :
    collect lookup (identifier :: others) =
      { collect lookup others with classes := declaration :: (collect lookup others).classes } := by
  rw [collect, List.foldr_cons, found]
  rfl

theorem collect_cons_error {identifier : String} {cause : ScanError}
    (unresolved : lookup identifier = .error cause) (others : List String) :
    collect lookup (identifier :: others) =
      { collect lookup others with
        skipped := (identifier, cause) :: (collect lookup others).skipped } := by
  rw [collect, List.foldr_cons, unresolved]
  rfl

/-- The classes of a list of identifiers are those of the identifiers that have one. -/
theorem classes_collect (identifiers : List String) :
    (collect lookup identifiers).classes =
      identifiers.filterMap fun identifier => (lookup identifier).toOption := by
  induction identifiers with
  | nil => rfl
  | cons identifier others inductionHypothesis =>
      rw [List.filterMap_cons, ← inductionHypothesis]
      cases found : lookup identifier with
      | ok declaration => rw [collect_cons_ok found]; rfl
      | error cause => rw [collect_cons_error found]; rfl

end Collecting

/-- The classes that a source finds are those of the identifiers that have one. -/
theorem classes_of (source : ClassSource) (files : FileSystem) (identifiers : List String) :
    (of source files identifiers).classes =
      identifiers.filterMap fun identifier => (source.resolve files identifier).toOption :=
  classes_collect identifiers

end ResolvedClasses

variable {old new : FileSystem} {directory rootNamespace : String}

/-- Dotted identifiers contribute no classes. -/
theorem ResolvedClasses.classes_of_filter {files : FileSystem} (plain : NamesPlainly parser files)
    (identifiers : List String) :
    (of (.sourceFiles parser directory rootNamespace) files identifiers).classes =
      (of (.sourceFiles parser directory rootNamespace) files
        (identifiers.filter (!isDotted ·))).classes := by
  rw [classes_of, classes_of, List.filterMap_filter]
  refine List.filterMap_congr fun identifier _ => ?_
  cases dotted : isDotted identifier with
  | false => simp
  | true =>
      rw [Bool.not_true, if_neg Bool.false_ne_true, Option.eq_none_iff_forall_ne_some]
      intro declaration resolved
      rw [Outcome.toOption_eq_some_iff] at resolved
      exact ClassSource.resolve_ne_ok_of_isDotted plain dotted declaration resolved

/-- Identifiers that are the same but for dotted ones have the same classes afterwards. -/
theorem ResolvedClasses.classes_eq (grows : Grows generatedNames old new) (closed : Closed old)
    (plain : NamesPlainly parser old ∧ NamesPlainly parser new) {identifiers others : List String}
    (same : SameUndotted others identifiers)
    (clear : ∀ identifier ∈ identifiers,
      KeepsClear old new (ClassSource.fileOf directory rootNamespace (trim identifier))) :
    (of (.sourceFiles parser directory rootNamespace) new others).classes =
      (of (.sourceFiles parser directory rootNamespace) old identifiers).classes := by
  rw [classes_of_filter plain.2, classes_of_filter plain.1, same, classes_of, classes_of]
  refine List.filterMap_congr fun identifier member => Option.ext fun declaration => ?_
  rw [Outcome.toOption_eq_some_iff, Outcome.toOption_eq_some_iff]
  exact ClassSource.resolve_iff grows closed plain
    (clear identifier (List.mem_of_mem_filter member)) declaration

end DocblockScan

import DocblockScan.Proofs.FileSystem.Writing
import DocblockScan.Proofs.Session.Definitions

/-!
# Generating files again

A scan that succeeds makes the directory of the generated files and puts a text into
one of them: `scan_eq_ok_iff`. From then on the file system is ready: it differs from
the one with that directory by generated files only, and a further scan puts the same
text into the same place: `Setting.scan_ready`.
-/

namespace DocblockScan

open FileSystem Namespace

/-! ## The places of generated files -/

theorem DefinitionKind.isFileName (kind : DefinitionKind) : Path.IsFileName kind.fileName := by
  cases kind <;> exact ⟨by decide, by decide⟩

/-- The directory of the generated files. -/
def Storage.outer (storage : Storage) : String :=
  (Path.parent? (storage.path .routes)).getD ""

/-- The path of a generated file ends with its name, after a slash. -/
theorem Storage.path_eq (storage : Storage) (kind : DefinitionKind) :
    storage.path kind = Path.join storage.directory "framework" ++ "/" ++ kind.fileName := by
  obtain ⟨front, spelled⟩ := Path.exists_join_eq storage.directory "framework"
  unfold Storage.path
  rw [spelled, Path.join]
  simp [kind.isFileName.isRelative, List.getLast?_append]

/-- What stands before that slash is the parent of the path. -/
theorem Storage.parent?_eq (storage : Storage) (kind : DefinitionKind) :
    Path.parent? (storage.path kind) = some (Path.join storage.directory "framework") := by
  have framework : Path.IsFileName "framework" := ⟨by decide, by decide⟩
  obtain ⟨before, pieces⟩ := Path.pieces_join storage.directory "framework"
  rw [framework.pieces] at pieces
  rw [storage.path_eq, Path.parent?_slash kind.isFileName pieces framework.2]

theorem Storage.outer_eq (storage : Storage) :
    storage.outer = Path.join storage.directory "framework" := by
  rw [Storage.outer, storage.parent?_eq, Option.getD_some]

/-- All generated files have the same directory. -/
theorem Storage.parent?_path (storage : Storage) (kind : DefinitionKind) :
    (Path.parent? (storage.path kind)).getD "" = storage.outer := by
  rw [storage.parent?_eq, Option.getD_some, storage.outer_eq]

/-- The path of a generated file ends with its name. -/
theorem Storage.endsWith_path (storage : Storage) (kind : DefinitionKind) :
    EndsWith (storage.path kind) kind.fileName := by
  obtain ⟨before, joined⟩ := Path.pieces_join (Path.join storage.directory "framework") kind.fileName
  rw [kind.isFileName.pieces] at joined
  exact ⟨⟨kind.isFileName.2, by cases kind <;> decide⟩, before, joined⟩

namespace Session

/-! ## What a successful scan does -/

/-- Definitions are written where their path leads once its directory is made. -/
theorem write_eq_ok_iff (files : FileSystem) (path definitions : String) (after : FileSystem) :
    write files path definitions = (after, .ok ()) ↔
      ∃ grown location, files.makeDirectories ((Path.parent? path).getD "") = (grown, .ok ()) ∧
        grown.locate path = .ok location ∧ grown.entry? location ≠ some .directory ∧
        after = grown.put location (.file (Registration.file definitions).toUTF8) := by
  unfold write
  dsimp only
  cases made : files.makeDirectories ((Path.parent? path).getD "") with
  | mk grown result =>
      cases result with
      | error failure => simp
      | ok _ =>
          simp only [Prod.mk.injEq, and_true, exists_and_left, exists_eq_left']
          rw [← writeText_eq_ok_iff]
          cases grown.writeText path (Registration.file definitions) <;> simp

/-- A scan writes the definitions it finds. -/
theorem scan_eq_ok_iff (session : Session) (files : FileSystem) (kind : DefinitionKind)
    (after : FileSystem) :
    session.scan files kind = (after, .ok ()) ↔
      ∃ definitions, session.definitions files kind = .ok definitions ∧
        write files (session.storage.path kind) definitions = (after, .ok ()) := by
  unfold scan
  cases session.definitions files kind with
  | error cause => simp
  | ok definitions => simp

/-! ## The state between scans -/

variable {parser : SourceCode.Parser} {config : Config} {directory rootNamespace : String}
variable {files grown now : FileSystem} {definitions : DefinitionKind → String}

/-- What is in a generated file. -/
def generatedBytes (definitions : DefinitionKind → String) (kind : DefinitionKind) : ByteArray :=
  (Registration.file (definitions kind)).toUTF8

/-- A file system in which both scans succeed, the one with the directory of the generated
files made, and the definitions that are found. -/
structure Setting (parser : SourceCode.Parser) (config : Config)
    (directory rootNamespace : String) (files grown : FileSystem)
    (definitions : DefinitionKind → String) : Prop where
  linkFree : LinkFree files
  closed : Closed files
  makes : files.makeDirectories (Storage.outer ⟨config.storagePath⟩) = (grown, .ok ())
  places : ∀ kind, ∃ location, grown.locate (Storage.path ⟨config.storagePath⟩ kind) = .ok location ∧
    grown.entry? location ≠ some .directory
  finds : ∀ kind,
    (Session.of config (.sourceFiles parser directory rootNamespace)).definitions files kind =
      .ok (definitions kind)
  plainFiles : NamesPlainly parser files
  plainTexts : ∀ kind text, String.fromUTF8? (generatedBytes definitions kind) = some text →
    DeclaresPlainly parser text
  clear : KeepsClear parser config directory rootNamespace files grown

/-- A file system that differs by generated files from the one with their directory. -/
structure Ready (grown now : FileSystem) (definitions : DefinitionKind → String) : Prop where
  grows : Grows generatedNames grown now
  settled : Settled grown now
  contents : ∀ location contents, now.entry? location = some (.file contents) →
    grown.entry? location = some (.file contents) ∨
      ∃ kind, contents = generatedBytes definitions kind

/-- Whether a generated file is there and up to date. -/
def Holds (config : Config) (now : FileSystem) (definitions : DefinitionKind → String)
    (kind : DefinitionKind) : Prop :=
  now.find (Storage.path ⟨config.storagePath⟩ kind) = .ok (.file (generatedBytes definitions kind))

theorem Ready.refl (linkFree : LinkFree grown) : Ready grown grown definitions :=
  ⟨.refl linkFree, fun _ isDirectory => isDirectory, fun _ _ isFile => .inl isFile⟩

/-- A generated file may be put where its path leads. -/
theorem Ready.put (ready : Ready grown now definitions) {outer : Location} {kind : DefinitionKind}
    (noDirectory : grown.entry? (outer ++ [kind.fileName]) ≠ some .directory) :
    Ready grown (now.put (outer ++ [kind.fileName]) (.file (generatedBytes definitions kind)))
      definitions where
  grows := ready.grows.trans (grows_put_file ready.grows.linkFree.2 kind.fileName_mem
    (mt (ready.settled _) noDirectory) _)
  settled location isDirectory := by
    rw [entry?_put] at isDirectory
    split at isDirectory
    · next root => rw [root, entry?_nil]
    split at isDirectory
    · simp at isDirectory
    · exact ready.settled location isDirectory
  contents location contents isFile := by
    rw [entry?_put] at isFile
    split at isFile
    · simp at isFile
    split at isFile
    · exact .inr ⟨kind, (FileEntry.file.inj (Option.some.inj isFile)).symm⟩
    · exact ready.contents location contents isFile

/-- A generated file that was put is there, and the other one is as it was. -/
theorem Holds.put (linkFree : LinkFree now) {outer : Location} {kind other : DefinitionKind}
    (noDirectory : now.entry? (outer ++ [kind.fileName]) ≠ some .directory)
    (leads : now.locate (Storage.path ⟨config.storagePath⟩ kind) = .ok (outer ++ [kind.fileName]))
    (held : other = kind ∨ Holds config now definitions other) :
    Holds config (now.put (outer ++ [kind.fileName]) (.file (generatedBytes definitions kind)))
      definitions other := by
  have grows := grows_put_file linkFree kind.fileName_mem noDirectory
    (generatedBytes definitions kind)
  by_cases same : other = kind
  · rw [same]
    exact (find_eq_ok_iff _ _ _).2 ⟨_, grows.locate leads, by rw [entry?_put]; simp⟩
  · obtain ⟨location, leadsOther, isFile⟩ :=
      (find_eq_ok_iff _ _ _).1 (held.resolve_left same)
    obtain ⟨outerOther, rfl⟩ :=
      (Storage.endsWith_path ⟨config.storagePath⟩ other).exists_outer linkFree leadsOther
    have apart : outerOther ++ [other.fileName] ≠ outer ++ [kind.fileName] := by
      intro equal
      have names := (List.append_inj' equal rfl).2
      revert names same
      cases kind <;> cases other <;> decide
    refine (find_eq_ok_iff _ _ _).2 ⟨_, grows.locate leadsOther, ?_⟩
    rw [entry?_put, if_neg (by simp), if_neg apart, isFile]

namespace Setting

variable (setting : Setting parser config directory rootNamespace files grown definitions)
include setting

theorem grows (reserved : List String) : Grows reserved files grown :=
  grows_of_makeDirectories setting.linkFree setting.makes

/-- While the file system is ready no class has a dotted name. -/
theorem plain (ready : Ready grown now definitions) : NamesPlainly parser now := by
  intro location contents text isFile decoded
  rcases ready.contents location contents isFile with old | ⟨kind, rfl⟩
  · refine setting.plainFiles location contents text ?_ decoded
    rcases List.eq_nil_or_concat location with rfl | ⟨outer, name, rfl⟩
    · simp at old
    · rw [List.concat_eq_append] at old ⊢
      exact ((setting.grows []).file_iff (by simp) contents).1 old
  · exact setting.plainTexts kind text decoded

/-- While the file system is ready the same definitions are found. -/
theorem finds_again (ready : Ready grown now definitions) (kind : DefinitionKind) :
    (Session.of config (.sourceFiles parser directory rootNamespace)).definitions now kind =
      .ok (definitions kind) := by
  refine definitions_eq ((setting.grows generatedNames).trans ready.grows) setting.closed
    ⟨setting.plainFiles, setting.plain ready⟩ ?_ (setting.finds kind)
  intro kind identifiers lists identifier member
  exact (setting.clear kind identifiers lists identifier member).later ready.grows ready.settled

/-- Once the directory is made, a scan that finds the definitions puts their text into
the generated file. -/
theorem scan_of_makes (ready : Ready grown now definitions) {start : FileSystem}
    {kind : DefinitionKind}
    (finds :
      (Session.of config (.sourceFiles parser directory rootNamespace)).definitions start kind =
        .ok (definitions kind))
    (makes : start.makeDirectories (Storage.outer ⟨config.storagePath⟩) = (now, .ok ())) :
    ∃ after,
      (Session.of config (.sourceFiles parser directory rootNamespace)).scan start kind =
          (after, .ok ()) ∧
        Ready grown after definitions ∧
        ∀ other, other = kind ∨ Holds config now definitions other →
          Holds config after definitions other := by
  obtain ⟨location, leads, noDirectory⟩ := setting.places kind
  obtain ⟨outer, rfl⟩ := (Storage.endsWith_path ⟨config.storagePath⟩ kind).exists_outer
    ready.grows.linkFree.1 leads
  refine ⟨now.put (outer ++ [kind.fileName]) (.file (generatedBytes definitions kind)), ?_,
    ready.put noDirectory, fun other held => .put ready.grows.linkFree.2
      (mt (ready.settled _) noDirectory) (ready.grows.locate leads) held⟩
  refine (scan_eq_ok_iff _ _ _ _).2 ⟨definitions kind, finds, (write_eq_ok_iff _ _ _ _).2 ?_⟩
  rw [Storage.parent?_path]
  exact ⟨now, _, makes, ready.grows.locate leads, mt (ready.settled _) noDirectory, rfl⟩

/-- The first scan makes the file system ready. -/
theorem scan_first (kind : DefinitionKind) :
    ∃ after,
      (Session.of config (.sourceFiles parser directory rootNamespace)).scan files kind =
          (after, .ok ()) ∧
        Ready grown after definitions ∧ Holds config after definitions kind := by
  obtain ⟨after, scans, ready, holds⟩ :=
    setting.scan_of_makes (.refl (setting.grows []).linkFree.2) (setting.finds kind) setting.makes
  exact ⟨after, scans, ready, holds kind (.inl rfl)⟩

/-- A further scan succeeds and keeps the file system ready. -/
theorem scan_ready (ready : Ready grown now definitions) (kind : DefinitionKind) :
    ∃ after,
      (Session.of config (.sourceFiles parser directory rootNamespace)).scan now kind =
          (after, .ok ()) ∧
        Ready grown after definitions ∧
        ∀ other, other = kind ∨ Holds config now definitions other →
          Holds config after definitions other :=
  setting.scan_of_makes ready (setting.finds_again ready kind)
    (makeDirectories_again setting.linkFree setting.makes ready.grows)

end Setting

/-! ## From successful scans -/

/-- What a successful scan of a file system without links says about it. -/
theorem exists_of_scan (linkFree : LinkFree files) {kind : DefinitionKind}
    (succeeds :
      ((Session.of config (.sourceFiles parser directory rootNamespace)).scan files kind).2 =
        .ok ()) :
    ∃ grown text outer,
      (Session.of config (.sourceFiles parser directory rootNamespace)).definitions files kind =
        .ok text ∧
      files.makeDirectories (Storage.outer ⟨config.storagePath⟩) = (grown, .ok ()) ∧
      grown.locate (Storage.path ⟨config.storagePath⟩ kind) = .ok (outer ++ [kind.fileName]) ∧
      grown.entry? (outer ++ [kind.fileName]) ≠ some .directory ∧
      ((Session.of config (.sourceFiles parser directory rootNamespace)).scan files kind).1 =
        grown.put (outer ++ [kind.fileName]) (.file (Registration.file text).toUTF8) := by
  obtain ⟨text, finds, writes⟩ := (scan_eq_ok_iff _ _ _ _).1 (Prod.ext rfl succeeds)
  obtain ⟨grown, location, makes, leads, noDirectory, result⟩ := (write_eq_ok_iff _ _ _ _).1 writes
  rw [Storage.parent?_path] at makes
  have made : Grows [] files grown := grows_of_makeDirectories linkFree makes
  obtain ⟨outer, rfl⟩ := (Storage.endsWith_path ⟨config.storagePath⟩ kind).exists_outer
    made.linkFree.2 leads
  exact ⟨grown, text, outer, finds, makes, leads, noDirectory, result⟩

/-- If both scans succeed and paths keep clear of new directories, everything is there for
further scans. -/
theorem exists_setting (linkFree : LinkFree files) (closed : Closed files)
    (succeeds : ∀ kind,
      ((Session.of config (.sourceFiles parser directory rootNamespace)).scan files kind).2 =
        .ok ())
    (plainFiles : NamesPlainly parser files)
    (plainTexts : ∀ kind,
      NamesPlainly parser
        ((Session.of config (.sourceFiles parser directory rootNamespace)).scan files kind).1)
    (clear : KeepsClear parser config directory rootNamespace files
      ((Session.of config (.sourceFiles parser directory rootNamespace)).scan files .routes).1) :
    ∃ grown definitions, Setting parser config directory rootNamespace files grown definitions := by
  choose growns definitions outers finds makes leads noDirectory results using
    fun kind => exists_of_scan linkFree (succeeds kind)
  have sameGrown : ∀ kind, growns kind = growns .routes := fun kind =>
    (Prod.mk.inj ((makes kind).symm.trans (makes .routes))).1
  have made : Grows generatedNames files (growns .routes) :=
    grows_of_makeDirectories linkFree (makes .routes)
  refine ⟨growns .routes, definitions, linkFree, closed, makes .routes, fun kind => ?_, finds,
    plainFiles, fun kind text decoded => ?_, fun kind identifiers lists identifier member => ?_⟩
  · rw [← sameGrown kind]
    exact ⟨_, leads kind, noDirectory kind⟩
  · refine plainTexts kind (outers kind ++ [kind.fileName]) _ text ?_ decoded
    rw [results, entry?_put]
    simp [generatedBytes]
  · have written := clear kind identifiers lists identifier member
    rw [results] at written
    exact written.earlier (grows_put_file made.linkFree.2 DefinitionKind.routes.fileName_mem
      (noDirectory .routes) _)

end Session

end DocblockScan

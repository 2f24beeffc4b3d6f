import DocblockScan.Proofs.FileSystem.Places
import DocblockScan.Proofs.Session.Writing

/-!
# Scans write all or nothing

A scan looks for classes, collects the tags it knows, reads the tags of every class and
resolves them; then it writes. `Fails` says all that can go wrong before the writing, and
`Resolves` what the records of all classes are. A scan that fails before it writes leaves
the file system as it was; otherwise all that is different afterwards is that missing
directories of its file are made and that the file holds all records, unless it could not
be written: `scan_all_or_nothing`.
-/

namespace DocblockScan

open FileSystem

/-! ## Records of both kinds -/

namespace DefinitionKind

/-- What is resolved of a class for a generated file. -/
def Record : DefinitionKind → Type
  | .events => Listener
  | .routes => Endpoint

/-- The records of a class with its tags. -/
def records : (kind : DefinitionKind) → String → TagSet → Except ScanError (List kind.Record)
  | .events => classListeners
  | .routes => classEndpoints

/-- The statements that register some records. -/
def statements : (kind : DefinitionKind) → List kind.Record → String
  | .events => Registration.eventDefinitions
  | .routes => Registration.routeDefinitions

end DefinitionKind

namespace Session

/-- The tags that a scan knows. -/
def registry (session : Session) (files : FileSystem) : DefinitionKind → Except ScanError Registry
  | .events => session.config.eventRegistry files
  | .routes => session.config.routeRegistry files

/-- The records of one declaration. -/
def declared (kind : DefinitionKind) (registry : Registry) (declaration : ClassDeclaration) :
    Except ScanError (List kind.Record) := do
  kind.records declaration.name (← TagSet.read registry declaration)

variable {session : Session} {files : FileSystem} {kind : DefinitionKind} {cause : ScanError}

/-- The definitions of a scan are the statements of the records of all classes. -/
theorem definitions_eq_records (session : Session) (files : FileSystem) (kind : DefinitionKind) :
    session.definitions files kind = (do
      let found ← session.discover files kind
      let registry ← session.registry files kind
      let records ← found.classes.mapM (declared kind registry)
      return kind.statements records.flatten) := by
  cases kind with
  | events =>
      simp only [definitions, listeners, registry, bind_assoc, listenersOf]
      rfl
  | routes =>
      simp only [definitions, endpoints, registry, bind_assoc, endpointsOf]
      rfl

/-! ## What goes wrong before the writing -/

/-- Why there are no records of a declaration: its tags cannot be read, or they cannot be
resolved. -/
inductive ClassFails (kind : DefinitionKind) (registry : Registry)
    (declaration : ClassDeclaration) : ScanError → Prop where
  | reading {cause : ScanError} (unread : TagSet.read registry declaration = .error cause) :
      ClassFails kind registry declaration cause
  | resolution {cause : ScanError} {tags : TagSet}
      (read : TagSet.read registry declaration = .ok tags)
      (unresolved : kind.records declaration.name tags = .error cause) :
      ClassFails kind registry declaration cause

/-- Anything that goes wrong before the writing: discovery, the registry, or any of the
classes that are found. -/
inductive Fails (session : Session) (files : FileSystem) (kind : DefinitionKind) :
    ScanError → Prop where
  | discovery {cause : ScanError} (undiscovered : session.discover files kind = .error cause) :
      Fails session files kind cause
  | registry {cause : ScanError} (unregistered : session.registry files kind = .error cause) :
      Fails session files kind cause
  | class {cause : ScanError} {found : ResolvedClasses} {registry : Registry}
      {declaration : ClassDeclaration} (discovers : session.discover files kind = .ok found)
      (registers : session.registry files kind = .ok registry)
      (member : declaration ∈ found.classes)
      (fails : ClassFails kind registry declaration cause) : Fails session files kind cause

/-- The first thing that goes wrong: everything before it goes well. -/
inductive FailsFirst (session : Session) (files : FileSystem) (kind : DefinitionKind) :
    ScanError → Prop where
  | discovery {cause : ScanError} (undiscovered : session.discover files kind = .error cause) :
      FailsFirst session files kind cause
  | registry {cause : ScanError} {found : ResolvedClasses}
      (discovers : session.discover files kind = .ok found)
      (unregistered : session.registry files kind = .error cause) :
      FailsFirst session files kind cause
  | class {cause : ScanError} {found : ResolvedClasses} {registry : Registry}
      {before after : List ClassDeclaration} {declaration : ClassDeclaration}
      (discovers : session.discover files kind = .ok found)
      (registers : session.registry files kind = .ok registry)
      (split : found.classes = before ++ declaration :: after)
      (earlier : ∀ other ∈ before, ∀ cause, ¬ ClassFails kind registry other cause)
      (fails : ClassFails kind registry declaration cause) : FailsFirst session files kind cause

/-- The records of all classes that are found, class by class. -/
def Resolves (session : Session) (files : FileSystem) (kind : DefinitionKind)
    (records : List (List kind.Record)) : Prop :=
  ∃ found registry, session.discover files kind = .ok found ∧
    session.registry files kind = .ok registry ∧
    List.Forall₂ (fun declaration ofClass => ∃ tags, TagSet.read registry declaration = .ok tags ∧
      kind.records declaration.name tags = .ok ofClass) found.classes records

/-- A declaration has no records exactly if it fails. -/
theorem declared_eq_error_iff {registry : Registry} {declaration : ClassDeclaration} :
    declared kind registry declaration = .error cause ↔
      ClassFails kind registry declaration cause := by
  unfold declared
  cases read : TagSet.read registry declaration with
  | error other =>
      constructor
      · rintro ⟨⟩
        exact .reading read
      · rintro (unread | ⟨found, -⟩)
        · obtain rfl := Except.error.inj (read.symm.trans unread)
          rfl
        · simp [read] at found
  | ok tags =>
      constructor
      · exact fun unresolved => .resolution read unresolved
      · rintro (unread | ⟨found, unresolved⟩)
        · simp [read] at unread
        · obtain rfl := Except.ok.inj (read.symm.trans found)
          exact unresolved

/-- The first failure is a failure. -/
theorem FailsFirst.fails (first : FailsFirst session files kind cause) :
    Fails session files kind cause := by
  cases first with
  | discovery undiscovered => exact .discovery undiscovered
  | registry _ unregistered => exact .registry unregistered
  | «class» discovers registers split _ fails =>
      exact .class discovers registers (by simp [split]) fails

/-- Where all classes have records nothing fails. -/
theorem Resolves.not_fails {records : List (List kind.Record)}
    (resolves : Resolves session files kind records) : ¬ Fails session files kind cause := by
  obtain ⟨found, registry, discovers, registers, perClass⟩ := resolves
  intro fails
  cases fails with
  | discovery undiscovered => simp [discovers] at undiscovered
  | registry unregistered => simp [registers] at unregistered
  | «class» discoversToo registersToo member fails =>
      obtain rfl := Except.ok.inj (discovers.symm.trans discoversToo)
      obtain rfl := Except.ok.inj (registers.symm.trans registersToo)
      obtain ⟨place, inside, rfl⟩ := List.getElem_of_mem member
      obtain ⟨tags, read, resolved⟩ := perClass.get inside (perClass.length_eq ▸ inside)
      cases fails with
      | reading unread =>
          exact absurd (read.symm.trans unread) (by simp)
      | resolution readToo unresolved =>
          obtain rfl := Except.ok.inj (read.symm.trans readToo)
          exact absurd (resolved.symm.trans unresolved) (by simp)

/-- A scan finds definitions, or it fails with the first failure. -/
theorem definitions_cases (session : Session) (files : FileSystem) (kind : DefinitionKind) :
    (∃ cause, FailsFirst session files kind cause ∧
      session.definitions files kind = .error cause) ∨
    ∃ records, Resolves session files kind records ∧
      session.definitions files kind = .ok (kind.statements records.flatten) := by
  rw [definitions_eq_records]
  cases discovers : session.discover files kind with
  | error cause => exact .inl ⟨cause, .discovery discovers, rfl⟩
  | ok found =>
  cases registers : session.registry files kind with
  | error cause => exact .inl ⟨cause, .registry discovers registers, rfl⟩
  | ok registry =>
  cases reads : found.classes.mapM (declared kind registry) with
  | error cause =>
      obtain ⟨before, declaration, after, split, succeed, fails⟩ :=
        (Outcome.mapM_eq_error_iff _ _ _).1 reads
      refine .inl ⟨cause, .class discovers registers split ?_ (declared_eq_error_iff.1 fails), ?_⟩
      · intro other member otherCause failsToo
        obtain ⟨records, succeeds⟩ := succeed other member
        exact absurd (succeeds.symm.trans (declared_eq_error_iff.2 failsToo)) (by simp)
      · simp [reads, bind, Except.bind]
  | ok records =>
      refine .inr ⟨records, ⟨found, registry, discovers, registers, ?_⟩, ?_⟩
      · refine ((Outcome.mapM_eq_ok_iff _ _ _).1 reads).imp fun declaration ofClass succeeds => ?_
        exact (Outcome.bind_eq_ok_iff _ _ _).1 succeeds
      · simp [reads, bind, Except.bind, pure, Except.pure]

/-! ## What a write changes -/

/-- Everything that is different when a file was generated: its directory and the ancestors
of that are there, and the file holds a text. -/
structure Generates (storage : Storage) (kind : DefinitionKind) (text : String)
    (old new : FileSystem) : Prop where
  /-- Relative paths start where they started. -/
  workingDirectory : new.workingDirectory = old.workingDirectory
  /-- The path of the file leads to the text. -/
  found : new.find (storage.path kind) = .ok (.file text.toUTF8)
  /-- The file is at the place that its path spells. -/
  file : new.entry? (old.placeOf (storage.path kind)) = some (.file text.toUTF8)
  /-- All directories on the way to the file are there. -/
  directories : ∀ place ∈ old.placesTo storage.outer, new.entry? place = some .directory
  /-- Nothing new stands anywhere else. -/
  nothingElse : ∀ location, location ≠ old.placeOf (storage.path kind) →
    location ∉ old.placesTo storage.outer → new.entry? location = old.entry? location
  /-- Everything but the file is what it was. -/
  kept : ∀ location entry, location ≠ old.placeOf (storage.path kind) →
    old.entry? location = some entry → new.entry? location = some entry
  /-- The other generated file is not this one, and so it is what it was. -/
  otherFile : ∀ other entry, other ≠ kind → old.entry? (old.placeOf (storage.path other)) = some entry →
    new.entry? (old.placeOf (storage.path other)) = some entry

variable {storage : Storage}

/-- A generated file is in its directory under its name. -/
theorem placeOf_path (storage : Storage) (files : FileSystem) (kind : DefinitionKind) :
    files.placeOf (storage.path kind) = files.placeOf storage.outer ++ [kind.fileName] := by
  have names : NamesEntry kind.fileName := ⟨kind.isFileName.2, by cases kind <;> decide⟩
  rw [placeOf, storage.pieces_path, storage.startOf_path, endOfWay_append, endOfWay_name names]
  rfl

/-- A path to a generated file leads through the places of its directory. -/
theorem placesTo_path (storage : Storage) (files : FileSystem) (kind : DefinitionKind) :
    files.placesTo (storage.path kind) =
      files.placesTo storage.outer ++ [files.placeOf (storage.path kind)] := by
  have names : NamesEntry kind.fileName := ⟨kind.isFileName.2, by cases kind <;> decide⟩
  rw [placeOf_path, placesTo, storage.pieces_path, storage.startOf_path, placesOnWay_append,
    placesOnWay_name names]
  rfl

/-- The two generated files are at two places. -/
theorem placeOf_other (storage : Storage) (files : FileSystem) {other : DefinitionKind}
    (apart : other ≠ kind) :
    files.placeOf (storage.path other) ≠ files.placeOf (storage.path kind) := by
  rw [placeOf_path, placeOf_path]
  intro same
  obtain ⟨-, names⟩ := List.append_inj' same rfl
  cases other <;> cases kind <;> simp_all [DefinitionKind.fileName]

/-- A generated file is the last place on its path. -/
theorem placeOf_mem_placesTo (storage : Storage) (files : FileSystem) (kind : DefinitionKind) :
    files.placeOf (storage.path kind) ∈ files.placesTo (storage.path kind) := by
  rw [placesTo_path]
  exact List.mem_append_right _ (List.mem_singleton.2 rfl)

/-- The places of the directory are on the path of a generated file. -/
theorem noLinksAt_outer (noLinks : NoLinksAt files (files.placesTo (storage.path kind))) :
    NoLinksAt files (files.placesTo storage.outer) := fun place member =>
  noLinks place (placesTo_path storage files kind ▸ List.mem_append_left _ member)

/-- Where the path of a generated file leads somewhere, its directories are there. -/
theorem directories_of_locate {location : Location}
    (noLinks : NoLinksAt files (files.placesTo (storage.path kind)))
    (leads : files.locate (storage.path kind) = .ok location) :
    ∀ place ∈ files.placesTo storage.outer, files.entry? place = some .directory := by
  have followed := ((locate_eq_ok_iff _ _ _).1 leads).2
  rw [storage.pieces_path, storage.startOf_path] at followed
  exact directory_of_follow (noLinksAt_outer noLinks) followed

/-- A file can be written where neither a directory nor a link is. -/
theorem writable_of_ne {location : Location} (noDirectory : files.entry? location ≠ some .directory)
    (noLink : ∀ target, files.entry? location ≠ some (.link target)) :
    Writable files location := by
  unfold Writable
  cases stands : files.entry? location with
  | none => exact .inl rfl
  | some entry =>
      cases entry with
      | file contents => exact .inr ⟨contents, rfl⟩
      | directory => exact absurd stands noDirectory
      | link target => exact absurd stands (noLink target)

/-- Once its directory is made, a text that is written into a generated file is all that
changes. -/
theorem generates_of_put {grown : FileSystem} {location : Location} {text : String}
    (noLinks : NoLinksAt files (files.placesTo (storage.path kind)))
    (makes : OnlyMakes (files.placesTo storage.outer) files grown)
    (leads : grown.locate (storage.path kind) = .ok location)
    (noDirectory : grown.entry? location ≠ some .directory) :
    Generates storage kind text files (grown.put location (.file text.toUTF8)) := by
  have noLinksGrown : NoLinksAt grown (grown.placesTo (storage.path kind)) :=
    makes.placesTo _ ▸ makes.noLinksAt noLinks
  have directories := directories_of_locate noLinksGrown leads
  rw [makes.placesTo] at directories
  obtain rfl : location = files.placeOf (storage.path kind) :=
    makes.placeOf _ ▸ locate_eq_placeOf noLinksGrown leads
  have writable : Writable grown (files.placeOf (storage.path kind)) :=
    writable_of_ne noDirectory
      (makes.noLinksAt noLinks _ (placeOf_mem_placesTo storage files kind))
  have put : entry? (grown.put (files.placeOf (storage.path kind)) (.file text.toUTF8))
      (files.placeOf (storage.path kind)) = some (.file text.toUTF8) := by
    rw [entry?_put, if_pos rfl, if_neg]
    rw [placeOf_path]
    simp
  have kept : ∀ location entry, location ≠ files.placeOf (storage.path kind) →
      files.entry? location = some entry →
      entry? (grown.put (files.placeOf (storage.path kind)) (.file text.toUTF8)) location =
        some entry := by
    intro location entry apart stands
    rw [entry?_put_of_ne grown apart, makes.kept location entry stands]
  exact {
    workingDirectory := makes.workingDirectory
    found := (find_eq_ok_iff _ _ _).2 ⟨_, locate_put writable leads, put⟩
    file := put
    directories := fun place member => by
      have apart : place ≠ files.placeOf (storage.path kind) := by
        rintro rfl
        exact noDirectory (directories _ member)
      rw [entry?_put_of_ne grown apart, directories place member]
    nothingElse := fun location apart noPlace => by
      rw [entry?_put_of_ne grown apart]
      cases stands : files.entry? location with
      | some entry => exact makes.kept location entry stands
      | none => exact (makes.made location stands).resolve_right fun made => noPlace made.1
    kept
    otherFile := fun other entry differs stands =>
      kept _ entry (placeOf_other storage files differs) stands }

/-- A write without links on its path generates its file, or it fails in the file system,
and then it has made directories at most. -/
theorem write_all_or_nothing {definitions : String} {after : FileSystem}
    {result : Except ScanError Unit}
    (noLinks : NoLinksAt files (files.placesTo (storage.path kind)))
    (writes : write files (storage.path kind) definitions = (after, result)) :
    (result = .ok () ∧ Generates storage kind (Registration.file definitions) files after) ∨
      ∃ path failure, result = .error (.file path failure) ∧
        OnlyMakes (files.placesTo storage.outer) files after := by
  have makes := onlyMakes_makeDirectories (noLinksAt_outer noLinks)
  unfold write at writes
  rw [Storage.parent?_path] at writes
  cases made : files.makeDirectories storage.outer with
  | mk grown outcome =>
      rw [made] at makes
      simp only [made] at writes
      cases outcome with
      | error failure =>
          obtain ⟨rfl, rfl⟩ := Prod.mk.inj writes
          exact .inr ⟨_, _, rfl, makes⟩
      | ok _ =>
          dsimp only at writes
          split at writes
          · next written succeeds =>
              obtain ⟨rfl, rfl⟩ := Prod.mk.inj writes
              obtain ⟨location, leads, noDirectory, rfl⟩ := (writeText_eq_ok_iff _ _ _).1 succeeds
              exact .inl ⟨rfl, generates_of_put noLinks makes leads noDirectory⟩
          · next failure fails =>
              obtain ⟨rfl, rfl⟩ := Prod.mk.inj writes
              exact .inr ⟨_, _, rfl, makes⟩

/-- A scan writes all or nothing, for every session, every file system and both kinds, if
no link stands on the path of the generated file. Whatever fails before the writing, the
scan fails with the first failure and leaves the file system as it was. If nothing fails,
all classes have records; a scan that succeeds generates the file of their statements, and
one that fails does so in the file system and has made directories at most. -/
theorem scan_all_or_nothing (session : Session) (files : FileSystem) (kind : DefinitionKind)
    (noLinks : NoLinksAt files (files.placesTo (session.storage.path kind))) :
    ((∃ cause, Fails session files kind cause) →
      ∃ cause, FailsFirst session files kind cause ∧
        session.scan files kind = (files, .error cause)) ∧
    ((∀ cause, ¬ Fails session files kind cause) →
      ∃ records, Resolves session files kind records ∧
        ∀ after result, session.scan files kind = (after, result) →
          (result = .ok () ∧ Generates session.storage kind
            (Registration.file (kind.statements records.flatten)) files after) ∨
          ∃ path failure, result = .error (.file path failure) ∧
            OnlyMakes (files.placesTo session.storage.outer) files after) := by
  rcases definitions_cases session files kind with
    ⟨cause, first, fails⟩ | ⟨records, resolves, succeeds⟩
  · refine ⟨fun _ => ⟨cause, first, ?_⟩, fun nothing => absurd first.fails (nothing cause)⟩
    simp only [scan, fails]
  · refine ⟨fun ⟨cause, fails⟩ => absurd fails resolves.not_fails, fun _ =>
      ⟨records, resolves, fun after result scans => ?_⟩⟩
    simp only [scan, succeeds] at scans
    exact write_all_or_nothing noLinks scans

/-- A session that scans two declared classes, the second one with a docblock. -/
def twoClasses (doc : String) : Session where
  config := { routes := { classes := ["First", "Second"] } }
  source := .ofDeclarations [⟨"First", none, [], none⟩, ⟨"Second", none, [⟨"show", some doc⟩], none⟩]
  storage := ⟨"storage"⟩

/-- A file system that holds a generated file. -/
def scannedFiles : FileSystem where
  entries := ⟨[(["storage"], .directory), (["storage", "framework"], .directory),
    (["storage", "framework", "routes.scanned.php"], .file "old".toUTF8)], by simp⟩
  workingDirectory := []

/-- A malformed docblock of the last class keeps the generated file as it was, and a
well-formed one replaces it. -/
theorem scan_all_or_nothing_last_class :
    (twoClasses "/** @Get( */").scan scannedFiles .routes =
      (scannedFiles, .error (.badTag "Second" (some "show") (.docblock ⟨1, .missingValue⟩))) ∧
    ∃ after records, (twoClasses "/** @Get(\"/\") */").scan scannedFiles .routes = (after, .ok ()) ∧
      Generates ⟨"storage"⟩ .routes
        (Registration.file (DefinitionKind.routes.statements records)) scannedFiles after := by
  have noLinks : NoLinksAt scannedFiles
      (scannedFiles.placesTo (Storage.path ⟨"storage"⟩ .routes)) :=
    fun place _ => linkFree_of_entries (by simp [scannedFiles]) place
  constructor
  · have fails : ∃ cause, Fails (twoClasses "/** @Get( */") scannedFiles .routes cause := by
      rcases definitions_cases (twoClasses "/** @Get( */") scannedFiles .routes with
        ⟨cause, first, -⟩ | ⟨records, -, succeeds⟩
      · exact ⟨cause, first.fails⟩
      · have stops : ((twoClasses "/** @Get( */").definitions scannedFiles .routes).isOk = false := by
          decide +kernel
        rw [succeeds] at stops
        cases stops
    obtain ⟨cause, -, scans⟩ :=
      (scan_all_or_nothing (twoClasses "/** @Get( */") scannedFiles .routes noLinks).1 fails
    have result : ((twoClasses "/** @Get( */").scan scannedFiles .routes).2 =
        .error (.badTag "Second" (some "show") (.docblock ⟨1, .missingValue⟩)) := by decide +kernel
    rw [scans] at result ⊢
    exact Prod.ext rfl result
  · have result : ((twoClasses "/** @Get(\"/\") */").scan scannedFiles .routes).2 = .ok () := by
      decide +kernel
    obtain ⟨untouched, written⟩ :=
      scan_all_or_nothing (twoClasses "/** @Get(\"/\") */") scannedFiles .routes noLinks
    have nothing : ∀ cause, ¬ Fails (twoClasses "/** @Get(\"/\") */") scannedFiles .routes cause := by
      intro cause fails
      obtain ⟨other, -, scans⟩ := untouched ⟨cause, fails⟩
      simp [scans] at result
    obtain ⟨records, -, generates⟩ := written nothing
    rcases generates _ _ rfl with ⟨-, changes⟩ | ⟨path, failure, fails, -⟩
    · exact ⟨_, records.flatten, Prod.ext rfl result, changes⟩
    · exact absurd (result.symm.trans fails) (by simp)

end Session

end DocblockScan

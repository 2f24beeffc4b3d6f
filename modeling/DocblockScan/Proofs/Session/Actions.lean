import DocblockScan.Session.Boot
import DocblockScan.Proofs.Session.Writing

/-!
# Scanning and loading, one action at a time

`Acts` says what a scan and a load do to the files and to the host, whether they succeed
or fail, and `Runs` performs actions up to the first one that fails. In a tree an action
changes what the path of a generated file leads to only if it scans anew although the
file is there, and only where it writes: `Acts.find_other`, and `Runs.find_other` for
any number of actions.
-/

namespace DocblockScan.Session

open FileSystem

/-- What a boot pass does, one thing at a time. -/
inductive Action where
  | scan (kind : DefinitionKind)
  | load (kind : DefinitionKind)
deriving Repr, DecidableEq

/-- The kind of definitions an action is about. -/
def Action.kind : Action → DefinitionKind
  | .scan kind => kind
  | .load kind => kind

/-- Whether the file of a kind is to be generated: it is missing, or all files are
generated anew. -/
def IsDue (session : Session) (host : Host) (files : FileSystem) (kind : DefinitionKind) :
    Prop :=
  session.rescansFor host = true ∨ session.storage.isGenerated files kind = false

/-- An action turns files into others, hands the host some files, and succeeds or fails. -/
inductive Acts (session : Session) (host : Host) : Action → FileSystem → FileSystem →
    List Load → Except ScanError Unit → Prop where
  /-- The definitions are written into the generated file. -/
  | writes {kind : DefinitionKind} {files after : FileSystem} {definitions : String}
      (due : session.IsDue host files kind)
      (finds : session.definitions files kind = .ok definitions)
      (written : write files (session.storage.path kind) definitions = (after, .ok ())) :
      Acts session host (.scan kind) files after [] (.ok ())
  /-- Definitions that cannot be resolved leave the files alone. -/
  | unresolved {kind : DefinitionKind} {files : FileSystem} {cause : ScanError}
      (due : session.IsDue host files kind)
      (fails : session.definitions files kind = .error cause) :
      Acts session host (.scan kind) files files [] (.error cause)
  /-- A write that fails has made directories at most. -/
  | unwritten {kind : DefinitionKind} {files after : FileSystem} {definitions : String}
      {cause : ScanError} (due : session.IsDue host files kind)
      (finds : session.definitions files kind = .ok definitions)
      (fails : write files (session.storage.path kind) definitions = (after, .error cause)) :
      Acts session host (.scan kind) files after [] (.error cause)
  /-- The host takes the generated file. -/
  | accepted {kind : DefinitionKind} {files : FileSystem}
      (generated : session.storage.isGenerated files kind = true)
      (accepts : host.refusal? kind = none) :
      Acts session host (.load kind) files files
        [⟨kind, session.storage.path kind, (files.readText (session.storage.path kind)).toOption⟩]
        (.ok ())
  /-- The host refuses the generated file. -/
  | refused {kind : DefinitionKind} {files : FileSystem} {reason : String}
      (generated : session.storage.isGenerated files kind = true)
      (refuses : host.refusal? kind = some reason) :
      Acts session host (.load kind) files files [] (.error (.refused reason))

/-- A scan that is due is an action. -/
theorem acts_of_scan {session : Session} {host : Host} {kind : DefinitionKind}
    {files after : FileSystem} {result : Except ScanError Unit}
    (due : session.IsDue host files kind) (scans : session.scan files kind = (after, result)) :
    Acts session host (.scan kind) files after [] result := by
  unfold scan at scans
  split at scans
  · next definitions finds =>
      cases result with
      | ok _ => exact .writes due finds scans
      | error cause => exact .unwritten due finds scans
  · next cause fails =>
      obtain ⟨rfl, rfl⟩ := Prod.mk.inj scans
      exact .unresolved due fails

/-- Actions are performed one after the other, and none after one that fails. -/
inductive Runs (session : Session) (host : Host) : FileSystem → List Action → FileSystem →
    List Load → Except ScanError Unit → Prop where
  | done (files : FileSystem) : Runs session host files [] files [] (.ok ())
  | fails {action : Action} {files after : FileSystem} {loads : List Load} {cause : ScanError}
      (acts : Acts session host action files after loads (.error cause)) :
      Runs session host files [action] after loads (.error cause)
  | goesOn {action : Action} {rest : List Action} {files middle after : FileSystem}
      {loads others : List Load} {result : Except ScanError Unit}
      (acts : Acts session host action files middle loads (.ok ()))
      (onward : Runs session host middle rest after others result) :
      Runs session host files (action :: rest) after (loads ++ others) result

variable {session : Session} {host : Host} {action : Action} {actions : List Action}
variable {files after : FileSystem} {loads : List Load} {result : Except ScanError Unit}

/-- Runs are continued after they succeeded. -/
theorem Runs.append {middle : FileSystem} {first second : List Action} {others : List Load}
    (runs : Runs session host files first middle loads (.ok ()))
    (onward : Runs session host middle second after others result) :
    Runs session host files (first ++ second) after (loads ++ others) result := by
  generalize succeeds : (Except.ok () : Except ScanError Unit) = outcome at runs
  induction runs with
  | done => exact onward
  | fails => simp at succeeds
  | goesOn acts _ inductionHypothesis =>
      rw [List.cons_append, List.append_assoc]
      exact .goesOn acts (inductionHypothesis onward succeeds)

/-! ## What an action does in a tree -/

/-- Actions keep a file system a tree. -/
theorem Acts.isTree (tree : IsTree files)
    (acts : Acts session host action files after loads result) : IsTree after := by
  cases acts with
  | writes _ _ writes => exact isTree_of_write tree writes
  | unwritten _ _ writes => exact isTree_of_write tree writes
  | unresolved | accepted | refused => exact tree

/-- The path of a generated file that leads somewhere leads there still. -/
theorem Acts.locate (tree : IsTree files) (acts : Acts session host action files after loads result)
    {kind : DefinitionKind} {location : Location}
    (found : files.locate (session.storage.path kind) = .ok location) :
    after.locate (session.storage.path kind) = .ok location := by
  cases acts with
  | writes _ _ writes => exact locate_of_write tree writes found
  | unwritten _ _ writes => exact locate_of_write tree writes found
  | unresolved | accepted | refused => exact found

/-- The paths of two generated files lead to one place. -/
def Meet (storage : Storage) (files : FileSystem) (left right : DefinitionKind) : Prop :=
  ∃ location, files.locate (storage.path left) = .ok location ∧
    files.locate (storage.path right) = .ok location

/-- What the path of a generated file leads to changes only if files are generated anew,
and the path leads to the file that is. -/
theorem Acts.find_other (tree : IsTree files)
    (acts : Acts session host action files after loads result)
    {kind : DefinitionKind} {entry : FileEntry}
    (found : files.find (session.storage.path kind) = .ok entry) :
    after.find (session.storage.path kind) = .ok entry ∨
      ∃ other, action = .scan other ∧ session.rescansFor host = true ∧
        Meet session.storage after kind other := by
  obtain ⟨place, leads, -⟩ := (find_eq_ok_iff _ _ _).1 found
  cases acts with
  | @writes other _ _ _ due _ writes =>
      obtain ⟨grown, -, same, ⟨-, -, ⟨⟩⟩ | ⟨-, location, written⟩⟩ := write_cases tree writes
      obtain rfl := same kind place leads
      rcases written.find_other found with kept | ⟨meets, stands⟩
      · exact .inl kept
      · -- Something stands where the file is written, so it was due only because it is forced.
        refine .inr ⟨other, rfl, due.resolve_right ?_, location, meets,
          written.locate written.leads⟩
        have isThere := (find_eq_ok_iff _ _ _).2 ⟨location, written.leads, stands⟩
        simp [Storage.isGenerated_of_find isThere]
  | unwritten _ _ writes =>
      obtain ⟨grown, -, same, ⟨rfl, -⟩ | ⟨⟨⟩, -⟩⟩ := write_cases tree writes
      obtain rfl := same kind place leads
      exact .inl found
  | unresolved | accepted | refused => exact .inl found

/-! ## What a run does in a tree -/

theorem Runs.isTree (tree : IsTree files)
    (runs : Runs session host files actions after loads result) : IsTree after := by
  induction runs with
  | done => exact tree
  | fails acts => exact acts.isTree tree
  | goesOn acts _ inductionHypothesis => exact inductionHypothesis (acts.isTree tree)

theorem Runs.locate (tree : IsTree files)
    (runs : Runs session host files actions after loads result)
    {kind : DefinitionKind} {location : Location}
    (found : files.locate (session.storage.path kind) = .ok location) :
    after.locate (session.storage.path kind) = .ok location := by
  induction runs with
  | done => exact found
  | fails acts => exact acts.locate tree found
  | goesOn acts _ inductionHypothesis =>
      exact inductionHypothesis (acts.isTree tree) (acts.locate tree found)

/-- Paths of generated files that lead to one place do so after further actions. -/
theorem Runs.meet (tree : IsTree files) (runs : Runs session host files actions after loads result)
    {left right : DefinitionKind} (meet : Meet session.storage files left right) :
    Meet session.storage after left right := by
  obtain ⟨location, leadsLeft, leadsRight⟩ := meet
  exact ⟨location, runs.locate tree leadsLeft, runs.locate tree leadsRight⟩

/-- What the path of a generated file leads to changes only if files are generated anew,
and the path leads to one that is. -/
theorem Runs.find_other (tree : IsTree files)
    (runs : Runs session host files actions after loads result)
    {kind : DefinitionKind} {entry : FileEntry}
    (found : files.find (session.storage.path kind) = .ok entry) :
    after.find (session.storage.path kind) = .ok entry ∨
      ∃ other, .scan other ∈ actions ∧ session.rescansFor host = true ∧
        Meet session.storage after kind other := by
  induction runs with
  | done => exact .inl found
  | fails acts =>
      rcases acts.find_other tree found with kept | ⟨other, rfl, forced, meet⟩
      · exact .inl kept
      · exact .inr ⟨other, List.mem_cons_self, forced, meet⟩
  | goesOn acts onward inductionHypothesis =>
      rcases acts.find_other tree found with kept | ⟨other, rfl, forced, meet⟩
      · rcases inductionHypothesis (acts.isTree tree) kept with kept | ⟨other, member, meets⟩
        · exact .inl kept
        · exact .inr ⟨other, .tail _ member, meets⟩
      · exact .inr ⟨other, List.mem_cons_self, forced, onward.meet (acts.isTree tree) meet⟩

/-- As long as no file is generated anew, what the path of a generated file leads to
stays. -/
theorem Runs.keeps (tree : IsTree files)
    (runs : Runs session host files actions after loads result)
    (unforced : session.rescansFor host = false) {kind : DefinitionKind} {entry : FileEntry}
    (found : files.find (session.storage.path kind) = .ok entry) :
    after.find (session.storage.path kind) = .ok entry := by
  rcases runs.find_other tree found with kept | ⟨other, -, forced, -⟩
  · exact kept
  · simp [unforced] at forced

end DocblockScan.Session

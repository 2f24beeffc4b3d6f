import DocblockScan.Proofs.Session.Actions

/-!
# Boot passes

A boot pass performs scans and loads in a fixed order, each at most once, and none after
one that fails. `BootPass` collects what such a pass keeps, what it generates anew, and
what its report says, and `exists_bootPass` shows it of every pass over a tree of files. Each
kind of definitions has its turn in the pass; `exists_turn` says what a turn does.
-/

namespace DocblockScan

open FileSystem

/-- What a report says about a kind. -/
def BootReport.of (report : BootReport) : DefinitionKind → StageReport
  | .events => report.events
  | .routes => report.routes

namespace Session

variable {session : Session} {host : Host} {kind : DefinitionKind} {files : FileSystem}

/-- The actions of a boot pass, in the order in which it may perform them. -/
def Action.inOrder : List Action :=
  [.scan .events, .load .events, .scan .routes, .load .routes]

/-- Whether a pass has to do with a kind: its scan list is not empty, and the host does
not have its definitions already. -/
def asks (session : Session) (host : Host) : DefinitionKind → Bool
  | .events => session.wants .events
  | .routes => session.wants .routes && !host.hasCachedRoutes

/-- A report is accurate about a kind if it tells what was done for it. -/
structure Accurate (session : Session) (host : Host) (kind : DefinitionKind)
    (actions : List Action) (report : StageReport) : Prop where
  scanned : report.scanned = true ↔ .scan kind ∈ actions
  loaded : ∀ path, report.loaded = some path ↔
    .load kind ∈ actions ∧ path = session.storage.path kind
  complete : session.asks host kind = true → report.loaded = some (session.storage.path kind)

/-! ## The turn of a kind -/

/-- What a pass does for one kind. -/
structure Turn (session : Session) (host : Host) (kind : DefinitionKind) (files : FileSystem)
    (actions : List Action) (outcome : BootOutcome StageReport) : Prop where
  runs : Runs session host files actions outcome.files outcome.loads
    (outcome.result.map fun _ => ())
  inOrder : actions.Sublist [.scan kind, .load kind]
  asked : ∀ action ∈ actions, session.asks host kind = true
  reports : ∀ report, outcome.result = .ok report → Accurate session host kind actions report
  renews : session.rescansFor host = true → ∀ report, outcome.result = .ok report →
    session.asks host kind = true → ∃ text, session.definitions files kind = .ok text ∧
      outcome.files.find (session.storage.path kind) =
        .ok (.file (Registration.file text).toUTF8)

/-- For a kind that is not asked for nothing is done. -/
theorem turn_skipped (unasked : session.asks host kind = false) (files : FileSystem) :
    Turn session host kind files [] ⟨files, [], .ok {}⟩ where
  runs := .done files
  inOrder := List.nil_sublist _
  asked := by simp
  reports report succeeds := by
    obtain rfl := Except.ok.inj succeeds
    exact ⟨by simp, by simp, by simp [unasked]⟩
  renews := by simp [unasked]

/-- After a scan that was due, or without one, a file that is there is handed to the
host. -/
theorem turn_handOver {middle : FileSystem} {before : List Action} {scanned : Bool}
    (asked : session.asks host kind = true) (within : before.Sublist [.scan kind])
    (told : scanned = true ↔ .scan kind ∈ before)
    (runs : Runs session host files before middle [] (.ok ()))
    (generated : session.storage.isGenerated middle kind = true)
    (renews : session.rescansFor host = true → ∃ text,
      session.definitions files kind = .ok text ∧
        middle.find (session.storage.path kind) = .ok (.file (Registration.file text).toUTF8)) :
    Turn session host kind files (before ++ [.load kind])
      (session.handOver host kind scanned middle) := by
  have inOrder : (before ++ [Action.load kind]).Sublist [.scan kind, .load kind] :=
    within.append (List.Sublist.refl [Action.load kind])
  unfold handOver
  rw [if_pos generated]
  dsimp only
  split
  · next reason refuses =>
      exact ⟨runs.append (.fails (.refused generated refuses)), inOrder, fun _ _ => asked,
        by simp, by simp⟩
  · next accepts =>
      refine ⟨runs.append (.goesOn (.accepted generated accepts) (.done middle)), inOrder,
        fun _ _ => asked, fun report succeeds => ?_, fun forced _ _ _ => renews forced⟩
      obtain rfl := Except.ok.inj succeeds
      exact ⟨by simp [told], by simp [eq_comm], by simp⟩

/-- The stage of a kind is its turn. -/
theorem exists_turn (tree : IsTree files) (same : session.asks host kind = session.wants kind) :
    ∃ actions, Turn session host kind files actions (session.stage host kind files) := by
  unfold stage
  split
  · next unwanted => exact ⟨[], turn_skipped (by simpa [same] using unwanted) files⟩
  next wanted =>
  have asked : session.asks host kind = true := by simpa [same] using wanted
  split
  · next due =>
      have isDue : session.IsDue host files kind := by simpa [IsDue] using due
      split
      · next grown scans =>
          obtain ⟨definitions, finds, writes⟩ := (scan_eq_ok_iff _ _ _ _).1 scans
          have holds := find_of_write tree writes
          exact ⟨[.scan kind] ++ [.load kind], turn_handOver asked (.refl _) (by simp)
            (.goesOn (acts_of_scan isDue scans) (.done grown)) (Storage.isGenerated_of_find holds)
            fun _ => ⟨definitions, finds, holds⟩⟩
      · next grown cause scans =>
          exact ⟨[.scan kind], .fails (acts_of_scan isDue scans), by simp, fun _ _ => asked,
            by simp, by simp⟩
  · next fresh =>
      simp only [Bool.or_eq_true, Bool.not_eq_true', not_or, Bool.not_eq_true,
        Bool.not_eq_false] at fresh
      exact ⟨[] ++ [.load kind], turn_handOver asked (by simp) (by simp) (.done files) fresh.2
        (by simp [fresh.1])⟩

/-! ## Whole passes -/

/-- The files as the scan of a kind finds them. -/
def filesAtScan (session : Session) (host : Host) (files : FileSystem) :
    DefinitionKind → FileSystem
  | .events => files
  | .routes => (session.stage host .events files).files

/-- What a boot pass does: the actions it performs, where they lead, and what holds then. -/
structure BootPass (session : Session) (host : Host) (files : FileSystem)
    (actions : List Action) (outcome : BootOutcome BootReport) : Prop where
  /-- The actions are performed one after the other up to the first one that fails. The pass
  leaves the files and hands over what they do, and returns the cause of the failure. -/
  runs : Runs session host files actions outcome.files outcome.loads
    (outcome.result.map fun _ => ())
  /-- A tree stays one. -/
  tree : IsTree outcome.files
  /-- Every action is performed at most once and in its order. -/
  inOrder : actions.Sublist Action.inOrder
  /-- There are no actions for a kind without a scan list, and none for routes that the host
  has already. -/
  asked : ∀ action ∈ actions, session.asks host action.kind = true
  /-- Unless files are generated anew, what their paths led to before they lead to
  afterwards, also if the pass fails. -/
  keeps : session.rescansFor host = false → ∀ kind entry,
    files.find (session.storage.path kind) = .ok entry →
      outcome.files.find (session.storage.path kind) = .ok entry
  /-- If files are generated anew and the pass succeeds, every file that is asked for holds
  the definitions as they were at its scan. Where the paths of both files lead to one place
  this is the file of the routes, as they are written last. -/
  renews : session.rescansFor host = true → ∀ report, outcome.result = .ok report →
    ∀ kind, session.asks host kind = true →
      (kind = .events → session.asks host .routes = true →
        ¬ Meet session.storage outcome.files .events .routes) →
      ∃ text, session.definitions (session.filesAtScan host files kind) kind = .ok text ∧
        outcome.files.find (session.storage.path kind) =
          .ok (.file (Registration.file text).toUTF8)
  /-- The report of a pass that succeeds is accurate about both kinds. -/
  reports : ∀ report, outcome.result = .ok report →
    ∀ kind, Accurate session host kind actions (report.of kind)

/-- An action of a turn is about its kind. -/
theorem Turn.kind_eq {actions : List Action} {outcome : BootOutcome StageReport}
    (turn : Turn session host kind files actions outcome) {action : Action}
    (member : action ∈ actions) : action.kind = kind := by
  have listed := turn.inOrder.subset member
  simp only [List.mem_cons, List.not_mem_nil, or_false] at listed
  obtain rfl | rfl := listed <;> rfl

/-- The kind of an action of a turn is asked for. -/
theorem Turn.asks_kind {actions : List Action} {outcome : BootOutcome StageReport}
    (turn : Turn session host kind files actions outcome) {action : Action}
    (member : action ∈ actions) : session.asks host action.kind = true := by
  rw [turn.kind_eq member]
  exact turn.asked action member

/-- Actions for another kind make no difference to a report. -/
theorem Accurate.of_mem_iff {actions others : List Action} {report : StageReport}
    (accurate : Accurate session host kind actions report)
    (same : ∀ action : Action, action.kind = kind → (action ∈ others ↔ action ∈ actions)) :
    Accurate session host kind others report where
  scanned := by rw [same _ rfl, accurate.scanned]
  loaded path := by rw [same _ rfl, accurate.loaded]
  complete := accurate.complete

/-- The turns of both kinds make a pass. -/
theorem bootPass_of_turns (tree : IsTree files) {first second : List Action}
    {events routes : BootOutcome StageReport} {report : StageReport}
    (firstTurn : Turn session host .events files first events)
    (succeeds : events.result = .ok report)
    (secondTurn : Turn session host .routes events.files second routes)
    (isStage : session.stage host .events files = events) :
    BootPass session host files (first ++ second) ⟨routes.files, events.loads ++ routes.loads,
      routes.result.map fun other => { events := report, routes := other }⟩ := by
  have middleTree : IsTree events.files := firstTurn.runs.isTree tree
  have firstRuns := firstTurn.runs
  rw [succeeds] at firstRuns
  have runs : Runs session host files (first ++ second) routes.files
      (events.loads ++ routes.loads) (routes.result.map fun _ => ()) :=
    firstRuns.append secondTurn.runs
  refine ⟨?_, runs.isTree tree, firstTurn.inOrder.append secondTurn.inOrder, ?_, ?_, ?_, ?_⟩
  · cases ends : routes.result <;> simpa [ends, Except.map] using runs
  · intro action member
    exact (List.mem_append.1 member).elim firstTurn.asks_kind secondTurn.asks_kind
  · exact fun unforced kind entry found => runs.keeps tree unforced found
  · intro forced total completes kind asked apart
    obtain ⟨other, ends, -⟩ := (Outcome.map_eq_ok_iff _ _ _).1 completes
    cases kind with
    | routes =>
        rw [filesAtScan, isStage]
        exact secondTurn.renews forced other ends asked
    | events =>
        obtain ⟨text, finds, holds⟩ := firstTurn.renews forced report succeeds asked
        refine ⟨text, finds, ?_⟩
        rcases secondTurn.runs.find_other middleTree holds with kept | ⟨last, member, -, meet⟩
        · exact kept
        · -- Only routes are scanned after the events, and the paths do not meet.
          obtain rfl : last = .routes := secondTurn.kind_eq member
          exact absurd meet (apart rfl (secondTurn.asked _ member))
  · intro total completes kind
    obtain ⟨other, ends, rfl⟩ := (Outcome.map_eq_ok_iff _ _ _).1 completes
    cases kind with
    | events =>
        refine (firstTurn.reports report succeeds).of_mem_iff fun action isKind => ?_
        rw [List.mem_append, or_iff_left]
        intro member
        simp [secondTurn.kind_eq member] at isKind
    | routes =>
        refine (secondTurn.reports other ends).of_mem_iff fun action isKind => ?_
        rw [List.mem_append, or_iff_right]
        intro member
        simp [firstTurn.kind_eq member] at isKind

/-- Every boot pass over a tree of files does what a boot pass may do. -/
theorem exists_bootPass (session : Session) (host : Host) (files : FileSystem)
    (tree : IsTree files) :
    ∃ actions, BootPass session host files actions (session.boot host files) := by
  have eventsAsked : session.asks host .events = session.wants .events := rfl
  obtain ⟨first, firstTurn⟩ := exists_turn tree eventsAsked
  unfold boot
  dsimp only
  split
  · next cause fails =>
      have runs := firstTurn.runs
      rw [fails] at runs
      refine ⟨first, runs, runs.isTree tree, ?_, ?_, ?_, by simp, by simp⟩
      · exact firstTurn.inOrder.trans
          (List.sublist_append_left _ [Action.scan .routes, Action.load .routes])
      · exact fun action member => firstTurn.asks_kind member
      · exact fun unforced kind entry found => runs.keeps tree unforced found
  · next report succeeds =>
      split
      · next cached =>
          have skipped : Turn session host .routes (session.stage host .events files).files []
              ⟨(session.stage host .events files).files, [], .ok {}⟩ :=
            turn_skipped (by simp [asks, cached]) _
          have pass := bootPass_of_turns tree firstTurn succeeds skipped rfl
          rw [List.append_nil, List.append_nil] at pass
          exact ⟨first, pass⟩
      · next uncached =>
          have routesAsked : session.asks host .routes = session.wants .routes := by
            simp [asks, uncached]
          obtain ⟨second, secondTurn⟩ := exists_turn (firstTurn.runs.isTree tree) routesAsked
          exact ⟨first ++ second, bootPass_of_turns tree firstTurn succeeds secondTurn rfl⟩

/-- A page with a route and a listener. -/
def pageSession : Session :=
  .of { scanWhenLocal := true
        routes := { classes := ["Page"] }
        events := { classes := ["Page"] } }
    (.ofDeclarations [{
      name := "Page"
      doc := none
      methods := [⟨"show", some "/** @Get(\"/\") */"⟩, ⟨"open", some "/** @Hears(\"Opened\") */"⟩]
      origin := none }])

/-- A directory of generated files with something in place of the routes. -/
def storageWith (routes : FileEntry) : FileSystem where
  entries := ⟨[(["storage"], .directory), (["storage", "framework"], .directory),
    (["storage", "framework", "routes.scanned.php"], routes)], by simp⟩
  workingDirectory := []

theorem isTree_storageWith (routes : FileEntry) : IsTree (storageWith routes) :=
  ⟨closed_of_entries (by simp [storageWith, entry?, OrderedMap.get?, OrderedMap.lookupIn]), rfl⟩

/-- An old file of routes is replaced, and a missing one of listeners is made. -/
theorem exists_bootPass_stale :
    (pageSession.boot (.accepting "local") (storageWith (.file "old".toUTF8))).result =
        .ok ⟨⟨true, some "storage/framework/events.scanned.php"⟩,
          ⟨true, some "storage/framework/routes.scanned.php"⟩⟩ ∧
      ∃ actions, BootPass pageSession (.accepting "local") (storageWith (.file "old".toUTF8))
        actions (pageSession.boot (.accepting "local") (storageWith (.file "old".toUTF8))) :=
  ⟨by decide +kernel, exists_bootPass _ _ _ (isTree_storageWith _)⟩

/-- Where a link makes the file of the routes that of the listeners, no listeners are left
after a pass that generates both files anew. -/
theorem not_renews_through_link :
    ¬ ∀ (session : Session) (host : Host) (files : FileSystem), IsTree files →
      session.rescansFor host = true →
      ∀ report, (session.boot host files).result = .ok report →
      ∀ kind, session.asks host kind = true →
      ∃ text, session.definitions (session.filesAtScan host files kind) kind = .ok text ∧
        (session.boot host files).files.find (session.storage.path kind) =
          .ok (.file (Registration.file text).toUTF8) := by
  intro claim
  obtain ⟨text, finds, holds⟩ := claim pageSession (.accepting "local")
    (storageWith (.link "events.scanned.php")) (isTree_storageWith _) (by decide)
    ⟨⟨true, some "storage/framework/events.scanned.php"⟩,
      ⟨true, some "storage/framework/routes.scanned.php"⟩⟩ (by decide +kernel) .events (by decide)
  have listeners : pageSession.definitions (pageSession.filesAtScan (.accepting "local")
      (storageWith (.link "events.scanned.php")) .events) .events =
      .ok "$events->listen(array('Opened'), 'Page@open');" := by decide +kernel
  obtain rfl := Except.ok.inj (finds.symm.trans listeners)
  revert holds
  decide +kernel

end Session

end DocblockScan

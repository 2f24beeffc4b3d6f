import DocblockScan.Proofs.Session.Atomicity

/-!
# Lists of classes

A list of class identifiers is looked up one identifier after the other, and the records
of the declarations that are found follow one another: nothing is carried over from one
class to the next. So the records of a list are put together from those of its parts,
`composes_recordsOf`, and identifiers that have no declaration can stand anywhere in a list
without a change of the records, `definitions_of_interleaves`.
-/

namespace DocblockScan

open Outcome (First)

/-! ## Interleaved lists -/

/-- A list that two lists are merged into, each of them in its order. -/
inductive Interleaves {Item : Type} : List Item → List Item → List Item → Prop where
  | nil : Interleaves [] [] []
  | left {item : Item} {left right whole : List Item} (rest : Interleaves left right whole) :
      Interleaves (item :: left) right (item :: whole)
  | right {item : Item} {left right whole : List Item} (rest : Interleaves left right whole) :
      Interleaves left (item :: right) (item :: whole)

/-- What nothing is merged into stays as it is. -/
theorem Interleaves.eq_left {Item : Type} {left whole : List Item}
    (interleaves : Interleaves left [] whole) : whole = left := by
  generalize isNil : ([] : List Item) = right at interleaves
  induction interleaves with
  | nil => rfl
  | left _ inductionHypothesis => rw [inductionHypothesis isNil]
  | right => simp at isNil

/-! ## Lookups -/

namespace ResolvedClasses

/-- Every identifier is either resolved or skipped: the two kinds are interleaved in the
list, in the order of the declarations that are found and of the entries that are kept for
the skipped ones. -/
def Splits (lookup : String → Except ScanError ClassDeclaration) (identifiers : List String)
    (found : ResolvedClasses) : Prop :=
  ∃ resolved, Interleaves resolved (found.skipped.map Prod.fst) identifiers ∧
    List.Forall₂ (fun identifier declaration => lookup identifier = .ok declaration)
      resolved found.classes ∧
    ∀ entry ∈ found.skipped, lookup entry.1 = .error entry.2

variable {lookup : String → Except ScanError ClassDeclaration}

/-- Identifiers are split into resolved and skipped ones, and none is lost. -/
theorem splits_collect (lookup : String → Except ScanError ClassDeclaration)
    (identifiers : List String) : Splits lookup identifiers (collect lookup identifiers) := by
  induction identifiers with
  | nil => exact ⟨[], .nil, .nil, nofun⟩
  | cons identifier others inductionHypothesis =>
      obtain ⟨resolved, interleaves, declared, causes⟩ := inductionHypothesis
      cases found : lookup identifier with
      | ok declaration =>
          rw [collect_cons_ok found]
          exact ⟨identifier :: resolved, .left interleaves, .cons found declared, causes⟩
      | error cause =>
          rw [collect_cons_error found]
          exact ⟨resolved, .right interleaves, declared, List.forall_mem_cons.2 ⟨found, causes⟩⟩

/-- What is found of interleaved lists is interleaved. -/
theorem interleaves_collect {left right whole : List String}
    (interleaves : Interleaves left right whole) :
    Interleaves (collect lookup left).classes (collect lookup right).classes
        (collect lookup whole).classes ∧
      Interleaves (collect lookup left).skipped (collect lookup right).skipped
        (collect lookup whole).skipped := by
  induction interleaves with
  | nil => exact ⟨.nil, .nil⟩
  | @left identifier _ _ _ _ inductionHypothesis =>
      cases found : lookup identifier with
      | ok declaration =>
          rw [collect_cons_ok found, collect_cons_ok found]
          exact ⟨.left inductionHypothesis.1, inductionHypothesis.2⟩
      | error cause =>
          rw [collect_cons_error found, collect_cons_error found]
          exact ⟨inductionHypothesis.1, .left inductionHypothesis.2⟩
  | @right identifier _ _ _ _ inductionHypothesis =>
      cases found : lookup identifier with
      | ok declaration =>
          rw [collect_cons_ok found, collect_cons_ok found]
          exact ⟨.right inductionHypothesis.1, inductionHypothesis.2⟩
      | error cause =>
          rw [collect_cons_error found, collect_cons_error found]
          exact ⟨inductionHypothesis.1, .right inductionHypothesis.2⟩

/-- The declarations of a list are those of its parts. -/
theorem classes_collect_append (front back : List String) :
    (collect lookup (front ++ back)).classes =
      (collect lookup front).classes ++ (collect lookup back).classes := by
  simp only [classes_collect, List.filterMap_append]

/-- Identifiers that have no declaration are all skipped. -/
theorem collect_of_unresolved {identifiers : List String}
    (unresolved : ∀ identifier ∈ identifiers, ∃ cause, lookup identifier = .error cause) :
    (collect lookup identifiers).classes = [] ∧
      (collect lookup identifiers).skipped.map Prod.fst = identifiers := by
  induction identifiers with
  | nil => exact ⟨rfl, rfl⟩
  | cons identifier others inductionHypothesis =>
      obtain ⟨⟨cause, found⟩, unresolved⟩ := List.forall_mem_cons.1 unresolved
      obtain ⟨noClasses, allSkipped⟩ := inductionHypothesis unresolved
      rw [collect_cons_error found]
      exact ⟨noClasses, congrArg (identifier :: ·) allSkipped⟩

/-- Identifiers without a declaration that are put into a list add no declaration and one
skipped entry each. -/
theorem collect_of_interleaves {identifiers inserted all : List String}
    (interleaves : Interleaves identifiers inserted all)
    (unresolved : ∀ identifier ∈ inserted, ∃ cause, lookup identifier = .error cause) :
    (collect lookup all).classes = (collect lookup identifiers).classes ∧
      ∃ added, added.map Prod.fst = inserted ∧
        (∀ entry ∈ added, lookup entry.1 = .error entry.2) ∧
        Interleaves (collect lookup identifiers).skipped added (collect lookup all).skipped := by
  obtain ⟨noClasses, allSkipped⟩ := collect_of_unresolved unresolved
  obtain ⟨classes, skipped⟩ := @interleaves_collect lookup _ _ _ interleaves
  obtain ⟨-, -, -, causes⟩ := splits_collect lookup inserted
  rw [noClasses] at classes
  exact ⟨classes.eq_left, _, allSkipped, causes, skipped⟩

end ResolvedClasses

/-- A lookup among source files fails in one way only, whatever stopped it: the class is
unresolved. -/
theorem ClassSource.unresolvedClass_of_resolve {parser : SourceCode.Parser}
    {directory rootNamespace : String} {files : FileSystem} {identifier : String}
    {cause : ScanError}
    (fails : (sourceFiles parser directory rootNamespace).resolve files identifier =
      .error cause) :
    ∃ fault, cause = .unresolvedClass (Namespace.trim identifier) fault := by
  rw [resolve_sourceFiles] at fails
  obtain ⟨fault, -, rfl⟩ := (Outcome.mapError_eq_error_iff _ _ _).1 fails
  exact ⟨fault, rfl⟩

/-! ## Records -/

/-- Results of lists that follow one another as the lists do: a list has a result if its
parts have, and otherwise it fails as the first part that does. -/
structure Composes {Item Record : Type}
    (all : List Item → Except ScanError (List Record)) : Prop where
  nil : all [] = .ok []
  append : ∀ front back, all (front ++ back) = do return (← all front) ++ (← all back)

namespace Composes

variable {Item Record : Type} {all : List Item → Except ScanError (List Record)}

/-- Results that are put together item by item compose. -/
theorem of_mapM (one : Item → Except ScanError (List Record)) :
    Composes fun items => do return (← items.mapM one).flatten where
  nil := rfl
  append := fun front back => by
    rw [List.mapM_append]
    cases front.mapM one with
    | error cause => rfl
    | ok results =>
        cases back.mapM one with
        | error cause => rfl
        | ok others => exact congrArg Except.ok List.flatten_append

theorem cons (composes : Composes all) (item : Item) (others : List Item) :
    all (item :: others) = do return (← all [item]) ++ (← all others) :=
  composes.append [item] others

/-- A list fails as the first of its items that does on its own. -/
theorem eq_error_iff (composes : Composes all) {items : List Item} {cause : ScanError} :
    all items = .error cause ↔
      First (fun item other => all [item] = .error other) items cause := by
  induction items generalizing cause with
  | nil => simp [composes.nil, First.not_nil]
  | cons item others inductionHypothesis =>
      rw [composes.cons, First.cons_iff]
      refine Outcome.bind_eq_error_iff_or (fun _ => Iff.rfl) (fun records fault => ?_) cause
      exact (Outcome.map_eq_error_iff (records ++ ·) _ _).trans inductionHypothesis

/-- An item that is listed twice has its results twice. -/
theorem twice (composes : Composes all) {item : Item} {own : List Record}
    (found : all [item] = .ok own) (before between after : List Item) :
    all (before ++ item :: between ++ item :: after) = do
      return (← all before) ++ own ++ (← all between) ++ own ++ (← all after) := by
  rw [composes.append, composes.append, composes.cons item between, composes.cons item after, found]
  cases all before with
  | error cause => rfl
  | ok first =>
      cases all between with
      | error cause => rfl
      | ok middle =>
          cases all after with
          | error cause => rfl
          | ok last =>
              refine congrArg Except.ok ?_
              simp only [List.append_assoc]

end Composes

namespace Session

/-- The records of a list of declarations, or the error of the first one that fails. -/
def recordsOf (kind : DefinitionKind) (registry : Registry)
    (declarations : List ClassDeclaration) : Except ScanError (List kind.Record) := do
  return (← declarations.mapM (declared kind registry)).flatten

variable {kind : DefinitionKind} {registry : Registry}
variable {lookup : String → Except ScanError ClassDeclaration}

theorem composes_recordsOf (kind : DefinitionKind) (registry : Registry) :
    Composes (recordsOf kind registry) :=
  .of_mapM (declared kind registry)

/-- The records of a single declaration are its own ones. -/
theorem recordsOf_singleton (declaration : ClassDeclaration) :
    recordsOf kind registry [declaration] = declared kind registry declaration := by
  rw [recordsOf, List.mapM_cons, List.mapM_nil]
  cases declared kind registry declaration with
  | error cause => rfl
  | ok records => exact congrArg Except.ok (List.append_nil records)

/-- A list of declarations fails as the first of them that does. -/
theorem recordsOf_eq_error_iff {declarations : List ClassDeclaration} {cause : ScanError} :
    recordsOf kind registry declarations = .error cause ↔
      First (fun declaration other => declared kind registry declaration = .error other)
        declarations cause := by
  rw [(composes_recordsOf kind registry).eq_error_iff]
  simp only [recordsOf_singleton]

/-- The records of a list of identifiers are put together from those of its parts. -/
theorem composes_recordsOf_collect (kind : DefinitionKind) (registry : Registry)
    (lookup : String → Except ScanError ClassDeclaration) :
    Composes fun identifiers =>
      recordsOf kind registry (ResolvedClasses.collect lookup identifiers).classes where
  nil := (composes_recordsOf kind registry).nil
  append := fun front back => by
    rw [ResolvedClasses.classes_collect_append, (composes_recordsOf kind registry).append]

/-- Definitions are emitted from the records of the classes that are found. -/
theorem definitions_eq_recordsOf (session : Session) (files : FileSystem)
    (kind : DefinitionKind) :
    session.definitions files kind = (do
      let identifiers ← session.identifiers files kind
      let registry ← session.registry files kind
      let found := ResolvedClasses.of session.source files identifiers
      return kind.statements (← recordsOf kind registry found.classes)) := by
  simp only [definitions_eq_records, discover, recordsOf, bind_assoc, pure_bind]

/-- Identifiers without a declaration that are put into the list of a scan change nothing
that it emits. -/
theorem definitions_of_interleaves {session other : Session} {files : FileSystem}
    {identifiers inserted all : List String} (source : other.source = session.source)
    (registry : other.registry files kind = session.registry files kind)
    (lists : session.identifiers files kind = .ok identifiers)
    (listsAll : other.identifiers files kind = .ok all)
    (interleaves : Interleaves identifiers inserted all)
    (unresolved : ∀ identifier ∈ inserted,
      ∃ cause, session.source.resolve files identifier = .error cause) :
    other.definitions files kind = session.definitions files kind := by
  have classes := (ResolvedClasses.collect_of_interleaves interleaves unresolved).1
  rw [definitions_eq_recordsOf, definitions_eq_recordsOf, lists, listsAll, registry, source,
    ResolvedClasses.of_eq_collect]
  simp only [bind, Except.bind, classes]

/-! ## Laws -/

open ResolvedClasses (collect Splits)

/-- What holds of lists of identifiers with any lookup, and of the records of both kinds that
are read with any registry. -/
structure ListLaws (lookup : String → Except ScanError ClassDeclaration) (kind : DefinitionKind)
    (registry : Registry) : Prop where
  /-- Identifiers are split into resolved and skipped ones, in order, and none is lost. -/
  splits : ∀ identifiers, Splits lookup identifiers (collect lookup identifiers)
  /-- The records of two lists of classes follow one another, if both lists have some; the
  first list may fail, and then the second one. -/
  append : ∀ front back, recordsOf kind registry (front ++ back) =
    do return (← recordsOf kind registry front) ++ (← recordsOf kind registry back)
  /-- A list of classes fails exactly if one of them does, with the error of the first one. -/
  firstFailure : ∀ declarations cause, recordsOf kind registry declarations = .error cause ↔
    First (fun declaration other => declared kind registry declaration = .error other)
      declarations cause
  /-- Identifiers that are not resolved can be put anywhere into a list: all that is new is
  an entry among the skipped ones for each of them. -/
  transparent : ∀ identifiers inserted all, Interleaves identifiers inserted all →
    (∀ identifier ∈ inserted, ∃ cause, lookup identifier = .error cause) →
    (collect lookup all).classes = (collect lookup identifiers).classes ∧
      recordsOf kind registry (collect lookup all).classes =
        recordsOf kind registry (collect lookup identifiers).classes ∧
      ∃ added, added.map Prod.fst = inserted ∧
        (∀ entry ∈ added, lookup entry.1 = .error entry.2) ∧
        Interleaves (collect lookup identifiers).skipped added (collect lookup all).skipped
  /-- An identifier that is listed twice has its records twice. -/
  twice : ∀ before identifier between after own,
    recordsOf kind registry (collect lookup [identifier]).classes = .ok own →
    recordsOf kind registry
        (collect lookup (before ++ identifier :: between ++ identifier :: after)).classes = do
      return (← recordsOf kind registry (collect lookup before).classes) ++ own ++
        (← recordsOf kind registry (collect lookup between).classes) ++ own ++
        (← recordsOf kind registry (collect lookup after).classes)

theorem listLaws (lookup : String → Except ScanError ClassDeclaration) (kind : DefinitionKind)
    (registry : Registry) : ListLaws lookup kind registry where
  splits := ResolvedClasses.splits_collect lookup
  append := (composes_recordsOf kind registry).append
  firstFailure := fun _ _ => recordsOf_eq_error_iff
  transparent := fun _ _ _ interleaves unresolved => by
    obtain ⟨classes, added⟩ := ResolvedClasses.collect_of_interleaves interleaves unresolved
    exact ⟨classes, congrArg _ classes, added⟩
  twice := fun before _ between after _ found =>
    (composes_recordsOf_collect kind registry lookup).twice found before between after

/-- Lists of classes compose, and classes that are not resolved are transparent, for every
lookup and in particular for those of all class sources, for endpoints and for listeners. A
lookup among source files fails as an unresolved class only, and a scan emits the same
definitions whatever unresolved identifiers are put into its list. -/
theorem classLists_compose :
    (∀ lookup kind registry, ListLaws lookup kind registry) ∧
    (∀ source files, ResolvedClasses.of source files = collect (source.resolve files)) ∧
    (recordsOf .routes = endpointsOf ∧ recordsOf .events = listenersOf) ∧
    (∀ parser directory rootNamespace files identifier cause,
      (ClassSource.sourceFiles parser directory rootNamespace).resolve files identifier =
        .error cause →
      ∃ fault, cause = .unresolvedClass (Namespace.trim identifier) fault) ∧
    ∀ (session other : Session) (files : FileSystem) (kind : DefinitionKind)
      (identifiers inserted all : List String),
      other.source = session.source → other.registry files kind = session.registry files kind →
      session.identifiers files kind = .ok identifiers →
      other.identifiers files kind = .ok all → Interleaves identifiers inserted all →
      (∀ identifier ∈ inserted, ∃ cause, session.source.resolve files identifier = .error cause) →
      other.definitions files kind = session.definitions files kind :=
  ⟨listLaws, ResolvedClasses.of_eq_collect, ⟨rfl, rfl⟩,
    fun _ _ _ _ _ _ => ClassSource.unresolvedClass_of_resolve,
    fun _ _ _ _ _ _ _ source registry lists listsAll interleaves unresolved =>
      definitions_of_interleaves source registry lists listsAll interleaves unresolved⟩

/-- A session that scans some classes of which only `Page` is declared. -/
def pageListSession (classes : List String) : Session where
  config := { routes := { classes } }
  source := .ofDeclarations [⟨"Page", none, [⟨"show", some "/** @Get(\"/\") */"⟩], none⟩]
  storage := ⟨"storage"⟩

/-- Classes that are declared nowhere do not show in the definitions of a page. -/
theorem classLists_compose_page :
    (pageListSession ["Gone", "Page", "Lost"]).definitions ⟨.empty, []⟩ .routes =
        (pageListSession ["Page"]).definitions ⟨.empty, []⟩ .routes ∧
      ((pageListSession ["Page"]).definitions ⟨.empty, []⟩ .routes).isOk = true := by
  have unresolved : ∀ identifier ∈ ["Gone", "Lost"],
      ∃ cause, (pageListSession ["Page"]).source.resolve ⟨.empty, []⟩ identifier = .error cause :=
    List.forall_mem_cons.2 ⟨⟨_, rfl⟩, List.forall_mem_cons.2 ⟨⟨_, rfl⟩, nofun⟩⟩
  have interleaves : Interleaves ["Page"] ["Gone", "Lost"] ["Gone", "Page", "Lost"] :=
    .right (.left (.right .nil))
  refine ⟨?_, by decide +kernel⟩
  exact classLists_compose.2.2.2.2 (pageListSession ["Page"]) (pageListSession ["Gone", "Page", "Lost"])
    ⟨.empty, []⟩ .routes _ _ _ rfl rfl rfl rfl interleaves unresolved

end Session

end DocblockScan

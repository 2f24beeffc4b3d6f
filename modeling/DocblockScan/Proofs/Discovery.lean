import DocblockScan.Discovery
import DocblockScan.Registry
import DocblockScan.Storage
import DocblockScan.Proofs.FileSystem.Walk
import DocblockScan.Proofs.Namespace
import DocblockScan.Proofs.Outcome

/-!
# Discovery among generated files

The names of generated files have a dot before their extension. What discovery makes
of them are dotted names, so a file system that grows by generated files holds the
same classes as before, but for dotted ones: `Grows.identifiers`.
-/

namespace DocblockScan

open FileSystem Namespace

/-- The names of all generated files. -/
def generatedNames : List String :=
  [DefinitionKind.events.fileName, DefinitionKind.routes.fileName]

theorem DefinitionKind.fileName_mem (kind : DefinitionKind) : kind.fileName ∈ generatedNames := by
  cases kind <;> simp [generatedNames]

theorem exists_kind_of_mem {name : String} (member : name ∈ generatedNames) :
    ∃ kind : DefinitionKind, name = kind.fileName := by
  simp only [generatedNames, List.mem_cons, List.not_mem_nil, or_false] at member
  rcases member with rfl | rfl
  · exact ⟨.events, rfl⟩
  · exact ⟨.routes, rfl⟩

/-- A way that ends with a generated name. -/
theorem exists_kind_of_endsReserved {way : Location}
    (ends : endsReserved generatedNames way = true) :
    ∃ kind : DefinitionKind, way.getLast? = some kind.fileName := by
  unfold endsReserved at ends
  cases last : way.getLast? with
  | none => simp [last] at ends
  | some name =>
      obtain ⟨kind, rfl⟩ := exists_kind_of_mem (by simpa [last] using ends)
      exact ⟨kind, rfl⟩

/-- The name of a generated file without its extension: a dot stands between characters
that trimming keeps. -/
theorem DefinitionKind.exists_stem (kind : DefinitionKind) :
    ∃ first middle last, (Path.stem kind.fileName).toList = first :: (middle ++ [last]) ∧
      isEdge first = false ∧ isEdge last = false ∧ '.' ∈ middle ∧
      separator ∉ (Path.stem kind.fileName).toList := by
  cases kind with
  | events => exact ⟨'e', "vents.scanne".toList, 'd', by decide⟩
  | routes => exact ⟨'r', "outes.scanne".toList, 'd', by decide⟩

/-- What stands before the extension of a generated file has a dot of its own. -/
theorem dot_mem_of_fileName {stem : String} {kind : DefinitionKind}
    (named : stem ++ "." ++ Registry.sourceExtension = kind.fileName) : '.' ∈ stem.toList := by
  have split : stem.toList ++ ".php".toList = (Path.stem kind.fileName).toList ++ ".php".toList := by
    have whole : kind.fileName.toList = (Path.stem kind.fileName).toList ++ ".php".toList := by
      cases kind <;> decide
    rw [← whole, ← named]
    simp [Registry.sourceExtension]
  obtain ⟨first, middle, last, letters, -, -, dot, -⟩ := kind.exists_stem
  rw [List.append_cancel_right split, letters]
  simp [dot]

/-- The class of a generated file is dotted. -/
theorem Discovery.isDotted_of_classOfWay? {discovery : Discovery} {name className : String}
    {way : Location} (ends : endsReserved generatedNames way = true)
    (found : discovery.classOfWay? name way = some className) : isDotted className = true := by
  obtain ⟨kind, last⟩ := exists_kind_of_endsReserved ends
  simp only [classOfWay?, last, Option.bind_eq_bind, Option.bind_some,
    Option.ite_none_right_eq_some, Option.some.injEq] at found
  obtain ⟨-, rfl⟩ := found
  obtain ⟨first, middle, final, letters, starts, finishes, dot, single⟩ := kind.exists_stem
  exact isDotted_join (name :: way.dropLast) letters starts finishes dot single

/-! ## Names but for the dotted ones -/

/-- Two lists of names that differ in dotted names only. -/
def SameUndotted (left right : List String) : Prop :=
  left.filter (!isDotted ·) = right.filter (!isDotted ·)

theorem SameUndotted.append {left right lefts rights : List String}
    (first : SameUndotted left right) (second : SameUndotted lefts rights) :
    SameUndotted (left ++ lefts) (right ++ rights) := by
  unfold SameUndotted at first second ⊢
  rw [List.filter_append, List.filter_append, first, second]

theorem SameUndotted.flatten {lefts rights : List (List String)}
    (all : List.Forall₂ SameUndotted lefts rights) :
    SameUndotted lefts.flatten rights.flatten := by
  induction all with
  | nil => rfl
  | cons first _ inductionHypothesis => exact first.append inductionHypothesis

/-- Class filters ask for single names, and keep lists the same but for dotted names. -/
theorem SameUndotted.filterClasses {left right : List String} (same : SameUndotted left right)
    (only except : List String) :
    SameUndotted (filterClasses only except left) (filterClasses only except right) := by
  unfold SameUndotted DocblockScan.filterClasses at *
  rw [List.filter_comm, same, List.filter_comm]

/-- Where all that is passed over would be dotted, it may be passed over. -/
theorem SameUndotted.of_filter {Element : Type} {toName : Element → Option String}
    {keeps : Element → Bool}
    (dotted : ∀ element name, keeps element = false → toName element = some name →
      isDotted name = true) {left right : List Element}
    (same : left.filter keeps = right.filter keeps) :
    SameUndotted (left.filterMap toName) (right.filterMap toName) := by
  have passed : ∀ elements : List Element,
      (elements.filterMap toName).filter (!isDotted ·) =
        ((elements.filter keeps).filterMap toName).filter (!isDotted ·) := by
    intro elements
    induction elements with
    | nil => rfl
    | cons element rest inductionHypothesis =>
        cases kept : keeps element with
        | true =>
            cases named : toName element <;>
              simp [kept, named, List.filter_cons, inductionHypothesis]
        | false =>
            cases named : toName element with
            | none => simp [kept, named, inductionHypothesis]
            | some name => simp [kept, named, inductionHypothesis, dotted element name kept named]
  unfold SameUndotted
  rw [passed left, passed right, same]

/-! ## Discovery in a file system that has grown -/

variable {old new : FileSystem}

/-- The classes of a namespace that could be listed are the same afterwards, but for
dotted ones. -/
theorem Discovery.exists_classesIn (discovery : Discovery) (grows : Grows generatedNames old new)
    (name : String) (found : List String) (lists : discovery.classesIn old name = .ok found) :
    ∃ others, discovery.classesIn new name = .ok others ∧ SameUndotted others found := by
  unfold classesIn at lists ⊢
  dsimp only at lists ⊢
  split at lists
  · next isDirectory =>
      rw [if_pos (grows.isDirectory isDirectory)]
      split at lists
      · next ways walks =>
          obtain rfl := Except.ok.inj lists
          obtain ⟨others, walksToo, same⟩ := grows.walk walks
          rw [walksToo]
          refine ⟨_, rfl, .of_filter (fun way className ends made => ?_) same⟩
          exact isDotted_of_classOfWay? (by simpa using ends) made
      · simp at lists
  · simp at lists

/-- The classes of a scan are the same afterwards, but for dotted ones. -/
theorem Discovery.exists_identifiers (discovery : Discovery)
    (grows : Grows generatedNames old new) {named others : List String} {scan : NamespaceScan}
    {found : List String} (same : SameUndotted others named)
    (lists : discovery.identifiers old named scan = .ok found) :
    ∃ founds, discovery.identifiers new others scan = .ok founds ∧ SameUndotted founds found := by
  unfold identifiers expand at lists ⊢
  simp only [Outcome.bind_eq_ok_iff] at lists
  obtain ⟨_, ⟨classes, maps, kept⟩, result⟩ := lists
  obtain rfl := Except.ok.inj kept
  obtain rfl := Except.ok.inj result
  obtain ⟨otherClasses, mapsToo, all⟩ :=
    Outcome.exists_mapM (fun name _ => discovery.exists_classesIn grows name) maps
  refine ⟨others ++ filterClasses scan.only scan.except otherClasses.flatten, ?_,
    same.append ((SameUndotted.flatten all).filterClasses _ _)⟩
  rw [mapsToo]
  rfl

end DocblockScan

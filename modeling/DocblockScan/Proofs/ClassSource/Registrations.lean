import DocblockScan.ClassSource
import DocblockScan.Proofs.OrderedMap
import Mathlib.Data.Finset.Card

/-!
# Classes that are registered

A source of declarations is filled by registrations, one after the other. It answers a name
with the declaration that was registered last under that name, where blanks and separators at
the ends of names do not count: `latest_registration_counts`.
-/

namespace DocblockScan.ClassSource

open Namespace (trim)

/-! ## Registering -/

/-- What a source holds after some registrations. -/
def held (declarations : List ClassDeclaration) : OrderedMap String ClassDeclaration :=
  declarations.foldl register .empty

/-- A declaration is the latest one under a name: those that are registered after it have
other names. -/
def IsLatest (declarations : List ClassDeclaration) (name : String)
    (declaration : ClassDeclaration) : Prop :=
  ∃ before after, declarations = before ++ declaration :: after ∧
    trim declaration.name = trim name ∧ ∀ later ∈ after, trim later.name ≠ trim name

variable {files : FileSystem} {name : String}

/-- A source answers with what it holds under the trimmed name. -/
theorem resolve_declared (classes : OrderedMap String ClassDeclaration) :
    (declared classes).resolve files name =
      (classes.get? (trim name)).elim (.error (.unresolvedClass name .notRegistered)) .ok := by
  change resolveDeclared classes name = _
  unfold resolveDeclared
  cases classes.get? (trim name) <;> rfl

/-- A registration changes the answer for its own name only. -/
theorem resolve_register (classes : OrderedMap String ClassDeclaration)
    (declaration : ClassDeclaration) :
    (declared (register classes declaration)).resolve files name =
      if trim name = trim declaration.name then .ok declaration
      else (declared classes).resolve files name := by
  rw [resolve_declared, resolve_declared, register, OrderedMap.get?_insert]
  split <;> rfl

/-! ## Histories -/

variable {declarations : List ClassDeclaration}

/-- A history that goes on. -/
theorem held_concat (declarations : List ClassDeclaration) (declaration : ClassDeclaration) :
    held (declarations ++ [declaration]) = register (held declarations) declaration :=
  List.foldl_append

/-- The entries under which declarations are registered. -/
theorem held_eq_ofList (declarations : List ClassDeclaration) :
    held declarations =
      .ofList (declarations.map fun declaration => (trim declaration.name, declaration)) := by
  rw [OrderedMap.ofList, OrderedMap.insertAll, List.foldl_map]
  rfl

/-- What is held under a name is the latest declaration of it. -/
theorem get?_held_iff {declaration : ClassDeclaration} :
    (held declarations).get? (trim name) = some declaration ↔
      IsLatest declarations name declaration := by
  rw [held_eq_ofList, OrderedMap.get?_ofList_eq_some_iff]
  constructor
  · rintro ⟨before, after, split, fresh⟩
    obtain ⟨first, rest, rfl, rfl, tail⟩ := List.map_eq_append_iff.1 split
    obtain ⟨latest, others, rfl, same, rfl⟩ := List.map_eq_cons_iff.1 tail
    obtain ⟨named, rfl⟩ := Prod.mk.inj same
    exact ⟨first, others, rfl, named, by simpa using fresh⟩
  · rintro ⟨before, after, rfl, named, latest⟩
    refine ⟨_, _, by rw [List.map_append, List.map_cons, named], by simpa using latest⟩

/-- The trimmed names are held in the order in which they are registered first. -/
theorem keys_held (declarations : List ClassDeclaration) :
    (held declarations).keys = (declarations.map fun declaration => trim declaration.name).eraseDups := by
  rw [held_eq_ofList, OrderedMap.keys_ofList, List.map_map]
  rfl

/-- Nothing is held under a name exactly if no declaration has it. -/
theorem get?_held_eq_none_iff :
    (held declarations).get? (trim name) = none ↔
      ∀ declaration ∈ declarations, trim declaration.name ≠ trim name := by
  rw [← Option.not_isSome_iff_eq_none]
  refine (OrderedMap.contains_iff (held declarations) (trim name)).not.trans ?_
  rw [keys_held, List.mem_eraseDups]
  simp

/-- As many declarations are held as there are different names. -/
theorem size_held (declarations : List ClassDeclaration) :
    (held declarations).size =
      (declarations.map fun declaration => trim declaration.name).toFinset.card := by
  have sameNames : (declarations.map fun declaration => trim declaration.name).toFinset =
      (held declarations).keys.toFinset := by
    ext name
    rw [keys_held, List.mem_toFinset, List.mem_toFinset, List.mem_eraseDups]
  have distinct : (held declarations).keys.Nodup := (held declarations).distinct
  rw [sameNames, List.toFinset_card_of_nodup distinct, OrderedMap.size, OrderedMap.keys,
    List.length_map]

/-- Nothing is held exactly if nothing was registered. -/
theorem isEmpty_held_iff : (held declarations).isEmpty = true ↔ declarations = [] := by
  rw [OrderedMap.isEmpty_iff, keys_held]
  cases declarations with
  | nil => simp
  | cons declaration others => simp [List.eraseDups_cons]

/-- Whatever was registered, a name is answered with the declaration that was registered last
under it, as it was registered, and fails exactly if there is none, with an error that carries
the name as it was asked for. As many declarations are held as there are different trimmed
names, and none exactly if nothing was registered. One more registration answers its own name,
and changes the answer for no other one. -/
theorem latest_registration_counts (declarations : List ClassDeclaration) :
    (∀ files name declaration, (ofDeclarations declarations).resolve files name = .ok declaration ↔
      IsLatest declarations name declaration) ∧
    (∀ files name error, (ofDeclarations declarations).resolve files name = .error error ↔
      error = .unresolvedClass name .notRegistered ∧
        ∀ declaration ∈ declarations, trim declaration.name ≠ trim name) ∧
    (held declarations).size =
      (declarations.map fun declaration => trim declaration.name).toFinset.card ∧
    ((held declarations).isEmpty = true ↔ declarations = []) ∧
    ∀ files name again, (ofDeclarations (declarations ++ [again])).resolve files name =
      if trim name = trim again.name then .ok again
      else (ofDeclarations declarations).resolve files name := by
  have source : ∀ declarations, ofDeclarations declarations = .declared (held declarations) :=
    fun _ => rfl
  refine ⟨fun files name declaration => ?_, fun files name error => ?_, size_held declarations,
    isEmpty_held_iff, fun files name again => ?_⟩
  · rw [source, resolve_declared, ← get?_held_iff]
    cases (held declarations).get? (trim name) <;> simp
  · rw [source, resolve_declared, ← get?_held_eq_none_iff]
    cases (held declarations).get? (trim name) <;> simp [eq_comm]
  · rw [source, source, held_concat, resolve_register]

/-- A class that is registered again under another spelling of its name, after another one. -/
def renewedMailer : List ClassDeclaration := [
  ⟨"App\\Mailer", none, [], none⟩,
  ⟨"App\\Page", none, [], none⟩,
  ⟨" \\App\\Mailer\\", some "/** Sends mail. */", [⟨"send", none⟩], none⟩]

/-- All spellings of the name are answered with the second registration as it was made, and
there are two classes. -/
theorem latest_registration_counts_mailer :
    (ofDeclarations renewedMailer).resolve ⟨.empty, []⟩ "\\App\\Mailer " =
        .ok ⟨" \\App\\Mailer\\", some "/** Sends mail. */", [⟨"send", none⟩], none⟩ ∧
      (ofDeclarations renewedMailer).resolve ⟨.empty, []⟩ " Mailer" =
        .error (.unresolvedClass " Mailer" .notRegistered) ∧
      (held renewedMailer).size = 2 := by
  obtain ⟨answers, fails, size, -, -⟩ := latest_registration_counts renewedMailer
  refine ⟨(answers _ _ _).2 ⟨[_, _], [], rfl, by decide, nofun⟩, (fails _ _ _).2 ⟨rfl, by decide⟩, ?_⟩
  rw [size]
  decide

end DocblockScan.ClassSource

import DocblockScan.Proofs.OrderedMap
import DocblockScan.Proofs.Outcome
import DocblockScan.TagSet

/-!
# Reading a class

A class has a place for a docblock on itself and on each method that it declares. It is read
whole or not at all: it is refused with the first place whose docblock cannot be read, and
otherwise no method is lost: `read_all_or_nothing`. Of methods with one name the first gives
the position and the last the tags.
-/

namespace DocblockScan

open Outcome (First)

/-! ## Places of docblocks -/

/-- A place for a docblock, on a class or on one of its methods, and what stands there. -/
structure DocPlace where
  method : Option String
  doc : Option String
deriving Repr, DecidableEq

/-- The places in a class in the order in which they are read. A method that repeats a name
has a place of its own. -/
def ClassDeclaration.docPlaces (declaration : ClassDeclaration) : List DocPlace :=
  ⟨none, declaration.doc⟩ :: declaration.methods.map fun method => ⟨some method.name, method.doc⟩

/-- The tags that a docblock carries. Where there is no docblock there are none. -/
inductive Carries (registry : Registry) : Option String → List Tag → Prop where
  | nothing : Carries registry none []
  | tags {comment : String} {tags : List Tag}
      (parsed : Docblock.parse registry.resolve? comment = .ok tags) :
      Carries registry (some comment) tags

/-- A docblock cannot be read, because of a fault on one of its lines. -/
inductive Garbled (registry : Registry) : Option String → Docblock.LocatedFault → Prop where
  | intro {comment : String} {located : Docblock.LocatedFault}
      (refused : Docblock.parse registry.resolve? comment = .error located) :
      Garbled registry (some comment) located

/-- A class is refused because of a place, with an error that names the place, the line and
the fault. -/
def DocPlace.Fails (registry : Registry) (className : String) (place : DocPlace)
    (error : ScanError) : Prop :=
  ∃ located, Garbled registry place.doc located ∧
    error = .badTag className place.method (.docblock located)

section Places

variable {registry : Registry} {className : String} {place : DocPlace}

/-- A docblock carries one list of tags only. -/
theorem Carries.unique {doc : Option String} {tags others : List Tag} (carries : Carries registry doc tags)
    (carriesToo : Carries registry doc others) : tags = others := by
  cases carries with
  | nothing => cases carriesToo; rfl
  | tags parsed =>
      cases carriesToo with
      | tags parsedToo => exact Except.ok.inj (parsed.symm.trans parsedToo)

/-- A docblock is not garbled exactly if it carries tags, though maybe none. -/
theorem forall_not_garbled_iff {doc : Option String} :
    (∀ located, ¬ Garbled registry doc located) ↔ ∃ tags, Carries registry doc tags := by
  cases doc with
  | none => exact ⟨fun _ => ⟨[], .nothing⟩, fun _ _ => nofun⟩
  | some comment =>
      cases outcome : Docblock.parse registry.resolve? comment with
      | ok tags =>
          refine ⟨fun _ => ⟨tags, .tags outcome⟩, fun _ located garbled => ?_⟩
          obtain ⟨refused⟩ := garbled
          simp [outcome] at refused
      | error located =>
          refine ⟨fun clear => absurd (.intro outcome) (clear located), ?_⟩
          rintro ⟨tags, _ | parsed⟩
          simp [outcome] at parsed

/-- A place makes no class fail exactly if its docblock can be read. -/
theorem DocPlace.forall_not_fails_iff :
    (∀ error, ¬ place.Fails registry className error) ↔ ∃ tags, Carries registry place.doc tags := by
  rw [← forall_not_garbled_iff]
  constructor
  · exact fun passes located garbled => passes _ ⟨located, garbled, rfl⟩
  · rintro clear error ⟨located, garbled, -⟩
    exact clear located garbled

theorem TagSet.readDoc_eq_ok_iff {method doc : Option String} {tags : List Tag} :
    readDoc registry className method doc = .ok tags ↔ Carries registry doc tags := by
  unfold readDoc
  cases doc with
  | none =>
      constructor
      · rintro ⟨⟩
        exact .nothing
      · rintro ⟨⟩
        rfl
  | some comment =>
      refine (Outcome.mapError_eq_ok_iff _ _ _).trans ⟨.tags, ?_⟩
      rintro (_ | parsed)
      exact parsed

theorem TagSet.readDoc_eq_error_iff {method doc : Option String} {error : ScanError} :
    readDoc registry className method doc = .error error ↔
      DocPlace.Fails registry className ⟨method, doc⟩ error := by
  unfold readDoc
  cases doc with
  | none =>
      refine ⟨nofun, ?_⟩
      rintro ⟨located, ⟨⟩, -⟩
  | some comment =>
      refine (Outcome.mapError_eq_error_iff _ _ _).trans (exists_congr fun located => ?_)
      refine and_congr ⟨.intro, ?_⟩ eq_comm
      rintro ⟨refused⟩
      exact refused

end Places

/-! ## Tags of a class -/

/-- The tags of a class are what its docblocks say, and all of these can be read. The methods
are those that are declared, each where its name is declared first and with what its last
declaration carries. -/
structure TagSet.Gathers (registry : Registry) (declaration : ClassDeclaration) (tags : TagSet) :
    Prop where
  readable : ∀ method ∈ declaration.methods, ∃ carried, Carries registry method.doc carried
  onClass : Carries registry declaration.doc tags.onClass
  methods : tags.onMethods.keys = declaration.methodNames.eraseDups
  lastCarries : ∀ before method after, declaration.methods = before ++ method :: after →
    (∀ later ∈ after, later.name ≠ method.name) →
    ∃ carried, tags.onMethods.get? method.name = some carried ∧ Carries registry method.doc carried

namespace TagSet

variable {registry : Registry} {declaration : ClassDeclaration}

/-- The tags of a method are read under its name. -/
theorem readMethod_eq_ok_iff {className : String} {method : MethodDeclaration}
    {entry : String × List Tag} :
    readMethod registry className method = .ok entry ↔
      entry.1 = method.name ∧ Carries registry method.doc entry.2 := by
  refine (Outcome.bind_eq_ok_iff _ _ _).trans ?_
  simp only [readDoc_eq_ok_iff]
  constructor
  · rintro ⟨carried, carries, same⟩
    obtain rfl := Except.ok.inj same
    exact ⟨rfl, carries⟩
  · obtain ⟨name, carried⟩ := entry
    rintro ⟨rfl, carries⟩
    exact ⟨carried, carries, rfl⟩

/-- The entries that are read from methods, one for each declaration. -/
def ReadEach (registry : Registry) : List MethodDeclaration → List (String × List Tag) → Prop :=
  List.Forall₂ fun method entry => entry.1 = method.name ∧ Carries registry method.doc entry.2

theorem read_eq_ok_iff_entries {tags : TagSet} :
    read registry declaration = .ok tags ↔
      Carries registry declaration.doc tags.onClass ∧
        ∃ entries, ReadEach registry declaration.methods entries ∧
          tags.onMethods = .ofList entries := by
  simp only [read, Outcome.bind_eq_ok_iff, Outcome.mapM_eq_ok_iff, readMethod_eq_ok_iff,
    readDoc_eq_ok_iff]
  constructor
  · rintro ⟨onClass, carries, entries, each, same⟩
    obtain rfl := Except.ok.inj same
    exact ⟨carries, entries, each, rfl⟩
  · obtain ⟨onClass, onMethods⟩ := tags
    rintro ⟨carries, entries, each, rfl⟩
    exact ⟨onClass, carries, entries, each, rfl⟩

/-- The entries have the names of the methods. -/
theorem ReadEach.names {methods : List MethodDeclaration} {entries : List (String × List Tag)}
    (each : ReadEach registry methods entries) :
    entries.map Prod.fst = methods.map MethodDeclaration.name := by
  induction each with
  | nil => rfl
  | cons first _ inductionHypothesis => rw [List.map_cons, List.map_cons, first.1, inductionHypothesis]

/-- A declaration in the middle has its entry in the middle. -/
theorem ReadEach.split {before after : List MethodDeclaration} {method : MethodDeclaration}
    {entries : List (String × List Tag)}
    (each : ReadEach registry (before ++ method :: after) entries) :
    ∃ earlier carried later, entries = earlier ++ (method.name, carried) :: later ∧
      Carries registry method.doc carried ∧ ReadEach registry after later := by
  induction before generalizing entries with
  | nil =>
      cases each with
      | @cons _ entry _ later first rest =>
          exact ⟨[], entry.2, later, by rw [← first.1]; rfl, first.2, rest⟩
  | cons other before inductionHypothesis =>
      cases each with
      | @cons _ entry _ _ first rest =>
          obtain ⟨earlier, carried, later, rfl, carries, others⟩ := inductionHypothesis rest
          exact ⟨entry :: earlier, carried, later, rfl, carries, others⟩

/-- Entries can be read from methods whose docblocks can be. -/
theorem exists_readEach {methods : List MethodDeclaration}
    (readable : ∀ method ∈ methods, ∃ carried, Carries registry method.doc carried) :
    ∃ entries, ReadEach registry methods entries := by
  induction methods with
  | nil => exact ⟨[], .nil⟩
  | cons method others inductionHypothesis =>
      obtain ⟨⟨carried, carries⟩, readable⟩ := List.forall_mem_cons.1 readable
      obtain ⟨entries, each⟩ := inductionHypothesis readable
      exact ⟨(method.name, carried) :: entries, .cons ⟨rfl, carries⟩ each⟩

/-- What is read from a class is told by its docblocks. -/
theorem gathers_of_read {tags : TagSet} (read : read registry declaration = .ok tags) :
    tags.Gathers registry declaration := by
  obtain ⟨onClass, entries, each, onMethods⟩ := read_eq_ok_iff_entries.1 read
  refine ⟨fun method member => ?_, onClass, ?_, fun before method after split last => ?_⟩
  · obtain ⟨before, after, split⟩ := List.append_of_mem member
    rw [split] at each
    obtain ⟨-, carried, -, -, carries, -⟩ := each.split
    exact ⟨carried, carries⟩
  · rw [onMethods, OrderedMap.keys_ofList, each.names, ClassDeclaration.methodNames]
  · rw [split] at each
    obtain ⟨earlier, carried, later, rfl, carries, others⟩ := each.split
    refine ⟨carried, ?_, carries⟩
    rw [onMethods, OrderedMap.get?_ofList_eq_some_iff]
    refine ⟨earlier, later, rfl, ?_⟩
    rw [others.names, List.mem_map]
    rintro ⟨again, member, same⟩
    exact last again member same

/-- Of the declarations of a name one is the last. -/
theorem exists_last_declaration {methods : List MethodDeclaration} {name : String}
    (declared : name ∈ methods.map MethodDeclaration.name) :
    ∃ before method after, methods = before ++ method :: after ∧ method.name = name ∧
      ∀ later ∈ after, later.name ≠ name := by
  induction methods with
  | nil => simp at declared
  | cons method others inductionHypothesis =>
      by_cases again : name ∈ others.map MethodDeclaration.name
      · obtain ⟨before, last, after, rfl, named, unique⟩ := inductionHypothesis again
        exact ⟨method :: before, last, after, rfl, named, unique⟩
      · rw [List.map_cons, List.mem_cons, or_iff_left again] at declared
        exact ⟨[], method, others, rfl, declared.symm,
          fun later member same => again (List.mem_map.2 ⟨later, member, same⟩)⟩

/-- The docblocks of a class tell its tags completely. -/
theorem Gathers.unique {tags others : TagSet} (gathers : tags.Gathers registry declaration)
    (gathersToo : others.Gathers registry declaration) : tags = others := by
  have onClass := gathers.onClass.unique gathersToo.onClass
  have onMethods : tags.onMethods = others.onMethods := by
    refine OrderedMap.ext_get? (gathers.methods.trans gathersToo.methods.symm) fun name member => ?_
    rw [gathers.methods, List.mem_eraseDups] at member
    obtain ⟨before, method, after, split, rfl, last⟩ := exists_last_declaration member
    obtain ⟨carried, found, carries⟩ := gathers.lastCarries before method after split last
    obtain ⟨other, foundToo, carriesToo⟩ := gathersToo.lastCarries before method after split last
    rw [found, foundToo, carries.unique carriesToo]
  cases tags
  cases others
  cases onClass
  cases onMethods
  rfl

/-- A class can be read exactly if all its docblocks can be, and its tags are what they
tell. -/
theorem read_eq_ok_iff {tags : TagSet} :
    read registry declaration = .ok tags ↔ tags.Gathers registry declaration := by
  refine ⟨gathers_of_read, fun gathers => ?_⟩
  obtain ⟨entries, each⟩ := exists_readEach gathers.readable
  have readsSome : read registry declaration = .ok ⟨tags.onClass, .ofList entries⟩ :=
    read_eq_ok_iff_entries.2 ⟨gathers.onClass, entries, each, rfl⟩
  rw [readsSome, gathers.unique (gathers_of_read readsSome)]

/-- A class is refused with its first place that fails. -/
theorem read_eq_error_iff {error : ScanError} :
    read registry declaration = .error error ↔
      First (DocPlace.Fails registry declaration.name) declaration.docPlaces error := by
  rw [ClassDeclaration.docPlaces, First.cons_iff, First.map_iff]
  refine Outcome.bind_eq_error_iff_or (fun _ => readDoc_eq_error_iff) (fun _ fault => ?_) error
  refine (Outcome.map_eq_error_iff _ _ _).trans ?_
  rw [Outcome.mapM_eq_error_iff_first]
  refine First.congr fun method _ other => ?_
  exact (Outcome.map_eq_error_iff _ _ _).trans readDoc_eq_error_iff

/-- Where all methods have different names there is one entry for each of them. -/
theorem entries_of_nodup {tags : TagSet} (read : read registry declaration = .ok tags)
    (different : declaration.methodNames.Nodup) :
    ReadEach registry declaration.methods tags.onMethods.entries := by
  obtain ⟨-, entries, each, onMethods⟩ := read_eq_ok_iff_entries.1 read
  have fresh : ((OrderedMap.empty : OrderedMap String (List Tag)).keys ++
      entries.map Prod.fst).Nodup := by
    rw [each.names]
    exact different
  rw [onMethods, OrderedMap.ofList, OrderedMap.entries_insertAll_of_nodup fresh]
  exact each

/-! ## All or nothing -/

/-- A class is refused exactly if one of its docblocks cannot be read, also that of a method
whose name is declared again. The error is that of the first such place, the class before its
methods as they are declared, and names the class, the place, the line and the fault. A class
that is not refused has the tags that its docblocks tell, and in particular one entry for each
method in the order of the source, if no two methods share a name. -/
theorem read_all_or_nothing (registry : Registry) (declaration : ClassDeclaration) :
    ((∃ error, read registry declaration = .error error) ↔
      ∃ place ∈ declaration.docPlaces, ∃ located, Garbled registry place.doc located) ∧
    (∀ error, read registry declaration = .error error ↔
      ∃ before place after located, declaration.docPlaces = before ++ place :: after ∧
        (∀ earlier ∈ before, ∃ carried, Carries registry earlier.doc carried) ∧
        Garbled registry place.doc located ∧
        error = .badTag declaration.name place.method (.docblock located) ∧
        error.message = "malformed annotation on " ++ declaration.name ++
          (place.method.map ("::" ++ ·)).getD "" ++ ": " ++
          ("line " ++ toString located.line ++ ": " ++ located.fault.message)) ∧
    (∀ tags, read registry declaration = .ok tags ↔ tags.Gathers registry declaration) ∧
    ∀ tags, read registry declaration = .ok tags → declaration.methodNames.Nodup →
      List.Forall₂ (fun method entry => entry.1 = method.name ∧ Carries registry method.doc entry.2)
        declaration.methods tags.onMethods.entries := by
  refine ⟨?_, fun error => ?_, fun _ => read_eq_ok_iff, fun _ => entries_of_nodup⟩
  · simp only [read_eq_error_iff, First.exists_iff]
    refine exists_congr fun place => and_congr_right fun _ => ?_
    constructor
    · rintro ⟨error, located, garbled, -⟩
      exact ⟨located, garbled⟩
    · rintro ⟨located, garbled⟩
      exact ⟨_, located, garbled, rfl⟩
  · rw [read_eq_error_iff, First.iff_exists_split]
    simp only [DocPlace.forall_not_fails_iff]
    constructor
    · rintro ⟨before, place, after, split, earlier, located, garbled, rfl⟩
      exact ⟨before, place, after, located, split, earlier, garbled, rfl, rfl⟩
    · rintro ⟨before, place, after, located, split, earlier, garbled, rfl, -⟩
      exact ⟨before, place, after, split, earlier, located, garbled, rfl⟩

/-- A page that declares one of its methods twice. -/
def repeatingPage : ClassDeclaration where
  name := "Page"
  doc := some "/** @Prefix(\"/pages\") */"
  methods := [
    ⟨"show", some "/** @Get(\"/old\") */"⟩,
    ⟨"store", none⟩,
    ⟨"show", some "/** @Get(\"/new\") */"⟩]
  origin := none

/-- The page is read with two methods, and the second declaration of the first one counts. -/
theorem read_all_or_nothing_repeating :
    ∃ tags, read .routing repeatingPage = .ok tags ∧ tags.onMethods.keys = ["show", "store"] ∧
      (∃ shown, tags.onMethods.get? "show" = some shown ∧
        Carries .routing (some "/** @Get(\"/new\") */") shown) ∧
      tags.onMethods.get? "store" = some [] := by
  have isRead : (read .routing repeatingPage).isOk = true := by decide +kernel
  obtain ⟨tags, found⟩ := Outcome.exists_of_isOk isRead
  have gathers := ((read_all_or_nothing .routing repeatingPage).2.2.1 tags).1 found
  obtain ⟨shown, isShown, carries⟩ :=
    gathers.lastCarries [⟨"show", some "/** @Get(\"/old\") */"⟩, ⟨"store", none⟩] _ [] rfl nofun
  obtain ⟨stored, isStored, noTags⟩ :=
    gathers.lastCarries [⟨"show", some "/** @Get(\"/old\") */"⟩] _ [_] rfl (by simp)
  cases noTags
  refine ⟨tags, found, ?_, ⟨shown, isShown, carries⟩, isStored⟩
  rw [gathers.methods]
  decide

end TagSet

end DocblockScan

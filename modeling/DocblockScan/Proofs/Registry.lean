import DocblockScan.Config.Basic
import DocblockScan.TagSet
import DocblockScan.Proofs.Discovery
import DocblockScan.Proofs.Docblock.TagRules
import DocblockScan.Proofs.OrderedMap

/-!
# Registries among generated files

A name in a docblock never contains a dot, so names with dots in a registry are never
looked up. Two registries that differ in such names only read every docblock alike:
`TagSet.read_congr`. A tag directory that grows by generated files grows by such names
only: `Config.exists_register`.
-/

namespace DocblockScan

open FileSystem Namespace

/-! ## Registries but for names with dots -/

/-- Two lists of short names that differ in names with dots only. -/
def SameTags (left right : List String) : Prop :=
  ∀ name : String, '.' ∉ name.toList → (name ∈ left ↔ name ∈ right)

namespace Registry

/-- Two registries with the same namespaces in the same order, that differ in names with
dots only. -/
def Alike (left right : Registry) : Prop :=
  OrderedMap.RelatedEntries SameTags left.namespaces.entries right.namespaces.entries

theorem Alike.refl (registry : Registry) : Alike registry registry :=
  List.forall₂_same.2 fun _ _ => ⟨rfl, fun _ _ => Iff.rfl⟩

/-- Extending known names adds the new ones. -/
theorem mem_extendNames (name : String) (known names : List String) :
    name ∈ extendNames known names ↔ name ∈ known ∨ name ∈ names := by
  unfold extendNames
  induction names generalizing known with
  | nil => simp
  | cons first rest inductionHypothesis =>
      rw [List.foldl_cons, inductionHypothesis]
      by_cases present : first ∈ known
      · have absorbed : name = first → name ∈ known := fun same => same ▸ present
        simp only [List.contains_iff_mem, present, if_true, List.mem_cons]
        tauto
      · simp [present, or_assoc]

variable {left right : Registry}

/-- Under one namespace none of the registries has names, or both have the same but for
names with dots. -/
theorem Alike.get?_cases (alike : Alike left right) (outer : String) :
    (left.namespaces.get? outer = none ∧ right.namespaces.get? outer = none) ∨
      ∃ lefts rights, left.namespaces.get? outer = some lefts ∧
        right.namespaces.get? outer = some rights ∧ SameTags lefts rights :=
  OrderedMap.RelatedEntries.lookupIn_cases alike outer

/-- Names may be registered that differ in names with dots only. -/
theorem Alike.add (alike : Alike left right) (name : String) {lefts rights : List String}
    (same : SameTags lefts rights) : Alike (left.add name lefts) (right.add name rights) := by
  refine OrderedMap.RelatedEntries.insertIn alike _ fun tag plain => ?_
  rw [mem_extendNames, mem_extendNames, same tag plain]
  rcases alike.get?_cases (trim name) with ⟨noLeft, noRight⟩ | ⟨known, others, onLeft, onRight, agree⟩
  · rw [noLeft, noRight]
  · rw [onLeft, onRight, Option.getD_some, Option.getD_some, agree tag plain]

/-- A short name without a dot belongs to the same namespace. -/
theorem Alike.namespaceDeclaring? (alike : Alike left right) {name : String}
    (plain : '.' ∉ name.toList) :
    left.namespaceDeclaring? name = right.namespaceDeclaring? name := by
  unfold Registry.namespaceDeclaring?
  obtain ⟨⟨lefts, _⟩⟩ := left
  obtain ⟨⟨rights, _⟩⟩ := right
  unfold Alike OrderedMap.RelatedEntries at alike
  dsimp only at alike ⊢
  clear * - alike plain
  induction alike with
  | nil => rfl
  | @cons first second lefts rights head _ inductionHypothesis =>
      rw [List.find?_cons, List.find?_cons]
      have agrees : first.2.contains name = second.2.contains name := by
        rw [Bool.eq_iff_iff, List.contains_iff_mem, List.contains_iff_mem, head.2 name plain]
      rw [agrees]
      split
      · rw [Option.map_some, Option.map_some, head.1]
      · exact inductionHypothesis

/-- The short name of a qualified name without dots has none. -/
theorem dot_not_mem_of_splitQualified? {name outer shortName : String}
    (plain : '.' ∉ name.toList) (split : splitQualified? name = some (outer, shortName)) :
    '.' ∉ shortName.toList := by
  rw [splitQualified?, Option.map_eq_some_iff] at split
  obtain ⟨⟨front, last⟩, cut, named⟩ := split
  obtain ⟨-, rfl⟩ := Prod.mk.inj named
  rw [Text.splitLast?] at cut
  split at cut
  · simp at cut
  · obtain ⟨-, rfl⟩ := Prod.mk.inj (Option.some.inj cut)
    rw [String.toList_ofList]
    exact fun member => plain (Text.mem_of_mem_afterLast member)

/-- A name without a dot means the same. -/
theorem Alike.resolve? (alike : Alike left right) {written : String}
    (plain : '.' ∉ written.toList) : left.resolve? written = right.resolve? written := by
  have plainTrim : '.' ∉ (trim written).toList := by
    rw [trim, String.toList_ofList]
    exact fun member => plain (Text.mem_of_mem_trimBy member)
  unfold Registry.resolve?
  dsimp only
  split
  · rfl
  · split
    · next outer shortName split =>
        have plainShort := dot_not_mem_of_splitQualified? plainTrim split
        rcases alike.get?_cases outer with ⟨noLeft, noRight⟩ | ⟨lefts, rights, onLeft, onRight, agree⟩
        · rw [noLeft, noRight]
        · simp only [onLeft, onRight, List.contains_iff_mem, agree shortName plainShort]
    · rw [alike.namespaceDeclaring? plainTrim]

end Registry

/-! ## Docblocks -/

namespace Docblock

/-- No character of a name is a dot. -/
theorem dot_not_mem_spanName (text : List Char) : '.' ∉ (spanName text).1 := by
  fun_induction spanName text with
  | case1 => simp
  | case2 rest name after found inductionHypothesis => simp_all
  | case3 char rest _ accepted name after found inductionHypothesis =>
      have apart : '.' ≠ char := by
        rintro rfl
        exact absurd accepted (by decide)
      simp_all
  | case4 char rest _ refused => simp

/-- A comment is read with the tags of names without dots only. -/
theorem parse_congr {left right : Vocabulary}
    (same : ∀ written : String, '.' ∉ written.toList → left written = right written)
    (comment : String) : parse left comment = parse right comment := by
  have sameSpelled : ∀ text, left (.ofList (spanName text).1) = right (.ofList (spanName text).1) := by
    intro text
    refine same _ ?_
    rw [String.toList_ofList]
    exact dot_not_mem_spanName text
  unfold parse
  dsimp only
  rw [readTags_congr sameSpelled]

end Docblock

/-- Registries that are alike read the docblocks of every class alike. -/
theorem TagSet.read_congr {left right : Registry} (alike : Registry.Alike left right)
    (declaration : ClassDeclaration) : read left declaration = read right declaration := by
  have sameDoc : readDoc left = readDoc right := by
    funext className method doc
    cases doc with
    | none => rfl
    | some comment =>
        have same : Docblock.parse left.resolve? comment = Docblock.parse right.resolve? comment :=
          Docblock.parse_congr (fun written plain => alike.resolve? plain) comment
        rw [readDoc, readDoc, same]
  have sameMethod : readMethod left = readMethod right := by
    funext className method
    rw [readMethod, readMethod, sameDoc]
  rw [read, read, sameDoc, sameMethod]

/-! ## Tag directories in a file system that has grown -/

variable {old new : FileSystem}

/-- The short name of a generated file has a dot. -/
theorem Registry.dot_mem_of_shortNameOfFile? {way : Location} {name : String}
    (ends : endsReserved generatedNames way = true)
    (declares : shortNameOfFile? way = some name) : '.' ∈ name.toList := by
  obtain ⟨kind, last⟩ := exists_kind_of_endsReserved ends
  simp only [shortNameOfFile?, last, Option.bind_eq_bind, Option.bind_some,
    Option.ite_none_right_eq_some, Option.some.injEq] at declares
  obtain ⟨-, rfl⟩ := declares
  obtain ⟨first, middle, final, letters, -, -, dot, -⟩ := kind.exists_stem
  rw [letters]
  simp [dot]

/-- Ways that differ in ways to generated files only declare the same short names, but
for names with dots. -/
theorem Registry.sameTags_of_ways {others ways : List Location}
    (same : others.filter (fun way => !endsReserved generatedNames way) =
      ways.filter fun way => !endsReserved generatedNames way) :
    SameTags (others.filterMap shortNameOfFile?) (ways.filterMap shortNameOfFile?) := by
  intro name plain
  have ordinary : ∀ all : List Location, name ∈ all.filterMap shortNameOfFile? ↔
      ∃ way ∈ all.filter (fun way => !endsReserved generatedNames way),
        shortNameOfFile? way = some name := by
    intro all
    rw [List.mem_filterMap]
    constructor
    · rintro ⟨way, member, declares⟩
      refine ⟨way, List.mem_filter.2 ⟨member, ?_⟩, declares⟩
      rw [Bool.not_eq_true', Bool.eq_false_iff]
      exact fun ends => plain (dot_mem_of_shortNameOfFile? ends declares)
    · rintro ⟨way, member, declares⟩
      exact ⟨way, List.mem_of_mem_filter member, declares⟩
  rw [ordinary others, ordinary ways, same]

/-- A tag namespace that could be registered can be registered afterwards, to the same
effect but for names with dots. -/
theorem Config.exists_register (config : Config) (grows : Grows generatedNames old new)
    (other registry : Registry) (extra : TagNamespace) (grown : Registry)
    (alike : Registry.Alike other registry)
    (registers : config.register old registry extra = .ok grown) :
    ∃ others, config.register new other extra = .ok others ∧ Registry.Alike others grown := by
  unfold register Registry.addBuiltin? at registers ⊢
  cases builtin : Registry.builtin? (trim extra.name) with
  | some names =>
      rw [builtin] at registers
      obtain rfl := Except.ok.inj registers
      exact ⟨other.add extra.name names, rfl, alike.add _ fun _ _ => Iff.rfl⟩
  | none =>
      rw [builtin] at registers
      simp only [Option.map_none, Outcome.mapError_eq_ok_iff] at registers ⊢
      unfold Registry.addDirectory at registers ⊢
      split at registers
      · next isDirectory =>
          obtain ⟨ways, walks, result⟩ := (Outcome.bind_eq_ok_iff _ _ _).1 registers
          obtain rfl := Except.ok.inj result
          obtain ⟨others, walksToo, same⟩ := grows.walk walks
          rw [if_pos (grows.isDirectory isDirectory), walksToo]
          exact ⟨_, rfl, alike.add _ (Registry.sameTags_of_ways same)⟩
      · simp at registers

end DocblockScan

import DocblockScan.Proofs.Outcome
import DocblockScan.Proofs.Registry.History
import DocblockScan.Proofs.Text.LastPart

/-!
# What names mean after a history

What a name means can be told from the calls that made a registry: `Follows` says how, and
`Conserves` says what one more call may change. A bare name may move to a namespace that was
registered earlier and is extended by the call, and that is all. A registry that starts with
a built-in namespace therefore keeps the meaning of all its tags:
`resolution_follows_history`.
-/

namespace DocblockScan.Registry

open Namespace

variable {calls : List Call} {call : Call} {outer shortName : String}

/-! ## Names and what they mean -/

variable {registry : Registry} {written full : String} {kind : TagKind}

/-- What a name means depends on what is left when it is trimmed. -/
theorem resolve?_congr {other : String} (same : trim written = trim other) :
    registry.resolve? written = registry.resolve? other := by
  unfold resolve?
  rw [same]

/-- A name with a separator is a namespace and a short name without one. -/
theorem exists_qualified {name : String} (qualified : separator ∈ name.toList) :
    ∃ outer shortName : String, name = outer ++ "\\" ++ shortName ∧
      separator ∉ shortName.toList := by
  have single := Text.not_mem_afterLast separator name.toList
  rcases Text.exists_append_afterLast separator name.toList with same | ⟨front, split⟩
  · exact absurd qualified (same ▸ single)
  · refine ⟨.ofList front, .ofList (Text.afterLast separator name.toList), ?_, ?_⟩
    · rw [← String.toList_inj]
      conv_lhs => rw [split]
      simp [separator]
    · rw [String.toList_ofList]
      exact single

/-- A qualified name is looked up in exactly the namespace that it spells. -/
theorem resolve?_qualified_iff (named : trim written = outer ++ "\\" ++ shortName)
    (single : separator ∉ shortName.toList) : registry.resolve? written = some (full, kind) ↔
      (∃ names, registry.namespaces.get? outer = some names ∧ shortName ∈ names) ∧
        full = outer ++ "\\" ++ shortName ∧ kind = .ofShortName shortName := by
  have letters : (outer ++ "\\" ++ shortName).toList =
      outer.toList ++ separator :: shortName.toList := by
    simp [separator]
  have solid : outer ++ "\\" ++ shortName ≠ "" := by
    intro nothing
    rw [nothing] at letters
    simp at letters
  have cut : splitQualified? (outer ++ "\\" ++ shortName) = some (outer, shortName) := by
    rw [splitQualified?, letters, Text.splitLast?_append_cons single]
    simp
  unfold resolve?
  dsimp only
  rw [named, if_neg solid, cut]
  dsimp only
  cases registry.namespaces.get? outer with
  | none => simp
  | some names =>
      by_cases declared : shortName ∈ names
      · simp [declared, eq_comm]
      · simp [declared]

/-- A bare name is looked up in all namespaces. -/
theorem resolve?_bare (solid : trim written ≠ "") (single : separator ∉ (trim written).toList) :
    registry.resolve? written = (registry.namespaceDeclaring? (trim written)).map fun outer =>
      (outer ++ "\\" ++ trim written, .ofShortName (trim written)) := by
  have uncut : splitQualified? (trim written) = none := by
    rw [splitQualified?, Text.splitLast?_of_not_mem single]
    rfl
  unfold resolve?
  dsimp only
  rw [if_neg solid, uncut]

/-- A registry finds some namespace of a bare name exactly if one declares it. -/
theorem Reflects.isSome_namespaceDeclaring?_iff (reflects : Reflects calls registry) :
    (registry.namespaceDeclaring? shortName).isSome = true ↔
      ∃ outer, Declares calls outer shortName := by
  rw [namespaceDeclaring?, Option.isSome_map, List.find?_isSome]
  simp only [List.contains_iff_mem, reflects.declared, OrderedMap.get?_eq_some_iff]
  constructor
  · rintro ⟨entry, member, declared⟩
    exact ⟨entry.1, entry.2, member, declared⟩
  · rintro ⟨outer, names, member, declared⟩
    exact ⟨(outer, names), member, declared⟩

/-- The namespace that a registry finds is the one that was registered first. -/
theorem Reflects.firstDeclares (reflects : Reflects calls registry)
    (found : registry.namespaceDeclaring? shortName = some outer) :
    FirstDeclares calls outer shortName := by
  obtain ⟨⟨_, names⟩, isFirst, rfl⟩ := Option.map_eq_some_iff.1 found
  obtain ⟨declared, front, back, split, before⟩ := List.find?_eq_some_iff_append.1 isFirst
  have declares : ∀ other, Declares calls other shortName ↔
      ∃ names, (other, names) ∈ registry.namespaces.entries ∧ shortName ∈ names := by
    intro other
    simp only [reflects.declared, OrderedMap.get?_eq_some_iff]
  refine ⟨(declares _).2 ⟨names, by simp [split], List.contains_iff_mem.1 declared⟩, ?_⟩
  intro other others
  obtain ⟨otherNames, member, otherDeclared⟩ := (declares other).1 others
  have ordered := reflects.order
  rw [OrderedMap.keys, split, List.map_append, List.map_cons, List.pairwise_append,
    List.pairwise_cons] at ordered
  -- The entry is not among those before the one that was found.
  rw [split, List.mem_append, List.mem_cons] at member
  rcases member with inFront | same | inBack
  · exact absurd otherDeclared (by simpa using before _ inFront)
  · exact .inl (Prod.mk.inj same).1
  · exact .inr (ordered.2.1.1 other (List.mem_map.2 ⟨_, inBack, rfl⟩))

/-- A registry finds a namespace exactly if it is the first one that declares the name. -/
theorem Reflects.namespaceDeclaring?_iff (reflects : Reflects calls registry) :
    registry.namespaceDeclaring? shortName = some outer ↔ FirstDeclares calls outer shortName := by
  constructor
  · exact reflects.firstDeclares
  · intro first
    obtain ⟨other, found⟩ := Option.isSome_iff_exists.1
      (reflects.isSome_namespaceDeclaring?_iff.2 ⟨outer, first.1⟩)
    rw [found, first.unique (reflects.firstDeclares found)]

/-! ## Meanings follow the history -/

/-- What names mean after some calls, told from the calls alone. A bare name belongs to the
namespace that was registered first among those that declare it, and a qualified one to
exactly the namespace before its last separator. A full name stands for itself, whatever is
trimmed around it. -/
structure Follows (calls : List Call) : Prop where
  blank : ∀ written, trim written = "" → (after calls).resolve? written = none
  bare : ∀ written, trim written ≠ "" → separator ∉ (trim written).toList →
    ∀ full kind, (after calls).resolve? written = some (full, kind) ↔
      ∃ outer, FirstDeclares calls outer (trim written) ∧
        full = outer ++ "\\" ++ trim written ∧ kind = .ofShortName (trim written)
  declared : ∀ written, trim written ≠ "" → separator ∉ (trim written).toList →
    (((after calls).resolve? written).isSome = true ↔
      ∃ outer, Declares calls outer (trim written))
  qualified : ∀ written outer shortName, trim written = outer ++ "\\" ++ shortName →
    separator ∉ shortName.toList →
    ∀ full kind, (after calls).resolve? written = some (full, kind) ↔
      Declares calls outer shortName ∧ full = outer ++ "\\" ++ shortName ∧
        kind = .ofShortName shortName
  canonical : ∀ written full kind, (after calls).resolve? written = some (full, kind) →
    ∀ front back : String, (∀ char ∈ front.toList ++ back.toList, isEdge char = true) →
      (after calls).resolve? (front ++ full ++ back) = some (full, kind)

theorem resolve?_after_qualified_iff (named : trim written = outer ++ "\\" ++ shortName)
    (single : separator ∉ shortName.toList) :
    (after calls).resolve? written = some (full, kind) ↔
      Declares calls outer shortName ∧ full = outer ++ "\\" ++ shortName ∧
        kind = .ofShortName shortName := by
  rw [resolve?_qualified_iff named single, (reflects_after calls).declared]

theorem resolve?_after_bare_iff (solid : trim written ≠ "")
    (single : separator ∉ (trim written).toList) :
    (after calls).resolve? written = some (full, kind) ↔
      ∃ outer, FirstDeclares calls outer (trim written) ∧
        full = outer ++ "\\" ++ trim written ∧ kind = .ofShortName (trim written) := by
  rw [resolve?_bare solid single, Option.map_eq_some_iff]
  simp only [(reflects_after calls).namespaceDeclaring?_iff, Prod.mk.injEq, eq_comm]

/-- A name that means something is bare or qualified. -/
theorem bare_or_qualified (resolves : registry.resolve? written = some (full, kind)) :
    (trim written ≠ "" ∧ separator ∉ (trim written).toList) ∨
      ∃ outer shortName : String, trim written = outer ++ "\\" ++ shortName ∧
        separator ∉ shortName.toList := by
  by_cases qualified : separator ∈ (trim written).toList
  · exact .inr (exists_qualified qualified)
  · refine .inl ⟨?_, qualified⟩
    intro blank
    simp [resolve?, blank] at resolves

/-- A full name is trimmed, unless no namespace stands before its separator. -/
theorem trim_full {name : String} (trimmed : trim outer = outer) (solid : trim name ≠ "") :
    trim (outer ++ "\\" ++ trim name) =
      if outer = "" then trim name else outer ++ "\\" ++ trim name := by
  have outerFirm : Text.Firm isEdge outer.toList := trimmed ▸ firm_trim outer
  have some : (trim name).toList ≠ [] := by simpa using solid
  have letters : (outer ++ "\\" ++ trim name).toList =
      outer.toList ++ separator :: (trim name).toList := by
    simp [separator]
  conv_lhs => rw [trim, letters]
  rw [Text.trimBy_append_cons (by decide) outerFirm.ends (firm_trim name) some, outerFirm.trimBy_eq]
  by_cases blank : outer = ""
  · simp [blank]
  · rw [if_neg (by simpa using blank), if_neg blank, ← letters, String.ofList_toList]

/-- The full name of a tag means the tag. -/
theorem resolve?_full (resolves : (after calls).resolve? written = some (full, kind)) :
    (after calls).resolve? full = some (full, kind) := by
  rcases bare_or_qualified resolves with ⟨solid, single⟩ | ⟨outer, shortName, named, single⟩
  · obtain ⟨outer, first, rfl, rfl⟩ := (resolve?_after_bare_iff solid single).1 resolves
    have trimmed := trim_full first.1.trim_eq solid
    by_cases blank : outer = ""
    · -- Without a namespace before it the full name is the bare name again.
      rw [if_pos blank] at trimmed
      rw [resolve?_congr trimmed]
      exact resolves
    · rw [if_neg blank] at trimmed
      exact (resolve?_after_qualified_iff trimmed single).2 ⟨first.1, rfl, rfl⟩
  · obtain ⟨-, rfl, -⟩ := (resolve?_after_qualified_iff named single).1 resolves
    rw [← named, resolve?_congr (trim_trim written), named]
    exact resolves

theorem follows_after (calls : List Call) : Follows calls where
  blank := by
    intro written blank
    simp [resolve?, blank]
  bare := fun _ solid single _ _ => resolve?_after_bare_iff solid single
  declared := by
    intro written solid single
    rw [resolve?_bare solid single, Option.isSome_map]
    exact (reflects_after calls).isSome_namespaceDeclaring?_iff
  qualified := fun _ _ _ named single _ _ => resolve?_after_qualified_iff named single
  canonical := by
    intro written full kind resolves front back edges
    rw [resolve?_congr (trim_padded edges full)]
    exact resolve?_full resolves

/-! ## What one more call may change -/

/-- The full name of a bare name after one more call, if it is not the one it had: it belongs
to a namespace that was registered earlier, did not declare the name, and is extended by it
in the call. -/
def Moves (calls : List Call) (call : Call) (name full now : String) : Prop :=
  ∃ outer earlier names, full = outer ++ "\\" ++ name ∧ now = earlier ++ "\\" ++ name ∧
    Before calls earlier outer ∧ ¬ Declares calls earlier name ∧
    call.registered? = some (earlier, names) ∧ name ∈ names

/-- What one more call leaves as it is. One that fails changes nothing. Otherwise tags stay
tags of their kind, and qualified names keep their full names, while bare names may only
move. Namespaces keep their places and the names that they have. -/
structure Conserves (calls : List Call) (call : Call) : Prop where
  refused : call.perform? (after calls) = none →
    ∀ written, (after (calls ++ [call])).resolve? written = (after calls).resolve? written
  bare : ∀ written full kind, separator ∉ (trim written).toList →
    (after calls).resolve? written = some (full, kind) →
    ∃ now, (after (calls ++ [call])).resolve? written = some (now, kind) ∧
      (now = full ∨ Moves calls call (trim written) full now)
  qualified : ∀ written full kind, separator ∈ (trim written).toList →
    (after calls).resolve? written = some (full, kind) →
    (after (calls ++ [call])).resolve? written = some (full, kind)
  order : (after calls).namespaces.keys <+: (after (calls ++ [call])).namespaces.keys
  registeredAgain : ∀ name names, call.registered? = some (name, names) →
    name ∈ (after calls).namespaces.keys →
    (after (calls ++ [call])).namespaces.keys = (after calls).namespaces.keys
  names : ∀ outer names, (after calls).namespaces.get? outer = some names →
    ∃ more, (after (calls ++ [call])).namespaces.get? outer = some (names ++ more)

/-- A bare name stays or moves. -/
theorem FirstDeclares.concat (first : FirstDeclares calls outer shortName) (call : Call) :
    ∃ now, FirstDeclares (calls ++ [call]) now shortName ∧
      (now = outer ∨ Before calls now outer ∧ ¬ Declares calls now shortName ∧
        ∃ names, call.registered? = some (now, names) ∧ shortName ∈ names) := by
  have declaresNow : Declares (calls ++ [call]) outer shortName := first.1.append [call]
  have reflects := reflects_after (calls ++ [call])
  obtain ⟨now, found⟩ := Option.isSome_iff_exists.1
    (reflects.isSome_namespaceDeclaring?_iff.2 ⟨outer, declaresNow⟩)
  have firstNow := reflects.firstDeclares found
  refine ⟨now, firstNow, ?_⟩
  rcases firstNow.2 outer declaresNow with same | beforeNow
  · exact .inl same.symm
  · have before : Before calls now outer := beforeNow.of_append first.1.mem_namespacesOf
    have fresh : ¬ Declares calls now shortName := by
      intro declared
      rcases first.2 now declared with rfl | after
      · exact before.asymm before
      · exact before.asymm after
    exact .inr ⟨before, fresh, (declares_concat_iff.1 firstNow.1).resolve_left fresh⟩

/-- Extending known names keeps them in front. -/
theorem exists_extendNames (known names : List String) :
    ∃ more, extendNames known names = known ++ more := by
  unfold extendNames
  induction names generalizing known with
  | nil => exact ⟨[], (List.append_nil known).symm⟩
  | cons name rest inductionHypothesis =>
      rw [List.foldl_cons]
      split
      · exact inductionHypothesis known
      · obtain ⟨more, extended⟩ := inductionHypothesis (known ++ [name])
        exact ⟨name :: more, by rw [extended, List.append_assoc, List.singleton_append]⟩

theorem conserves_after (calls : List Call) (call : Call) : Conserves calls call where
  refused := by
    intro refused written
    rw [after_concat, refused]
    rfl
  bare := by
    intro written full kind single resolves
    have solid : trim written ≠ "" := by
      intro blank
      simp [resolve?, blank] at resolves
    obtain ⟨outer, first, rfl, rfl⟩ := (resolve?_after_bare_iff solid single).1 resolves
    obtain ⟨now, firstNow, moved⟩ := first.concat call
    refine ⟨_, (resolve?_after_bare_iff solid single).2 ⟨now, firstNow, rfl, rfl⟩, ?_⟩
    rcases moved with rfl | ⟨before, fresh, names, registered, member⟩
    · exact .inl rfl
    · exact .inr ⟨outer, now, names, rfl, rfl, before, fresh, registered, member⟩
  qualified := by
    intro written full kind qualified resolves
    obtain ⟨outer, shortName, named, single⟩ := exists_qualified qualified
    obtain ⟨declares, meaning⟩ := (resolve?_after_qualified_iff named single).1 resolves
    exact (resolve?_after_qualified_iff named single).2 ⟨declares.append [call], meaning⟩
  order := by
    cases registered : call.registered? with
    | none =>
        have same : after (calls ++ [call]) = after calls := after_concat_of_refused registered
        exact same.symm ▸ List.prefix_rfl
    | some entry =>
        rw [after_concat_of_registered registered, keys_add]
        split
        · exact List.prefix_rfl
        · exact List.prefix_append _ _
  registeredAgain := by
    intro name names registered known
    rw [after_concat_of_registered registered, keys_add, Call.trim_of_registered registered,
      if_pos known]
  names := by
    intro outer names known
    cases registered : call.registered? with
    | none =>
        rw [after_concat_of_refused registered]
        exact ⟨[], by rw [known, List.append_nil]⟩
    | some entry =>
        rw [after_concat_of_registered registered, get?_add]
        split
        · next same =>
            subst same
            obtain ⟨more, extended⟩ := exists_extendNames names entry.2
            exact ⟨more, by rw [known, Option.getD_some, extended]⟩
        · exact ⟨[], by rw [known, List.append_nil]⟩

/-! ## Registries of configurations -/

/-- All tags of another registry mean the same. -/
def Keeps (registry own : Registry) : Prop :=
  ∀ written full kind, own.resolve? written = some (full, kind) →
    registry.resolve? written = some (full, kind)

/-- The first namespace of a name is the first one whatever is registered later. -/
theorem FirstDeclares.append (first : FirstDeclares [call] outer shortName) (later : List Call) :
    FirstDeclares (call :: later) outer shortName := by
  obtain ⟨declares, -⟩ := first
  have registered : namespacesOf [call] = [outer] := by
    obtain ⟨_, isCall, names, same, -⟩ := declares
    obtain rfl := List.mem_singleton.1 isCall
    simp [namespacesOf, same]
  refine ⟨declares.append later, fun other _ => ?_⟩
  by_cases same : other = outer
  · exact .inl same
  · exact .inr ⟨[call], List.prefix_append [call] later, by simp [registered],
      by simpa [registered] using same⟩

/-- What the first call makes tags of is kept by all later calls. -/
theorem keeps_first (call : Call) (later : List Call) :
    (after (call :: later)).Keeps (after [call]) := by
  intro written full kind resolves
  rcases bare_or_qualified resolves with ⟨solid, single⟩ | ⟨outer, shortName, named, single⟩
  · obtain ⟨outer, first, meaning⟩ := (resolve?_after_bare_iff solid single).1 resolves
    exact (resolve?_after_bare_iff solid single).2 ⟨outer, first.append later, meaning⟩
  · obtain ⟨declares, meaning⟩ := (resolve?_after_qualified_iff named single).1 resolves
    exact (resolve?_after_qualified_iff named single).2 ⟨declares.append later, meaning⟩

/-- A configured tag namespace is registered by one call. -/
theorem exists_call {config : Config} {files : FileSystem} {extra : TagNamespace}
    {grown : Registry} (registers : config.register files registry extra = .ok grown) :
    ∃ call : Call, call.perform? registry = some grown := by
  unfold Config.register at registers
  cases builtin : registry.addBuiltin? extra.name with
  | some own =>
      rw [builtin] at registers
      exact ⟨.builtin extra.name, builtin.trans (congrArg some (Except.ok.inj registers))⟩
  | none =>
      rw [builtin] at registers
      refine ⟨.directory files extra.name (config.tagDirectory extra), ?_⟩
      rw [Call.perform?, (Outcome.mapError_eq_ok_iff _ _ _).1 registers]
      rfl

/-- Configured tag namespaces are registered by further calls. -/
theorem exists_calls {config : Config} {files : FileSystem} (extras : List TagNamespace)
    {grown : Registry} (registers : extras.foldlM (config.register files) (after calls) = .ok grown) :
    ∃ later, grown = after (calls ++ later) := by
  induction extras generalizing calls with
  | nil => exact ⟨[], by rw [List.append_nil]; exact (Except.ok.inj registers).symm⟩
  | cons extra rest inductionHypothesis =>
      rw [List.foldlM_cons] at registers
      obtain ⟨next, registersFirst, registersRest⟩ := (Outcome.bind_eq_ok_iff _ _ _).1 registers
      obtain ⟨call, performs⟩ := exists_call registersFirst
      have step : next = after (calls ++ [call]) := by
        rw [after_concat, performs]
        rfl
      obtain ⟨later, reached⟩ := inductionHypothesis (step ▸ registersRest)
      exact ⟨call :: later, by rw [reached, List.append_assoc]; rfl⟩

/-- A registry that starts with a built-in namespace and is extended by a configuration. -/
theorem exists_history {config : Config} {files : FileSystem} {extras : List TagNamespace}
    {home : String}
    (registers : extras.foldlM (config.register files) (after [.builtin home]) = .ok registry) :
    ∃ later, registry = after (.builtin home :: later) ∧ registry.Keeps (after [.builtin home]) := by
  obtain ⟨later, reached⟩ := exists_calls extras registers
  exact ⟨later, reached, reached ▸ keeps_first _ later⟩

/-- What names mean follows the history of a registry, and each further call conserves it.
The registries of a configuration are reached by such histories, and no configured tag
namespace takes over a tag of the built-in namespace that they start with. -/
theorem resolution_follows_history (calls : List Call) (call : Call) (config : Config)
    (files : FileSystem) :
    Follows calls ∧ Conserves calls call ∧
      (∀ registry, config.routeRegistry files = .ok registry →
        ∃ later, registry = after (.builtin routingNamespace :: later) ∧ registry.Keeps .routing) ∧
      (∀ registry, config.eventRegistry files = .ok registry →
        ∃ later, registry = after (.builtin eventsNamespace :: later) ∧ registry.Keeps .events) :=
  ⟨follows_after calls, conserves_after calls call, fun _ registers => exists_history registers,
    fun _ registers => exists_history registers⟩

/-- A directory with a tag that is named like a built-in one. -/
def taggedFiles : FileSystem where
  entries := ⟨[(["tags"], .directory), (["tags", "Get.php"], .file .empty)], by simp⟩
  workingDirectory := []

/-- A configuration that asks for the tags of a directory. -/
def taggedConfig : Config where
  routes := { tagNamespaces := [⟨"App\\Tags", some "tags"⟩] }

/-- Two namespaces of which the second one declares a name. -/
def twoCalls : List Call :=
  [.names "Vendor" ["Audit"], .names "\\App\\" ["Cached"]]

/-- A name moves to a namespace that was registered before its own and is extended, and a
configured namespace that declares the name of a built-in tag does not take it over. -/
theorem resolution_follows_history_moves :
    (after twoCalls).resolve? "Cached" = some ("App\\Cached", .custom "Cached") ∧
      (∃ now, (after (twoCalls ++ [.names "Vendor" ["Cached"]])).resolve? "Cached" =
          some (now, .custom "Cached") ∧
        Moves twoCalls (.names "Vendor" ["Cached"]) "Cached" "App\\Cached" now) ∧
      ∃ registry, taggedConfig.routeRegistry taggedFiles = .ok registry ∧
        registry.resolve? "App\\Tags\\Get" = some ("App\\Tags\\Get", .route .get) ∧
        registry.resolve? " Get" = some (routingNamespace ++ "\\Get", .route .get) := by
  have resolves : (after twoCalls).resolve? "Cached" = some ("App\\Cached", .custom "Cached") :=
    rfl
  obtain ⟨-, conserves, ofRoutes, -⟩ := resolution_follows_history twoCalls
    (.names "Vendor" ["Cached"]) taggedConfig taggedFiles
  refine ⟨resolves, ?_, ?_⟩
  · obtain ⟨now, resolvesNow, moved⟩ := conserves.bare "Cached" _ _ (by decide) resolves
    have elsewhere : (after (twoCalls ++ [.names "Vendor" ["Cached"]])).resolve? "Cached" =
        some ("Vendor\\Cached", .custom "Cached") := rfl
    obtain ⟨rfl, -⟩ := Prod.mk.inj (Option.some.inj (elsewhere.symm.trans resolvesNow))
    have trimmed : trim "Cached" = "Cached" := rfl
    exact ⟨_, resolvesNow, trimmed ▸ moved.resolve_left (by decide)⟩
  · cases registers : taggedConfig.routeRegistry taggedFiles with
    | error cause =>
        have succeeds : (taggedConfig.routeRegistry taggedFiles).isOk = true := rfl
        rw [registers] at succeeds
        cases succeeds
    | ok registry =>
        obtain ⟨-, -, keeps⟩ := ofRoutes registry registers
        refine ⟨registry, rfl, ?_, keeps _ _ _ rfl⟩
        have qualified : (taggedConfig.routeRegistry taggedFiles).toOption.bind
            (fun registry => registry.resolve? "App\\Tags\\Get") =
            some ("App\\Tags\\Get", .route .get) := by
          decide +kernel
        rw [registers] at qualified
        exact qualified

end DocblockScan.Registry

import DocblockScan.Proofs.Namespace
import DocblockScan.Proofs.Registry

/-!
# Histories of registries

A registry is built by calls that register namespaces, one after the other. The calls alone
say which namespaces were registered, in which order, and which short names were declared in
each of them. Each call keeps that a registry reflects its history, so that all registries
do: `reflects_after`.
-/

namespace DocblockScan.Registry

open Namespace

/-! ## Calls and their histories -/

/-- A call that registers a namespace: a built-in one, one with given short names, or one
whose short names are the stems of the source files below a directory. -/
inductive Call where
  | builtin (name : String)
  | names (name : String) (shortNames : List String)
  | directory (files : FileSystem) (name path : String)

namespace Call

/-- The registry that a call makes of another one, unless it fails. -/
def perform? (registry : Registry) : Call → Option Registry
  | .builtin name => registry.addBuiltin? name
  | .names name shortNames => some (registry.add name shortNames)
  | .directory files name path => (registry.addDirectory files name path).toOption

/-- The name of the namespace, as the call gives it. -/
def name : Call → String
  | .builtin name => name
  | .names name _ => name
  | .directory _ name _ => name

/-- The short names that a call declares, unless it fails. -/
def shortNames? : Call → Option (List String)
  | .builtin name => builtin? (trim name)
  | .names _ shortNames => some shortNames
  | .directory files _ path =>
      if files.isDirectory path then
        (files.walk path).toOption.map fun ways => ways.filterMap shortNameOfFile?
      else none

/-- The namespace that a call registers and the short names that it declares there. A call
that fails registers none. -/
def registered? (call : Call) : Option (String × List String) :=
  call.shortNames?.map fun names => (trim call.name, names)

end Call

/-- The registry after some calls. A call that fails leaves it as it is. -/
def after (calls : List Call) : Registry :=
  calls.foldl (fun registry call => (call.perform? registry).getD registry) empty

/-- The namespaces that some calls registered, in order and with repetitions. -/
def namespacesOf (calls : List Call) : List String :=
  (calls.filterMap Call.registered?).map Prod.fst

/-- Some of the calls declares a short name in a namespace. -/
def Declares (calls : List Call) (outer shortName : String) : Prop :=
  ∃ call ∈ calls, ∃ names, call.registered? = some (outer, names) ∧ shortName ∈ names

/-- A namespace was registered at a time when another one was not yet. -/
def Before (calls : List Call) (first second : String) : Prop :=
  ∃ earlier, earlier <+: calls ∧ first ∈ namespacesOf earlier ∧ second ∉ namespacesOf earlier

/-- Of all namespaces in which a short name is declared this one was registered first. -/
def FirstDeclares (calls : List Call) (outer shortName : String) : Prop :=
  Declares calls outer shortName ∧
    ∀ other, Declares calls other shortName → other = outer ∨ Before calls outer other

/-! ## Adding a namespace -/

/-- A known namespace keeps its place, and a new one follows all others. -/
theorem keys_add (registry : Registry) (name : String) (names : List String) :
    (registry.add name names).namespaces.keys =
      if trim name ∈ registry.namespaces.keys then registry.namespaces.keys
      else registry.namespaces.keys ++ [trim name] :=
  OrderedMap.keys_insert _ _ _

/-- Only the namespace that is added gets names. -/
theorem get?_add (registry : Registry) (name outer : String) (names : List String) :
    (registry.add name names).namespaces.get? outer =
      if outer = trim name then
        some (extendNames ((registry.namespaces.get? (trim name)).getD []) names)
      else registry.namespaces.get? outer :=
  OrderedMap.get?_insert _ _ _ _

/-! ## What calls do -/

variable {calls : List Call} {call : Call} {outer shortName : String}

/-- Whether a call fails does not depend on the registry, and one that does not fail adds
what it registers. -/
theorem Call.perform?_eq (registry : Registry) (call : Call) :
    call.perform? registry = call.registered?.map fun entry => registry.add entry.1 entry.2 := by
  have trimmed : ∀ name names, registry.add (trim name) names = registry.add name names := by
    intro name names
    rw [add, trim_trim, add]
  have added : call.perform? registry = call.shortNames?.map (registry.add call.name) := by
    cases call with
    | builtin name => rfl
    | names name shortNames => rfl
    | directory files name path =>
        dsimp only [perform?, addDirectory, shortNames?, Call.name]
        split
        · cases files.walk path <;> rfl
        · rfl
  rw [added, registered?, Option.map_map]
  exact congrArg (call.shortNames?.map ·) (funext fun names => (trimmed call.name names).symm)

theorem after_concat (calls : List Call) (call : Call) :
    after (calls ++ [call]) = (call.perform? (after calls)).getD (after calls) := by
  rw [after, List.foldl_append]
  rfl

/-- A call that fails leaves the registry. -/
theorem after_concat_of_refused (refused : call.registered? = none) :
    after (calls ++ [call]) = after calls := by
  rw [after_concat, call.perform?_eq, refused]
  rfl

/-- A call that registers a namespace adds its names there. -/
theorem after_concat_of_registered {name : String} {names : List String}
    (registered : call.registered? = some (name, names)) :
    after (calls ++ [call]) = (after calls).add name names := by
  rw [after_concat, call.perform?_eq, registered]
  rfl

theorem namespacesOf_append (earlier later : List Call) :
    namespacesOf (earlier ++ later) = namespacesOf earlier ++ namespacesOf later := by
  rw [namespacesOf, List.filterMap_append, List.map_append]
  rfl

/-- What was registered stays registered. -/
theorem mem_namespacesOf_mono {earlier : List Call} (isPrefix : earlier <+: calls)
    {name : String} (member : name ∈ namespacesOf earlier) : name ∈ namespacesOf calls := by
  obtain ⟨later, rfl⟩ := isPrefix
  rw [namespacesOf_append]
  exact List.mem_append_left _ member

theorem mem_namespacesOf_iff {name : String} :
    name ∈ namespacesOf calls ↔ ∃ call ∈ calls, ∃ names, call.registered? = some (name, names) := by
  constructor
  · intro member
    obtain ⟨entry, registered, rfl⟩ := List.mem_map.1 member
    obtain ⟨call, inCalls, same⟩ := List.mem_filterMap.1 registered
    exact ⟨call, inCalls, entry.2, same⟩
  · rintro ⟨call, inCalls, names, registered⟩
    exact List.mem_map.2 ⟨_, List.mem_filterMap.2 ⟨call, inCalls, registered⟩, rfl⟩

/-- Namespaces are registered trimmed. -/
theorem Call.trim_of_registered {name : String} {names : List String}
    (registered : call.registered? = some (name, names)) : trim name = name := by
  obtain ⟨_, -, same⟩ := Option.map_eq_some_iff.1 registered
  rw [← (Prod.mk.inj same).1, trim_trim]

/-- A namespace in which a name is declared is registered. -/
theorem Declares.mem_namespacesOf (declares : Declares calls outer shortName) :
    outer ∈ namespacesOf calls := by
  obtain ⟨call, member, names, registered, -⟩ := declares
  exact mem_namespacesOf_iff.2 ⟨call, member, names, registered⟩

theorem Declares.trim_eq (declares : Declares calls outer shortName) : trim outer = outer := by
  obtain ⟨call, -, names, registered, -⟩ := declares
  exact Call.trim_of_registered registered

/-- What is declared stays declared. -/
theorem Declares.append (declares : Declares calls outer shortName) (later : List Call) :
    Declares (calls ++ later) outer shortName := by
  obtain ⟨call, member, rest⟩ := declares
  exact ⟨call, List.mem_append_left _ member, rest⟩

theorem declares_concat_iff : Declares (calls ++ [call]) outer shortName ↔
    Declares calls outer shortName ∨
      ∃ names, call.registered? = some (outer, names) ∧ shortName ∈ names := by
  simp [Declares, or_and_right, exists_or]

/-! ## The order of registration -/

/-- The order of two namespaces stays. -/
theorem Before.append {first second : String} (before : Before calls first second)
    (later : List Call) : Before (calls ++ later) first second := by
  obtain ⟨earlier, isPrefix, rest⟩ := before
  exact ⟨earlier, isPrefix.trans (List.prefix_append _ _), rest⟩

/-- Of two namespaces at most one was registered before the other. -/
theorem Before.asymm {first second : String} (before : Before calls first second) :
    ¬ Before calls second first := by
  rintro ⟨others, othersPrefix, hasSecond, noFirst⟩
  obtain ⟨earlier, isPrefix, hasFirst, noSecond⟩ := before
  rcases List.prefix_or_prefix_of_prefix isPrefix othersPrefix with shorter | longer
  · exact noFirst (mem_namespacesOf_mono shorter hasFirst)
  · exact noSecond (mem_namespacesOf_mono longer hasSecond)

/-- Before a namespace that is registered only those stand that stood there all along. -/
theorem Before.of_append {first second : String} {later : List Call}
    (known : second ∈ namespacesOf calls) (before : Before (calls ++ later) first second) :
    Before calls first second := by
  obtain ⟨earlier, isPrefix, hasFirst, noSecond⟩ := before
  rcases List.prefix_or_prefix_of_prefix isPrefix (List.prefix_append calls later) with
    shorter | longer
  · exact ⟨earlier, shorter, hasFirst, noSecond⟩
  · exact absurd (mem_namespacesOf_mono longer known) noSecond

/-- Only one namespace is the first that declares a name. -/
theorem FirstDeclares.unique {other : String} (first : FirstDeclares calls outer shortName)
    (second : FirstDeclares calls other shortName) : outer = other := by
  rcases first.2 other second.1 with same | before
  · exact same.symm
  · rcases second.2 outer first.1 with same | after
    · exact same
    · exact absurd after before.asymm

/-! ## What a registry knows of its history -/

/-- A registry lists the namespaces of its history in the order of their registration, each
with the names that were declared there. -/
structure Reflects (calls : List Call) (registry : Registry) : Prop where
  order : registry.namespaces.keys.Pairwise (Before calls)
  known : ∀ name, name ∈ registry.namespaces.keys ↔ name ∈ namespacesOf calls
  declared : ∀ outer shortName, Declares calls outer shortName ↔
    ∃ names, registry.namespaces.get? outer = some names ∧ shortName ∈ names

theorem reflects_empty : Reflects [] empty where
  order := List.Pairwise.nil
  known := by simp [namespacesOf, empty, OrderedMap.keys, OrderedMap.empty]
  declared := by
    intro outer shortName
    simp [Declares, empty, OrderedMap.get?, OrderedMap.empty, OrderedMap.lookupIn]

/-- The registry keeps reflecting its history when a namespace is registered. -/
theorem Reflects.add {registry : Registry} (reflects : Reflects calls registry) {name : String}
    {names : List String} (registered : call.registered? = some (name, names)) :
    Reflects (calls ++ [call]) (registry.add name names) := by
  have trimmed : trim name = name := Call.trim_of_registered registered
  have ofCall : namespacesOf [call] = [name] := by simp [namespacesOf, registered]
  constructor
  · have kept : registry.namespaces.keys.Pairwise (Before (calls ++ [call])) :=
      reflects.order.imp fun before => before.append [call]
    rw [keys_add, trimmed]
    split
    · exact kept
    · next fresh =>
        refine List.pairwise_append.2 ⟨kept, List.pairwise_singleton _ _, ?_⟩
        intro first member second isNew
        obtain rfl := List.mem_singleton.1 isNew
        exact ⟨calls, List.prefix_append _ _, (reflects.known first).1 member,
          mt (reflects.known _).2 fresh⟩
  · intro other
    rw [keys_add, trimmed, namespacesOf_append, List.mem_append, ofCall, List.mem_singleton,
      ← reflects.known]
    split
    · next present =>
        exact ⟨.inl, fun either => either.elim id fun same => same ▸ present⟩
    · rw [List.mem_append, List.mem_singleton]
  · intro other short
    rw [declares_concat_iff, reflects.declared, registered, get?_add, trimmed]
    by_cases same : other = name
    · subst same
      rw [if_pos rfl]
      cases known : registry.namespaces.get? other with
      | none => simp [mem_extendNames]
      | some already => simp [mem_extendNames]
    · simp [same, Ne.symm same]

/-- A registry reflects the calls that made it, failed ones among them. -/
theorem reflects_after (calls : List Call) : Reflects calls (after calls) := by
  induction calls using List.reverseRecOn with
  | nil => exact reflects_empty
  | append_singleton calls call inductionHypothesis =>
      cases registered : call.registered? with
      | some entry =>
          rw [after_concat_of_registered registered]
          exact inductionHypothesis.add registered
      | none =>
          rw [after_concat_of_refused registered]
          have nothing : namespacesOf [call] = [] := by simp [namespacesOf, registered]
          exact {
            order := inductionHypothesis.order.imp fun before => before.append [call]
            known := by
              intro name
              rw [inductionHypothesis.known, namespacesOf_append, nothing, List.append_nil]
            declared := by
              intro outer shortName
              rw [declares_concat_iff, inductionHypothesis.declared, registered]
              simp }

end DocblockScan.Registry

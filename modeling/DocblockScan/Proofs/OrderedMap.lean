import DocblockScan.OrderedMap
import Mathlib.Data.List.Forall2

/-!
# Ordered maps by their entries

What looking up and inserting mean for the list of entries of a map.
-/

namespace DocblockScan.OrderedMap

variable {Key Value : Type}

/-- A map is empty exactly if it has no keys. -/
theorem isEmpty_iff (map : OrderedMap Key Value) : map.isEmpty = true ↔ map.keys = [] := by
  simp [isEmpty, keys]

variable [DecidableEq Key]

/-- A key is found in a list of entries exactly if it occurs in it. -/
theorem isSome_lookupIn_iff (key : Key) (entries : List (Key × Value)) :
    (lookupIn key entries).isSome = true ↔ key ∈ entries.map Prod.fst := by
  induction entries with
  | nil => simp [lookupIn]
  | cons entry rest inductionHypothesis =>
      by_cases same : entry.1 = key
      · simp [lookupIn, same]
      · simp [lookupIn, same, inductionHypothesis, Ne.symm same]

/-- A map contains a key exactly if it lists it. -/
theorem contains_iff (map : OrderedMap Key Value) (key : Key) :
    map.contains key = true ↔ key ∈ map.keys :=
  isSome_lookupIn_iff key map.entries

/-- A new key is written after all others. -/
theorem insertIn_of_not_mem {key : Key} (value : Value) {entries : List (Key × Value)}
    (fresh : key ∉ entries.map Prod.fst) :
    insertIn key value entries = entries ++ [(key, value)] := by
  induction entries with
  | nil => rfl
  | cons entry rest inductionHypothesis =>
      rw [List.map_cons, List.mem_cons, not_or] at fresh
      simp [insertIn, Ne.symm fresh.1, inductionHypothesis fresh.2]

/-- Inserting a new key appends its entry. -/
theorem entries_insert_of_not_mem {map : OrderedMap Key Value} {key : Key}
    (fresh : key ∉ map.keys) (value : Value) :
    (map.insert key value).entries = map.entries ++ [(key, value)] :=
  insertIn_of_not_mem value fresh

/-- A new key follows those that are known. -/
theorem keys_insert (map : OrderedMap Key Value) (key : Key) (value : Value) :
    (map.insert key value).keys = if key ∈ map.keys then map.keys else map.keys ++ [key] :=
  map_fst_insertIn key value map.entries

/-- Of all keys inserting changes only the one that is inserted. -/
theorem lookupIn_insertIn (key other : Key) (value : Value) (entries : List (Key × Value)) :
    lookupIn other (insertIn key value entries) =
      if other = key then some value else lookupIn other entries := by
  induction entries with
  | nil => simp [insertIn, lookupIn, eq_comm]
  | cons entry rest inductionHypothesis =>
      obtain ⟨candidate, old⟩ := entry
      by_cases same : candidate = key
      · subst same
        by_cases asked : candidate = other
        · simp [insertIn, lookupIn, asked]
        · simp [insertIn, lookupIn, asked, Ne.symm asked]
      · by_cases asked : candidate = other
        · subst asked
          simp [insertIn, lookupIn, same]
        · simp [insertIn, lookupIn, same, asked, inductionHypothesis]

theorem get?_insert (map : OrderedMap Key Value) (key other : Key) (value : Value) :
    (map.insert key value).get? other = if other = key then some value else map.get? other :=
  lookupIn_insertIn key other value map.entries

/-- A key has a value exactly if the map lists both together. -/
theorem get?_eq_some_iff (map : OrderedMap Key Value) (key : Key) (value : Value) :
    map.get? key = some value ↔ (key, value) ∈ map.entries := by
  obtain ⟨entries, distinct⟩ := map
  show lookupIn key entries = some value ↔ (key, value) ∈ entries
  induction entries with
  | nil => simp [lookupIn]
  | cons entry rest inductionHypothesis =>
      obtain ⟨candidate, old⟩ := entry
      rw [List.map_cons, List.nodup_cons] at distinct
      have tail := inductionHypothesis distinct.2
      by_cases same : candidate = key
      · subst same
        have absent : (candidate, value) ∉ rest := fun member =>
          distinct.1 (List.mem_map.2 ⟨_, member, rfl⟩)
        simp [lookupIn, absent, eq_comm]
      · simp [lookupIn, same, tail, Ne.symm same]

/-- Inserting changes no selection of entries that has nothing to do with the key. -/
theorem filter_insertIn {selects : Key × Value → Bool} {key : Key}
    (apart : ∀ value, selects (key, value) = false) (value : Value)
    (entries : List (Key × Value)) :
    (insertIn key value entries).filter selects = entries.filter selects := by
  induction entries with
  | nil => simp [insertIn, apart]
  | cons entry rest inductionHypothesis =>
      obtain ⟨candidate, old⟩ := entry
      by_cases same : candidate = key
      · subst same
        simp [insertIn, apart]
      · simp [insertIn, same, List.filter_cons, inductionHypothesis]

/-! ## Many entries at once -/

/-- The entries whose keys are neither known nor those of an entry before them. -/
def novelEntries (known : List Key) : List (Key × Value) → List (Key × Value)
  | [] => []
  | entry :: rest =>
      if entry.1 ∈ known then novelEntries known rest
      else entry :: novelEntries (known ++ [entry.1]) rest

/-- Inserting new entries appends the first entry of each new key, and changes no entry
that was there. -/
theorem entries_insertAllNew (map : OrderedMap Key Value) (entries : List (Key × Value)) :
    (map.insertAllNew entries).entries = map.entries ++ novelEntries map.keys entries := by
  induction entries generalizing map with
  | nil => simp [insertAllNew, novelEntries]
  | cons entry rest inductionHypothesis =>
      have step : map.insertAllNew (entry :: rest) =
          (map.insertNew entry.1 entry.2).insertAllNew rest := rfl
      rw [step, inductionHypothesis, novelEntries, insertNew]
      by_cases known : entry.1 ∈ map.keys
      · rw [if_pos ((contains_iff map entry.1).2 known), if_pos known]
      · have inserted := entries_insert_of_not_mem known entry.2
        have keys : (map.insert entry.1 entry.2).keys = map.keys ++ [entry.1] := by
          simp [OrderedMap.keys, inserted]
        rw [if_neg (mt (contains_iff map entry.1).1 known), if_neg known, inserted, keys,
          List.append_assoc, List.singleton_append]

/-- Inserting entries whose keys are all new appends them. -/
theorem entries_insertAll_of_nodup {map : OrderedMap Key Value} {entries : List (Key × Value)}
    (fresh : (map.keys ++ entries.map Prod.fst).Nodup) :
    (map.insertAll entries).entries = map.entries ++ entries := by
  induction entries generalizing map with
  | nil => simp [insertAll]
  | cons entry rest inductionHypothesis =>
      have unknown : entry.1 ∉ map.keys := fun known =>
        (List.nodup_append.1 fresh).2.2 _ known _ (by simp) rfl
      have inserted := entries_insert_of_not_mem unknown entry.2
      have keys : (map.insert entry.1 entry.2).keys = map.keys ++ [entry.1] := by
        simp [OrderedMap.keys, inserted]
      have step : map.insertAll (entry :: rest) =
          (map.insert entry.1 entry.2).insertAll rest := rfl
      rw [step, inductionHypothesis (by simpa [keys] using fresh), inserted, List.append_assoc,
        List.singleton_append]

/-- A map is built by its own entries. -/
@[simp] theorem ofList_entries (map : OrderedMap Key Value) : ofList map.entries = map := by
  have fresh : ((empty : OrderedMap Key Value).keys ++ map.entries.map Prod.fst).Nodup := by
    simpa [keys, empty] using map.distinct
  apply OrderedMap.ext
  exact entries_insertAll_of_nodup fresh

/-- Entries are inserted one list after the other. -/
theorem ofList_append (first second : List (Key × Value)) :
    ofList (first ++ second) = (ofList first).insertAll second :=
  List.foldl_append

/-- The value that a key has in two lists of entries is that in the first one, if it has one
there. -/
theorem lookupIn_append (key : Key) (front back : List (Key × Value)) :
    lookupIn key (front ++ back) = (lookupIn key front).or (lookupIn key back) := by
  induction front with
  | nil => rfl
  | cons entry rest inductionHypothesis =>
      by_cases same : entry.1 = key
      · simp [lookupIn, same]
      · simp [lookupIn, same, inductionHypothesis]

/-- Of several values that are inserted under one key the last one counts. -/
theorem get?_insertAll (map : OrderedMap Key Value) (entries : List (Key × Value)) (key : Key) :
    (map.insertAll entries).get? key = (lookupIn key entries.reverse).or (map.get? key) := by
  induction entries generalizing map with
  | nil => rfl
  | cons entry rest inductionHypothesis =>
      have step : map.insertAll (entry :: rest) = (map.insert entry.1 entry.2).insertAll rest := rfl
      rw [step, inductionHypothesis, get?_insert, List.reverse_cons, lookupIn_append, Option.or_assoc]
      by_cases same : key = entry.1
      · simp [lookupIn, same]
      · simp [lookupIn, same, Ne.symm same]

/-- Keys that are known keep their positions when entries are inserted, and the others follow
in the order in which they first occur. -/
theorem keys_insertAll (map : OrderedMap Key Value) (entries : List (Key × Value)) :
    (map.insertAll entries).keys =
      map.keys ++ (novelEntries map.keys entries).map Prod.fst := by
  induction entries generalizing map with
  | nil => simp [insertAll, novelEntries]
  | cons entry rest inductionHypothesis =>
      have step : map.insertAll (entry :: rest) = (map.insert entry.1 entry.2).insertAll rest := rfl
      rw [step, inductionHypothesis, keys_insert, novelEntries]
      by_cases known : entry.1 ∈ map.keys
      · rw [if_pos known, if_pos known]
      · rw [if_neg known, if_neg known, List.map_cons, List.append_assoc, List.singleton_append]

/-- The new keys of a list of entries are those that occur in it, each once. -/
theorem map_fst_novelEntries (known : List Key) (entries : List (Key × Value)) :
    (novelEntries known entries).map Prod.fst =
      ((entries.map Prod.fst).filter fun key => key ∉ known).eraseDups := by
  induction entries generalizing known with
  | nil => simp [novelEntries]
  | cons entry rest inductionHypothesis =>
      rw [novelEntries, List.map_cons]
      by_cases isKnown : entry.1 ∈ known
      · rw [if_pos isKnown, List.filter_cons_of_neg (by simpa using isKnown), inductionHypothesis]
      · rw [if_neg isKnown, List.filter_cons_of_pos (by simpa using isKnown), List.eraseDups_cons,
          List.filter_filter, List.map_cons, inductionHypothesis]
        congr 3
        funext key
        by_cases same : key = entry.1 <;> simp [same]

/-- A map that is built of a list has the keys of the list, each where it first occurs. -/
theorem keys_ofList (entries : List (Key × Value)) :
    (ofList entries).keys = (entries.map Prod.fst).eraseDups := by
  rw [ofList, keys_insertAll, map_fst_novelEntries]
  simp [keys, empty]

/-- A key is found with the value of its first entry. -/
theorem lookupIn_eq_some_iff {key : Key} {value : Value} {entries : List (Key × Value)} :
    lookupIn key entries = some value ↔
      ∃ before after, entries = before ++ (key, value) :: after ∧ key ∉ before.map Prod.fst := by
  induction entries with
  | nil => simp [lookupIn]
  | cons entry rest inductionHypothesis =>
      obtain ⟨candidate, first⟩ := entry
      rw [lookupIn]
      by_cases same : candidate = key
      · subst same
        rw [if_pos rfl, Option.some.injEq]
        constructor
        · rintro rfl
          exact ⟨[], rest, rfl, by simp⟩
        · rintro ⟨before, after, split, fresh⟩
          cases before with
          | nil => exact (Prod.mk.inj (List.cons.inj split).1).2
          | cons earlier others => simp [← (List.cons.inj split).1] at fresh
      · rw [if_neg same, inductionHypothesis]
        constructor
        · rintro ⟨before, after, rfl, fresh⟩
          exact ⟨(candidate, first) :: before, after, rfl, by simpa [Ne.symm same] using fresh⟩
        · rintro ⟨before, after, split, fresh⟩
          cases before with
          | nil => exact absurd (Prod.mk.inj (List.cons.inj split).1).1 same
          | cons earlier others =>
              rw [List.map_cons, List.mem_cons, not_or] at fresh
              exact ⟨others, after, (List.cons.inj split).2, fresh.2⟩

/-- A map that is built of a list has under a key the value of its last entry. -/
theorem get?_ofList_eq_some_iff {key : Key} {value : Value} {entries : List (Key × Value)} :
    (ofList entries).get? key = some value ↔
      ∃ before after, entries = before ++ (key, value) :: after ∧ key ∉ after.map Prod.fst := by
  have last : (ofList entries).get? key = lookupIn key entries.reverse := by
    rw [ofList, get?_insertAll]
    exact Option.or_none
  rw [last, lookupIn_eq_some_iff]
  constructor
  · rintro ⟨after, before, split, fresh⟩
    refine ⟨before.reverse, after.reverse, ?_, by simpa using fresh⟩
    rw [← List.reverse_reverse entries, split]
    simp
  · rintro ⟨before, after, rfl, fresh⟩
    exact ⟨after.reverse, before.reverse, by simp, by simpa using fresh⟩

/-- Maps with the same keys in the same order and the same values under them are the same. -/
theorem ext_get? {left right : OrderedMap Key Value} (sameKeys : left.keys = right.keys)
    (sameValues : ∀ key ∈ left.keys, left.get? key = right.get? key) : left = right := by
  have entries : ∀ map : OrderedMap Key Value,
      map.entries.map (fun entry => (entry.1, some entry.2)) =
        map.keys.map fun key => (key, map.get? key) := by
    intro map
    rw [keys, List.map_map]
    refine List.map_congr_left fun entry member => ?_
    rw [Function.comp_apply, (get?_eq_some_iff map entry.1 entry.2).2 member]
  have paired : ∀ first second : Key × Value,
      (first.1, some first.2) = (second.1, some second.2) → first = second := by
    rintro ⟨key, value⟩ ⟨other, another⟩ same
    simpa using same
  apply OrderedMap.ext
  apply List.map_injective_iff.2 paired
  rw [entries, entries, ← sameKeys]
  exact List.map_congr_left fun key member => by rw [sameValues key member]

/-! ## Entries with related values -/

/-- Two lists of entries with the same keys in the same order, and related values. -/
def RelatedEntries (relates : Value → Value → Prop) (left right : List (Key × Value)) : Prop :=
  List.Forall₂ (fun first second => first.1 = second.1 ∧ relates first.2 second.2) left right

variable {relates : Value → Value → Prop}

/-- Under one key none of the lists has a value, or both have related values. -/
theorem RelatedEntries.lookupIn_cases {left right : List (Key × Value)}
    (related : RelatedEntries relates left right) (key : Key) :
    (lookupIn key left = none ∧ lookupIn key right = none) ∨
      ∃ value other, lookupIn key left = some value ∧ lookupIn key right = some other ∧
        relates value other := by
  induction related with
  | nil => exact .inl ⟨rfl, rfl⟩
  | @cons first second lefts rights same _ inductionHypothesis =>
      unfold OrderedMap.lookupIn
      rw [same.1]
      split
      · exact .inr ⟨first.2, second.2, rfl, rfl, same.2⟩
      · exact inductionHypothesis

/-- Related values may be inserted under one key. -/
theorem RelatedEntries.insertIn {left right : List (Key × Value)}
    (related : RelatedEntries relates left right) (key : Key) {value other : Value}
    (same : relates value other) :
    RelatedEntries relates (insertIn key value left) (insertIn key other right) := by
  induction related with
  | nil => exact .cons ⟨rfl, same⟩ .nil
  | @cons first second lefts rights head tail inductionHypothesis =>
      unfold OrderedMap.insertIn
      rw [head.1]
      split
      · exact .cons ⟨rfl, same⟩ tail
      · exact .cons ⟨rfl, head.2⟩ inductionHypothesis

end DocblockScan.OrderedMap

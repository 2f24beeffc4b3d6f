/-!
# Maps in insertion order

A map that remembers the order in which its keys were first inserted. Writing
an existing key again keeps its position and replaces its value. No key occurs
twice; the type carries that fact.
-/

namespace DocblockScan

/-- A finite map with distinct keys, listed in the order of first insertion. -/
structure OrderedMap (Key : Type) (Value : Type) where
  entries : List (Key × Value)
  distinct : (entries.map Prod.fst).Nodup
deriving Repr

namespace OrderedMap

variable {Key Value : Type}

instance [DecidableEq Key] [DecidableEq Value] : DecidableEq (OrderedMap Key Value) :=
  fun left right =>
    decidable_of_iff (left.entries = right.entries)
      ⟨fun same => by cases left; cases right; cases same; rfl, fun same => same ▸ rfl⟩

/-- Two maps are equal when they list the same entries. -/
@[ext] theorem ext {left right : OrderedMap Key Value}
    (entries : left.entries = right.entries) : left = right := by
  cases left; cases right; cases entries; rfl

/-- The map without entries. -/
def empty : OrderedMap Key Value := ⟨[], List.nodup_nil⟩

instance : Inhabited (OrderedMap Key Value) := ⟨empty⟩

/-- The keys, in insertion order. -/
def keys (map : OrderedMap Key Value) : List Key :=
  map.entries.map Prod.fst

/-- Whether the map has no entries. -/
def isEmpty (map : OrderedMap Key Value) : Bool :=
  map.entries.isEmpty

/-- The number of entries. -/
def size (map : OrderedMap Key Value) : Nat :=
  map.entries.length

variable [DecidableEq Key]

/-- The value of the first entry with a key. -/
def lookupIn (key : Key) : List (Key × Value) → Option Value
  | [] => none
  | (candidate, value) :: rest => if candidate = key then some value else lookupIn key rest

/-- Replace the value of a key at its position, or append a new entry. -/
def insertIn (key : Key) (value : Value) : List (Key × Value) → List (Key × Value)
  | [] => [(key, value)]
  | (candidate, old) :: rest =>
      if candidate = key then (candidate, value) :: rest
      else (candidate, old) :: insertIn key value rest

/-- Inserting keeps the keys and appends the key if it was new. -/
theorem map_fst_insertIn (key : Key) (value : Value) (entries : List (Key × Value)) :
    (insertIn key value entries).map Prod.fst =
      if key ∈ entries.map Prod.fst then entries.map Prod.fst
      else entries.map Prod.fst ++ [key] := by
  induction entries with
  | nil => simp [insertIn]
  | cons entry rest inductionHypothesis =>
      obtain ⟨candidate, old⟩ := entry
      by_cases same : candidate = key
      · simp [insertIn, same]
      · by_cases known : key ∈ rest.map Prod.fst <;>
          simp_all [insertIn, eq_comm]

/-- The value of a key. -/
def get? (map : OrderedMap Key Value) (key : Key) : Option Value :=
  lookupIn key map.entries

/-- Whether a key has a value. -/
def contains (map : OrderedMap Key Value) (key : Key) : Bool :=
  (map.get? key).isSome

/-- Give a key a value: at its old position, or last when the key is new. -/
def insert (map : OrderedMap Key Value) (key : Key) (value : Value) :
    OrderedMap Key Value where
  entries := insertIn key value map.entries
  distinct := by
    rw [map_fst_insertIn]
    split
    · exact map.distinct
    · next fresh =>
        exact List.nodup_append.2 ⟨map.distinct, by simp, fun _ known _ last =>
          fun same => fresh (by simp_all)⟩

/-- Give a key a value only if it has none yet. -/
def insertNew (map : OrderedMap Key Value) (key : Key) (value : Value) :
    OrderedMap Key Value :=
  if map.contains key then map else map.insert key value

/-- Insert a list of entries one after the other. -/
def insertAll (map : OrderedMap Key Value) (entries : List (Key × Value)) :
    OrderedMap Key Value :=
  entries.foldl (fun built entry => built.insert entry.1 entry.2) map

/-- Insert those of a list of entries whose keys have no value yet. -/
def insertAllNew (map : OrderedMap Key Value) (entries : List (Key × Value)) :
    OrderedMap Key Value :=
  entries.foldl (fun built entry => built.insertNew entry.1 entry.2) map

/-- The map that a list of entries builds; of equal keys the first gives the
position and the last the value. -/
def ofList (entries : List (Key × Value)) : OrderedMap Key Value :=
  empty.insertAll entries

end OrderedMap

end DocblockScan

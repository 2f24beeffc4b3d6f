import DocblockScan.Toml.Value

/-!
# Tables under construction

A TOML document names its tables in several ways, and how a table came into
being decides what may still be added to it. This module builds tables key by
key and refuses every second definition.
-/

namespace DocblockScan.Program.Toml

open DocblockScan.Toml

/-- How a table came into being: on the way to another one, by a dotted key, or
by a header of its own. -/
inductive Origin where
  | implied
  | dotted
  | headed
deriving Repr, DecidableEq

/-- What a key of an unfinished table holds: a finished value, an unfinished
table, or a list of tables of which only the last is unfinished. -/
inductive Node where
  | leaf (value : Value)
  | table (origin : Origin) (entries : List (String × Node))
  | tables (earlier : List Value) (last : List (String × Node))
deriving Repr

/-- An unfinished table. -/
structure Table where
  origin : Origin
  entries : List (String × Node)
deriving Repr

mutual

/-- The finished form of a node. -/
def Node.finish : Node → Value
  | .leaf value => value
  | .table _ entries => .table (Node.finishEntries entries)
  | .tables earlier last => .array (earlier ++ [.table (Node.finishEntries last)])

/-- The finished forms of some entries. -/
def Node.finishEntries : List (String × Node) → List (String × Value)
  | [] => []
  | (key, node) :: rest => (key, node.finish) :: Node.finishEntries rest

end

namespace Table

/-- The table without entries that a document starts with. -/
def root : Table := ⟨.headed, []⟩

/-- What a key holds. -/
def get? (table : Table) (key : String) : Option Node :=
  (table.entries.find? fun entry => entry.1 == key).map Prod.snd

/-- Let a key hold a node, at its old place or at the end. -/
def set (table : Table) (key : String) (node : Node) : Table :=
  if table.entries.any fun entry => entry.1 == key then
    { table with entries := table.entries.map fun entry =>
        if entry.1 == key then (key, node) else entry }
  else { table with entries := table.entries ++ [(key, node)] }

/-- Change the table at the end of a path of keys. Tables on the way are made
with the given origin; one that may not be entered refuses the change. -/
def change (enters : Origin → Bool) (made : Origin) (act : Table → Option Table) :
    List String → Table → Option Table
  | [], table => act table
  | key :: path, table =>
      match table.get? key with
      | none => do
          let inner ← change enters made act path ⟨made, []⟩
          return table.set key (.table inner.origin inner.entries)
      | some (.table origin entries) =>
          if enters origin then do
            let inner ← change enters made act path ⟨origin, entries⟩
            return table.set key (.table inner.origin inner.entries)
          else none
      | some (.tables earlier last) => do
          let inner ← change enters made act path ⟨.headed, last⟩
          return table.set key (.tables earlier inner.entries)
      | some (.leaf _) => none

/-- Change the table that a header names. -/
def atHeader (path : List String) (act : Table → Option Table) (table : Table) :
    Option Table :=
  change (fun _ => true) .implied act path table

/-- Give a new key a value. -/
def define (key : String) (value : Value) (table : Table) : Option Table :=
  match table.get? key with
  | none => some (table.set key (.leaf value))
  | some _ => none

/-- Give a key of a table that a dotted path leads to a value. The table counts as
made by a dotted key from then on, so it must not have a header of its own. -/
def defineInside (key : String) (value : Value) (table : Table) : Option Table :=
  if table.origin == .headed then none
  else { table with origin := .dotted }.define key value

/-- Give the key at the end of a dotted path a value. Tables with a header of
their own take no part in dotted paths. -/
def defineDotted (path : List String) (value : Value) (table : Table) : Option Table :=
  match path.getLast?, path.dropLast with
  | none, _ => none
  | some key, [] => table.define key value
  | some key, way => change (· != .headed) .dotted (defineInside key value) way table

/-- Open the table of a header. A table can be opened once, and not after a
dotted key has made it. -/
def open? (path : List String) (table : Table) : Option Table :=
  match path.getLast? with
  | none => none
  | some key =>
      atHeader path.dropLast
        (fun outer =>
          match outer.get? key with
          | none => some (outer.set key (.table .headed []))
          | some (.table .implied entries) => some (outer.set key (.table .headed entries))
          | some _ => none)
        table

/-- Open a further table of a list of tables. -/
def openNext? (path : List String) (table : Table) : Option Table :=
  match path.getLast? with
  | none => none
  | some key =>
      atHeader path.dropLast
        (fun outer =>
          match outer.get? key with
          | none => some (outer.set key (.tables [] []))
          | some (.tables earlier last) =>
              some (outer.set key
                (.tables (earlier ++ [.table (Node.finishEntries last)]) []))
          | some _ => none)
        table

/-- The entries of the finished table. -/
def finish (table : Table) : List (String × Value) :=
  Node.finishEntries table.entries

end Table

end DocblockScan.Program.Toml

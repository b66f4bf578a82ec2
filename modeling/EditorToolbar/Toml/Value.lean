import EditorToolbar.Decimal.Binary64
import EditorToolbar.Text.Basic

/-!
# TOML values

The values of a TOML document. Dates and times are kept as their text in its standard form, and the
document itself is a table. `Table.define` and its companions say how statements build up a
document: a table may be opened once by a header, a table that only lies on the way to another one
may be opened later, and a table made by dotted keys is closed to headers.
-/

namespace EditorToolbar.Toml

inductive Value where
  | string (s : Text)
  | integer (n : Int)
  | float (x : Binary64)
  | boolean (b : Bool)
  | date (text : Text)
  | array (items : List Value)
  | table (entries : List (Text × Value))

/-- How a table came about: on the way to another one, by dotted keys, or by a header. -/
inductive Origin where
  | passed
  | dotted
  | header
  deriving DecidableEq, Repr

/-- A part of a document under construction: a value that is complete, a table, or an array of
tables, whose last table is the one that statements refer to. -/
inductive Node where
  | value (v : Value)
  | table (origin : Origin) (entries : List (Text × Node))
  | tables (items : List (List (Text × Node)))

structure Table where
  origin : Origin := .header
  entries : List (Text × Node) := []

def Table.get? (t : Table) (key : Text) : Option Node :=
  (t.entries.find? fun entry => entry.1 == key).map Prod.snd

/-- Puts a part under a key, in the place of the part that is there. -/
def Table.put (t : Table) (key : Text) (n : Node) : Table :=
  if (t.get? key).isSome then
    { t with entries := t.entries.map fun entry => if entry.1 == key then (key, n) else entry }
  else { t with entries := t.entries ++ [(key, n)] }

/-- Changes the table at the end of a path. Tables missing on the way are made; `dotted` says
whether the path is that of a dotted key, which may not enter a table with a header. -/
def Table.within (dotted : Bool) : List Text → (Table → Option Table) → Table → Option Table
  | [], change, t => change t
  | key :: path, change, t =>
    match t.get? key with
    | none => do
      let inner ← within dotted path change ⟨if dotted then .dotted else .passed, []⟩
      return t.put key (.table inner.origin inner.entries)
    | some (.value _) => none
    | some (.table origin entries) =>
      if dotted && origin = .header then none
      else do
        let inner ← within dotted path change ⟨origin, entries⟩
        return t.put key (.table inner.origin inner.entries)
    | some (.tables items) =>
      match items.getLast? with
      | none => none
      | some entries => do
        let inner ← within dotted path change ⟨.header, entries⟩
        return t.put key (.tables (items.dropLast ++ [inner.entries]))

/-- Sets a key, dotted or not, of a table. -/
def Table.assign (path : List Text) (v : Value) (t : Table) : Option Table :=
  match path.getLast? with
  | none => none
  | some key =>
    t.within true path.dropLast fun inner =>
      if (inner.origin = .dotted) = path.dropLast.isEmpty then none
      else if (inner.get? key).isSome then none
      else some (inner.put key (.value v))

/-- Opens the table of a header. -/
def Table.define (path : List Text) (t : Table) : Option Table :=
  match path.getLast? with
  | none => none
  | some key =>
    t.within false path.dropLast fun inner =>
      match inner.get? key with
      | none => some (inner.put key (.table .header []))
      | some (.table .passed entries) => some (inner.put key (.table .header entries))
      | some _ => none

/-- Adds a table to the array of tables of a header. -/
def Table.extend (path : List Text) (t : Table) : Option Table :=
  match path.getLast? with
  | none => none
  | some key =>
    t.within false path.dropLast fun inner =>
      match inner.get? key with
      | none => some (inner.put key (.tables [[]]))
      | some (.tables items) => some (inner.put key (.tables (items ++ [[]])))
      | some _ => none

mutual

def Node.toValue : Node → Value
  | .value v => v
  | .table _ entries => .table (entriesToValues entries)
  | .tables items => .array (tablesToValues items)

def entriesToValues : List (Text × Node) → List (Text × Value)
  | [] => []
  | (key, n) :: rest => (key, n.toValue) :: entriesToValues rest

def tablesToValues : List (List (Text × Node)) → List Value
  | [] => []
  | entries :: rest => .table (entriesToValues entries) :: tablesToValues rest

end

def Table.toValue (t : Table) : Value := .table (entriesToValues t.entries)

end EditorToolbar.Toml

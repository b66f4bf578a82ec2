import EditorToolbar.Toml.Value

/-!
# Layers of settings

A settings file is laid over the defaults, key by key: where both have a table the tables are
merged, and everywhere else the value of the file takes the place of the one below. The case of a
key does not matter. An empty table changes nothing, not even a value that is no table, since it
has no key to be set.

A key at the top of a file that consists of words with points in between stands for a key within
tables, even if it is written in quotes. `Layer.set` puts a single value at the end of a path.

Two things are assumed of a file. No key at its top leads to an item of an array, by a number in
brackets after a word: here such a key is taken as it stands. And no two of its keys, in whatever
spelling, set the same value: here the later one wins, while in general the order in which the keys
of a table are laid over what is below is not fixed.
-/

namespace EditorToolbar.Layer

open Toml (Value)

/-- A letter in lower case. Apart from the ASCII letters only the Kelvin sign has one among
them. -/
def lowerLetter (c : Char) : Char := if c.toNat = 0x212A then 'k' else c.toLower

def lowerKey (key : Text) : Text := key.map lowerLetter

/-- The entries of a table; any other value counts as an empty table. -/
def entries : Value → List (Text × Value)
  | .table es => es
  | _ => []

/-- Changes the value of a key in a table, or adds one. The change is given the value that is
there. -/
def alter (key : Text) (change : Option Value → Value) : List (Text × Value) → List (Text × Value)
  | [] => [(key, change none)]
  | (k, v) :: rest =>
    if k = key then (k, change (some v)) :: rest else (k, v) :: alter key change rest

mutual

/-- A value laid over the one below it, if there is one. -/
def merge (below : Option Value) : Value → Value
  | .table es => mergeEntries (below.getD (.table [])) es
  | .string s => .string s
  | .integer n => .integer n
  | .float x => .float x
  | .boolean b => .boolean b
  | .date text => .date text
  | .array items => .array items

def mergeEntries (below : Value) : List (Text × Value) → Value
  | [] => below
  | (key, v) :: rest =>
    mergeEntries (.table (alter (lowerKey key) (fun old => merge old v) (entries below))) rest

end

/-- Puts a value at the end of a path of keys, through tables that are made where there are
none. -/
def set : List Text → Value → Option Value → Value
  | [], v, below => merge below v
  | key :: path, v, below =>
    .table (alter (lowerKey key) (set path v) (entries (below.getD (.table []))))

/-- The characters of the words that a key at the top may consist of. -/
def isWordChar (c : Char) : Bool := c.isAlphanum || c == ' ' || c == '_' || c == '-'

/-- The path that a key at the top stands for. A key with brackets stands for itself. -/
def keyPath (key : Text) : List Text :=
  let words := Text.pieces (· == '.') key
  if words.all fun word => !word.isEmpty && word.all isWordChar then words else [key]

/-- A document laid over a value, entry by entry in the order of the file. -/
def mergeDocument (below : Value) (document : List (Text × Value)) : Value :=
  document.foldl (fun root entry => set (keyPath entry.1) entry.2 (some root)) below

end EditorToolbar.Layer

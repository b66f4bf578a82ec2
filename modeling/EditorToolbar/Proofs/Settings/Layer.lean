import EditorToolbar.Settings.Layer

/-!
# What a layer changes

Changing the value of a key in a table leaves every other key alone. `Layer.set` changes one key on
each level of its path, and so does a document with each of its entries. A value that has been a
table remains one when a table is laid over it; so a key that stands for a table throughout, if it
is there at all, still does when documents have been laid over each other (`TableAt.mergeDocument`).
-/

namespace EditorToolbar

def Toml.Value.isTable : Toml.Value → Bool
  | .table _ => true
  | _ => false

theorem Toml.Value.isTable_iff (v : Toml.Value) : v.isTable = true ↔ ∃ es, v = .table es := by
  cases v <;> simp [isTable]

namespace Layer

open Toml (Value)

section

variable {key k : Text} {change : Option Value → Value} {es : List (Text × Value)}

theorem lookup_alter_self (key : Text) (change : Option Value → Value)
    (es : List (Text × Value)) :
    (alter key change es).lookup key = some (change (es.lookup key)) := by
  induction es with
  | nil => exact List.lookup_cons_self
  | cons entry rest ih =>
      obtain ⟨k, v⟩ := entry
      rw [alter]
      split
      · next h => rw [h, List.lookup_cons_self, List.lookup_cons_self]
      · next h =>
          have hne : (key == k) = false := beq_eq_false_iff_ne.mpr (Ne.symm h)
          rw [List.lookup_cons, List.lookup_cons, hne]
          exact ih

theorem lookup_alter_of_ne (h : k ≠ key) : (alter key change es).lookup k = es.lookup k := by
  induction es with
  | nil =>
      have hne : (k == key) = false := beq_eq_false_iff_ne.mpr h
      rw [alter, List.lookup_cons, hne]
  | cons entry rest ih =>
      obtain ⟨k', v⟩ := entry
      rw [alter]
      split
      · next heq =>
          have hne : (k == k') = false := beq_eq_false_iff_ne.mpr (heq ▸ h)
          rw [List.lookup_cons, List.lookup_cons, hne]
      · rw [List.lookup_cons, List.lookup_cons, ih]

end

section

variable {root v : Value} {key k : Text} {path : List Text}

theorem lookup_set_self (root v : Value) (key : Text) (path : List Text) :
    (entries (set (key :: path) v (some root))).lookup (lowerKey key) =
      some (set path v ((entries root).lookup (lowerKey key))) :=
  lookup_alter_self ..

theorem lookup_set_of_ne (h : k ≠ lowerKey key) :
    (entries (set (key :: path) v (some root))).lookup k = (entries root).lookup k :=
  lookup_alter_of_ne h

end

theorem isTable_mergeEntries {below : Value} (h : below.isTable = true)
    (es : List (Text × Value)) : (mergeEntries below es).isTable = true := by
  induction es generalizing below with
  | nil => rwa [mergeEntries]
  | cons entry rest ih =>
      rw [mergeEntries]
      exact ih rfl

/-- A table laid over a table, or over nothing, is a table. -/
theorem isTable_merge {below : Option Value} {v : Value} (hv : v.isTable = true)
    (h : ∀ b ∈ below, b.isTable = true) : (merge below v).isTable = true := by
  obtain ⟨es, rfl⟩ := v.isTable_iff.mp hv
  rw [merge]
  refine isTable_mergeEntries ?_ es
  cases below with
  | none => rfl
  | some b => exact h b rfl

/-- A key of a value stands for a table, if it is there at all. -/
def TableAt (k : Text) (v : Value) : Prop := ∀ inner ∈ (entries v).lookup k, inner.isTable = true

section

variable {root : Value} {k : Text}

/-- A path leaves a table at the key it begins with, unless it ends there with something else. -/
theorem TableAt.set {v : Value} {key : Text} {path : List Text} (h : TableAt k root)
    (hv : path = [] → lowerKey key = k → v.isTable = true) :
    TableAt k (set (key :: path) v (some root)) := by
  intro inner hinner
  by_cases hk : k = lowerKey key
  · subst hk
    rw [lookup_set_self, Option.mem_some_iff] at hinner
    subst hinner
    cases path with
    | nil => exact isTable_merge (hv rfl rfl) h
    | cons next path => rfl
  · rw [lookup_set_of_ne hk] at hinner
    exact h inner hinner

/-- A key stands for a path that begins somewhere; a path of one key is that key. -/
theorem keyPath_eq_cons (key : Text) :
    ∃ first rest, keyPath key = first :: rest ∧ (rest = [] → first = key) := by
  rw [keyPath]
  split
  · have hjoined : List.intercalate ['.'] (Text.pieces (· == '.') key) = key :=
      List.intercalate_splitOn '.'
    cases h : Text.pieces (· == '.') key with
    | nil => exact absurd h (List.splitOnP_ne_nil _ key)
    | cons first rest =>
        refine ⟨first, rest, rfl, ?_⟩
        rintro rfl
        rwa [h, List.intercalate_singleton] at hjoined
  · exact ⟨key, [], rfl, fun _ => rfl⟩

theorem mergeDocument_cons (root : Value) (entry : Text × Value)
    (document : List (Text × Value)) :
    mergeDocument root (entry :: document) =
      mergeDocument (set (keyPath entry.1) entry.2 (some root)) document := rfl

/-- A document in which a key stands for nothing but tables leaves it so. -/
theorem TableAt.mergeDocument {document : List (Text × Value)} (h : TableAt k root)
    (hdocument : ∀ entry ∈ document, lowerKey entry.1 = k → entry.2.isTable = true) :
    TableAt k (mergeDocument root document) := by
  induction document generalizing root with
  | nil => exact h
  | cons entry document ih =>
      obtain ⟨first, rest, hpath, hfirst⟩ := keyPath_eq_cons entry.1
      rw [mergeDocument_cons, hpath]
      refine ih (h.set fun hnil hk => ?_) fun x hx => hdocument x (List.mem_cons_of_mem _ hx)
      exact hdocument entry List.mem_cons_self (hfirst hnil ▸ hk)

theorem isTable_mergeDocument (h : root.isTable = true) (document : List (Text × Value)) :
    (Layer.mergeDocument root document).isTable = true := by
  induction document generalizing root with
  | nil => exact h
  | cons entry document ih =>
      obtain ⟨first, rest, hpath, -⟩ := keyPath_eq_cons entry.1
      rw [mergeDocument_cons, hpath]
      exact ih rfl

end

end Layer

end EditorToolbar

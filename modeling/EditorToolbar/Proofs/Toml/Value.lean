import EditorToolbar.Toml.Value

/-!
# Equality of values

Values hold lists of values, so equality of values is decided together with that of lists of items
and lists of entries.
-/

namespace EditorToolbar.Toml

mutual

def Value.same : Value → Value → Bool
  | .string s, .string t => s == t
  | .integer m, .integer n => m == n
  | .float x, .float y => x == y
  | .boolean a, .boolean b => a == b
  | .date s, .date t => s == t
  | .array xs, .array ys => sameItems xs ys
  | .table es, .table fs => sameEntries es fs
  | _, _ => false

def sameItems : List Value → List Value → Bool
  | [], [] => true
  | x :: xs, y :: ys => x.same y && sameItems xs ys
  | _, _ => false

/-- Whether two tables hold the same entries, in the same order. -/
def sameEntries : List (Text × Value) → List (Text × Value) → Bool
  | [], [] => true
  | (k, x) :: es, (l, y) :: fs => k == l && x.same y && sameEntries es fs
  | _, _ => false

end

mutual

theorem Value.same_iff : ∀ v w : Value, v.same w = true ↔ v = w
  | .string _, w => by cases w <;> simp [Value.same]
  | .integer _, w => by cases w <;> simp [Value.same]
  | .float _, w => by cases w <;> simp [Value.same]
  | .boolean _, w => by cases w <;> simp [Value.same]
  | .date _, w => by cases w <;> simp [Value.same]
  | .array xs, w => by
      cases w with
      | array ys => rw [Value.same, sameItems_iff xs ys, Value.array.injEq]
      | _ => simp [Value.same]
  | .table es, w => by
      cases w with
      | table fs => rw [Value.same, sameEntries_iff es fs, Value.table.injEq]
      | _ => simp [Value.same]

theorem sameItems_iff : ∀ xs ys : List Value, sameItems xs ys = true ↔ xs = ys
  | [], [] => by simp [sameItems]
  | [], _ :: _ => by simp [sameItems]
  | _ :: _, [] => by simp [sameItems]
  | x :: xs, y :: ys => by
      rw [sameItems, Bool.and_eq_true, Value.same_iff x y, sameItems_iff xs ys, List.cons.injEq]

theorem sameEntries_iff : ∀ es fs : List (Text × Value), sameEntries es fs = true ↔ es = fs
  | [], [] => by simp [sameEntries]
  | [], _ :: _ => by simp [sameEntries]
  | _ :: _, [] => by simp [sameEntries]
  | (k, x) :: es, (l, y) :: fs => by
      rw [sameEntries, Bool.and_eq_true, Bool.and_eq_true, beq_iff_eq, Value.same_iff x y,
        sameEntries_iff es fs, List.cons.injEq, Prod.mk.injEq]

end

instance : DecidableEq Value := fun v w => decidable_of_iff (v.same w = true) (v.same_iff w)

end EditorToolbar.Toml

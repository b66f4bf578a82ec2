import EditorToolbar.Repair.GluedNames
import EditorToolbar.Proofs.Text.Basic

/-!
# The parts of a glued name

Both sides of every pair have at least two letters, so a cut leaves at least two on either side. It
follows that splitting never makes a fragment and needs no more cuts than there are letters. A part
is cut off at the earliest place of all, hence holds no glued pair itself: no part is cut again, and
splitting what has been split changes nothing.
-/

namespace EditorToolbar.GluedNames

theorem find?_add_length_le {word s : Text} {i : Nat} (h : find? word s = some i) :
    i + word.length ≤ s.length := by
  induction s generalizing i with
  | nil =>
      unfold find? at h
      split at h
      · next hw =>
          cases h
          simp [List.isEmpty_iff.mp hw]
      · cases h
  | cons c r ih =>
      unfold find? at h
      split at h
      · next hw =>
          cases h
          simpa using (List.isPrefixOf_iff_prefix.mp hw).length_le
      · obtain ⟨j, hj, rfl⟩ := Option.map_eq_some_iff.mp h
        have hle := ih hj
        simp only [List.length_cons]
        omega

/-- A word is not found later if the text goes on. -/
theorem find?_append {word s : Text} {i : Nat} (h : find? word s = some i) (r : Text) :
    ∃ j ≤ i, find? word (s ++ r) = some j := by
  induction s generalizing i with
  | nil =>
      obtain ⟨-, rfl⟩ : i = 0 ∧ word = [] := by simpa using find?_add_length_le h
      refine ⟨0, Nat.zero_le _, ?_⟩
      cases r <;> rfl
  | cons c s ih =>
      rw [List.cons_append]
      unfold find? at h ⊢
      split at h
      · next hw =>
          have hprefix : word <+: c :: (s ++ r) :=
            (List.isPrefixOf_iff_prefix.mp hw).trans (List.prefix_append (c :: s) r)
          rw [if_pos (List.isPrefixOf_iff_prefix.mpr hprefix)]
          exact ⟨0, Nat.zero_le _, rfl⟩
      · obtain ⟨j, hj, rfl⟩ := Option.map_eq_some_iff.mp h
        obtain ⟨k, hk, hfind⟩ := ih hj
        split
        · exact ⟨0, Nat.zero_le _, rfl⟩
        · exact ⟨k + 1, by omega, by rw [hfind]; rfl⟩

theorem find?_eq_none_iff (word s : Text) : find? word s = none ↔ ¬ word <:+: s := by
  induction s with
  | nil => simp [find?]
  | cons c r ih =>
      rw [find?, List.infix_cons_iff, not_or, ← List.isPrefixOf_iff_prefix, ← ih]
      split
      · next h => simp [h]
      · next h => simp [h]

theorem two_le_length_of_mem_pairs :
    ∀ p ∈ pairs, 2 ≤ p.left.length ∧ 2 ≤ p.right.length := by
  decide

theorem mem_pairs_of_cut? {name : Text} {n : Nat} (h : cut? name = some n) :
    ∃ p ∈ pairs, p.cut? name = some n := by
  have hmem := (List.min?_eq_some_iff.mp h).1
  exact List.mem_filterMap.mp hmem

theorem cut?_le {name : Text} {p : Pair} {n : Nat} (hp : p ∈ pairs) (h : p.cut? name = some n) :
    ∃ m ≤ n, cut? name = some m := by
  have hmem : n ∈ pairs.filterMap fun q => q.cut? name := List.mem_filterMap.mpr ⟨p, hp, h⟩
  cases hcut : cut? name with
  | none =>
      rw [cut?, List.min?_eq_none_iff] at hcut
      rw [hcut] at hmem
      cases hmem
  | some m => exact ⟨m, (List.min?_eq_some_iff.mp hcut).2 n hmem, rfl⟩

/-- A name is cut exactly if it contains a glued pair. -/
theorem cut?_eq_none_iff (name : Text) :
    cut? name = none ↔ ∀ p ∈ pairs, ¬ p.glued <:+: name := by
  rw [cut?, List.min?_eq_none_iff, List.filterMap_eq_nil_iff]
  simp only [Pair.cut?, Option.map_eq_none_iff, find?_eq_none_iff]

theorem two_le_of_cut? {name : Text} {n : Nat} (h : cut? name = some n) :
    2 ≤ n ∧ n + 2 ≤ name.length := by
  obtain ⟨p, hp, hcut⟩ := mem_pairs_of_cut? h
  obtain ⟨hleft, hright⟩ := two_le_length_of_mem_pairs p hp
  obtain ⟨i, hi, rfl⟩ := Option.map_eq_some_iff.mp hcut
  have hle := find?_add_length_le hi
  simp only [Pair.glued, List.length_append] at hle
  omega

/-- Where a name is cut, so is any name that begins with it, or earlier. -/
theorem cut?_append {s : Text} {n : Nat} (h : cut? s = some n) (r : Text) :
    ∃ m ≤ n, cut? (s ++ r) = some m := by
  obtain ⟨p, hp, hcut⟩ := mem_pairs_of_cut? h
  obtain ⟨i, hi, rfl⟩ := Option.map_eq_some_iff.mp hcut
  obtain ⟨j, hj, hfind⟩ := find?_append hi r
  have hcut' : p.cut? (s ++ r) = some (j + p.left.length) := by rw [Pair.cut?, hfind]; rfl
  obtain ⟨m, hm, hmin⟩ := cut?_le hp hcut'
  exact ⟨m, by omega, hmin⟩

theorem cut?_take_eq_none {name : Text} {n : Nat} (h : cut? name = some n) :
    cut? (name.take n) = none := by
  cases hcut : cut? (name.take n) with
  | none => rfl
  | some m =>
      obtain ⟨k, hk, hmin⟩ := cut?_append hcut (name.drop n)
      rw [List.take_append_drop, h] at hmin
      have hle := (two_le_of_cut? hcut).2
      have htake := List.length_take_le n name
      cases hmin
      omega

theorem cut?_eq_none_of_length_lt {name : Text} (h : name.length < 2) : cut? name = none := by
  cases hcut : cut? name with
  | none => rfl
  | some n =>
      have hle := two_le_of_cut? hcut
      omega

theorem splitWithin_of_cut?_eq_none {name : Text} (h : cut? name = none) (limit : Nat) :
    splitWithin limit name = [name] := by
  cases limit with
  | zero => rfl
  | succ limit => rw [splitWithin, h]

theorem split_of_cut?_eq_none {name : ToolName} (h : cut? name = none) : split name = [name] :=
  splitWithin_of_cut?_eq_none h _

/-- No part is cut again. -/
theorem cut?_eq_none_of_mem_splitWithin {limit : Nat} {name part : Text}
    (hlimit : name.length ≤ limit) (h : part ∈ splitWithin limit name) : cut? part = none := by
  induction limit generalizing name with
  | zero =>
      cases List.mem_singleton.mp h
      exact cut?_eq_none_of_length_lt (by omega)
  | succ limit ih =>
      cases hcut : cut? name with
      | none =>
          rw [splitWithin_of_cut?_eq_none hcut] at h
          cases List.mem_singleton.mp h
          exact hcut
      | some n =>
          rw [splitWithin, hcut] at h
          rcases List.mem_cons.mp h with rfl | h
          · exact cut?_take_eq_none hcut
          · have hn := two_le_of_cut? hcut
            exact ih (by rw [List.length_drop]; omega) h

theorem cut?_eq_none_of_mem_split {name part : ToolName} (h : part ∈ split name) :
    cut? part = none :=
  cut?_eq_none_of_mem_splitWithin (Nat.le_refl _) h

theorem two_le_length_of_mem_splitWithin {limit : Nat} {name part : Text} (hname : 2 ≤ name.length)
    (h : part ∈ splitWithin limit name) : 2 ≤ part.length := by
  induction limit generalizing name with
  | zero =>
      cases List.mem_singleton.mp h
      exact hname
  | succ limit ih =>
      cases hcut : cut? name with
      | none =>
          rw [splitWithin_of_cut?_eq_none hcut] at h
          cases List.mem_singleton.mp h
          exact hname
      | some n =>
          have hn := two_le_of_cut? hcut
          rw [splitWithin, hcut] at h
          rcases List.mem_cons.mp h with rfl | h
          · rw [List.length_take]
            omega
          · exact ih (by rw [List.length_drop]; omega) h

theorem isInfix_of_mem_splitWithin {limit : Nat} {name part : Text}
    (h : part ∈ splitWithin limit name) : part <:+: name := by
  induction limit generalizing name with
  | zero =>
      cases List.mem_singleton.mp h
      exact List.infix_rfl
  | succ limit ih =>
      rw [splitWithin] at h
      split at h
      · cases List.mem_singleton.mp h
        exact List.infix_rfl
      · next n hcut =>
          rcases List.mem_cons.mp h with rfl | h
          · exact (List.take_prefix n name).isInfix
          · exact (ih h).trans (List.drop_suffix n name).isInfix

theorem splitWithin_ne_nil (limit : Nat) (name : Text) : splitWithin limit name ≠ [] := by
  cases limit with
  | zero => simp [splitWithin]
  | succ limit =>
      rw [splitWithin]
      split <;> simp

theorem split_ne_nil (name : ToolName) : split name ≠ [] := splitWithin_ne_nil _ name

theorem ne_nil_of_mem_split {name part : ToolName} (hname : name ≠ []) (h : part ∈ split name) :
    part ≠ [] := by
  by_cases hlen : 2 ≤ name.length
  · have hpart := two_le_length_of_mem_splitWithin hlen h
    exact List.ne_nil_of_length_pos (by omega)
  · rw [split_of_cut?_eq_none (cut?_eq_none_of_length_lt (by omega))] at h
    cases List.mem_singleton.mp h
    exact hname

theorem length_split_le {name : ToolName} (hname : name ≠ []) :
    (split name).length ≤ name.length := by
  have hle := Text.length_le_length_flatten fun part => ne_nil_of_mem_split hname
  rwa [flatten_split] at hle

theorem splitAll_eq_self {tools : List ToolName} (h : ∀ tool ∈ tools, cut? tool = none) :
    splitAll tools = tools := by
  induction tools with
  | nil => rfl
  | cons tool tools ih =>
      have htail := ih fun x hx => h x (List.mem_cons_of_mem _ hx)
      rw [splitAll, List.flatMap_cons, split_of_cut?_eq_none (h tool (by simp)), ← splitAll, htail]
      rfl

theorem cut?_eq_none_of_mem_splitAll {tools : List ToolName} {part : ToolName}
    (h : part ∈ splitAll tools) : cut? part = none := by
  obtain ⟨tool, -, hpart⟩ := List.mem_flatMap.mp h
  exact cut?_eq_none_of_mem_split hpart

end EditorToolbar.GluedNames

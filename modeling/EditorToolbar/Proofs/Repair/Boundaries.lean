import Mathlib.Data.List.Infix
import EditorToolbar.Proofs.Repair.GluedNames

/-!
# Where a glued name is cut

A boundary of a name is a place where the left side of some pair ends and its right side begins
(`IsBoundary`). Splitting cuts at the first boundary and goes on with what remains, so it could miss
a boundary whose left side has begun before the cut. This does not happen: no left side can be laid
over a boundary of another pair so that the two agree in the letters that they share
(`not_straddles`). So the boundaries of what remains are those of the name
(`isBoundary_append_iff`), and all of them are cut, also where a word is the right side of one pair
and the left side of the next.
-/

namespace EditorToolbar.GluedNames

/-- The left side of a pair ends at a place of a name, and its right side begins there. -/
def Pair.MeetsAt (p : Pair) (name : Text) (n : Nat) : Prop :=
  ∃ before after, name = before ++ p.left ++ (p.right ++ after) ∧ n = (before ++ p.left).length

/-- A place of a name at which some pair meets. -/
def IsBoundary (name : Text) (n : Nat) : Prop := ∃ p ∈ pairs, p.MeetsAt name n

/-- The places at which one part ends and the next one begins, if the first part begins at
`start`. -/
def cutsFrom : Nat → List ToolName → List Nat
  | _, [] => []
  | _, [_] => []
  | start, part :: next :: rest =>
    (start + part.length) :: cutsFrom (start + part.length) (next :: rest)

/-- The places at which the parts of a name have been cut from each other. -/
def cuts (parts : List ToolName) : List Nat := cutsFrom 0 parts

theorem cutsFrom_cons {part : ToolName} {rest : List ToolName} (h : rest ≠ []) (start : Nat) :
    cutsFrom start (part :: rest) =
      (start + part.length) :: cutsFrom (start + part.length) rest := by
  cases rest with
  | nil => exact absurd rfl h
  | cons next rest => rfl

/-- What is found is an occurrence, and there is none before it. -/
theorem exists_eq_append_of_find? {word s : Text} {i : Nat} (h : find? word s = some i) :
    ∃ before after, s = before ++ (word ++ after) ∧ i = before.length := by
  induction s generalizing i with
  | nil =>
      unfold find? at h
      split at h
      · next hw =>
          cases h
          exact ⟨[], [], by simp [List.isEmpty_iff.mp hw], rfl⟩
      · cases h
  | cons c r ih =>
      unfold find? at h
      split at h
      · next hw =>
          cases h
          obtain ⟨after, hafter⟩ := List.isPrefixOf_iff_prefix.mp hw
          exact ⟨[], after, hafter.symm, rfl⟩
      · obtain ⟨k, hk, rfl⟩ := Option.map_eq_some_iff.mp h
        obtain ⟨before, after, rfl, rfl⟩ := ih hk
        exact ⟨c :: before, after, rfl, rfl⟩

theorem find?_of_isPrefix {word s : Text} (h : word <+: s) : find? word s = some 0 := by
  cases s with
  | nil => rw [List.prefix_nil.mp h]; rfl
  | cons c r => rw [find?, if_pos (List.isPrefixOf_iff_prefix.mpr h)]

theorem exists_find?_append (word before after : Text) :
    ∃ i ≤ before.length, find? word (before ++ (word ++ after)) = some i := by
  induction before with
  | nil => exact ⟨0, Nat.le_refl _, find?_of_isPrefix (List.prefix_append word after)⟩
  | cons c before ih =>
      by_cases hw : word <+: c :: (before ++ (word ++ after))
      · exact ⟨0, Nat.zero_le _, find?_of_isPrefix hw⟩
      · obtain ⟨i, hi, hfind⟩ := ih
        refine ⟨i + 1, Nat.succ_le_succ hi, ?_⟩
        rw [List.cons_append, find?, if_neg (List.isPrefixOf_iff_prefix.not.mpr hw), hfind]
        rfl

section

variable {p q : Pair} {name : Text} {n m : Nat}

theorem Pair.meetsAt_of_cut? (h : p.cut? name = some n) : p.MeetsAt name n := by
  obtain ⟨i, hi, rfl⟩ := Option.map_eq_some_iff.mp h
  obtain ⟨before, after, rfl, rfl⟩ := exists_eq_append_of_find? hi
  exact ⟨before, after, by simp [Pair.glued], by simp⟩

/-- A pair is cut where it meets, or earlier. -/
theorem Pair.MeetsAt.exists_cut? (h : p.MeetsAt name n) : ∃ m ≤ n, p.cut? name = some m := by
  obtain ⟨before, after, rfl, rfl⟩ := h
  obtain ⟨i, hi, hfind⟩ := exists_find?_append p.glued before after
  refine ⟨i + p.left.length, by simpa using hi, ?_⟩
  rw [Pair.cut?, Option.map_eq_some_iff]
  exact ⟨i, by simpa [Pair.glued] using hfind, rfl⟩

theorem isBoundary_of_cut? (h : cut? name = some n) : IsBoundary name n := by
  obtain ⟨p, hp, hcut⟩ := mem_pairs_of_cut? h
  exact ⟨p, hp, Pair.meetsAt_of_cut? hcut⟩

/-- The place at which a name is cut is its first boundary. -/
theorem IsBoundary.exists_cut? (h : IsBoundary name n) : ∃ m ≤ n, cut? name = some m := by
  obtain ⟨p, hp, hmeets⟩ := h
  obtain ⟨k, hk, hcut⟩ := hmeets.exists_cut?
  obtain ⟨m, hm, hmin⟩ := cut?_le hp hcut
  exact ⟨m, Nat.le_trans hm hk, hmin⟩

/-- A left side that is parted in two, laid over a boundary so that its parts stand on both sides of
it, differs from what stands there. -/
theorem not_straddles : ∀ p ∈ pairs, ∀ q ∈ pairs, ∀ d < q.left.length, 0 < d →
    ¬ ((q.left.take d <:+ p.left ∨ p.left <:+ q.left.take d) ∧
      (q.left.drop d <+: p.right ∨ p.right <+: q.left.drop d)) := by
  decide +kernel

/-- A left side that ends behind a boundary has begun there or later. -/
theorem exists_eq_append_of_lt {first rest u v : Text} (hp : p ∈ pairs) (hq : q ∈ pairs)
    (hleft : p.left <:+ first) (hright : p.right <+: rest)
    (h : u ++ q.left ++ v = first ++ rest) (hlt : first.length < (u ++ q.left).length) :
    ∃ w, u = first ++ w := by
  obtain ⟨y, hfirst, -⟩ | ⟨y, hy, hrest⟩ := List.append_eq_append_iff.mp h
  · rw [hfirst, List.length_append] at hlt
    omega
  obtain ⟨x, rfl, hparted⟩ | ⟨w, hw, -⟩ := List.append_eq_append_iff.mp hy
  · cases x with
    | nil => exact ⟨[], by simp⟩
    | cons c x =>
        -- the left side would stand on both sides of the boundary
        have hsuffix := List.suffix_or_suffix_of_suffix (List.suffix_append u (c :: x)) hleft
        have hprefix := List.prefix_or_prefix_of_prefix ⟨v, hrest.symm⟩ hright
        have hne : y ≠ [] := by
          rintro rfl
          rw [hparted, List.append_nil] at hlt
          exact absurd hlt (Nat.lt_irrefl _)
        have hlen : (c :: x).length < q.left.length := by
          rw [hparted, List.length_append]
          exact Nat.lt_add_of_pos_right (List.length_pos_iff.mpr hne)
        refine absurd ⟨?_, ?_⟩ (not_straddles p hp q hq _ hlen (Nat.succ_pos _))
        · rwa [hparted, List.take_left]
        · rwa [hparted, List.drop_left]
  · exact ⟨w, hw⟩

theorem Pair.meetsAt_append_iff (p : Pair) (first rest : Text) :
    p.MeetsAt (first ++ rest) first.length ↔ p.left <:+ first ∧ p.right <+: rest := by
  constructor
  · rintro ⟨before, after, heq, hlen⟩
    obtain ⟨rfl, rfl⟩ := List.append_inj heq hlen
    exact ⟨List.suffix_append before p.left, List.prefix_append p.right after⟩
  · rintro ⟨⟨before, rfl⟩, after, rfl⟩
    exact ⟨before, after, rfl, rfl⟩

theorem IsBoundary.append (h : IsBoundary name n) (first : Text) :
    IsBoundary (first ++ name) (first.length + n) := by
  obtain ⟨p, hp, before, after, rfl, rfl⟩ := h
  exact ⟨p, hp, first ++ before, after, by simp, by simp⟩

/-- Behind a boundary, the boundaries of a name are those of what remains. -/
theorem isBoundary_append_iff {first rest : Text} (h : IsBoundary (first ++ rest) first.length)
    (hn : 0 < n) : IsBoundary (first ++ rest) (first.length + n) ↔ IsBoundary rest n := by
  refine ⟨?_, fun hrest => hrest.append first⟩
  rintro ⟨q, hq, before, after, heq, hlen⟩
  obtain ⟨p, hp, hmeets⟩ := h
  obtain ⟨hleft, hright⟩ := (p.meetsAt_append_iff first rest).mp hmeets
  have hlt : first.length < (before ++ q.left).length := by omega
  obtain ⟨w, rfl⟩ := exists_eq_append_of_lt hp hq hleft hright heq.symm hlt
  refine ⟨q, hq, w, after, ?_, ?_⟩
  · simpa using heq
  · simpa [Nat.add_assoc] using hlen

/-- The boundaries of a name are the first one and, behind it, those of what remains. -/
theorem isBoundary_iff_of_cut? (h : cut? name = some n) (m : Nat) :
    IsBoundary name m ↔ m = n ∨ ∃ k, m = n + k ∧ IsBoundary (name.drop n) k := by
  have hfirst : IsBoundary name n := isBoundary_of_cut? h
  have hle : n ≤ name.length := Nat.le_of_add_right_le (two_le_of_cut? h).2
  obtain ⟨first, rest, rfl, rfl⟩ : ∃ first rest, name = first ++ rest ∧ n = first.length :=
    ⟨name.take n, name.drop n, (List.take_append_drop n name).symm, by simp [hle]⟩
  rw [List.drop_left]
  constructor
  · intro hm
    obtain ⟨n', hn', hcut⟩ := hm.exists_cut?
    obtain rfl : n' = first.length := Option.some_inj.mp (hcut.symm.trans h)
    rcases Nat.eq_or_lt_of_le hn' with heq | hlt
    · exact .inl heq.symm
    · obtain ⟨k, rfl⟩ := Nat.exists_eq_add_of_le hn'
      exact .inr ⟨k, rfl, (isBoundary_append_iff hfirst (by omega)).mp hm⟩
  · rintro (rfl | ⟨k, rfl, hk⟩)
    · exact hfirst
    · exact hk.append first

theorem not_isBoundary_of_cut?_eq_none (h : cut? name = none) (n : Nat) : ¬ IsBoundary name n := by
  intro hn
  obtain ⟨m, -, hcut⟩ := hn.exists_cut?
  rw [h] at hcut
  cases hcut

/-- With each cut the boundary that is cut is done with, and the others are left for what
remains. -/
theorem mem_cutsFrom_splitWithin {limit start : Nat} (hlimit : name.length ≤ limit) :
    m ∈ cutsFrom start (splitWithin limit name) ↔ ∃ n, m = start + n ∧ IsBoundary name n := by
  induction limit generalizing name start with
  | zero =>
      have hnone : cut? name = none := cut?_eq_none_of_length_lt (by omega)
      simp [splitWithin, cutsFrom, not_isBoundary_of_cut?_eq_none hnone]
  | succ limit ih =>
      cases hcut : cut? name with
      | none =>
          rw [splitWithin_of_cut?_eq_none hcut]
          simp [cutsFrom, not_isBoundary_of_cut?_eq_none hcut]
      | some n =>
          have hn := two_le_of_cut? hcut
          have htake : (name.take n).length = n := List.length_take_of_le (by omega)
          have hdrop : (name.drop n).length ≤ limit := by rw [List.length_drop]; omega
          rw [splitWithin, hcut]
          dsimp only
          rw [cutsFrom_cons (splitWithin_ne_nil limit _), List.mem_cons, htake, ih hdrop]
          simp only [isBoundary_iff_of_cut? hcut]
          constructor
          · rintro (rfl | ⟨k, rfl, hk⟩)
            · exact ⟨n, rfl, .inl rfl⟩
            · exact ⟨n + k, by omega, .inr ⟨k, rfl, hk⟩⟩
          · rintro ⟨i, rfl, rfl | ⟨k, rfl, hk⟩⟩
            · exact .inl rfl
            · exact .inr ⟨k, by omega, hk⟩

theorem mem_cuts_split_iff (name : ToolName) (n : Nat) :
    n ∈ cuts (split name) ↔ IsBoundary name n := by
  rw [cuts, split, mem_cutsFrom_splitWithin (Nat.le_refl _)]
  simp

end

theorem two_le_length_of_split_ne {name part : ToolName} (h : split name ≠ [name])
    (hpart : part ∈ split name) : 2 ≤ part.length := by
  refine two_le_length_of_mem_splitWithin ?_ hpart
  by_contra hlt
  exact h (split_of_cut?_eq_none (cut?_eq_none_of_length_lt (by omega)))

/-- A name is cut at all its boundaries and nowhere else, and the parts are the name again. If it is
cut at all, every part has at least two letters. No part holds a glued pair, and splitting the parts
changes nothing. -/
theorem split_at_boundaries (name : ToolName) :
    (split name).flatten = name ∧
      (∀ n, n ∈ cuts (split name) ↔ IsBoundary name n) ∧
      (split name ≠ [name] → ∀ part ∈ split name, 2 ≤ part.length) ∧
      (∀ part ∈ split name, ∀ p ∈ pairs, ¬ p.glued <:+: part) ∧
      splitAll (split name) = split name := by
  refine ⟨flatten_split name, mem_cuts_split_iff name, ?_, ?_, ?_⟩
  · intro hcut part hpart
    exact two_le_length_of_split_ne hcut hpart
  · intro part hpart
    exact (cut?_eq_none_iff part).mp (cut?_eq_none_of_mem_split hpart)
  · exact splitAll_eq_self fun part hpart => cut?_eq_none_of_mem_split hpart

/-- `unlink` is the right side of one pair and the left side of another one. -/
theorem split_insertlink_unlink_inserttable :
    let name := "insertlinkunlinkinserttable".toList
    let parts := ["insertlink", "unlink", "inserttable"].map String.toList
    split name = parts ∧ split name ≠ [name] ∧ parts.flatten = name ∧ cuts parts = [10, 16] ∧
      (∀ n, IsBoundary name n ↔ n = 10 ∨ n = 16) ∧ (∀ part ∈ parts, 2 ≤ part.length) ∧
      (∀ p ∈ pairs, ¬ p.glued <:+: "unlink".toList) ∧ splitAll parts = parts := by
  intro name parts
  have hparts : split name = parts := by decide +kernel
  have hne : split name ≠ [name] := by decide +kernel
  have hcuts : cuts parts = [10, 16] := by decide +kernel
  obtain ⟨hflatten, hboundary, hlength, hpairs, hagain⟩ := split_at_boundaries name
  rw [hparts] at hflatten hboundary hlength hpairs hagain
  refine ⟨hparts, hne, hflatten, hcuts, fun n => ?_, hlength (hparts ▸ hne),
    hpairs _ (by simp [parts]), hagain⟩
  rw [← hboundary, hcuts]
  simp

end EditorToolbar.GluedNames

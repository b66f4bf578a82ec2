import EditorToolbar.Proofs.Exclusion.Names
import Mathlib.Data.List.Basic
import Mathlib.Data.List.Induction

/-!
# Combining exclusion sets

Combining takes the names of the second set in one by one. A name that is taken in comes behind all
others or, if it is there already, changes nothing, so the names of the first set stay in front and
the new ones follow in the order in which they first occur.

On the way the names of the second set are cleaned again. They hold no modifier any longer, so they
are only trimmed, but this can change them: if the second set holds ` bold`, the combined one holds
`bold`, and two names can become one. A name that has been cleaned twice does not change any more.
So it makes no difference whether a name passes through a set in the middle, and combining is
associative.
-/

namespace EditorToolbar.ExclusionSet

open Modifier (Unmodified)

/-! ### Order -/

/-- Two names of a list, the first of which occurs in it earlier than the second one. -/
def OccursBefore (names : List ToolName) (x y : ToolName) : Prop :=
  x ∈ names ∧ y ∈ names ∧ names.idxOf x < names.idxOf y

section

variable {names : List ToolName} {x y : ToolName}

theorem OccursBefore.append (h : OccursBefore names x y) (more : List ToolName) :
    OccursBefore (names ++ more) x y := by
  obtain ⟨hx, hy, hlt⟩ := h
  refine ⟨List.mem_append_left _ hx, List.mem_append_left _ hy, ?_⟩
  rwa [List.idxOf_append_of_mem hx, List.idxOf_append_of_mem hy]

theorem occursBefore_concat (hx : x ∈ names) (hy : y ∉ names) :
    OccursBefore (names ++ [y]) x y := by
  refine ⟨List.mem_append_left _ hx, List.mem_concat_self, ?_⟩
  rw [List.idxOf_append_of_mem hx, List.idxOf_append_of_notMem hy]
  exact Nat.lt_add_right _ (List.idxOf_lt_length_of_mem hx)

end

/-- What is not there after names have been taken in is none of what they clean to. -/
theorem notMem_map_clean {names : List Text} {e : ExclusionSet} {name : ToolName}
    (hne : name ≠ []) (h : name ∉ (names.foldl insert e).names) : name ∉ names.map clean := by
  intro hmem
  obtain ⟨given, hgiven, hclean⟩ := List.mem_map.mp hmem
  exact h (mem_names_foldl_insert.mpr (.inr ⟨hne, given, hgiven, hclean⟩))

/-- Names that are taken in come behind those that are there, in the order in which they first occur
among what the names clean to. -/
theorem exists_names_foldl_insert (names : List Text) (e : ExclusionSet) :
    ∃ added, (names.foldl insert e).names = e.names ++ added ∧ added ⊆ names.map clean ∧
      added.Pairwise (OccursBefore (names.map clean)) := by
  -- on the end of the list, where the name that is taken in last stands
  induction names using List.reverseRecOn with
  | nil => exact ⟨[], by simp⟩
  | append_singleton names given ih =>
      obtain ⟨added, hnames, hsub, hsorted⟩ := ih
      have hsorted' : added.Pairwise (OccursBefore (names.map clean ++ [clean given])) :=
        hsorted.imp fun h => h.append _
      have hsub' : added ⊆ names.map clean ++ [clean given] :=
        List.subset_append_of_subset_left _ hsub
      rw [List.foldl_concat, List.map_append, List.map_singleton, insert_eq]
      split
      · exact ⟨added, hnames, hsub', hsorted'⟩
      · next hnew =>
          rw [not_or] at hnew
          have hfirst : clean given ∉ names.map clean := notMem_map_clean hnew.1 hnew.2
          refine ⟨added ++ [clean given], by rw [hnames, List.append_assoc],
            List.append_subset.mpr ⟨hsub', List.subset_append_right _ _⟩, ?_⟩
          rw [List.pairwise_append]
          refine ⟨hsorted', List.pairwise_singleton _ _, ?_⟩
          intro x hx y hy
          obtain rfl := List.mem_singleton.mp hy
          exact occursBefore_concat (hsub hx) hfirst

/-! ### Cleaning once more -/

theorem clean_clean {name : Text} (h : Unmodified name) : clean (clean name) = clean name := by
  rw [clean_of_unmodified (unmodified_clean name), clean_of_unmodified h, Text.trim_trim]

theorem Built.map_clean {e : ExclusionSet} (he : Built e) :
    e.names.map clean = e.names.map Text.trim :=
  List.map_congr_left fun name hname => clean_of_unmodified (he.unmodified name hname)

theorem insert_congr (e : ExclusionSet) {given given' : Text} (h : clean given = clean given') :
    e.insert given = e.insert given' := by
  rw [insert_eq, insert_eq, h]

/-- A name that passes through another set is cleaned twice. If this makes no difference, it may as
well be taken in directly. -/
theorem chain_insert (a b : ExclusionSet) {given : Text} (h : clean (clean given) = clean given) :
    a.chain (b.insert given) = (a.chain b).insert given := by
  rw [b.insert_eq]
  split
  · next hold =>
      have hthere : clean given = [] ∨ clean given ∈ (a.chain b).names := by
        by_cases hnil : clean given = []
        · exact .inl hnil
        · have hmem : clean given ∈ b.names := hold.resolve_left hnil
          exact .inr (mem_names_foldl_insert.mpr (.inr ⟨hnil, clean given, hmem, h⟩))
      rw [insert_eq, if_pos hthere]
  · rw [chain, List.foldl_concat, ← chain, insert_congr _ h]

theorem chain_foldl_insert (a b : ExclusionSet) {names : List Text}
    (h : ∀ given ∈ names, clean (clean given) = clean given) :
    a.chain (names.foldl insert b) = names.foldl insert (a.chain b) := by
  induction names generalizing b with
  | nil => rfl
  | cons given names ih =>
      obtain ⟨hgiven, hnames⟩ := List.forall_mem_cons.mp h
      rw [List.foldl_cons, List.foldl_cons, ih _ hnames, chain_insert a b hgiven]

theorem chain_assoc (a b : ExclusionSet) {c : ExclusionSet} (hc : Built c) :
    (a.chain b).chain c = a.chain (b.chain c) :=
  (chain_foldl_insert a b fun given hgiven => clean_clean (hc.unmodified given hgiven)).symm

/-! ### Combined sets -/

theorem mem_names_chain (a : ExclusionSet) {b : ExclusionSet} (hb : Built b) {name : ToolName} :
    name ∈ (a.chain b).names ↔ name ∈ a.names ∨ name ≠ [] ∧ name ∈ b.names.map Text.trim := by
  rw [chain, mem_names_foldl_insert, ← hb.map_clean, List.mem_map]

/-- The names of a combined set are those of the first one, and behind them, each once and in the
order in which they first occur, the names of the second one without the blanks around them. Of
three sets the first two or the last two can be combined first. -/
theorem chain_of_built {a b c : ExclusionSet} (ha : Built a) (hb : Built b) (hc : Built c) :
    let trimmed := b.names.map Text.trim
    (∃ added, (a.chain b).names = a.names ++ added ∧ added.Pairwise (OccursBefore trimmed)) ∧
      (a.chain b).names.Nodup ∧
      (∀ name, (a.chain b).contains name = true ↔
        a.contains name = true ∨ name ≠ [] ∧ name ∈ trimmed) ∧
      (a.chain b).chain c = a.chain (b.chain c) := by
  intro trimmed
  refine ⟨?_, (ha.chain hb).nodup, fun name => ?_, chain_assoc a b hc⟩
  · obtain ⟨added, hnames, -, hsorted⟩ := exists_names_foldl_insert b.names a
    rw [hb.map_clean] at hsorted
    exact ⟨added, hnames, hsorted⟩
  · rw [contains_iff, contains_iff]
    exact mem_names_chain a hb

/-- The second set has a name with a blank in front, a blank, and the first name without the blank.
What the first set holds stays as it is. -/
theorem chain_of_blank_names :
    let a := ofNames [":toggle bold".toList, "undo".toList]
    let b := ofNames ["redo".toList, ":toggle bold".toList, ":toggle :dropdown".toList,
      "bold".toList, "undo".toList]
    let c := b.chain (ofNames [":dropdown code".toList])
    let trimmed := b.names.map Text.trim
    (a.Built ∧ b.Built ∧ c.Built) ∧
      a.names = [" bold".toList, "undo".toList] ∧
      b.names = ["redo".toList, " bold".toList, " ".toList, "bold".toList, "undo".toList] ∧
      (a.chain b).names = a.names ++ ["redo".toList, "bold".toList] ∧
      ["redo".toList, "bold".toList].Pairwise (OccursBefore trimmed) ∧
      (a.chain b).contains "bold".toList = true ∧ (a.chain b).contains " ".toList = false ∧
      (a.chain b).chain c = a.chain (b.chain c) := by
  intro a b c trimmed
  have ha : a.Built := .ofNames _
  have hb : b.Built := .ofNames _
  have hc : c.Built := hb.chain (.ofNames _)
  obtain ⟨⟨added, hnames, hsorted⟩, -, hcontains, hassoc⟩ := chain_of_built ha hb hc
  have hchain : (a.chain b).names = a.names ++ ["redo".toList, "bold".toList] := by decide
  have hadded : added = ["redo".toList, "bold".toList] :=
    List.append_cancel_left (hnames.symm.trans hchain)
  refine ⟨⟨ha, hb, hc⟩, by decide, by decide, hchain, hadded ▸ hsorted, ?_, ?_, hassoc⟩
  · exact (hcontains _).mpr (.inr (by decide))
  · rw [← Bool.not_eq_true, hcontains]
    decide

end EditorToolbar.ExclusionSet

import EditorToolbar.Proofs.Exclusion.Basic
import EditorToolbar.Proofs.Modifier.Blanks

/-!
# The names of an exclusion set

An exclusion set holds what the given names clean to, each once. So no name in it is empty and none
holds a modifier. But a name is trimmed first and stripped then, and stripping can lay a blank bare:
of `:toggle bold` the set holds ` bold`, which is the name of no tool, and `bold` is not excluded.
This happens exactly when a blank within the trimmed name has only modifiers on one side of it, and
`HasFirmEnds` rules it out.

A name that is taken in once more, when its set is combined into another one, has no modifiers any
longer and is only trimmed.
-/

namespace EditorToolbar.ExclusionSet

open Text (isBlank)
open Modifier (Unmodified strip)

/-- Every blank within the trimmed name has more than modifiers on both sides. -/
def HasFirmEnds (name : Text) : Prop :=
  ∀ u b v, name.trim = u ++ b :: v → isBlank b = true → strip u ≠ [] ∧ strip v ≠ []

/-- The exclusion sets that can be made by combining from lists of such names as are `given`. -/
inductive BuiltFrom (given : Text → Prop) : ExclusionSet → Prop
  | ofNames {names : List Text} : (∀ name ∈ names, given name) → BuiltFrom given (.ofNames names)
  | chain {e other : ExclusionSet} : BuiltFrom given e → BuiltFrom given other →
      BuiltFrom given (e.chain other)

/-! ### Cleaned names -/

/-- The names that are still trimmed after cleaning are those with firm ends. -/
theorem trim_clean_eq_self_iff (name : Text) :
    (clean name).trim = clean name ↔ HasFirmEnds name := by
  rw [Text.trim_eq_self_iff, clean]
  constructor
  · rintro ⟨hfirst, hlast⟩ u b v hname hb
    rw [hname, Modifier.strip_append_blank hb] at hfirst hlast
    constructor
    · intro hu
      rw [hu, List.nil_append, List.head?_cons, Option.any_some, hb] at hfirst
      cases hfirst
    · intro hv
      rw [hv, List.getLast?_concat, Option.any_some, hb] at hlast
      cases hlast
  · intro h
    exact ⟨Modifier.head?_strip fun u b v hname hb => (h u b v hname hb).1,
      Modifier.getLast?_strip fun u b v hname hb => (h u b v hname hb).2⟩

instance : DecidablePred HasFirmEnds := fun name =>
  decidable_of_iff _ (trim_clean_eq_self_iff name)

theorem clean_eq_trim_strip {name : Text} (h : HasFirmEnds name) :
    clean name = (strip name).trim := by
  rw [Modifier.trim_strip, ← clean, (trim_clean_eq_self_iff name).mpr h]

theorem unmodified_clean (name : Text) : Unmodified (clean name) :=
  Modifier.unmodified_strip name.trim

theorem clean_of_unmodified {name : Text} (h : Unmodified name) : clean name = name.trim := by
  obtain ⟨u, v, -, -, hname⟩ := Text.exists_trim name
  exact Modifier.strip_eq_self (h.of_isInfix ⟨u, v, by rw [List.append_assoc, ← hname]⟩)

/-- A name that can be read as a tool is taken in as it is. -/
theorem clean_of_isName {name : Text} (hname : Token.IsName name) (h : Unmodified name) :
    clean name = name := by
  have hletter : ∀ c ∈ name, isBlank c = false := hname.isBlank_eq_false
  rw [clean_of_unmodified h, Text.trim_eq_self_iff, List.head?_eq_some_head hname.1,
    List.getLast?_eq_some_getLast hname.1]
  exact ⟨hletter _ (List.head_mem _), hletter _ (List.getLast_mem _)⟩

theorem ofNames_singleton {name : Text} (hname : Token.IsName name) (h : Unmodified name) :
    ofNames [name] = ⟨[name]⟩ := by
  rw [ofNames, List.foldl_cons, List.foldl_nil, insert_eq, clean_of_isName hname h,
    if_neg (by simp [hname.1]), List.nil_append]

/-! ### Built sets -/

theorem nodup_names_foldl_insert {names : List Text} {e : ExclusionSet} (he : e.names.Nodup) :
    (names.foldl insert e).names.Nodup := by
  induction names generalizing e with
  | nil => exact he
  | cons given names ih =>
      apply ih
      rw [insert_eq]
      split
      · exact he
      · next hnew =>
          rw [List.nodup_append]
          refine ⟨he, by simp, ?_⟩
          intro name hname cleaned hcleaned heq
          rw [List.mem_singleton] at hcleaned
          exact hnew (.inr (hcleaned ▸ heq ▸ hname))

theorem Built.nodup {e : ExclusionSet} (he : Built e) : e.names.Nodup := by
  induction he with
  | ofNames names => exact nodup_names_foldl_insert .nil
  | chain _ _ ih _ => exact nodup_names_foldl_insert ih

theorem Built.unmodified {e : ExclusionSet} (he : Built e) : ∀ name ∈ e.names, Unmodified name :=
  he.forall_mem_names fun given _ => unmodified_clean given

theorem BuiltFrom.built {given : Text → Prop} {e : ExclusionSet} (he : BuiltFrom given e) :
    Built e := by
  induction he with
  | ofNames _ => exact .ofNames _
  | chain _ _ ih ih' => exact .chain ih ih'

theorem BuiltFrom.trim_eq_self {e : ExclusionSet} (he : BuiltFrom HasFirmEnds e) :
    ∀ name ∈ e.names, name.trim = name := by
  induction he with
  | ofNames hgiven =>
      refine forall_mem_names_foldl_insert (by simp) fun given hmem _ => ?_
      exact (trim_clean_eq_self_iff given).mpr (hgiven given hmem)
  | chain _ hother ih _ =>
      refine forall_mem_names_foldl_insert ih fun given hmem _ => ?_
      rw [clean_of_unmodified (hother.built.unmodified given hmem), Text.trim_trim]

theorem contains_ofNames_clean {names : List Text} {given : Text} (hgiven : given ∈ names)
    (hne : clean given ≠ []) : (ofNames names).contains (clean given) = true :=
  (contains_iff _ _).mpr (mem_names_foldl_insert.mpr (.inr ⟨hne, given, hgiven, rfl⟩))

/-- A single given name excludes what it strips to, without the blanks around it, exactly if it has
firm ends. -/
theorem contains_trim_strip_iff {given : Text} (hne : (strip given).trim ≠ []) :
    (ofNames [given]).contains (strip given).trim = true ↔ HasFirmEnds given := by
  constructor
  · intro h
    rcases mem_names_foldl_insert.mp ((contains_iff _ _).mp h) with hmem | ⟨-, name, hmem, hclean⟩
    · cases hmem
    · obtain rfl := List.mem_singleton.mp hmem
      rw [← trim_clean_eq_self_iff, hclean, Text.trim_trim]
  · intro hfirm
    rw [← clean_eq_trim_strip hfirm] at hne ⊢
    exact contains_ofNames_clean (by simp) hne

/-- The names of a built set are not empty, hold no modifier and do not repeat. If the given names
have firm ends, they are also trimmed; and what is excluded for a given name with firm ends is what
it strips to, without the blanks around it. -/
theorem names_of_built {e : ExclusionSet} (he : Built e) :
    (∀ name ∈ e.names, name ≠ [] ∧ Unmodified name) ∧ e.names.Nodup ∧
      (BuiltFrom HasFirmEnds e → ∀ name ∈ e.names, name.trim = name) ∧
      ∀ names : List Text, ∀ given ∈ names, HasFirmEnds given → (strip given).trim ≠ [] →
        (ofNames names).contains (strip given).trim = true := by
  refine ⟨fun name hname => ⟨he.ne_nil name hname, he.unmodified name hname⟩, he.nodup,
    BuiltFrom.trim_eq_self, ?_⟩
  intro names given hgiven hfirm hne
  rw [← clean_eq_trim_strip hfirm] at hne ⊢
  exact contains_ofNames_clean hgiven hne

/-- The blank in the first name has words on both sides. The second set holds it as well, with
blanks around it. -/
theorem names_of_built_combined :
    let given := "x:tog:togglegle y".toList
    let e := (ofNames [given, "bold".toList]).chain (ofNames [" x y:toggle ".toList])
    e.names = ["x y".toList, "bold".toList] ∧ HasFirmEnds given ∧
      (∀ name ∈ e.names, name.trim = name) ∧
      (ofNames [given, "bold".toList]).contains (strip given).trim = true := by
  intro given e
  have hbuilt : e.Built := .chain (.ofNames _) (.ofNames _)
  have hfrom : e.BuiltFrom HasFirmEnds := .chain (.ofNames (by decide)) (.ofNames (by decide))
  have hfirm : HasFirmEnds given := by decide
  obtain ⟨-, -, htrim, hcontains⟩ := names_of_built hbuilt
  exact ⟨by decide, hfirm, htrim hfrom, hcontains _ given (by simp) hfirm (by decide)⟩

/-- The modifiers at the start are stripped when the name has been trimmed already. -/
theorem blank_names_after_stripping :
    let e := ofNames [":toggle bold".toList, ":toggle :dropdown".toList]
    e.names = [" bold".toList, " ".toList] ∧ e.contains "bold".toList = false := by
  decide

end EditorToolbar.ExclusionSet

import EditorToolbar.Proofs.Exclusion.Blocks
import EditorToolbar.Proofs.Exclusion.Words

/-!
# Names that stand alone

Around a tool there are only characters that belong to no name, and therefore to no word. So there
is a word boundary at an edge of the tool exactly if the character at this edge is a word part.
Where a name asks for a boundary, `WordEdges` says that it gets one as a tool: then it stands alone,
and cutting it is noticed in every text that has it as a tool. A name without such edges is never
cut where it is a tool. There are such names, since some name letters, superscript digits for
instance, are no word parts.
-/

namespace EditorToolbar

open Text (deleteFrom)
open Token (IsName letters tokenize tools)

/-- A name with word edges is cut out of a text that has it as a tool. -/
theorem cutWord_ne_self {name : ToolName} (hname : IsName name) (hedges : WordEdges name) {s : Text}
    (h : name ∈ tools (tokenize s)) : cutWord name s ≠ s := by
  obtain ⟨u, r, rfl, hu, hr⟩ := Token.exists_eq_append_of_mem_tokenize h
  intro hcut
  have hstay : deleteFrom (standsAlone name) name (u.getLast?.or none) 0 (name ++ r) = name ++ r :=
    Text.deleteFrom_eq_self_of_append hname.1 hcut
  have halone : standsAlone name (u.getLast?.or none) r.head? = true := by
    rw [Option.or_none, standsAlone_iff_wordEdges (any_isWordPart_of_not_isNameChar hu)
      (any_isWordPart_of_not_isNameChar hr)]
    exact hedges
  rw [Text.deleteFrom_append_of_fits hname.1 halone] at hstay
  have hle := Text.length_deleteFrom_le (standsAlone name) name name.getLast? 0 r
  have hpos := List.length_pos_iff.mpr hname.1
  rw [hstay, List.length_append] at hle
  omega

/-- A name without word edges is not cut out of the text that is nothing but this name. -/
theorem cutWord_self {name : ToolName} (hne : name ≠ []) (hedges : ¬ WordEdges name) :
    cutWord name name = name := by
  obtain ⟨c, r, rfl⟩ := List.exists_cons_of_ne_nil hne
  have hstay : standsAlone (c :: r) none none = false := by
    rwa [← Bool.not_eq_true, standsAlone_iff_wordEdges rfl rfl]
  have hrest : ¬ c :: r <:+: r := fun h => absurd h.length_le (by simp)
  rw [cutWord, Text.deleteWhere, Text.deleteFrom_cons_of_not_fits (by simpa using hstay),
    Text.deleteFrom_eq_self hrest]

namespace ExclusionSet

/-- If cutting the names of a set one after another changes nothing, none of them is cut. -/
theorem cutWord_eq_self_of_cutWords {e : ExclusionSet} (he : ∀ name ∈ e.names, IsName name)
    {s : Text} (h : e.cutWords s = s) : ∀ name ∈ e.names, cutWord name s = s := by
  obtain ⟨names⟩ := e
  induction names with
  | nil => simp
  | cons w names ih =>
      have hrest : ∀ name ∈ names, IsName name := fun v hv => he v (List.mem_cons_of_mem _ hv)
      change cutWords ⟨names⟩ (cutWord w s) = s at h
      have hw : cutWord w s = s := by
        rcases deleteFrom_eq_self_or_length_letters_lt (he w (by simp)) none s with heq | hlt
        · exact heq
        · -- the names that follow cannot make up for the letters that are gone
          change (letters (cutWord w s)).length < (letters s).length at hlt
          rcases cutWords_eq_self_or_length_letters_lt (e := ⟨names⟩) hrest (cutWord w s) with
            heq | hless
          · exact heq.symm.trans h
          · rw [h] at hless
            exact absurd hlt (Nat.lt_asymm hless)
      intro name hname
      rcases List.mem_cons.mp hname with rfl | hname
      · exact hw
      · rw [hw] at h
        exact ih hrest h name hname

/-- What no cut changes has no tool that is excluded and has word edges. -/
theorem contains_eq_false_of_cutWords {e : ExclusionSet} (he : ∀ name ∈ e.names, IsName name)
    {s : Text} (h : e.cutWords s = s) {name : ToolName} (hname : name ∈ tools (tokenize s))
    (hedges : WordEdges name) : e.contains name = false := by
  cases hcontains : e.contains name with
  | false => rfl
  | true =>
      have hmem : name ∈ e.names := (contains_iff e name).mp hcontains
      exact absurd (cutWord_eq_self_of_cutWords he h name hmem)
        (cutWord_ne_self (he name hmem) hedges hname)

end ExclusionSet

end EditorToolbar

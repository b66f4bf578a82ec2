import EditorToolbar.Proofs.Normalization.Textual
import EditorToolbar.Proofs.Toolbar.Grammar

/-!
# Normal forms are canonical

Whatever a text is made of, and whatever the names of the excluded tools are, both strategies end by
writing a well-formed toolbar. So a normal form is canonical, that is, it is a text that reading and
writing leave alone.
-/

namespace EditorToolbar

open Text (IsCanonical)

theorem isCanonical_repairText (minRun : Nat) (s : Text) : IsCanonical (repairText minRun s) :=
  Toolbar.isCanonical_toText ((Toolbar.wellFormed_ofText s).repair minRun)

namespace Normalizer

theorem isCanonical_settledText (minRun : Nat) (e : ExclusionSet) (s : Text) :
    IsCanonical (settledText minRun e s) :=
  settle_induction (fun t _ => isCanonical_repairText minRun (e.cutWords t)) _
    (isCanonical_repairText minRun (e.cutWords s))

theorem canonical_normalize (n : Normalizer) (e : ExclusionSet) (text : Text) :
    IsCanonical (n.normalize e text) := by
  unfold normalize
  cases n.strategy with
  | structural => exact Toolbar.isCanonical_toText (wellFormed_settledToolbar n.minRun e _)
  | textual => exact isCanonical_settledText n.minRun e _

/-- Reading a normal form and writing it again leaves it alone. -/
theorem toText_ofText_normalize (n : Normalizer) (e : ExclusionSet) (text : Text) :
    (Toolbar.ofText (n.normalize e text)).toText = n.normalize e text :=
  (Toolbar.toText_ofText_eq_self_iff _).mpr (canonical_normalize n e text)

/-- Every normal form is canonical, and the canonical texts are those that reading and writing leave
alone. -/
theorem isCanonical_normalize (n : Normalizer) (e : ExclusionSet) (text s : Text) :
    IsCanonical (n.normalize e text) ∧ ((Toolbar.ofText s).toText = s ↔ IsCanonical s) :=
  ⟨canonical_normalize n e text, Toolbar.toText_ofText_eq_self_iff s⟩

end Normalizer

end EditorToolbar

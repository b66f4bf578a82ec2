import EditorToolbar.Proofs.Exclusion.Basic
import EditorToolbar.Proofs.Repair.Mending
import EditorToolbar.Proofs.Toolbar.Writing

/-!
# Reading undoes writing

A toolbar that has been read is well-formed, and it stays so whatever is done to it afterwards:
`Reached` lists the toolbars that come from a text by excluding, repairing, compacting, and writing
and reading again, in any order. A well-formed toolbar may hold empty groups and sections anywhere.
Its text does not show them, and reading the text gives the toolbar back up to compaction. So a text
that has been written once is not changed by reading and writing it again.
-/

namespace EditorToolbar.Toolbar

/-- The toolbars that are made from what has been read. -/
inductive Reached : Toolbar → Prop
  | read (text : Text) : Reached (ofText text)
  | exclude (e : ExclusionSet) {t : Toolbar} : Reached t → Reached (e.apply t)
  | repair (minRun : Nat) {t : Toolbar} : Reached t → Reached (t.repair minRun)
  | compact {t : Toolbar} : Reached t → Reached t.compact
  | reread {t : Toolbar} : Reached t → Reached (ofText t.toText)

theorem Reached.wellFormed {t : Toolbar} (h : Reached t) : t.WellFormed := by
  induction h with
  | read text => exact wellFormed_ofText text
  | exclude e _ ih => exact ExclusionSet.wellFormed_apply ih e
  | repair minRun _ ih => exact ih.repair minRun
  | compact _ ih => exact ih.compact
  | reread _ _ => exact wellFormed_ofText _

theorem toText_ofText_toText {t : Toolbar} (ht : t.WellFormed) :
    (ofText t.toText).toText = t.toText :=
  toText_eq_of_compact_eq (compact_ofText_toText ht)

/-- Only a toolbar without tools is written as the empty text. -/
theorem toText_eq_nil_iff {t : Toolbar} (ht : t.WellFormed) : t.toText = [] ↔ t.tools = [] := by
  constructor
  · intro h
    rw [← tools_ofText_toText ht, h]
    rfl
  · intro h
    rw [toText, t.isCompact_compact.eq_empty (by rw [tools_compact, h])]
    rfl

/-- What is read is well-formed, and so is everything made of it. The text of a well-formed toolbar
reads as the same toolbar, up to compaction, and is written again as it is. -/
theorem ofText_toText_roundTrip :
    (∀ text : Text, (ofText text).WellFormed) ∧
      (∀ t : Toolbar, t.WellFormed → (∀ e : ExclusionSet, (e.apply t).WellFormed) ∧
        t.compact.WellFormed ∧ ∀ minRun : Nat, (t.repair minRun).WellFormed) ∧
      (∀ t : Toolbar, Reached t → t.WellFormed) ∧
      ∀ t : Toolbar, t.WellFormed →
        (ofText t.toText).compact = t.compact ∧ (ofText t.toText).toText = t.toText := by
  refine ⟨wellFormed_ofText, ?_, fun _ => Reached.wellFormed, ?_⟩
  · intro t ht
    exact ⟨ExclusionSet.wellFormed_apply ht, ht.compact, ht.repair⟩
  · intro t ht
    exact ⟨compact_ofText_toText ht, toText_ofText_toText ht⟩

/-- The emptied section leaves its divider to the next one, where a bare tool follows braces. -/
theorem ofText_toText_emptied_section :
    let t : Toolbar :=
      ⟨[⟨none, [⟨false, .pipe, ["bold".toList]⟩, ⟨true, .adjacent, []⟩]⟩,
        ⟨some .slash, [⟨false, .pipe, []⟩]⟩,
        ⟨some .hash, [⟨true, .pipe, ["undo".toList]⟩, ⟨false, .adjacent, ["code".toList]⟩]⟩]⟩
    t.WellFormed ∧ (ofText t.toText).compact = t.compact ∧ (ofText t.toText).toText = t.toText := by
  intro t
  have ht : t.WellFormed := by decide
  exact ⟨ht, ofText_toText_roundTrip.2.2.2 t ht⟩

end EditorToolbar.Toolbar

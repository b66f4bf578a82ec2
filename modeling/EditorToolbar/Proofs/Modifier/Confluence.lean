import Mathlib.Logic.Relation
import EditorToolbar.Proofs.Modifier

/-!
# The order in which modifiers are stripped

`strip` deletes the modifiers of one kind after those of the other, pass by pass. A reader of a
toolbar may think of deletions in any other order, and of one occurrence at a time: `Drops` is one
such deletion. All orders lead to the same text, as long as they go on until no modifier is left.

The reason is that occurrences do not overlap. A modifier begins with a colon and has no other one,
so of two occurrences in a text one ends before the other begins, or they are the same. Two
deletions can therefore be done in either order with the same outcome, and by the Church-Rosser
property a text has only one outcome without modifiers.
-/

namespace EditorToolbar.Modifier

open Relation (ReflTransGen ReflGen)

/-- One occurrence of a modifier is deleted. -/
inductive Drops : Text → Text → Prop
  | drop (before : Text) {modifier : Text} (after : Text) (h : modifier ∈ all) :
      Drops (before ++ modifier ++ after) (before ++ after)

variable {s t u : Text}

theorem Drops.append_left (w : Text) (h : Drops s t) : Drops (w ++ s) (w ++ t) := by
  obtain ⟨before, after, hm⟩ := h
  simpa using Drops.drop (w ++ before) after hm

theorem Drops.append_right (w : Text) (h : Drops s t) : Drops (s ++ w) (t ++ w) := by
  obtain ⟨before, after, hm⟩ := h
  simpa using Drops.drop before (after ++ w) hm

theorem drops_append {s' t' : Text} (h : ReflTransGen Drops s t) (h' : ReflTransGen Drops s' t') :
    ReflTransGen Drops (s ++ s') (t ++ t') :=
  (h.lift (· ++ s') fun _ _ => Drops.append_right s').trans
    (h'.lift (t ++ ·) fun _ _ => Drops.append_left t)

/-! ### Two occurrences -/

theorem exists_eq_colon_cons : ∀ modifier ∈ all, ∃ rest, modifier = ':' :: rest ∧ ':' ∉ rest := by
  simp [all]

theorem eq_of_isPrefix : ∀ m ∈ all, ∀ m' ∈ all, m <+: m' → m = m' := by
  decide

/-- Where a modifier and another one occur, they are the same or the first ends before the second
begins. -/
theorem occurrences_apart {m m' : Text} (hm : m ∈ all) (hm' : m' ∈ all) {v v' x : Text}
    (h : m ++ v = x ++ (m' ++ v')) :
    (x = [] ∧ v = v') ∨ ∃ y, x = m ++ y ∧ v = y ++ (m' ++ v') := by
  rcases List.append_eq_append_iff.mp h with ⟨y, hx, hv⟩ | ⟨y, hx, hv⟩
  · exact .inr ⟨y, hx, hv⟩
  · cases x with
    | nil =>
        rw [List.nil_append] at h
        have hsame : m = m' := by
          rcases List.prefix_or_prefix_of_prefix ⟨v, h⟩ (List.prefix_append m' v') with hpre | hpre
          · exact eq_of_isPrefix m hm m' hm' hpre
          · exact (eq_of_isPrefix m' hm' m hm hpre).symm
        exact .inl ⟨rfl, List.append_cancel_left (hsame ▸ h)⟩
    | cons c x =>
        -- the second modifier would begin within the first one
        obtain ⟨rest, hrest, hcolon⟩ := exists_eq_colon_cons m hm
        obtain ⟨rest', hrest', -⟩ := exists_eq_colon_cons m' hm'
        cases y with
        | nil => exact .inr ⟨[], by simpa using hx.symm, by simpa using hv.symm⟩
        | cons d y =>
            rw [hrest', List.cons_append, List.cons_append, List.cons_eq_cons] at hv
            rw [hrest, List.cons_append, List.cons_eq_cons] at hx
            exact absurd (by simp [hx.2, ← hv.1]) hcolon

/-- Of two deletions the earlier one leaves the place of the later one as it is. -/
theorem eq_or_exists_drops {m m' : Text} (hm : m ∈ all) (hm' : m' ∈ all) {v v' x : Text} (u : Text)
    (h : m ++ v = x ++ (m' ++ v')) :
    u ++ v = u ++ x ++ v' ∨ ∃ r, Drops (u ++ v) r ∧ Drops (u ++ x ++ v') r := by
  rcases occurrences_apart hm hm' h with ⟨rfl, rfl⟩ | ⟨y, rfl, rfl⟩
  · exact .inl (by simp)
  · refine .inr ⟨u ++ y ++ v', ?_, ?_⟩
    · simpa using Drops.drop (u ++ y) v' hm'
    · simpa using Drops.drop u (y ++ v') hm

/-- Two deletions have the same outcome, or each can be followed by the other one. -/
theorem Drops.diamond (ht : Drops s t) (hu : Drops s u) : t = u ∨ ∃ r, Drops t r ∧ Drops u r := by
  obtain ⟨before, after, hm⟩ := ht
  generalize hs : before ++ _ ++ after = s at hu
  obtain ⟨before', after', hm'⟩ := hu
  rw [List.append_assoc, List.append_assoc, List.append_eq_append_iff] at hs
  rcases hs with ⟨x, rfl, h⟩ | ⟨x, rfl, h⟩
  · exact eq_or_exists_drops hm hm' before h
  · rcases eq_or_exists_drops hm' hm before' h with heq | ⟨r, hr, hr'⟩
    · exact .inl heq.symm
    · exact .inr ⟨r, hr', hr⟩

theorem Unmodified.eq_of_drops (hs : Unmodified s) (h : ReflTransGen Drops s t) : t = s := by
  rcases h.cases_head with heq | ⟨u, hstep, -⟩
  · exact heq.symm
  · obtain ⟨before, after, hm⟩ := hstep
    exact absurd ⟨before, after, rfl⟩ (hs _ hm)

/-- All orders of deletion that leave no modifier end in the same text. -/
theorem eq_of_drops_of_unmodified (ht : ReflTransGen Drops s t) (hu : ReflTransGen Drops s u)
    (ht' : Unmodified t) (hu' : Unmodified u) : t = u := by
  have hdiamond : ∀ a b c, Drops a b → Drops a c →
      ∃ d, ReflGen Drops b d ∧ ReflTransGen Drops c d := by
    intro a b c hb hc
    rcases hb.diamond hc with rfl | ⟨d, hbd, hcd⟩
    · exact ⟨b, .refl, .refl⟩
    · exact ⟨d, .single hbd, .single hcd⟩
  obtain ⟨r, htr, hur⟩ := Relation.church_rosser hdiamond ht hu
  rw [← ht'.eq_of_drops htr, hu'.eq_of_drops hur]

/-! ### Stripping is one of the orders -/

theorem drops_delete {modifier : Text} (hm : modifier ∈ all) (s : Text) :
    ReflTransGen Drops s (Text.delete modifier s) := by
  refine Text.deleteFrom_induction (motive := fun _ s out => ReflTransGen Drops s out)
    (ne_nil_of_mem_all hm) ?_ ?_ ?_ none s
  · intro _
    exact .refl
  · intro _ rest _ ih
    exact .head (.drop [] rest hm) ih
  · intro _ c r ih
    exact drops_append (.refl (a := [c])) ih

theorem drops_strip (s : Text) : ReflTransGen Drops s (strip s) := by
  refine settle_induction (fun t (ht : ReflTransGen Drops s t) => ?_) _ .refl
  exact List.foldlRecOn (motive := ReflTransGen Drops s) all _ ht fun u hu _ hm =>
    hu.trans (drops_delete hm u)

theorem strip_eq_of_drops (h : ReflTransGen Drops s t) : strip t = strip s :=
  eq_of_drops_of_unmodified (h.trans (drops_strip t)) (drops_strip s) (unmodified_strip t)
    (unmodified_strip s)

/-- Stripping is confluent. Deleting single modifiers, in any order, ends in a text without
modifiers exactly if it ends in the stripped text. So stripping leaves no modifier and changes
nothing when repeated, and the two parts of a text may be stripped before the whole is. -/
theorem drops_unmodified_iff_eq_strip (s : Text) :
    (∀ t, ReflTransGen Drops s t ∧ Unmodified t ↔ t = strip s) ∧ Unmodified (strip s) ∧
      strip (strip s) = strip s ∧ ∀ a b, strip (a ++ b) = strip (strip a ++ strip b) := by
  refine ⟨fun t => ⟨?_, ?_⟩, unmodified_strip s, strip_eq_of_drops (drops_strip s), ?_⟩
  · rintro ⟨ht, hunmodified⟩
    exact eq_of_drops_of_unmodified ht (drops_strip s) hunmodified (unmodified_strip s)
  · rintro rfl
    exact ⟨drops_strip s, unmodified_strip s⟩
  · intro a b
    exact (strip_eq_of_drops (drops_append (drops_strip a) (drops_strip b))).symm

end EditorToolbar.Modifier

import EditorToolbar.Modifier
import Mathlib.Logic.Basic
import Mathlib.Tactic.ByContra
import EditorToolbar.Proofs.Settling
import EditorToolbar.Proofs.Text.Deletion
import EditorToolbar.Proofs.Token

/-!
# Stripped texts

A text is `Unmodified` when no modifier occurs in it. Stripping leaves such a text alone and always
ends in one: a pass that changes anything makes the text shorter, so the length of the text is a
limit that no run reaches. A modifier is spelled like a name, so it stands in a text only within a
tool, and what stands on the two sides of a separator or a blank is stripped separately; and it
begins with a colon, so no word in small letters holds one.
-/

namespace EditorToolbar.Modifier

/-- A text in which no modifier occurs. -/
def Unmodified (s : Text) : Prop := ∀ modifier ∈ all, ¬ modifier <:+: s

theorem ne_nil_of_mem_all {modifier : Text} (h : modifier ∈ all) : modifier ≠ [] := by
  rintro rfl
  exact absurd h (by decide)

theorem Unmodified.of_isInfix {s t : Text} (ht : Unmodified t) (h : s <:+: t) : Unmodified s :=
  fun modifier hm hs => ht modifier hm (hs.trans h)

theorem isName_of_mem_all {modifier : Text} (h : modifier ∈ all) : Token.IsName modifier := by
  have hall : all.all (fun m => m.all Token.isNameChar) = true := by decide
  have hletters := List.all_eq_true.mp hall modifier h
  exact ⟨ne_nil_of_mem_all h, List.all_eq_true.mp hletters⟩

theorem colon_mem_of_mem_all : ∀ modifier ∈ all, ':' ∈ modifier := by
  decide

theorem unmodified_of_colon_notMem {s : Text} (h : ':' ∉ s) : Unmodified s :=
  fun modifier hm hs => h (hs.subset (colon_mem_of_mem_all modifier hm))

theorem unmodified_of_isLower {s : Text} (h : ∀ c ∈ s, c.isLower = true) : Unmodified s :=
  unmodified_of_colon_notMem fun hcolon => absurd (h ':' hcolon) (by decide)

/-- A text is unmodified if its tools are. -/
theorem unmodified_of_tools {s : Text}
    (h : ∀ name ∈ Token.tools (Token.tokenize s), Unmodified name) : Unmodified s := by
  intro modifier hm hs
  obtain ⟨name, hname, hin⟩ := Token.exists_mem_tokenize_of_isInfix (isName_of_mem_all hm) hs
  exact h name hname modifier hm hin

theorem stripOnce_eq_self {s : Text} (h : Unmodified s) : stripOnce s = s := by
  have hfold : ∀ words : List Text, (∀ w ∈ words, ¬ w <:+: s) →
      words.foldl (fun t w => Text.delete w t) s = s := by
    intro words hwords
    induction words with
    | nil => rfl
    | cons w words ih =>
        rw [List.foldl_cons, Text.delete_eq_self (hwords w (by simp))]
        exact ih fun v hv => hwords v (List.mem_cons_of_mem _ hv)
  exact hfold all h

/-- Deleting several words never lengthens a text, and shortens it if one of them occurs. -/
theorem length_foldl_delete (words : List Text) (hne : ∀ w ∈ words, w ≠ []) (s : Text) :
    (words.foldl (fun t w => Text.delete w t) s).length ≤ s.length ∧
      ((∃ w ∈ words, w <:+: s) →
        (words.foldl (fun t w => Text.delete w t) s).length < s.length) := by
  induction words generalizing s with
  | nil => simp
  | cons w words ih =>
      obtain ⟨hle, hlt⟩ := ih (fun v hv => hne v (List.mem_cons_of_mem _ hv)) (Text.delete w s)
      have hdelete : (Text.delete w s).length ≤ s.length := Text.length_deleteWhere_le _ _ _
      rw [List.foldl_cons]
      refine ⟨Nat.le_trans hle hdelete, ?_⟩
      rintro ⟨v, hv, hvs⟩
      by_cases hw : w <:+: s
      · exact Nat.lt_of_le_of_lt hle (Text.length_delete_lt (hne w (by simp)) hw)
      · have hvw : v ≠ w := fun heq => hw (heq ▸ hvs)
        have hmem : v ∈ words := by simpa [hvw] using hv
        rw [Text.delete_eq_self hw] at hlt ⊢
        exact hlt ⟨v, hmem, hvs⟩

theorem length_stripOnce_lt {s : Text} (h : ¬ Unmodified s) : (stripOnce s).length < s.length := by
  simp only [Unmodified, not_forall, not_not] at h
  obtain ⟨modifier, hm, hs⟩ := h
  exact (length_foldl_delete all (fun _ => ne_nil_of_mem_all) s).2 ⟨modifier, hm, hs⟩

theorem stripOnce_eq_self_iff (s : Text) : stripOnce s = s ↔ Unmodified s := by
  constructor
  · intro heq
    by_contra h
    have hlt := length_stripOnce_lt h
    rw [heq] at hlt
    exact Nat.lt_irrefl _ hlt
  · exact stripOnce_eq_self

theorem unmodified_strip (s : Text) : Unmodified (strip s) := by
  rw [← stripOnce_eq_self_iff]
  refine step_settle_of_size_le (fun _ => True) List.length (fun _ _ => trivial) ?_ trivial
    (Nat.le_refl _)
  intro t _ hne
  exact length_stripOnce_lt fun h => hne (stripOnce_eq_self h)

theorem strip_eq_self {s : Text} (h : Unmodified s) : strip s = s :=
  settle_of_fixed (stripOnce_eq_self h) _

/-! ### Parts of a text that are stripped separately -/

theorem strip_nil : strip [] = [] := rfl

theorem strip_sublist (s : Text) : (strip s).Sublist s := by
  refine settle_induction (fun (t : Text) (ht : t.Sublist s) => ?_) _ (List.Sublist.refl s)
  exact List.foldlRecOn (motive := fun u => u.Sublist s) all _ ht fun u hu w _ =>
    (Text.delete_sublist w u).trans hu

variable {c : Char} (hc : Token.isNameChar c = false)

include hc

theorem not_mem_of_mem_all {modifier : Text} (h : modifier ∈ all) : c ∉ modifier := by
  intro hmem
  rw [(isName_of_mem_all h).2 c hmem] at hc
  cases hc

theorem stripOnce_append_cons (u v : Text) :
    stripOnce (u ++ c :: v) = stripOnce u ++ c :: stripOnce v := by
  have hfold : ∀ words : List Text, (∀ w ∈ words, w ≠ [] ∧ c ∉ w) → ∀ u v : Text,
      words.foldl (fun t w => Text.delete w t) (u ++ c :: v) =
        words.foldl (fun t w => Text.delete w t) u ++
          c :: words.foldl (fun t w => Text.delete w t) v := by
    intro words hwords
    induction words with
    | nil => exact fun _ _ => rfl
    | cons w words ih =>
        intro u v
        obtain ⟨hne, hw⟩ := hwords w (by simp)
        simp only [List.foldl_cons]
        rw [Text.delete_append_cons hne hw, ih fun x hx => hwords x (List.mem_cons_of_mem _ hx)]
  exact hfold all (fun w hw => ⟨ne_nil_of_mem_all hw, not_mem_of_mem_all hc hw⟩) u v

theorem settle_stripOnce_append_cons (limit : Nat) (u v : Text) :
    settle stripOnce limit (u ++ c :: v) =
      settle stripOnce limit u ++ c :: settle stripOnce limit v := by
  induction limit generalizing u v with
  | zero => rfl
  | succ limit ih =>
      simp only [settle_succ_eq_settle_step]
      rw [stripOnce_append_cons hc, ih]

omit hc in
/-- More repetitions than a text has characters change nothing. -/
theorem settle_stripOnce_eq_strip {s : Text} {limit : Nat} (h : s.length ≤ limit) :
    settle stripOnce limit s = strip s :=
  settle_eq_settle_of_le (stripOnce_eq_self (unmodified_strip s)) h

/-- What stands on the two sides of a separator or a blank is stripped separately. -/
theorem strip_append_cons (u v : Text) : strip (u ++ c :: v) = strip u ++ c :: strip v := by
  have hlimit : ∀ s : Text, s.length ≤ (u ++ c :: v).length →
      settle stripOnce (u ++ c :: v).length s = strip s := fun _ => settle_stripOnce_eq_strip
  rw [strip, settle_stripOnce_append_cons hc, hlimit u (by simp), hlimit v (by simp; omega)]

theorem strip_cons (r : Text) : strip (c :: r) = c :: strip r :=
  strip_append_cons hc [] r

end EditorToolbar.Modifier

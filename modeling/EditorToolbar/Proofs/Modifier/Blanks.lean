import EditorToolbar.Proofs.Modifier
import EditorToolbar.Proofs.Text.Trim

/-!
# Stripping and blanks

No modifier has a blank, so a text is stripped blank by blank: the blanks stay and what stands
between two of them is stripped separately. Blanks around the text make no difference. A blank
within it comes to an end of the text when there are only modifiers on one side of it.
-/

namespace EditorToolbar

open Text (isBlank IsBlank)

namespace Modifier

theorem strip_append_blank {b : Char} (hb : isBlank b = true) (u v : Text) :
    strip (u ++ b :: v) = strip u ++ b :: strip v :=
  strip_append_cons (Token.isNameChar_of_isBlank hb) u v

theorem strip_blank_cons {b : Char} (hb : isBlank b = true) (r : Text) :
    strip (b :: r) = b :: strip r :=
  strip_cons (Token.isNameChar_of_isBlank hb) r

theorem strip_isBlank_append {u : Text} (hu : IsBlank u) (s : Text) :
    strip (u ++ s) = u ++ strip s := by
  induction u with
  | nil => rfl
  | cons b u ih =>
      obtain ⟨hb, hu⟩ := List.forall_mem_cons.mp hu
      rw [List.cons_append, strip_blank_cons hb, ih hu, List.cons_append]

theorem strip_append_isBlank {v : Text} (hv : IsBlank v) (s : Text) :
    strip (s ++ v) = strip s ++ v := by
  cases v with
  | nil => rw [List.append_nil, List.append_nil]
  | cons b v =>
      obtain ⟨hb, hv⟩ := List.forall_mem_cons.mp hv
      have hrest := strip_isBlank_append hv []
      rw [List.append_nil, strip_nil, List.append_nil] at hrest
      rw [strip_append_blank hb, hrest]

theorem trim_strip (s : Text) : (strip s).trim = (strip s.trim).trim := by
  obtain ⟨u, v, hu, hv, hs⟩ := Text.exists_trim s
  have hstrip : strip s = u ++ (strip s.trim ++ v) := by
    rw [← strip_append_isBlank hv, ← strip_isBlank_append hu, ← hs]
  rw [hstrip, Text.trim_append_of_isBlank hu hv]

theorem not_isBlank_of_mem_strip {s : Text} (hs : ∀ c ∈ s, (!isBlank c) = true) {c : Char}
    (hc : c ∈ strip s) : isBlank c = false := by
  simpa using hs c ((strip_sublist s).subset hc)

/-- The text begins with no blank if something is left of what stands before each blank. -/
theorem head?_strip {s : Text}
    (hs : ∀ u b v, s = u ++ b :: v → isBlank b = true → strip u ≠ []) :
    (strip s).head?.any isBlank = false := by
  cases hfirst : s.find? isBlank with
  | none =>
      have hnone : ∀ c ∈ s, (!isBlank c) = true := by simpa using hfirst
      cases hhead : (strip s).head? with
      | none => rfl
      | some c => exact not_isBlank_of_mem_strip hnone (List.mem_of_head? hhead)
  | some b =>
      obtain ⟨hb, u, v, rfl, hu⟩ := List.find?_eq_some_iff_append.mp hfirst
      obtain ⟨c, rest, hcons⟩ := List.exists_cons_of_ne_nil (hs u b v rfl hb)
      rw [strip_append_blank hb, hcons]
      exact not_isBlank_of_mem_strip hu (by simp [hcons])

/-- The text ends in no blank if something is left of what stands behind each blank. -/
theorem getLast?_strip {s : Text}
    (hs : ∀ u b v, s = u ++ b :: v → isBlank b = true → strip v ≠ []) :
    (strip s).getLast?.any isBlank = false := by
  induction s using Text.runInduction (p := fun c => !isBlank c) with
  | nil => rfl
  | other c r hc ih =>
      have hblank : isBlank c = true := by simpa using hc
      have hne : strip r ≠ [] := hs [] c r rfl hblank
      have hrest := ih fun u b v hr => hs (c :: u) b v (congrArg (c :: ·) hr)
      rwa [strip_blank_cons hblank, List.getLast?_cons, List.getLast?_eq_some_getLast hne,
        Option.getD_some, ← List.getLast?_eq_some_getLast hne]
  | run u r _ hu hr ih =>
      cases r with
      | nil =>
          rw [List.append_nil]
          cases hlast : (strip u).getLast? with
          | none => rfl
          | some c => exact not_isBlank_of_mem_strip hu (List.mem_of_getLast? hlast)
      | cons b v =>
          have hb : isBlank b = true := by simpa using hr
          have hrest := ih fun x c w hx => hs (u ++ x) c w (by rw [hx, List.append_assoc])
          rwa [strip_append_blank hb, ← strip_blank_cons hb, List.getLast?_append,
            strip_blank_cons hb, List.getLast?_cons, Option.some_or, ← List.getLast?_cons,
            ← strip_blank_cons hb]

end Modifier

end EditorToolbar

import Mathlib.Data.Set.Finite.Lemmas
import EditorToolbar.Proofs.Text.Trim
import EditorToolbar.Proofs.Token

/-!
# Longest match

A lexer is given by its lexemes and by the rule of the longest match. The lexemes of toolbar texts
are runs of blanks, which stand for nothing, the separators, and names; at every place the longest
lexeme is taken that the rest of the text begins with, and a character that begins no lexeme is
passed over. `Lexes` says so without saying how the longest lexeme is found.

`tokenize` is this lexer (`lexes_iff_tokenize_eq`). Every character is a lexeme by itself, so none is
passed over; and among finitely many lexemes at a place there is a longest one, so every text can be
cut up. That the result is the one of `tokenize` is read off the three kinds of lexemes: it makes no
difference where a run of blanks is cut, and a longest name is one that nothing continues.
-/

namespace EditorToolbar.Token

/-- The lexemes of toolbar texts, with the tokens that they stand for. -/
inductive Lexeme : Text → List Token → Prop
  | blanks {u : Text} : u ≠ [] → Text.IsBlank u → Lexeme u []
  | separator {c : Char} {t : Token} : ofSeparator? c = some t → Lexeme [c] [t]
  | name {u : Text} : IsName u → Lexeme u [tool u]

/-- No lexeme that the text begins with is longer than `u`. -/
def IsLongest (u s : Text) : Prop := ∀ v ts, v <+: s → Lexeme v ts → v.length ≤ u.length

/-- The tokens of a text that is cut into longest lexemes. -/
inductive Lexes : Text → List Token → Prop
  | nil : Lexes [] []
  | lexeme {u r : Text} {ts us : List Token} :
      Lexeme u ts → IsLongest u (u ++ r) → Lexes r us → Lexes (u ++ r) (ts ++ us)
  | unknown {c : Char} {r : Text} {us : List Token} :
      (∀ v ts, v <+: c :: r → ¬ Lexeme v ts) → Lexes r us → Lexes (c :: r) us

theorem tokenize_isBlank_append {u : Text} (hu : Text.IsBlank u) (r : Text) :
    tokenize (u ++ r) = tokenize r := by
  induction u with
  | nil => rfl
  | cons c u ih =>
      obtain ⟨hc, hu⟩ := List.forall_mem_cons.mp hu
      rw [List.cons_append, tokenize_cons_blank (ofSeparator?_of_isBlank hc) hc, ih hu]

theorem exists_lexeme_singleton (c : Char) : ∃ ts, Lexeme [c] ts := by
  cases hs : ofSeparator? c with
  | some t => exact ⟨[t], .separator hs⟩
  | none =>
      cases hb : Text.isBlank c with
      | true => exact ⟨[], .blanks (by simp) (by simpa [Text.IsBlank] using hb)⟩
      | false => exact ⟨[tool [c]], .name ⟨by simp, by simp [isNameChar, hs, hb]⟩⟩

theorem Lexeme.ne_nil {u : Text} {ts : List Token} (h : Lexeme u ts) : u ≠ [] := by
  cases h with
  | blanks hne _ => exact hne
  | separator _ => simp
  | name hu => exact hu.1

/-- A name that could be continued is not the longest lexeme. -/
theorem head?_of_isLongest {u r : Text} (hu : IsName u) (h : IsLongest u (u ++ r)) :
    r.head?.any isNameChar = false := by
  cases r with
  | nil => rfl
  | cons c r =>
      cases hc : isNameChar c with
      | false => exact hc
      | true =>
          have hname : IsName (u ++ [c]) := by
            refine ⟨by simp, fun d hd => ?_⟩
            rcases List.mem_append.mp hd with hd | hd
            · exact hu.2 d hd
            · cases List.mem_singleton.mp hd
              exact hc
          have hprefix : u ++ [c] <+: u ++ c :: r := by simp
          have hle := h _ _ hprefix (.name hname)
          rw [List.length_append, List.length_singleton] at hle
          exact absurd hle (Nat.not_succ_le_self _)

theorem tokenize_lexeme_append {u r : Text} {ts : List Token} (hu : Lexeme u ts)
    (h : IsLongest u (u ++ r)) : tokenize (u ++ r) = ts ++ tokenize r := by
  cases hu with
  | blanks _ hblank => exact tokenize_isBlank_append hblank r
  | separator hs => exact tokenize_cons_separator hs r
  | name hname => exact tokenize_name_append hname.1 hname.2 (head?_of_isLongest hname h)

theorem Lexes.tokenize_eq {s : Text} {ts : List Token} (h : Lexes s ts) : tokenize s = ts := by
  induction h with
  | nil => rfl
  | lexeme hu hlongest _ ih => rw [tokenize_lexeme_append hu hlongest, ih]
  | @unknown c _ _ hnone _ _ =>
      obtain ⟨ts, hc⟩ := exists_lexeme_singleton c
      exact absurd hc (hnone [c] ts (by simp))

/-- Of the lexemes that a text begins with, one is longest. -/
theorem exists_isLongest {s : Text} (hs : s ≠ []) :
    ∃ u r ts, u ++ r = s ∧ Lexeme u ts ∧ IsLongest u s := by
  obtain ⟨c, s, rfl⟩ := List.exists_cons_of_ne_nil hs
  obtain ⟨ts, hc⟩ := exists_lexeme_singleton c
  have hfinite : {u : Text | u <+: c :: s ∧ ∃ ts, Lexeme u ts}.Finite :=
    (List.finite_toSet (c :: s).inits).subset fun u hu => (List.mem_inits u _).mpr hu.1
  obtain ⟨u, ⟨⟨r, hur⟩, us, hu⟩, hmax⟩ :=
    Set.exists_max_image _ List.length hfinite ⟨[c], by simp, ts, hc⟩
  exact ⟨u, r, us, hur, hu, fun v vs hv hlexeme => hmax v ⟨hv, vs, hlexeme⟩⟩

theorem exists_lexes (s : Text) : ∃ ts, Lexes s ts := by
  induction hn : s.length using Nat.strongRecOn generalizing s with
  | ind n ih =>
      cases s with
      | nil => exact ⟨[], .nil⟩
      | cons c s =>
          obtain ⟨u, r, ts, hur, hu, hlongest⟩ := exists_isLongest (List.cons_ne_nil c s)
          have hlt : r.length < n := by
            have hpos := List.length_pos_iff.mpr hu.ne_nil
            rw [← hn, ← hur, List.length_append]
            exact Nat.lt_add_of_pos_left hpos
          obtain ⟨us, hus⟩ := ih r.length hlt r rfl
          rw [← hur] at hlongest ⊢
          exact ⟨ts ++ us, .lexeme hu hlongest hus⟩

theorem lexes_iff_tokenize_eq (s : Text) (ts : List Token) : Lexes s ts ↔ tokenize s = ts := by
  constructor
  · exact Lexes.tokenize_eq
  · rintro rfl
    obtain ⟨ts, hts⟩ := exists_lexes s
    rwa [hts.tokenize_eq]

end EditorToolbar.Token

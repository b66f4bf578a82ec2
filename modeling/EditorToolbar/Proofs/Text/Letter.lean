import EditorToolbar.Text.Letter

/-!
# Which characters belong to a word

There are finitely many blanks, and none of them belongs to a word. The small letters from `a` to
`z` all do.
-/

namespace EditorToolbar.Text

def blanks : List Nat :=
  [0x9, 0xA, 0xB, 0xC, 0xD, 0x20, 0x85, 0xA0, 0x1680, 0x2000, 0x2001, 0x2002, 0x2003, 0x2004,
   0x2005, 0x2006, 0x2007, 0x2008, 0x2009, 0x200A, 0x2028, 0x2029, 0x202F, 0x205F, 0x3000]

theorem toNat_mem_blanks {c : Char} (h : isBlank c = true) : c.toNat ∈ blanks := by
  simp only [isBlank, Bool.or_eq_true, Bool.and_eq_true, decide_eq_true_eq, beq_iff_eq] at h
  simp only [blanks, List.mem_cons, List.not_mem_nil, or_false]
  omega

theorem isWordPart_of_isBlank {c : Char} (h : isBlank c = true) : isWordPart c = false := by
  -- a search in the tables of ranges for each of the blanks
  have hall : ∀ n ∈ blanks, isWordPart (Char.ofNat n) = false := by decide +kernel
  have hc := hall c.toNat (toNat_mem_blanks h)
  rwa [Char.ofNat_toNat] at hc

theorem toNat_of_isLower {c : Char} (h : c.isLower = true) : 97 ≤ c.toNat ∧ c.toNat ≤ 122 := by
  change (decide (c.val ≥ 'a'.val) && decide (c.val ≤ 'z'.val)) = true at h
  rw [Bool.and_eq_true, decide_eq_true_eq, decide_eq_true_eq] at h
  exact ⟨UInt32.le_iff_toNat_le.mp h.1, UInt32.le_iff_toNat_le.mp h.2⟩

theorem isWordPart_of_isLower {c : Char} (h : c.isLower = true) : isWordPart c = true := by
  have hsmall : c.toNat < 128 := Nat.lt_of_le_of_lt (toNat_of_isLower h).2 (by decide)
  have halpha : isAlphabetic c = true := by
    rw [isAlphabetic, if_pos hsmall]
    exact Bool.or_eq_true_iff.mpr (.inr h)
  rw [isWordPart, halpha]
  rfl

end EditorToolbar.Text

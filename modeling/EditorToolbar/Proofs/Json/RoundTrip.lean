import EditorToolbar.Json.Reading
import EditorToolbar.Proofs.Text.Trim

/-!
# Reading what has been written

A written value is read back, whatever follows it. In a string each character is escaped and read on
its own. For values the induction is on the value: each reader takes its own characters and leaves
those behind them, and since every round takes at least one character, more rounds than the written
form has characters are enough.

Numbers are left out. They are kept as they are spelled, and nothing keeps them from being spelled
wrongly. All other values end in a letter, a quote or a bracket, so there is nothing to trim.
-/

namespace EditorToolbar.Json

/-! ### Strings -/

theorem hexQuad?_hexDigit :
    ∀ n < 32, hexQuad? '0' '0' (hexDigit (n / 16)) (hexDigit (n % 16)) = some n := by
  decide

theorem readString_control {c : Char} (h : c.toNat < 32) (s : Text) :
    readString
        ('\\' :: 'u' :: '0' :: '0' :: hexDigit (c.toNat / 16) :: hexDigit (c.toNat % 16) :: s) =
      (readString s).map fun p => (c :: p.1, p.2) := by
  have hhigh : isHighSurrogate c.toNat = false := by
    simp only [isHighSurrogate, Bool.and_eq_false_iff, decide_eq_false_iff_not]
    omega
  have hlow : isLowSurrogate c.toNat = false := by
    simp only [isLowSurrogate, Bool.and_eq_false_iff, decide_eq_false_iff_not]
    omega
  rw [readString, hexQuad?_hexDigit _ h]
  simp only [Option.bind_eq_bind, Option.bind_some, hhigh, hlow, Bool.false_eq_true, if_false,
    Char.ofNat_toNat]
  cases readString s <;> rfl

theorem readString_unescape {e c : Char} (h : unescape? e = some c) (s : Text) :
    readString ('\\' :: e :: s) = (readString s).map fun p => (c :: p.1, p.2) := by
  have hu : e ≠ 'u' := by
    rintro rfl
    cases h
  rw [readString, h]
  · cases readString s <;> rfl
  · intro _ _ _ _ _ he
    exact absurd he hu

theorem readString_cons {c : Char} (hquote : c ≠ '"') (hslash : c ≠ '\\') (hc : ¬ c.toNat < 32)
    (s : Text) : readString (c :: s) = (readString s).map fun p => (c :: p.1, p.2) := by
  rw [readString, if_neg hc]
  · cases readString s <;> rfl
  · exact hquote
  · exact fun _ _ _ _ _ h => absurd h hslash
  · exact fun _ _ h => absurd h hslash

/-- A character is escaped with a letter or with its number, or stands for itself. -/
theorem escape_cases (c : Char) :
    (∃ e, escape c = ['\\', e] ∧ unescape? e = some c) ∨
      (escape c =
          ['\\', 'u', '0', '0', hexDigit (c.toNat / 16), hexDigit (c.toNat % 16)] ∧
        c.toNat < 32) ∨
      (escape c = [c] ∧ c ≠ '"' ∧ c ≠ '\\' ∧ ¬ c.toNat < 32) := by
  have hcontrol : ∀ {n : Nat}, c.toNat = n → Char.ofNat n = c := by
    rintro n rfl
    exact Char.ofNat_toNat c
  fun_cases escape c with
  | case1 h => exact .inl ⟨'"', rfl, congrArg some h.symm⟩
  | case2 _ h => exact .inl ⟨'\\', rfl, congrArg some h.symm⟩
  | case3 _ _ h => exact .inl ⟨'n', rfl, congrArg some h.symm⟩
  | case4 _ _ _ h => exact .inl ⟨'r', rfl, congrArg some h.symm⟩
  | case5 _ _ _ _ h => exact .inl ⟨'t', rfl, congrArg some h.symm⟩
  | case6 _ _ _ _ _ h => exact .inl ⟨'b', rfl, congrArg some (hcontrol h)⟩
  | case7 _ _ _ _ _ _ h => exact .inl ⟨'f', rfl, congrArg some (hcontrol h)⟩
  | case8 _ _ _ _ _ _ _ h => exact .inr (.inl ⟨rfl, h⟩)
  | case9 hquote hslash _ _ _ _ _ h => exact .inr (.inr ⟨rfl, hquote, hslash, h⟩)

/-- An escaped character is read back, and the reader goes on behind it. -/
theorem readString_escape_append (c : Char) (s : Text) :
    readString (escape c ++ s) = (readString s).map fun p => (c :: p.1, p.2) := by
  rcases escape_cases c with ⟨e, hc, he⟩ | ⟨hc, h⟩ | ⟨hc, hquote, hslash, h⟩
  · rw [hc]
    exact readString_unescape he s
  · rw [hc]
    exact readString_control h s
  · rw [hc]
    exact readString_cons hquote hslash h s

theorem readString_quoted (s rest : Text) :
    readString (s.flatMap escape ++ '"' :: rest) = some (s, rest) := by
  induction s with
  | nil => rfl
  | cons c s ih =>
      rw [List.flatMap_cons, List.append_assoc, readString_escape_append, ih]
      rfl

/-! ### Blanks -/

theorem skipBlanks_append {blanks : Text} (h : ∀ c ∈ blanks, isBlank c = true) (s : Text) :
    skipBlanks (blanks ++ s) = skipBlanks s :=
  List.dropWhile_append_of_pos h

theorem isBlank_of_mem_newLine {level : Nat} {c : Char} (h : c ∈ newLine level) :
    isBlank c = true := by
  rcases List.mem_cons.mp h with rfl | h
  · rfl
  · rw [List.eq_of_mem_replicate h]
    rfl

theorem skipBlanks_newLine_append (level : Nat) (s : Text) :
    skipBlanks (newLine level ++ s) = skipBlanks s :=
  skipBlanks_append (fun _ => isBlank_of_mem_newLine) s

theorem skipBlanks_cons {c : Char} (hc : isBlank c = false) (s : Text) :
    skipBlanks (c :: s) = c :: s := by
  rw [skipBlanks, List.dropWhile_cons_of_neg (by rw [hc]; exact Bool.false_ne_true)]

theorem expect_newLine_append (c : Char) (level : Nat) (s : Text) :
    expect c (newLine level ++ s) = expect c s := by
  rw [expect, skipBlanks_newLine_append]
  rfl

theorem expect_cons {c d : Char} (hd : isBlank d = false) (s : Text) :
    expect c (d :: s) = if d = c then some s else none := by
  rw [expect, skipBlanks_cons hd]

/-- Blanks before a value make no difference. -/
theorem readValue_congr (rounds : Nat) {s t : Text} (h : skipBlanks s = skipBlanks t) :
    readValue rounds s = readValue rounds t := by
  cases rounds with
  | zero => rfl
  | succ rounds => rw [readValue, h, readValue]

theorem readValue_newLine_append (rounds level : Nat) (s : Text) :
    readValue rounds (newLine level ++ s) = readValue rounds s :=
  readValue_congr rounds (skipBlanks_newLine_append level s)

/-! ### Values -/

theorem quote_append (s rest : Text) :
    quote s ++ rest = '"' :: (s.flatMap escape ++ '"' :: rest) := by
  simp [quote]

theorem readValue_array (rounds : Nat) {s : Text} (hs : expect ']' s = none) :
    readValue (rounds + 1) ('[' :: s) = (readItems rounds s).map fun p => (.array p.1, p.2) := by
  rw [readValue, skipBlanks_cons rfl]
  simp only [hs]
  cases readItems rounds s <;> rfl

theorem readValue_object (rounds : Nat) {s : Text} (hs : expect '}' s = none) :
    readValue (rounds + 1) ('{' :: s) = (readFields rounds s).map fun p => (.object p.1, p.2) := by
  rw [readValue, skipBlanks_cons rfl]
  simp only [hs]
  cases readFields rounds s <;> rfl

/-- No value begins with a closing bracket. -/
theorem expect_eq_none_of_readValue (rounds : Nat) {s : Text} (h : readValue rounds s ≠ none) :
    expect ']' s = none := by
  cases rounds with
  | zero => exact absurd rfl h
  | succ rounds =>
      rw [readValue] at h
      unfold expect
      cases hs : skipBlanks s with
      | nil => rfl
      | cons c r =>
          apply if_neg
          rintro rfl
          rw [hs] at h
          exact h rfl

/-- At every level the written form of a value is read back, whatever follows it, if there are more
rounds than characters. -/
def Readable (v : Json) : Prop :=
  ∀ level rounds rest, (writeAt level v).length < rounds →
    readValue rounds (writeAt level v ++ rest) = some (v, rest)

theorem readable_of_succ {v : Json}
    (h : ∀ level rounds rest, (writeAt level v).length ≤ rounds →
      readValue (rounds + 1) (writeAt level v ++ rest) = some (v, rest)) : Readable v := by
  intro level rounds rest hrounds
  obtain ⟨rounds, rfl⟩ := Nat.exists_eq_succ_of_ne_zero (Nat.ne_zero_of_lt hrounds)
  exact h level rounds rest (Nat.le_of_lt_succ hrounds)

theorem Readable.expect_eq_none {v : Json} (hv : Readable v) (level : Nat) (rest : Text) :
    expect ']' (writeAt level v ++ rest) = none := by
  apply expect_eq_none_of_readValue ((writeAt level v).length + 1)
  rw [hv level _ rest (Nat.lt_succ_self _)]
  exact Option.some_ne_none _

theorem Readable.readItems_succ {item : Json} (hitem : Readable item) {level rounds : Nat}
    (hrounds : (writeAt level item).length < rounds) (rest : Text) :
    readItems (rounds + 1) (newLine level ++ (writeAt level item ++ rest)) =
      match expect ',' rest with
      | some rest => (readItems rounds rest).map fun p => (item :: p.1, p.2)
      | none => (expect ']' rest).map fun r => ([item], r) := by
  rw [readItems, readValue_newLine_append, hitem level rounds rest hrounds]
  simp only [Option.bind_eq_bind, Option.bind_some]
  cases expect ',' rest with
  | none => cases expect ']' rest <;> rfl
  | some rest =>
      dsimp only
      cases readItems rounds rest <;> rfl

theorem Readable.readFields_succ {value : Json} (hvalue : Readable value) (key : Text)
    {level rounds : Nat} (hrounds : (writeAt level value).length < rounds) (rest : Text) :
    readFields (rounds + 1)
        (newLine level ++ (quote key ++ (':' :: ' ' :: (writeAt level value ++ rest)))) =
      match expect ',' rest with
      | some rest => (readFields rounds rest).map fun p => ((key, value) :: p.1, p.2)
      | none => (expect '}' rest).map fun r => ([(key, value)], r) := by
  have hblank : readValue rounds (' ' :: (writeAt level value ++ rest)) = some (value, rest) := by
    rw [← hvalue level rounds rest hrounds]
    exact readValue_congr rounds rfl
  rw [readFields, expect_newLine_append, quote_append, expect_cons rfl, if_pos rfl]
  simp only [Option.bind_eq_bind, Option.bind_some, readString_quoted]
  rw [expect_cons rfl, if_pos rfl, Option.bind_some, hblank]
  simp only [Option.bind_some]
  cases expect ',' rest with
  | none => cases expect '}' rest <;> rfl
  | some rest =>
      dsimp only
      cases readFields rounds rest <;> rfl

theorem readItems_write {item : Json} {items : List Json} (hitem : Readable item)
    (hitems : ∀ v ∈ items, Readable v) (level last : Nat) {rounds : Nat}
    (hrounds : (writeAt level item).length + (writeItems level items).length + 1 < rounds)
    (rest : Text) :
    readItems rounds (newLine level ++ (writeAt level item ++ (writeItems level items ++
      (newLine last ++ ']' :: rest)))) = some (item :: items, rest) := by
  induction items generalizing item rounds with
  | nil =>
      obtain ⟨rounds, rfl⟩ := Nat.exists_eq_succ_of_ne_zero (Nat.ne_zero_of_lt hrounds)
      rw [hitem.readItems_succ (by omega), writeItems, List.nil_append, expect_newLine_append,
        expect_newLine_append]
      rfl
  | cons next items ih =>
      obtain ⟨rounds, rfl⟩ := Nat.exists_eq_succ_of_ne_zero (Nat.ne_zero_of_lt hrounds)
      obtain ⟨hnext, hmore⟩ := List.forall_mem_cons.mp hitems
      simp only [writeItems, List.length_append, List.length_cons] at hrounds
      rw [hitem.readItems_succ (by omega)]
      simp only [writeItems, List.append_assoc, List.cons_append]
      rw [expect_cons rfl, if_pos rfl]
      dsimp only
      rw [ih hnext hmore (by omega)]
      rfl

theorem readFields_write {key : Text} {value : Json} {fields : List (Text × Json)}
    (hvalue : Readable value) (hfields : ∀ f ∈ fields, Readable f.2) (level last : Nat)
    {rounds : Nat}
    (hrounds : (writeAt level value).length + (writeFields level fields).length + 1 < rounds)
    (rest : Text) :
    readFields rounds (newLine level ++ (quote key ++ (':' :: ' ' :: (writeAt level value ++
      (writeFields level fields ++ (newLine last ++ '}' :: rest)))))) =
      some ((key, value) :: fields, rest) := by
  induction fields generalizing key value rounds with
  | nil =>
      obtain ⟨rounds, rfl⟩ := Nat.exists_eq_succ_of_ne_zero (Nat.ne_zero_of_lt hrounds)
      rw [hvalue.readFields_succ key (by omega), writeFields, List.nil_append,
        expect_newLine_append, expect_newLine_append]
      rfl
  | cons next fields ih =>
      obtain ⟨rounds, rfl⟩ := Nat.exists_eq_succ_of_ne_zero (Nat.ne_zero_of_lt hrounds)
      obtain ⟨hnext, hmore⟩ := List.forall_mem_cons.mp hfields
      simp only [writeFields, List.length_append, List.length_cons] at hrounds
      rw [hvalue.readFields_succ key (by omega)]
      simp only [writeFields, List.append_assoc, List.cons_append, List.nil_append]
      rw [expect_cons rfl, if_pos rfl]
      dsimp only
      rw [ih hnext hmore (by omega)]
      rfl

theorem readable_null : Readable .null := readable_of_succ fun _ _ _ _ => rfl

theorem readable_bool (b : Bool) : Readable (.bool b) :=
  readable_of_succ fun _ _ _ _ => by cases b <;> rfl

theorem readable_string (s : Text) : Readable (.string s) := by
  refine readable_of_succ fun level rounds rest _ => ?_
  rw [writeAt, quote_append, readValue, skipBlanks_cons rfl]
  simp [readString_quoted]

theorem readable_array {items : List Json} (h : ∀ v ∈ items, Readable v) :
    Readable (.array items) := by
  refine readable_of_succ fun level rounds rest hrounds => ?_
  cases items with
  | nil => rfl
  | cons item items =>
      obtain ⟨hitem, hitems⟩ := List.forall_mem_cons.mp h
      simp only [writeAt, List.append_assoc, List.cons_append, List.nil_append, List.length_append,
        List.length_cons] at hrounds ⊢
      -- the array is not empty: its first item does not begin with the closing bracket
      have hnone : ∀ s, expect ']' (newLine (level + 1) ++ (writeAt (level + 1) item ++ s)) =
          none := by
        intro s
        rw [expect_newLine_append, hitem.expect_eq_none]
      rw [readValue_array _ (hnone _), readItems_write hitem hitems _ _ (by omega)]
      rfl

theorem readable_object {fields : List (Text × Json)} (h : ∀ f ∈ fields, Readable f.2) :
    Readable (.object fields) := by
  refine readable_of_succ fun level rounds rest hrounds => ?_
  cases fields with
  | nil => rfl
  | cons field fields =>
      obtain ⟨hvalue, hfields⟩ := List.forall_mem_cons.mp h
      simp only [writeAt, List.append_assoc, List.cons_append, List.nil_append, List.length_append,
        List.length_cons] at hrounds ⊢
      have hnone : ∀ s, expect '}' (newLine (level + 1) ++ (quote field.1 ++ s)) = none := by
        intro s
        rw [expect_newLine_append, quote_append, expect_cons rfl]
        rfl
      rw [readValue_object _ (hnone _), readFields_write hvalue hfields _ _ (by omega)]
      rfl

/-- A value in which there is no number. -/
inductive NumberFree : Json → Prop
  | null : NumberFree .null
  | bool (b : Bool) : NumberFree (.bool b)
  | string (s : Text) : NumberFree (.string s)
  | array {items : List Json} (h : ∀ item ∈ items, NumberFree item) : NumberFree (.array items)
  | object {fields : List (Text × Json)} (h : ∀ field ∈ fields, NumberFree field.2) :
    NumberFree (.object fields)

theorem NumberFree.readable {v : Json} (hv : NumberFree v) : Readable v := by
  induction hv with
  | null => exact readable_null
  | bool b => exact readable_bool b
  | string s => exact readable_string s
  | array _ ih => exact readable_array ih
  | object _ ih => exact readable_object ih

/-- A value without numbers is read back from its text, with blanks behind it or without. -/
theorem ofText?_write_append {v : Json} (hv : NumberFree v) {blanks : Text}
    (hblanks : ∀ c ∈ blanks, isBlank c = true) : ofText? (v.write ++ blanks) = some v := by
  have hlength : (writeAt 0 v).length < (writeAt 0 v ++ blanks).length + 1 := by
    rw [List.length_append]
    omega
  have hrest : skipBlanks blanks = [] := by
    rw [← List.append_nil blanks, skipBlanks_append hblanks]
    rfl
  rw [ofText?, write, hv.readable 0 _ blanks hlength]
  simp [hrest]

theorem ofText?_write {v : Json} (hv : NumberFree v) : ofText? v.write = some v := by
  simpa using ofText?_write_append hv (List.forall_mem_nil _)

theorem NumberFree.trimEnd_write {v : Json} (hv : NumberFree v) : v.write.trimEnd = v.write := by
  rw [write]
  cases hv with
  | null => decide
  | bool b => cases b <;> decide
  | string s => exact Text.trimEnd_concat rfl _
  | @array items _ =>
      cases items with
      | nil => decide
      | cons item items => exact Text.trimEnd_concat rfl _
  | @object fields _ =>
      cases fields with
      | nil => decide
      | cons field fields => exact Text.trimEnd_concat rfl _

end EditorToolbar.Json

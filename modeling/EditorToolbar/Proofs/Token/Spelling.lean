import Mathlib.Data.List.Chain
import EditorToolbar.Proofs.Token.LongestMatch

/-!
# Spelling tokens

Tokens are spelled one after another, with as many blanks as one likes before, between and after
them. Only between two tools there has to be a blank, for without one they read as one name. A
`Spelling` is a choice of blanks for a list of tokens whose tools are names; the condition on two
tools is one on neighbours, so it is a chain.

What is read from a spelling are the tokens that it spells (`Spelling.tokenize_text`), and every
text is a spelling (`exists_spelling`). So nothing but blanks is lost when a text is cut into
tokens: spelled back to back, these are the text without its blanks.
-/

namespace EditorToolbar.Token

open Text (IsBlank isBlank)

def isTool : Token → Bool
  | tool _ => true
  | _ => false

theorem isTool_iff {t : Token} : t.isTool = true ↔ ∃ name, t = tool name := by
  cases t <;> simp [isTool]

/-- A token with the blanks that stand before it. -/
structure Spaced where
  gap : Text
  token : Token
  blank : IsBlank gap
  isName : ∀ name, token = tool name → IsName name

def Spaced.text (p : Spaced) : Text := p.gap ++ p.token.spell

/-- Whether a token may follow another one: if both are tools, there is a blank in between. -/
def Spaced.MayFollow (p q : Spaced) : Prop :=
  p.token.isTool = true → q.token.isTool = true → q.gap ≠ []

/-- A way to write a list of tokens, each behind blanks of its own; some more blanks come last. -/
structure Spelling where
  parts : List Spaced
  last : Text
  blank : IsBlank last
  apart : parts.IsChain Spaced.MayFollow

namespace Spelling

def tokens (w : Spelling) : List Token := w.parts.map Spaced.token

def text (w : Spelling) : Text := w.parts.flatMap Spaced.text ++ w.last

end Spelling

/-! ### Reading a spelling -/

theorem filter_of_isBlank {u : Text} (hu : IsBlank u) : u.filter (fun c => !isBlank c) = [] := by
  rw [List.filter_eq_nil_iff]
  intro c hc
  simp [hu c hc]

theorem tokenize_spell_append {t : Token} (ht : t.isTool = false) (r : Text) :
    tokenize (t.spell ++ r) = t :: tokenize r := by
  cases t with
  | tool name => cases ht
  | divider d => cases d <;> rfl
  | _ => rfl

namespace Spaced

/-- A name goes on only with a tool that has no blanks before it. -/
theorem head?_text_append (p : Spaced) (r : Text) :
    (p.text ++ r).head?.any isNameChar = (p.gap.isEmpty && p.token.isTool) := by
  obtain ⟨gap, t, hblank, hname⟩ := p
  cases gap with
  | cons c gap => exact isNameChar_of_isBlank (hblank c (by simp))
  | nil =>
      cases t with
      | tool name =>
          obtain ⟨hne, hletters⟩ := hname name rfl
          obtain ⟨c, n, rfl⟩ := List.exists_cons_of_ne_nil hne
          exact hletters c (by simp)
      | divider d => cases d <;> rfl
      | _ => rfl

theorem tokenize_text_append (p : Spaced) {r : Text}
    (hr : p.token.isTool = true → r.head?.any isNameChar = false) :
    tokenize (p.text ++ r) = p.token :: tokenize r := by
  obtain ⟨gap, t, hblank, hname⟩ := p
  rw [text, List.append_assoc, tokenize_isBlank_append hblank]
  cases ht : t.isTool with
  | false => exact tokenize_spell_append ht r
  | true =>
      cases t with
      | tool name => exact tokenize_name_append (hname name rfl).1 (hname name rfl).2 (hr rfl)
      | _ => cases ht

theorem filter_text (p : Spaced) : p.text.filter (fun c => !isBlank c) = p.token.spell := by
  obtain ⟨gap, t, hblank, hname⟩ := p
  have hspell : t.spell.filter (fun c => !isBlank c) = t.spell := by
    cases t with
    | tool name =>
        refine List.filter_eq_self.mpr fun c hc => ?_
        rw [(hname name rfl).isBlank_eq_false c hc, Bool.not_false]
    | divider d => cases d <;> rfl
    | _ => rfl
  rw [text, List.filter_append, filter_of_isBlank hblank, List.nil_append, hspell]

end Spaced

namespace Spelling

/-- What follows a tool in a spelling does not continue its name. -/
theorem head?_text (w : Spelling) {p : Spaced} (hp : p.token.isTool = true)
    (hfollow : ∀ q ∈ w.parts.head?, p.MayFollow q) : w.text.head?.any isNameChar = false := by
  obtain ⟨parts, last, hblank, hapart⟩ := w
  cases parts with
  | nil =>
      cases last with
      | nil => rfl
      | cons c last => exact isNameChar_of_isBlank (hblank c (by simp))
  | cons q parts =>
      rw [text, List.flatMap_cons, List.append_assoc, Spaced.head?_text_append]
      cases hq : q.token.isTool with
      | false => rw [Bool.and_false]
      | true => simpa using hfollow q rfl hp hq

theorem tokenize_text (w : Spelling) : tokenize w.text = w.tokens := by
  obtain ⟨parts, last, hblank, hapart⟩ := w
  induction parts with
  | nil =>
      have hnil := tokenize_isBlank_append hblank []
      rwa [List.append_nil] at hnil
  | cons p parts ih =>
      obtain ⟨hfollow, hparts⟩ := List.isChain_cons.mp hapart
      have hcons : text ⟨p :: parts, last, hblank, hapart⟩ =
          p.text ++ text ⟨parts, last, hblank, hparts⟩ := by
        simp [text]
      rw [hcons, p.tokenize_text_append fun hp => head?_text _ hp hfollow, ih hparts]
      rfl

theorem flatMap_spell_tokens (w : Spelling) :
    w.tokens.flatMap spell = w.text.filter fun c => !isBlank c := by
  rw [text, List.filter_append, filter_of_isBlank w.blank, List.append_nil, List.filter_flatMap,
    tokens, List.flatMap_map]
  simp only [Spaced.filter_text]

end Spelling

/-! ### Every text is a spelling -/

/-- A token without blanks before it. -/
def Spaced.ofToken (t : Token) (ht : ∀ name, t = tool name → IsName name) : Spaced :=
  ⟨[], t, List.forall_mem_nil _, ht⟩

/-- A spaced token with one more blank before it. -/
def Spaced.pad (p : Spaced) {c : Char} (hc : isBlank c = true) : Spaced :=
  ⟨c :: p.gap, p.token, List.forall_mem_cons.mpr ⟨hc, p.blank⟩, p.isName⟩

namespace Spelling

/-- A blank can be put in front. -/
theorem exists_blank_cons (w : Spelling) {c : Char} (hc : isBlank c = true) :
    ∃ v : Spelling, v.text = c :: w.text ∧ v.tokens = w.tokens := by
  obtain ⟨parts, last, hblank, hapart⟩ := w
  cases parts with
  | nil => exact ⟨⟨[], c :: last, List.forall_mem_cons.mpr ⟨hc, hblank⟩, .nil⟩, rfl, rfl⟩
  | cons p parts =>
      obtain ⟨hfollow, hparts⟩ := List.isChain_cons.mp hapart
      have hpadded : (p.pad hc :: parts).IsChain Spaced.MayFollow :=
        List.isChain_cons.mpr ⟨hfollow, hparts⟩
      exact ⟨⟨p.pad hc :: parts, last, hblank, hpadded⟩, rfl, rfl⟩

/-- A token can be put in front, a tool only where it does not meet a name. -/
theorem exists_token_cons (w : Spelling) {t : Token}
    (ht : ∀ name, t = tool name → IsName name ∧ w.text.head?.any isNameChar = false) :
    ∃ v : Spelling, v.text = t.spell ++ w.text ∧ v.tokens = t :: w.tokens := by
  obtain ⟨parts, last, hblank, hapart⟩ := w
  let p := Spaced.ofToken t fun name h => (ht name h).1
  have hfollow : ∀ q ∈ parts.head?, p.MayFollow q := by
    intro q hq htool hqtool
    obtain ⟨name, hname⟩ := isTool_iff.mp htool
    obtain ⟨parts, rfl⟩ := List.head?_eq_some_iff.mp hq
    have hhead := (ht name hname).2
    rw [text, List.flatMap_cons, List.append_assoc, Spaced.head?_text_append, hqtool] at hhead
    simpa using hhead
  refine ⟨⟨p :: parts, last, hblank, List.isChain_cons.mpr ⟨hfollow, hapart⟩⟩, ?_, rfl⟩
  simp [text, Spaced.text, p, Spaced.ofToken]

end Spelling

/-- Tokens can be spelled with a blank before each of them. -/
theorem exists_spelling_of_isName {ts : List Token} (h : ∀ name ∈ tools ts, IsName name) :
    ∃ w : Spelling, w.tokens = ts := by
  induction ts with
  | nil => exact ⟨⟨[], [], List.forall_mem_nil _, .nil⟩, rfl⟩
  | cons t ts ih =>
      have hts : ∀ name ∈ tools ts, IsName name :=
        fun name hname => h name (mem_tools.mpr (List.mem_cons_of_mem _ (mem_tools.mp hname)))
      obtain ⟨w, hw⟩ := ih hts
      obtain ⟨v, hv, hvtokens⟩ := w.exists_blank_cons (c := ' ') rfl
      have ht : ∀ name, t = tool name → IsName name ∧ v.text.head?.any isNameChar = false := by
        rintro name rfl
        exact ⟨h name (mem_tools.mpr (by simp)), by rw [hv]; rfl⟩
      obtain ⟨u, -, hu⟩ := v.exists_token_cons ht
      exact ⟨u, by rw [hu, hvtokens, hw]⟩

theorem exists_spelling (s : Text) : ∃ w : Spelling, w.text = s := by
  induction s using Text.runInduction (p := isNameChar) with
  | nil => exact ⟨⟨[], [], List.forall_mem_nil _, .nil⟩, rfl⟩
  | other c r hc ih =>
      obtain ⟨w, rfl⟩ := ih
      cases hs : ofSeparator? c with
      | none =>
          obtain ⟨v, hv, -⟩ := w.exists_blank_cons (by simpa [isNameChar, hs] using hc)
          exact ⟨v, hv⟩
      | some t =>
          have ht : ∀ name, t ≠ tool name := by
            rintro name rfl
            exact ofSeparator?_ne_tool c name hs
          obtain ⟨v, hv, -⟩ := w.exists_token_cons fun name h => absurd h (ht name)
          exact ⟨v, by rw [hv, ofSeparator?_eq_some_spell hs, List.singleton_append]⟩
  | run u r hne hu hr ih =>
      obtain ⟨w, rfl⟩ := ih
      obtain ⟨v, hv, -⟩ := w.exists_token_cons (t := tool u) <| by
        rintro _ ⟨⟩
        exact ⟨⟨hne, hu⟩, hr⟩
      exact ⟨v, hv⟩

/-- Cutting a text into tokens is exact. The tokens are those of the longest match; their tools are
names, and spelled back to back they are the text without its blanks. Conversely tokens whose tools
are names can be spelled, and whatever blanks are chosen for that, a spelling has the tokens that it
spells; and every text is a spelling of its tokens. -/
theorem tokenize_exact :
    (∀ s ts, Lexes s ts ↔ tokenize s = ts) ∧
      (∀ s, (∀ name ∈ tools (tokenize s), IsName name) ∧
        (tokenize s).flatMap spell = s.filter fun c => !isBlank c) ∧
      (∀ ts, (∀ name ∈ tools ts, IsName name) → ∃ w : Spelling, w.tokens = ts) ∧
      (∀ w : Spelling, tokenize w.text = w.tokens) ∧
      ∀ s, ∃ w : Spelling, w.text = s ∧ w.tokens = tokenize s := by
  refine ⟨lexes_iff_tokenize_eq, fun s => ⟨fun _ => isName_of_mem_tokenize, ?_⟩,
    fun _ => exists_spelling_of_isName, Spelling.tokenize_text, fun s => ?_⟩
  · obtain ⟨w, rfl⟩ := exists_spelling s
    rw [w.tokenize_text, w.flatMap_spell_tokens]
  · obtain ⟨w, rfl⟩ := exists_spelling s
    exact ⟨w, rfl, w.tokenize_text.symm⟩

/-- The blank between the tools is an em space, and the digit is a superscript. -/
theorem tokenize_em_space :
    let s := " c++\u2003x:y/²\n".toList
    let ts := [tool "c++".toList, tool "x:y".toList, .divider .slash, tool "²".toList]
    tokenize s = ts ∧ Lexes s ts ∧ IsName "x:y".toList ∧ ts.flatMap spell = "c++x:y/²".toList ∧
      (∃ w : Spelling, w.text = s ∧ w.tokens = ts) ∧ (∀ name ∈ tools ts, IsName name) ∧
      ∃ w : Spelling, w.tokens = ts ∧ tokenize w.text = ts := by
  intro s ts
  obtain ⟨hlexes, hread, htokens, htext, hspell⟩ := tokenize_exact
  have hs : tokenize s = ts := by decide
  have hname : "x:y".toList ∈ tools (tokenize s) := by decide
  have hts : ∀ name ∈ tools ts, IsName name := by
    have hall : (tools ts).all (fun name => decide (IsName name)) = true := by decide
    exact fun name hname => of_decide_eq_true (List.all_eq_true.mp hall name hname)
  obtain ⟨w, hw⟩ := htokens ts hts
  refine ⟨hs, (hlexes s ts).mpr hs, (hread s).1 _ hname, ?_, hs ▸ hspell s, hts, w, hw, ?_⟩
  · rw [← hs, (hread s).2]
    decide
  · rw [htext, hw]

end EditorToolbar.Token

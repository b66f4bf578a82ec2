import EditorToolbar.Proofs.RoundTrip

/-!
# Canonical texts

A grammar of the texts that are written: names joined by commas, in one pair of braces or bare, are
a group; groups with a pipe between neighbours, or with nothing where a brace keeps them apart, are
a section; sections joined by dividers are a text, and so is the empty text. Nothing else is
written.

The grammar is that of compact, well-formed toolbars: what is written of one is canonical
(`isCanonical_write`), and a canonical text is what is written of one (`IsCanonical.exists_write`).
Since reading gives such a toolbar back, canonical texts are the texts that reading and writing
leave alone (`toText_ofText_eq_self_iff`).
-/

namespace EditorToolbar

open Token (IsName)

namespace Text

/-- Names joined by single commas. -/
inductive IsNames : Text → Prop
  | single {s : Text} : IsName s → IsNames s
  | comma {s t : Text} : IsName s → IsNames t → IsNames (s ++ ',' :: t)

/-- A group, bare or in braces. -/
inductive IsGroup : Bool → Text → Prop
  | bare {s : Text} : IsNames s → IsGroup false s
  | braced {s : Text} : IsNames s → IsGroup true ('{' :: s ++ ['}'])

/-- Neighbouring groups; the flag says whether the first one is braced. -/
inductive IsSection : Bool → Text → Prop
  | single {b : Bool} {s : Text} : IsGroup b s → IsSection b s
  | pipe {b c : Bool} {s t : Text} : IsGroup b s → IsSection c t → IsSection b (s ++ '|' :: t)
  | beside {b c : Bool} {s t : Text} : IsGroup b s → IsSection c t → b = true ∨ c = true →
      IsSection b (s ++ t)

/-- Sections joined by single dividers. -/
inductive IsSections : Text → Prop
  | single {b : Bool} {s : Text} : IsSection b s → IsSections s
  | divided {b : Bool} {c : Char} {s t : Text} : c = '#' ∨ c = '/' → IsSection b s →
      IsSections t → IsSections (s ++ c :: t)

def IsCanonical (s : Text) : Prop := s = [] ∨ IsSections s

end Text

open Text (IsNames IsGroup IsSection IsSections IsCanonical)

/-! ### A canonical text has no blank -/

namespace Text

theorem IsNames.isBlank_eq_false {s : Text} (h : IsNames s) : ∀ c ∈ s, isBlank c = false := by
  induction h with
  | single hs => exact hs.isBlank_eq_false
  | comma hs _ ih =>
      exact List.forall_mem_append.mpr
        ⟨hs.isBlank_eq_false, List.forall_mem_cons.mpr ⟨rfl, ih⟩⟩

theorem IsGroup.isBlank_eq_false {b : Bool} {s : Text} (h : IsGroup b s) :
    ∀ c ∈ s, isBlank c = false := by
  cases h with
  | bare hs => exact hs.isBlank_eq_false
  | braced hs =>
      exact List.forall_mem_cons.mpr
        ⟨rfl, List.forall_mem_append.mpr ⟨hs.isBlank_eq_false, by simp; rfl⟩⟩

theorem IsSection.isBlank_eq_false {b : Bool} {s : Text} (h : IsSection b s) :
    ∀ c ∈ s, isBlank c = false := by
  induction h with
  | single hs => exact hs.isBlank_eq_false
  | pipe hs _ ih =>
      exact List.forall_mem_append.mpr
        ⟨hs.isBlank_eq_false, List.forall_mem_cons.mpr ⟨rfl, ih⟩⟩
  | beside hs _ _ ih => exact List.forall_mem_append.mpr ⟨hs.isBlank_eq_false, ih⟩

theorem IsSections.isBlank_eq_false {s : Text} (h : IsSections s) :
    ∀ c ∈ s, isBlank c = false := by
  induction h with
  | single hs => exact hs.isBlank_eq_false
  | divided hc hs _ ih =>
      refine List.forall_mem_append.mpr
        ⟨hs.isBlank_eq_false, List.forall_mem_cons.mpr ⟨?_, ih⟩⟩
      rcases hc with rfl | rfl <;> rfl

theorem IsCanonical.isBlank_eq_false {s : Text} (h : IsCanonical s) :
    ∀ c ∈ s, isBlank c = false := by
  rcases h with rfl | h
  · exact List.forall_mem_nil _
  · exact h.isBlank_eq_false

end Text

/-! ### What is written is canonical -/

theorem Text.isNames_join {names : List ToolName} (hne : names ≠ [])
    (hnames : ∀ n ∈ names, IsName n) : IsNames (join [','] names) := by
  induction names with
  | nil => exact absurd rfl hne
  | cons n names ih =>
      have hn : IsName n := hnames n (by simp)
      cases names with
      | nil =>
          rw [join, List.intercalate_singleton]
          exact .single hn
      | cons m names =>
          have htail := ih (by simp) fun x hx => hnames x (List.mem_cons_of_mem _ hx)
          rw [join, List.intercalate_cons_cons, List.append_assoc, List.singleton_append]
          exact .comma hn htail

namespace Group

theorem isGroup_write {g : Group} (hne : g.tools ≠ []) (hnames : ∀ n ∈ g.tools, IsName n) :
    IsGroup g.braced g.write := by
  have hjoin := Text.isNames_join hne hnames
  unfold write
  cases g.braced with
  | true => exact .braced hjoin
  | false => exact .bare hjoin

theorem isSection_writeAll {g : Group} {groups : List Group}
    (hne : ∀ h ∈ g :: groups, h.tools ≠ []) (hnames : ∀ h ∈ g :: groups, ∀ n ∈ h.tools, IsName n)
    (hchain : (g :: groups).IsChain fun g h => g.continues h = false) :
    IsSection g.braced (writeAll (g :: groups)) := by
  induction groups generalizing g with
  | nil => exact .single (isGroup_write (hne g (by simp)) (hnames g (by simp)))
  | cons h groups ih =>
      rw [List.isChain_cons_cons] at hchain
      have hg : IsGroup g.braced g.write := isGroup_write (hne g (by simp)) (hnames g (by simp))
      have htail := ih (fun x hx => hne x (List.mem_cons_of_mem _ hx))
        (fun x hx => hnames x (List.mem_cons_of_mem _ hx)) hchain.2
      rw [writeAll, List.append_assoc, between]
      cases hj : h.joint with
      | pipe => exact .pipe hg htail
      | adjacent =>
          have hbraced : g.braced = true ∨ h.braced = true := by
            have hcont := hchain.1
            rw [continues, hj] at hcont
            cases hb : g.braced <;> simp_all
          rw [if_pos (by simpa using hbraced)]
          exact .beside hg htail hbraced

end Group

theorem Section.IsCompact.isSection_write {s : Section} (hs : s.IsCompact)
    (hnames : ∀ n ∈ s.tools, IsName n) : ∃ b, IsSection b (Group.writeAll s.groups) := by
  obtain ⟨hgroups, hne, -, hchain⟩ := hs
  obtain ⟨g, groups, hs⟩ := List.exists_cons_of_ne_nil hgroups
  rw [hs] at hne hchain ⊢
  refine ⟨g.braced, Group.isSection_writeAll hne ?_ hchain⟩
  intro h hh n hn
  exact hnames n (List.mem_flatMap.mpr ⟨h, hs ▸ hh, hn⟩)

theorem Section.isSections_write {s : Section} {sections : List Section}
    (hs : ∀ x ∈ s :: sections, x.IsCompact) (hnames : ∀ x ∈ s :: sections, ∀ n ∈ x.tools, IsName n)
    (hdividers : ∀ x ∈ sections, x.divider ≠ none) :
    IsSections (Group.writeAll s.groups ++ sections.flatMap write) := by
  induction sections generalizing s with
  | nil =>
      obtain ⟨b, hb⟩ := (hs s (by simp)).isSection_write (hnames s (by simp))
      rw [List.flatMap_nil, List.append_nil]
      exact .single hb
  | cons x sections ih =>
      obtain ⟨b, hb⟩ := (hs s (by simp)).isSection_write (hnames s (by simp))
      obtain ⟨d, hd⟩ := Option.ne_none_iff_exists'.mp (hdividers x (by simp))
      have htail := ih (fun y hy => hs y (List.mem_cons_of_mem _ hy))
        (fun y hy => hnames y (List.mem_cons_of_mem _ hy))
        (fun y hy => hdividers y (List.mem_cons_of_mem _ hy))
      rw [flatMap_write_cons hd]
      exact .divided (by cases d <;> simp [Divider.toChar]) hb htail

namespace Toolbar

theorem isCanonical_write {t : Toolbar} (hc : t.IsCompact) (ht : t.WellFormed) :
    IsCanonical t.write := by
  obtain ⟨sections⟩ := t
  cases sections with
  | nil => exact .inl rfl
  | cons s sections =>
      rw [write_cons (hc.first_divider s rfl)]
      exact .inr (Section.isSections_write hc.sections (fun x hx n hn =>
        ht.names n (mem_tools_iff_exists_section.mpr ⟨x, hx, hn⟩)) ht.dividers)

theorem isCanonical_toText {t : Toolbar} (ht : t.WellFormed) : IsCanonical t.toText :=
  isCanonical_write t.isCompact_compact ht.compact

end Toolbar

/-! ### A canonical text is written of some toolbar -/

namespace Text

theorem IsNames.exists_join {s : Text} (h : IsNames s) :
    ∃ names : List ToolName, names ≠ [] ∧ (∀ n ∈ names, IsName n) ∧ join [','] names = s := by
  induction h with
  | single hs => exact ⟨[_], by simp, by simpa using hs, List.intercalate_singleton⟩
  | @comma s t hs _ ih =>
      obtain ⟨names, hne, hnames, rfl⟩ := ih
      obtain ⟨m, names, rfl⟩ := List.exists_cons_of_ne_nil hne
      refine ⟨s :: m :: names, by simp, List.forall_mem_cons.mpr ⟨hs, hnames⟩, ?_⟩
      rw [join, List.intercalate_cons_cons, List.append_assoc, List.singleton_append, ← join]

theorem IsGroup.exists_write {b : Bool} {s : Text} (h : IsGroup b s) (j : Joint) :
    ∃ g : Group, g.braced = b ∧ g.joint = j ∧ g.tools ≠ [] ∧ (∀ n ∈ g.tools, IsName n) ∧
      g.write = s := by
  cases h with
  | bare h =>
      obtain ⟨names, hne, hnames, rfl⟩ := h.exists_join
      exact ⟨⟨false, j, names⟩, rfl, rfl, hne, hnames, rfl⟩
  | braced h =>
      obtain ⟨names, hne, hnames, rfl⟩ := h.exists_join
      exact ⟨⟨true, j, names⟩, rfl, rfl, hne, hnames, rfl⟩

theorem IsSection.exists_writeAll {b : Bool} {s : Text} (h : IsSection b s) (j : Joint) :
    ∃ (g : Group) (groups : List Group), g.braced = b ∧ g.joint = j ∧
      (∀ x ∈ g :: groups, x.tools ≠ [] ∧ ∀ n ∈ x.tools, IsName n) ∧
      (g :: groups).IsChain (fun g h => g.continues h = false) ∧
      Group.writeAll (g :: groups) = s := by
  induction h generalizing j with
  | single hs =>
      obtain ⟨g, hbraced, hjoint, hne, hnames, rfl⟩ := hs.exists_write j
      exact ⟨g, [], hbraced, hjoint, by simpa using ⟨hne, hnames⟩, .singleton g, rfl⟩
  | pipe hs _ ih =>
      obtain ⟨g, hbraced, hjoint, hne, hnames, rfl⟩ := hs.exists_write j
      obtain ⟨h, groups, -, hpipe, htools, hchain, rfl⟩ := ih .pipe
      refine ⟨g, h :: groups, hbraced, hjoint, List.forall_mem_cons.mpr ⟨⟨hne, hnames⟩, htools⟩,
        .cons_cons (by simp [Group.continues, hpipe]) hchain, ?_⟩
      simp [Group.writeAll, Group.between, hpipe]
  | beside hs _ hbeside ih =>
      obtain ⟨g, hbraced, hjoint, hne, hnames, rfl⟩ := hs.exists_write j
      obtain ⟨h, groups, hbraced', hadj, htools, hchain, rfl⟩ := ih .adjacent
      rw [← hbraced, ← hbraced'] at hbeside
      refine ⟨g, h :: groups, hbraced, hjoint, List.forall_mem_cons.mpr ⟨⟨hne, hnames⟩, htools⟩,
        .cons_cons ?_ hchain, ?_⟩
      · rcases hbeside with hb | hb <;> simp [Group.continues, hb]
      · simp [Group.writeAll, Group.between, hadj, hbeside]

theorem IsSection.exists_isCompact {b : Bool} {s : Text} (h : IsSection b s) (d : Option Divider) :
    ∃ x : Section, x.divider = d ∧ x.IsCompact ∧ (∀ n ∈ x.tools, IsName n) ∧
      Group.writeAll x.groups = s := by
  obtain ⟨g, groups, -, hpipe, htools, hchain, rfl⟩ := h.exists_writeAll .pipe
  refine ⟨⟨d, g :: groups⟩, rfl,
    ⟨by simp, fun x hx => (htools x hx).1, by simpa using hpipe, hchain⟩, ?_, rfl⟩
  intro n hn
  obtain ⟨x, hx, hn⟩ := List.mem_flatMap.mp hn
  exact (htools x hx).2 n hn

theorem IsSections.exists_write {s : Text} (h : IsSections s) (d : Option Divider) :
    ∃ (x : Section) (sections : List Section), x.divider = d ∧
      (∀ y ∈ x :: sections, y.IsCompact ∧ ∀ n ∈ y.tools, IsName n) ∧
      (∀ y ∈ sections, y.divider ≠ none) ∧
      Group.writeAll x.groups ++ sections.flatMap Section.write = s := by
  induction h generalizing d with
  | single hs =>
      obtain ⟨x, hd, hx, hnames, rfl⟩ := hs.exists_isCompact d
      exact ⟨x, [], hd, by simpa using ⟨hx, hnames⟩, by simp, by simp⟩
  | @divided _ c _ _ hc hs _ ih =>
      obtain ⟨d', rfl⟩ : ∃ d' : Divider, d'.toChar = c := by
        rcases hc with rfl | rfl
        · exact ⟨.hash, rfl⟩
        · exact ⟨.slash, rfl⟩
      obtain ⟨x, hd, hx, hnames, rfl⟩ := hs.exists_isCompact d
      obtain ⟨y, sections, hd', hsections, hdividers, rfl⟩ := ih (some d')
      refine ⟨x, y :: sections, hd, List.forall_mem_cons.mpr ⟨⟨hx, hnames⟩, hsections⟩,
        List.forall_mem_cons.mpr ⟨by simp [hd'], hdividers⟩, ?_⟩
      simp [Section.write, hd']

theorem IsCanonical.exists_write {s : Text} (h : IsCanonical s) :
    ∃ t : Toolbar, t.IsCompact ∧ t.WellFormed ∧ t.write = s := by
  rcases h with rfl | h
  · exact ⟨⟨[]⟩, ⟨by simp, by simp⟩, ⟨by simp, by simp⟩, rfl⟩
  · obtain ⟨x, sections, hd, hsections, hdividers, rfl⟩ := h.exists_write none
    refine ⟨⟨x :: sections⟩, ⟨fun y hy => (hsections y hy).1, by simpa using hd⟩,
      ⟨?_, hdividers⟩, by simp [Toolbar.write, Section.write, hd]⟩
    intro n hn
    obtain ⟨y, hy, hn⟩ := Toolbar.mem_tools_iff_exists_section.mp hn
    exact (hsections y hy).2 n hn

end Text

/-- Reading and writing leave a text alone exactly when it is canonical. -/
theorem Toolbar.toText_ofText_eq_self_iff (s : Text) : (ofText s).toText = s ↔ IsCanonical s := by
  constructor
  · intro h
    rw [← h]
    exact isCanonical_toText (wellFormed_ofText s)
  · intro h
    obtain ⟨t, hc, ht, rfl⟩ := h.exists_write
    have htext : t.toText = t.write := by rw [toText, hc.compact_eq]
    rw [← htext]
    exact toText_ofText_toText ht

instance : DecidablePred IsCanonical := fun s =>
  decidable_of_iff _ (Toolbar.toText_ofText_eq_self_iff s)

example : IsCanonical "a,b{c}{d}|e/f#g".toList ∧ ¬ IsCanonical "{a,b}/|c".toList := by decide

end EditorToolbar

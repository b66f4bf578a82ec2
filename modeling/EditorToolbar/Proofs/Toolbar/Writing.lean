import EditorToolbar.Proofs.Toolbar.WellFormed
import EditorToolbar.Toolbar.Writing

/-!
# Reading what has been written

A compact, well-formed toolbar is written so that its layout can be read off the text again
(`layout_ofText_write`). Each group leaves its tools, and around them the seams of its braces; what
stands between two groups makes up for the rest of the joint. So reading the text of any well-formed
toolbar gives that toolbar back, up to compaction (`compact_ofText_toText`).
-/

namespace EditorToolbar

open Token (IsName isNameChar tokenize)

/-- The gaps and tools that a text describes. -/
def Text.marks (inBraces : Bool) (s : Text) : List Mark := Token.marks inBraces (tokenize s)

namespace Text

/-- Whether a text may follow a name without becoming part of it. -/
def EndsName (r : Text) : Prop := r.head?.any isNameChar = false

theorem marks_name_append {name r : Text} (hname : IsName name) (hr : EndsName r)
    (inBraces : Bool) : marks inBraces (name ++ r) = .tool inBraces name :: marks inBraces r := by
  rw [marks, Token.tokenize_name_append hname.1 hname.2 hr]
  rfl

/-- Between the names of a group there are commas, which leave no gap. -/
theorem marks_join_append {names : List ToolName} (hne : names ≠ [])
    (hnames : ∀ n ∈ names, IsName n) {r : Text} (hr : EndsName r) (inBraces : Bool) :
    marks inBraces (join [','] names ++ r) =
      names.map (.tool inBraces) ++ marks inBraces r := by
  induction names with
  | nil => exact absurd rfl hne
  | cons n names ih =>
      have hn : IsName n := hnames n (by simp)
      cases names with
      | nil =>
          rw [join, List.intercalate_singleton, marks_name_append hn hr]
          rfl
      | cons m names =>
          have htail := ih (by simp) fun x hx => hnames x (List.mem_cons_of_mem _ hx)
          have hcomma : ∀ s : Text, marks inBraces (',' :: s) = marks inBraces s := fun _ => rfl
          have hends : ∀ s : Text, EndsName (',' :: s) := fun _ => rfl
          rw [join, List.intercalate_cons_cons, List.append_assoc, List.append_assoc,
            List.singleton_append, marks_name_append hn (hends _), hcomma, ← join, htail]
          rfl

end Text

namespace Group

/-- What reading a written group leaves: its tools and the seams of its braces. -/
def writeMarks (g : Group) : List Mark :=
  if g.braced then .gap .seam :: g.tools.map (.tool true) ++ [.gap .seam]
  else g.tools.map (.tool false)

/-- The gap that a written group leaves behind it. -/
def after (g : Group) : Gap := if g.braced then .seam else .within

/-- What is written after a group in its section. -/
def writeTail (g : Group) : List Group → Text
  | [] => []
  | h :: rest => g.between h ++ writeAll (h :: rest)

@[simp] theorem writeTail_nil (g : Group) : g.writeTail [] = [] := rfl

theorem writeAll_cons (g : Group) (groups : List Group) :
    writeAll (g :: groups) = g.write ++ g.writeTail groups := by
  cases groups with
  | nil => simp [writeAll]
  | cons h groups => simp [writeAll, writeTail]

theorem writeTail_cons (g h : Group) (groups : List Group) :
    g.writeTail (h :: groups) = g.between h ++ (h.write ++ h.writeTail groups) := by
  rw [writeTail, writeAll_cons]

variable {r : Text} {rest : List Mark}

theorem marks_write_append {g : Group} (hne : g.tools ≠ []) (hnames : ∀ n ∈ g.tools, IsName n)
    (hr : g.braced = true ∨ r.EndsName) :
    Text.marks false (g.write ++ r) = g.writeMarks ++ Text.marks false r := by
  cases hb : g.braced with
  | true =>
      have hopen : ∀ s : Text, Text.marks false ('{' :: s) = .gap .seam :: Text.marks true s :=
        fun _ => rfl
      have hclose : ∀ s : Text, Text.marks true ('}' :: s) = .gap .seam :: Text.marks false s :=
        fun _ => rfl
      have hjoin := Text.marks_join_append hne hnames (r := '}' :: r) rfl true
      simp only [write, writeMarks, hb, if_true, List.cons_append, List.append_assoc, hopen, hjoin,
        hclose, List.nil_append]
  | false =>
      have hends : r.EndsName := by simpa [hb] using hr
      simpa [write, writeMarks, hb] using Text.marks_join_append hne hnames hends false

/-- A written group, placed: the gap before it becomes at least a seam if there are braces. -/
theorem place_writeMarks {g : Group} {n : ToolName} {ns : List ToolName} (hg : g.tools = n :: ns)
    (p : Gap) (l : List Mark) :
    Mark.place p (g.writeMarks ++ l) =
      ⟨if g.braced then p.combine .seam else p, g.braced, n⟩ ::
        ns.map (fun m => ⟨.within, g.braced, m⟩) ++ Mark.place g.after l := by
  cases hb : g.braced with
  | true =>
      simp only [writeMarks, after, hb, if_true, List.cons_append, List.append_assoc, hg,
        Mark.place_gap, Mark.place_tools_append, Gap.within_combine, List.nil_append]
  | false =>
      simp only [writeMarks, after, hb, Bool.false_eq_true, if_false, hg, Mark.place_tools_append]

/-- What follows a group of a section begins with a separator, unless the group is braced. -/
theorem endsName_writeTail (hr : r.EndsName) (g : Group) (groups : List Group) :
    g.braced = true ∨ (g.writeTail groups ++ r).EndsName := by
  cases groups with
  | nil => exact .inr hr
  | cons h groups =>
      cases hg : g.braced with
      | true => exact .inl rfl
      | false =>
          right
          rw [writeTail_cons, between, Text.EndsName]
          cases h.joint with
          | pipe => rfl
          | adjacent =>
              cases hh : h.braced with
              | true =>
                  rw [write, hg, hh]
                  rfl
              | false =>
                  rw [hg]
                  rfl

/-- What stands between two groups of a compact section, together with their braces, amounts to the
joint of the second one. -/
theorem exists_place_between {g h : Group} (hc : g.continues h = false) (s : Text) :
    ∃ q, Mark.place g.after (Text.marks false (g.between h ++ s)) =
        Mark.place q (Text.marks false s) ∧
      (if h.braced then q.combine .seam else q) = h.joint.gap := by
  unfold continues at hc
  unfold between after
  cases hj : h.joint with
  | pipe =>
      refine ⟨.pipe, ?_, by cases h.braced <;> rfl⟩
      cases g.braced <;> rfl
  | adjacent =>
      cases hg : g.braced with
      | true => exact ⟨.seam, rfl, by cases h.braced <;> rfl⟩
      | false =>
          have hh : h.braced = true := by simpa [hj, hg] using hc
          rw [hh]
          exact ⟨.within, rfl, rfl⟩

theorem place_writeTail (hr : r.EndsName)
    (hrest : ∀ g, g = .within ∨ g = .seam →
      Mark.place g (Text.marks false r) = Mark.place .within rest) {g : Group}
    {groups : List Group} (hne : ∀ h ∈ groups, h.tools ≠ [])
    (hnames : ∀ h ∈ groups, ∀ n ∈ h.tools, IsName n)
    (hchain : (g :: groups).IsChain fun g h => g.continues h = false) :
    Mark.place g.after (Text.marks false (g.writeTail groups ++ r)) =
      Mark.place .within (groups.flatMap marks ++ rest) := by
  induction groups generalizing g with
  | nil =>
      refine hrest g.after ?_
      unfold after
      cases g.braced <;> simp
  | cons h groups ih =>
      rw [List.isChain_cons_cons] at hchain
      obtain ⟨n, ns, hh⟩ := List.exists_cons_of_ne_nil (hne h (by simp))
      have htail := ih (fun x hx => hne x (List.mem_cons_of_mem _ hx))
        (fun x hx => hnames x (List.mem_cons_of_mem _ hx)) hchain.2
      obtain ⟨q, hplace, hq⟩ :=
        exists_place_between hchain.1 (h.write ++ (h.writeTail groups ++ r))
      rw [writeTail_cons, List.append_assoc, List.append_assoc, hplace,
        marks_write_append (hne h (by simp)) (hnames h (by simp)) (endsName_writeTail hr h groups),
        place_writeMarks hh, hq, htail, List.flatMap_cons, List.append_assoc, place_marks hh,
        Gap.within_combine]

end Group

namespace Section

variable {r : Text} {rest : List Mark}

theorem place_writeAll {s : Section} (hs : s.IsCompact) (hnames : ∀ n ∈ s.tools, IsName n)
    (hr : r.EndsName) (hrest : ∀ g, g = .within ∨ g = .seam →
      Mark.place g (Text.marks false r) = Mark.place .within rest) (d : Option Divider) :
    Mark.place (.divided d) (Text.marks false (Group.writeAll s.groups ++ r)) =
      Mark.place (.divided d) (s.groups.flatMap Group.marks ++ rest) := by
  obtain ⟨hgroups, hne, -, hchain⟩ := hs
  obtain ⟨g, groups, hs⟩ := List.exists_cons_of_ne_nil hgroups
  have hnames' : ∀ h ∈ g :: groups, ∀ n ∈ h.tools, IsName n := by
    intro h hh n hn
    exact hnames n (List.mem_flatMap.mpr ⟨h, hs ▸ hh, hn⟩)
  rw [hs] at hne hchain ⊢
  obtain ⟨n, ns, hg⟩ := List.exists_cons_of_ne_nil (hne g (by simp))
  have htail := Group.place_writeTail hr hrest (fun x hx => hne x (List.mem_cons_of_mem _ hx))
    (fun x hx => hnames' x (List.mem_cons_of_mem _ hx)) hchain
  have hseam : (if g.braced then Gap.combine (.divided d) .seam else .divided d) =
      .divided d := by
    cases g.braced <;> rfl
  rw [Group.writeAll_cons, List.append_assoc,
    Group.marks_write_append (hne g (by simp)) (hnames' g (by simp))
      (Group.endsName_writeTail hr g groups),
    Group.place_writeMarks hg, hseam, htail, List.flatMap_cons, List.append_assoc,
    Group.place_marks hg, Gap.divided_combine_joint]

theorem flatMap_write_cons {s : Section} {d : Divider} (hd : s.divider = some d)
    (sections : List Section) :
    (s :: sections).flatMap write =
      d.toChar :: (Group.writeAll s.groups ++ sections.flatMap write) := by
  simp [write, hd]

/-- The later sections of a compact, well-formed toolbar are written so that they can be read
again. -/
theorem endsName_and_place_write {sections : List Section} (hs : ∀ s ∈ sections, s.IsCompact)
    (hnames : ∀ s ∈ sections, ∀ n ∈ s.tools, IsName n)
    (hdividers : ∀ s ∈ sections, s.divider ≠ none) :
    Text.EndsName (sections.flatMap write) ∧ ∀ g, g = .within ∨ g = .seam →
      Mark.place g (Text.marks false (sections.flatMap write)) =
        Mark.place .within (sections.flatMap marks) := by
  induction sections with
  | nil => exact ⟨rfl, fun g _ => rfl⟩
  | cons s sections ih =>
      obtain ⟨hends, hplace⟩ := ih (fun x hx => hs x (List.mem_cons_of_mem _ hx))
        (fun x hx => hnames x (List.mem_cons_of_mem _ hx))
        (fun x hx => hdividers x (List.mem_cons_of_mem _ hx))
      obtain ⟨d, hd⟩ := Option.ne_none_iff_exists'.mp (hdividers s (by simp))
      have hmarks : ∀ t : Text, Text.marks false (d.toChar :: t) =
          .gap (.divided (some d)) :: Text.marks false t := by
        intro t
        cases d <;> rfl
      rw [flatMap_write_cons hd]
      refine ⟨by cases d <;> rfl, fun g hg => ?_⟩
      have hgap : g.combine (.divided (some d)) = .divided (some d) := by
        rcases hg with rfl | rfl <;> rfl
      rw [hmarks, Mark.place_gap, hgap,
        place_writeAll (hs s (by simp)) (hnames s (by simp)) hends hplace, List.flatMap_cons,
        marks, List.cons_append, Mark.place_gap, hd, Gap.within_combine]

end Section

namespace Toolbar

theorem write_cons {s : Section} (hs : s.divider = none) (sections : List Section) :
    write ⟨s :: sections⟩ = Group.writeAll s.groups ++ sections.flatMap Section.write := by
  simp [write, Section.write, hs]

theorem layout_ofText_write {t : Toolbar} (hc : t.IsCompact) (ht : t.WellFormed) :
    (ofText t.write).layout = t.layout := by
  have hlayout : (ofText t.write).layout = Mark.place .start (Text.marks false t.write) :=
    layout_ofTokens _
  rw [hlayout]
  obtain ⟨sections⟩ := t
  obtain ⟨hsections, hfirst⟩ := hc
  obtain ⟨hnames, hdividers⟩ := ht
  cases sections with
  | nil => rfl
  | cons s sections =>
      have hmem : ∀ x ∈ s :: sections, ∀ n ∈ x.tools, IsName n := fun x hx n hn =>
        hnames n (mem_tools_iff_exists_section.mpr ⟨x, hx, hn⟩)
      obtain ⟨hends, hplace⟩ := Section.endsName_and_place_write
        (fun x hx => hsections x (List.mem_cons_of_mem _ hx))
        (fun x hx => hmem x (List.mem_cons_of_mem _ hx)) hdividers
      rw [write_cons (hfirst s rfl), layout, marks, List.flatMap_cons, Section.marks,
        List.cons_append, Mark.place_gap, Gap.start_combine]
      exact Section.place_writeAll (hsections s (by simp)) (hmem s (by simp)) hends hplace _

theorem toText_eq_of_compact_eq {t u : Toolbar} (h : t.compact = u.compact) :
    t.toText = u.toText := by
  rw [toText, h, ← toText]

theorem toText_compact (t : Toolbar) : t.compact.toText = t.toText :=
  toText_eq_of_compact_eq t.isCompact_compact.compact_eq

/-- Reading the text of a well-formed toolbar gives the toolbar back, up to compaction. -/
theorem compact_ofText_toText {t : Toolbar} (ht : t.WellFormed) :
    (ofText t.toText).compact = t.compact := by
  have hlayout := layout_ofText_write t.isCompact_compact ht.compact
  rw [toText, compact_eq_compact_of_layout_eq hlayout, t.isCompact_compact.compact_eq]

theorem tools_ofText_toText {t : Toolbar} (ht : t.WellFormed) :
    (ofText t.toText).tools = t.tools := by
  rw [← tools_compact, compact_ofText_toText ht, tools_compact]

end Toolbar

end EditorToolbar

import EditorToolbar.Proofs.Toolbar.CompactForm
import EditorToolbar.Proofs.Toolbar.Layout

/-!
# Compaction and layouts

Compaction keeps the fused layout of a toolbar (`fuseFrom_layout_compact`): each of its steps passes
gaps on, or removes a seam between bare tools, or changes what the strongest gap absorbs anyway. A
compact toolbar has a layout that is fused already (`IsCompact.fuseFrom_layout`) and is determined
by it (`IsCompact.ext_layout`). Together these say when two toolbars compact to the same one,
`compact_eq_compact_iff`: exactly when their fused layouts agree.
-/

namespace EditorToolbar

open Placed (fuseFrom)

/-! ### What compaction does to the layout -/

namespace Gap

/-- The divider that a gap has. -/
def divider? : Gap → Option Divider
  | divided d => d
  | _ => none

theorem combine_divided (g : Gap) (d : Option Divider) :
    g.combine (divided d) = divided (Divider.combine? g.divider? d) := by
  cases g <;> simp [combine, divider?]

@[simp] theorem divided_combine_joint (d : Option Divider) (j : Joint) :
    combine (divided d) j.gap = divided d := by
  cases j <;> rfl

@[simp] theorem joint_combine_divided (j : Joint) (d : Option Divider) :
    combine j.gap (divided d) = divided d := by
  cases j <;> rfl

@[simp] theorem divided_none_combine (d : Option Divider) :
    combine (divided none) (divided d) = divided d := by
  simp

end Gap

namespace Mark

/-- Before something that begins with a section, a joint is of no effect. -/
def OpensSection (rest : List Mark) : Prop :=
  rest = [] ∨ ∃ d more, rest = gap (.divided d) :: more

theorem OpensSection.place_combine {rest : List Mark} (h : OpensSection rest) (g : Gap)
    (j : Joint) : place (g.combine j.gap) rest = place g rest := by
  rcases h with rfl | ⟨d, more, rfl⟩
  · rfl
  · rw [place_gap, place_gap, Gap.combine_assoc, Gap.joint_combine_divided]

theorem opensSection_sections (sections : List Section) :
    OpensSection (sections.flatMap Section.marks) := by
  cases sections with
  | nil => exact .inl rfl
  | cons s sections => exact .inr ⟨s.divider, _, rfl⟩

theorem fuseFrom_place_append_congr {r s : List Mark}
    (h : ∀ b g, fuseFrom b (place g r) = fuseFrom b (place g s)) (before : Bool) (pending : Gap)
    (marks : List Mark) :
    fuseFrom before (place pending (marks ++ r)) =
      fuseFrom before (place pending (marks ++ s)) := by
  induction marks generalizing before pending with
  | nil => exact h before pending
  | cons m marks ih => cases m <;> simp [ih]

theorem fuseFrom_place_tools_append (before : Bool) (pending : Gap) (braced : Bool)
    (name : ToolName) (names : List ToolName) (rest : List Mark) :
    fuseFrom before (place pending ((name :: names).map (tool braced) ++ rest)) =
      ⟨pending.fuse before braced, braced, name⟩ ::
        names.map (fun n => ⟨.within, braced, n⟩) ++ fuseFrom braced (place .within rest) := by
  induction names generalizing before pending name with
  | nil => rfl
  | cons n names ih =>
      have hwithin : Gap.fuse braced braced .within = .within := Gap.fuse_of_ne _ _ (by simp)
      have htail := ih braced .within n
      rw [hwithin] at htail
      rw [List.map_cons, List.cons_append, place_tool, Placed.fuseFrom_cons, htail]
      rfl

/-- Between two bare lists a seam fuses to nothing. -/
theorem fuseFrom_place_bare (before : Bool) (pending : Gap) {l m : List ToolName} (hl : l ≠ [])
    (hm : m ≠ []) (rest : List Mark) :
    fuseFrom before
        (place pending (l.map (tool false) ++ gap .seam :: (m.map (tool false) ++ rest))) =
      fuseFrom before (place pending ((l ++ m).map (tool false) ++ rest)) := by
  obtain ⟨n, ns, rfl⟩ := List.exists_cons_of_ne_nil hl
  obtain ⟨k, ks, rfl⟩ := List.exists_cons_of_ne_nil hm
  have hseam : fuseFrom false (place .seam ((k :: ks).map (tool false) ++ rest)) =
      fuseFrom false (place .within ((k :: ks).map (tool false) ++ rest)) := by
    rw [fuseFrom_place_tools_append, fuseFrom_place_tools_append]
    rfl
  have htail : fuseFrom false (place .within (gap .seam :: ((k :: ks).map (tool false) ++ rest))) =
      fuseFrom false (place .within ((k :: ks).map (tool false) ++ rest)) := hseam
  rw [List.map_append, List.append_assoc, fuseFrom_place_tools_append, htail,
    ← fuseFrom_place_tools_append]

end Mark

namespace Group

variable {rest : List Mark}

theorem place_combine_seam (h : Mark.OpensSection rest) (g : Gap) (groups : List Group) :
    Mark.place (g.combine .seam) (groups.flatMap marks ++ rest) =
      Mark.place g (groups.flatMap marks ++ rest) := by
  cases groups with
  | nil => exact h.place_combine g .adjacent
  | cons x groups =>
      have hjoint : Gap.seam.combine x.joint.gap = x.joint.gap := by cases x.joint <;> rfl
      rw [List.flatMap_cons, List.append_assoc, marks, List.cons_append, Mark.place_gap,
        Mark.place_gap, Gap.combine_assoc, hjoint]

/-- Dropping empty groups passes their joints on. -/
theorem place_dropEmpty (h : Mark.OpensSection rest) (g : Gap) (pending : Joint)
    (groups : List Group) :
    Mark.place g ((dropEmpty pending groups).flatMap marks ++ rest) =
      Mark.place (g.combine pending.gap) (groups.flatMap marks ++ rest) := by
  induction groups generalizing g pending with
  | nil => exact (h.place_combine g pending).symm
  | cons x groups ih =>
      by_cases hx : x.tools = []
      · have hmarks : x.marks = [.gap x.joint.gap] := by simp [marks, hx]
        rw [dropEmpty_cons_of_empty pending hx, ih, List.flatMap_cons, hmarks, List.append_assoc,
          List.singleton_append, Mark.place_gap, Joint.gap_combine, Gap.combine_assoc]
      · have hrest : ∀ g, Mark.place g ((dropEmpty .adjacent groups).flatMap marks ++ rest) =
            Mark.place g (groups.flatMap marks ++ rest) :=
          fun g => (ih g .adjacent).trans (place_combine_seam h g groups)
        rw [dropEmpty_cons_of_ne_nil pending hx, List.flatMap_cons, List.append_assoc,
          List.flatMap_cons, List.append_assoc, Mark.place_append_congr hrest]
        simp only [marks, List.cons_append, Mark.place_gap, Joint.gap_combine, Gap.combine_assoc]

/-- Merging bare groups removes seams that fusing removes anyway. -/
theorem fuseFrom_place_mergeBare {groups : List Group} (hne : ∀ g ∈ groups, g.tools ≠ [])
    (before : Bool) (pending : Gap) :
    fuseFrom before (Mark.place pending ((mergeBare groups).flatMap marks ++ rest)) =
      fuseFrom before (Mark.place pending (groups.flatMap marks ++ rest)) := by
  induction groups generalizing before pending with
  | nil => rfl
  | cons x groups ih =>
      have hx : x.tools ≠ [] := hne x (by simp)
      have hne' : ∀ g ∈ groups, g.tools ≠ [] := fun g hg => hne g (List.mem_cons_of_mem _ hg)
      have hgroups := fun b g => (ih hne' b g).symm
      rw [List.flatMap_cons, List.append_assoc, Mark.fuseFrom_place_append_congr hgroups, mergeBare]
      cases hm : mergeBare groups with
      | nil => rw [List.flatMap_singleton, List.flatMap_nil, List.nil_append]
      | cons y more =>
          dsimp only
          split
          · next hcont =>
              have hy : y.tools ≠ [] := tools_ne_nil_of_mem_mergeBare hne' (hm ▸ List.mem_cons_self)
              obtain ⟨hjoint, hbx, hby⟩ := (continues_iff x y).mp hcont
              have hseam := fun g => Mark.fuseFrom_place_bare before g hx hy
                (more.flatMap marks ++ rest)
              simp only [List.flatMap_cons, marks, hjoint, hbx, hby, List.append_assoc,
                List.cons_append, Mark.place_gap, Joint.gap]
              exact (hseam _).symm
          · rw [List.flatMap_cons, List.append_assoc]

theorem place_attachFirst (d : Option Divider) (groups : List Group) :
    Mark.place (.divided d) ((attachFirst groups).flatMap marks ++ rest) =
      Mark.place (.divided d) (groups.flatMap marks ++ rest) := by
  cases groups with
  | nil => rfl
  | cons x groups =>
      have hpipe := Gap.divided_combine_joint d .pipe
      simp only [attachFirst, List.flatMap_cons, marks, List.cons_append, Mark.place_gap,
        Gap.divided_combine_joint]

theorem fuseFrom_place_compact (h : Mark.OpensSection rest) (before : Bool) (d : Option Divider)
    (groups : List Group) :
    fuseFrom before (Mark.place (.divided d) ((compact groups).flatMap marks ++ rest)) =
      fuseFrom before (Mark.place (.divided d) (groups.flatMap marks ++ rest)) := by
  rw [compact, place_attachFirst,
    fuseFrom_place_mergeBare (fun g hg => tools_ne_nil_of_mem_dropEmpty hg), place_dropEmpty h,
    Gap.divided_combine_joint]

end Group

namespace Section

theorem fuseFrom_place_map_compact (before : Bool) (g : Gap) (sections : List Section) :
    fuseFrom before (Mark.place g
        ((sections.map fun s => { s with groups := Group.compact s.groups }).flatMap marks)) =
      fuseFrom before (Mark.place g (sections.flatMap marks)) := by
  induction sections generalizing before g with
  | nil => rfl
  | cons s sections ih =>
      rw [List.map_cons, List.flatMap_cons, List.flatMap_cons,
        Mark.fuseFrom_place_append_congr ih]
      simp only [marks, List.cons_append, Mark.place_gap, Gap.combine_divided]
      exact Group.fuseFrom_place_compact (Mark.opensSection_sections sections) _ _ _

/-- Dropping empty sections passes their dividers on. -/
theorem place_dropEmpty (g : Gap) (pending : Option Divider) (sections : List Section) :
    Mark.place g ((dropEmpty pending sections).flatMap marks) =
      Mark.place (g.combine (.divided pending)) (sections.flatMap marks) := by
  induction sections generalizing g pending with
  | nil => rfl
  | cons s sections ih =>
      rw [dropEmpty]
      split
      · next h =>
          have hmarks : s.marks = [.gap (.divided s.divider)] := by
            rw [marks, List.isEmpty_iff.mp h, List.flatMap_nil]
          rw [ih, List.flatMap_cons, hmarks, List.singleton_append, Mark.place_gap,
            Gap.combine_assoc, Gap.divided_combine_divided]
      · have hnone : ∀ g, Mark.place g ((dropEmpty none sections).flatMap marks) =
            Mark.place g (sections.flatMap marks) := by
          intro g
          rw [ih]
          cases sections with
          | nil => rfl
          | cons x sections =>
              rw [List.flatMap_cons, marks, List.cons_append, Mark.place_gap, Mark.place_gap,
                Gap.combine_assoc, Gap.divided_none_combine]
        rw [List.flatMap_cons, List.flatMap_cons, Mark.place_append_congr hnone]
        simp only [marks, List.cons_append, Mark.place_gap, Gap.combine_assoc,
          Gap.divided_combine_divided]

theorem place_openFirst (sections : List Section) :
    Mark.place .start ((openFirst sections).flatMap marks) =
      Mark.place .start (sections.flatMap marks) := by
  cases sections with
  | nil => rfl
  | cons s sections => simp [openFirst, marks]

end Section

theorem Toolbar.fuseFrom_layout_compact (before : Bool) (t : Toolbar) :
    fuseFrom before t.compact.layout = fuseFrom before t.layout := by
  rw [layout, marks, compact, Section.place_openFirst, Section.place_dropEmpty, Gap.start_combine,
    Section.fuseFrom_place_map_compact]
  rfl

/-! ### What the layout of a compact toolbar says -/

namespace Group

theorem fuse_gap_of_not_continues {g h : Group} (hc : g.continues h = false) :
    h.joint.gap.fuse g.braced h.braced = h.joint.gap := by
  unfold continues at hc
  cases hj : h.joint <;> cases hg : g.braced <;> cases hh : h.braced <;>
    simp_all [Gap.fuse, Joint.gap]

variable {rest : List Mark}

theorem fuseFrom_place_of_isChain
    (hrest : ∀ b, fuseFrom b (Mark.place .within rest) = Mark.place .within rest)
    {groups : List Group} (hne : ∀ g ∈ groups, g.tools ≠ []) {before : Group}
    (hchain : (before :: groups).IsChain fun g h => g.continues h = false) :
    fuseFrom before.braced (Mark.place .within (groups.flatMap marks ++ rest)) =
      Mark.place .within (groups.flatMap marks ++ rest) := by
  induction groups generalizing before with
  | nil => exact hrest before.braced
  | cons x groups ih =>
      obtain ⟨n, ns, hx⟩ := List.exists_cons_of_ne_nil (hne x (by simp))
      rw [List.isChain_cons_cons] at hchain
      have htail := ih (fun g hg => hne g (List.mem_cons_of_mem _ hg)) hchain.2
      rw [List.flatMap_cons, List.append_assoc, marks, List.cons_append, Mark.place_gap,
        Gap.within_combine, hx, Mark.fuseFrom_place_tools_append, Mark.place_tools_append, htail,
        fuse_gap_of_not_continues hchain.1]

/-- Something that begins with the gap of a group, or with a stronger one, does not begin inside a
group. -/
theorem gap_ne_within_of_head? (hrest : ∀ x ∈ (Mark.place .within rest).head?, x.gap ≠ .within)
    (groups : List Group) (hne : ∀ g ∈ groups, g.tools ≠ []) :
    ∀ x ∈ (Mark.place .within (groups.flatMap marks ++ rest)).head?, x.gap ≠ .within := by
  cases groups with
  | nil => exact hrest
  | cons g groups =>
      obtain ⟨n, ns, hg⟩ := List.exists_cons_of_ne_nil (hne g (by simp))
      rw [List.flatMap_cons, List.append_assoc, place_marks hg]
      rintro x ⟨⟩
      simpa using g.joint.gap_ne_within

end Group

namespace Section

theorem fuseFrom_place_of_isCompact {sections : List Section} (h : ∀ s ∈ sections, s.IsCompact)
    (before : Bool) (g : Gap) :
    fuseFrom before (Mark.place g (sections.flatMap marks)) =
      Mark.place g (sections.flatMap marks) := by
  induction sections generalizing before g with
  | nil => rfl
  | cons s sections ih =>
      obtain ⟨hgroups, htools, -, hchain⟩ := h s (by simp)
      obtain ⟨x, groups, hs⟩ := List.exists_cons_of_ne_nil hgroups
      rw [hs] at htools hchain
      obtain ⟨n, ns, hx⟩ := List.exists_cons_of_ne_nil (htools x (by simp))
      have htail := Group.fuseFrom_place_of_isChain
        (fun b => ih (fun s hs => h s (List.mem_cons_of_mem _ hs)) b .within)
        (fun g hg => htools g (List.mem_cons_of_mem _ hg)) hchain
      rw [List.flatMap_cons, marks, hs, List.cons_append, Mark.place_gap, Gap.combine_divided,
        List.flatMap_cons, List.append_assoc, Group.marks, List.cons_append, Mark.place_gap,
        Gap.divided_combine_joint, hx, Mark.fuseFrom_place_tools_append, Mark.place_tools_append,
        htail, Gap.fuse_of_ne _ _ (by simp)]

end Section

theorem Toolbar.IsCompact.fuseFrom_layout {t : Toolbar} (ht : t.IsCompact) (before : Bool) :
    fuseFrom before t.layout = t.layout :=
  Section.fuseFrom_place_of_isCompact ht.sections before .start

/-! ### A compact toolbar is determined by its layout -/

/-- Where a stretch of tools without gaps ends, it ends in one way only. -/
theorem Placed.append_inj_of_within {l l' m m' : List Placed} (hl : ∀ x ∈ l, x.gap = .within)
    (hl' : ∀ x ∈ l', x.gap = .within) (hm : ∀ x ∈ m.head?, x.gap ≠ .within)
    (hm' : ∀ x ∈ m'.head?, x.gap ≠ .within) (h : l ++ m = l' ++ m') : l = l' ∧ m = m' := by
  induction l generalizing l' with
  | nil =>
      cases l' with
      | nil => exact ⟨rfl, h⟩
      | cons x l' =>
          have hx : m.head? = some x := by rw [List.nil_append] at h; rw [h]; rfl
          exact absurd (hl' x (by simp)) (hm x hx)
  | cons x l ih =>
      cases l' with
      | nil =>
          have hx : m'.head? = some x := by rw [List.nil_append] at h; rw [← h]; rfl
          exact absurd (hl x (by simp)) (hm' x hx)
      | cons y l' =>
          rw [List.cons_append, List.cons_append] at h
          obtain ⟨hxy, htail⟩ := List.cons_eq_cons.mp h
          obtain ⟨hll, hmm⟩ := ih (fun z hz => hl z (List.mem_cons_of_mem _ hz))
            (fun z hz => hl' z (List.mem_cons_of_mem _ hz)) htail
          exact ⟨by rw [hxy, hll], hmm⟩

theorem Placed.ne_within_of_divided {l : List Placed}
    (h : ∀ y ∈ l.head?, ∃ d, y.gap = .divided d) : ∀ y ∈ l.head?, y.gap ≠ .within := by
  intro y hy
  obtain ⟨d, hd⟩ := h y hy
  rw [hd]
  simp

namespace Group

variable {rest rest' : List Mark}

theorem eq_of_fields {x x' : Group} (hbraced : x.braced = x'.braced) (hjoint : x.joint = x'.joint)
    (htools : x.tools = x'.tools) : x = x' := by
  cases x
  cases x'
  simp_all

/-- A group can be read off the front of a layout. -/
theorem place_tools_inj {g g' : Gap} {x x' : Group} (hx : x.tools ≠ []) (hx' : x'.tools ≠ [])
    (hrest : ∀ y ∈ (Mark.place .within rest).head?, y.gap ≠ .within)
    (hrest' : ∀ y ∈ (Mark.place .within rest').head?, y.gap ≠ .within)
    (h : Mark.place g (x.tools.map (.tool x.braced) ++ rest) =
      Mark.place g' (x'.tools.map (.tool x'.braced) ++ rest')) :
    g = g' ∧ x.braced = x'.braced ∧ x.tools = x'.tools ∧
      Mark.place .within rest = Mark.place .within rest' := by
  obtain ⟨n, ns, hn⟩ := List.exists_cons_of_ne_nil hx
  obtain ⟨n', ns', hn'⟩ := List.exists_cons_of_ne_nil hx'
  rw [hn, hn', Mark.place_tools_append, Mark.place_tools_append, List.cons_append,
    List.cons_append] at h
  obtain ⟨hhead, htail⟩ := List.cons_eq_cons.mp h
  obtain ⟨rfl, hbraced, rfl⟩ := Placed.mk.inj hhead
  have hwithin : ∀ (b : Bool) (l : List ToolName),
      ∀ y ∈ l.map (fun n => (⟨.within, b, n⟩ : Placed)), y.gap = .within := by
    intro b l y hy
    obtain ⟨m, -, rfl⟩ := List.mem_map.mp hy
    rfl
  obtain ⟨hmap, hplace⟩ :=
    Placed.append_inj_of_within (hwithin _ ns) (hwithin _ ns') hrest hrest' htail
  have hnames := congrArg (List.map Placed.name) hmap
  simp only [List.map_map, Function.comp_def, List.map_id'] at hnames
  exact ⟨rfl, hbraced, by rw [hn, hn', hnames], hplace⟩

theorem place_marks_ne {x : Group} (hx : x.tools ≠ [])
    (hrest : ∀ y ∈ (Mark.place .within rest).head?, ∃ d, y.gap = .divided d) :
    Mark.place .within rest ≠ Mark.place .within (x.marks ++ rest') := by
  intro h
  obtain ⟨n, ns, hn⟩ := List.exists_cons_of_ne_nil hx
  rw [place_marks hn, Gap.within_combine] at h
  rw [h] at hrest
  obtain ⟨d, hd⟩ := hrest _ rfl
  exact x.joint.gap_ne_divided d hd

theorem place_inj (hrest : ∀ y ∈ (Mark.place .within rest).head?, ∃ d, y.gap = .divided d)
    (hrest' : ∀ y ∈ (Mark.place .within rest').head?, ∃ d, y.gap = .divided d)
    {groups groups' : List Group} (hne : ∀ g ∈ groups, g.tools ≠ [])
    (hne' : ∀ g ∈ groups', g.tools ≠ [])
    (h : Mark.place .within (groups.flatMap marks ++ rest) =
      Mark.place .within (groups'.flatMap marks ++ rest')) :
    groups = groups' ∧ Mark.place .within rest = Mark.place .within rest' := by
  have hwithin := Placed.ne_within_of_divided hrest
  have hwithin' := Placed.ne_within_of_divided hrest'
  induction groups generalizing groups' with
  | nil =>
      cases groups' with
      | nil => exact ⟨rfl, h⟩
      | cons x groups' =>
          rw [List.flatMap_cons, List.append_assoc] at h
          exact absurd h (place_marks_ne (hne' x (by simp)) hrest)
  | cons x groups ih =>
      cases groups' with
      | nil =>
          rw [List.flatMap_cons, List.append_assoc] at h
          exact absurd h.symm (place_marks_ne (hne x (by simp)) hrest')
      | cons x' groups' =>
          have hgroups : ∀ g ∈ groups, g.tools ≠ [] := fun g hg => hne g (List.mem_cons_of_mem _ hg)
          have hgroups' : ∀ g ∈ groups', g.tools ≠ [] :=
            fun g hg => hne' g (List.mem_cons_of_mem _ hg)
          simp only [List.flatMap_cons, List.append_assoc, marks, List.cons_append, Mark.place_gap,
            Gap.within_combine] at h
          obtain ⟨hgap, hbraced, htools, htail⟩ := place_tools_inj (hne x (by simp))
            (hne' x' (by simp)) (gap_ne_within_of_head? hwithin groups hgroups)
            (gap_ne_within_of_head? hwithin' groups' hgroups') h
          have hx : x = x' := eq_of_fields hbraced (Joint.gap_injective hgap) htools
          obtain ⟨hgroups, hplace⟩ := ih hgroups hgroups' htail
          exact ⟨by rw [hx, hgroups], hplace⟩

end Group

namespace Section

theorem IsCompact.head?_place {s : Section} (hs : s.IsCompact) (d : Option Divider)
    (rest : List Mark) : ∃ y,
      (Mark.place (.divided d) (s.groups.flatMap Group.marks ++ rest)).head? = some y ∧
        y.gap = .divided d := by
  obtain ⟨x, groups, hx⟩ := List.exists_cons_of_ne_nil hs.groups_ne_nil
  obtain ⟨n, ns, hn⟩ := List.exists_cons_of_ne_nil (hs.tools_ne_nil x (by simp [hx]))
  rw [hx, List.flatMap_cons, List.append_assoc, Group.place_marks hn, Gap.divided_combine_joint]
  exact ⟨_, rfl, rfl⟩

theorem place_ne_nil {s : Section} (hs : s.IsCompact) (sections : List Section) (g : Gap) :
    Mark.place g ((s :: sections).flatMap marks) ≠ [] := by
  intro h
  obtain ⟨y, hy, -⟩ := hs.head?_place (Divider.combine? g.divider? s.divider)
    (sections.flatMap marks)
  rw [List.flatMap_cons, marks, List.cons_append, Mark.place_gap, Gap.combine_divided] at h
  rw [h] at hy
  cases hy

theorem exists_divided_of_head? {sections : List Section} (h : ∀ s ∈ sections, s.IsCompact) :
    ∀ y ∈ (Mark.place .within (sections.flatMap marks)).head?, ∃ d, y.gap = .divided d := by
  cases sections with
  | nil => rintro y ⟨⟩
  | cons s sections =>
      obtain ⟨x, hx, hgap⟩ := (h s (by simp)).head?_place s.divider (sections.flatMap marks)
      rw [List.flatMap_cons, marks, List.cons_append, Mark.place_gap, Gap.within_combine, hx]
      rintro y ⟨⟩
      exact ⟨s.divider, hgap⟩

theorem place_inj_of_isCompact {s s' : Section} (hs : s.IsCompact) (hs' : s'.IsCompact)
    {sections sections' : List Section} (h : ∀ x ∈ sections, x.IsCompact)
    (h' : ∀ x ∈ sections', x.IsCompact) {d d' : Option Divider}
    (heq : Mark.place (.divided d) (s.groups.flatMap Group.marks ++ sections.flatMap marks) =
      Mark.place (.divided d') (s'.groups.flatMap Group.marks ++ sections'.flatMap marks)) :
    d = d' ∧ s.groups = s'.groups ∧
      Mark.place .within (sections.flatMap marks) =
        Mark.place .within (sections'.flatMap marks) := by
  have hsections := exists_divided_of_head? h
  have hsections' := exists_divided_of_head? h'
  have hwithin := Placed.ne_within_of_divided hsections
  have hwithin' := Placed.ne_within_of_divided hsections'
  obtain ⟨hgroups, htools, hfirst, -⟩ := hs
  obtain ⟨hgroups', htools', hfirst', -⟩ := hs'
  obtain ⟨x, groups, hx⟩ := List.exists_cons_of_ne_nil hgroups
  obtain ⟨x', groups', hx'⟩ := List.exists_cons_of_ne_nil hgroups'
  rw [hx] at htools hfirst heq
  rw [hx'] at htools' hfirst' heq
  have htail : ∀ g ∈ groups, g.tools ≠ [] := fun g hg => htools g (List.mem_cons_of_mem _ hg)
  have htail' : ∀ g ∈ groups', g.tools ≠ [] := fun g hg => htools' g (List.mem_cons_of_mem _ hg)
  have hjoint : x.joint = x'.joint := (hfirst x rfl).trans (hfirst' x' rfl).symm
  simp only [List.flatMap_cons, List.append_assoc, Group.marks, List.cons_append, Mark.place_gap,
    Gap.divided_combine_joint] at heq
  obtain ⟨hgap, hbraced, hxs, hplace⟩ := Group.place_tools_inj (htools x (by simp))
    (htools' x' (by simp)) (Group.gap_ne_within_of_head? hwithin groups htail)
    (Group.gap_ne_within_of_head? hwithin' groups' htail') heq
  obtain ⟨hrest, hplace⟩ := Group.place_inj hsections hsections' htail htail' hplace
  rw [hx, hx', Group.eq_of_fields hbraced hjoint hxs, hrest]
  exact ⟨Gap.divided.inj hgap, rfl, hplace⟩

theorem place_inj {sections sections' : List Section} (h : ∀ s ∈ sections, s.IsCompact)
    (h' : ∀ s ∈ sections', s.IsCompact)
    (heq : Mark.place .within (sections.flatMap marks) =
      Mark.place .within (sections'.flatMap marks)) : sections = sections' := by
  induction sections generalizing sections' with
  | nil =>
      cases sections' with
      | nil => rfl
      | cons s' sections' =>
          exact absurd heq.symm (place_ne_nil (h' s' (by simp)) sections' .within)
  | cons s sections ih =>
      cases sections' with
      | nil =>
          exact absurd heq (place_ne_nil (h s (by simp)) sections .within)
      | cons s' sections' =>
          have htail : ∀ x ∈ sections, x.IsCompact := fun x hx => h x (List.mem_cons_of_mem _ hx)
          have htail' : ∀ x ∈ sections', x.IsCompact := fun x hx => h' x (List.mem_cons_of_mem _ hx)
          obtain ⟨hdivider, hgroups, hplace⟩ :=
            place_inj_of_isCompact (h s (by simp)) (h' s' (by simp)) htail htail' heq
          have hs : s = s' := by
            cases s
            cases s'
            simp_all
          rw [hs, ih htail htail' hplace]

end Section

namespace Toolbar

/-- A compact toolbar is determined by its layout. -/
theorem IsCompact.ext_layout {t u : Toolbar} (ht : t.IsCompact) (hu : u.IsCompact)
    (h : t.layout = u.layout) : t = u := by
  obtain ⟨sections⟩ := t
  obtain ⟨sections'⟩ := u
  obtain ⟨hsections, hfirst⟩ := ht
  obtain ⟨hsections', hfirst'⟩ := hu
  cases sections with
  | nil =>
      cases sections' with
      | nil => rfl
      | cons s' sections' =>
          exact absurd h.symm
            (Section.place_ne_nil (hsections' s' (by simp)) sections' .start)
  | cons s sections =>
      cases sections' with
      | nil => exact absurd h (Section.place_ne_nil (hsections s (by simp)) sections .start)
      | cons s' sections' =>
          have htail : ∀ x ∈ sections, x.IsCompact :=
            fun x hx => hsections x (List.mem_cons_of_mem _ hx)
          have htail' : ∀ x ∈ sections', x.IsCompact :=
            fun x hx => hsections' x (List.mem_cons_of_mem _ hx)
          simp only [layout, Toolbar.marks, List.flatMap_cons, Section.marks, List.cons_append,
            Mark.place_gap, Gap.start_combine] at h
          obtain ⟨-, hgroups, hplace⟩ := Section.place_inj_of_isCompact (hsections s (by simp))
            (hsections' s' (by simp)) htail htail' h
          have hdivider : s.divider = s'.divider := (hfirst s rfl).trans (hfirst' s' rfl).symm
          have hs : s = s' := by
            cases s
            cases s'
            simp_all
          rw [hs, Section.place_inj htail htail' hplace]

/-- Two toolbars compact to the same one exactly when their fused layouts agree. -/
theorem compact_eq_compact_iff (t u : Toolbar) :
    t.compact = u.compact ↔ fuseFrom true t.layout = fuseFrom true u.layout := by
  rw [← fuseFrom_layout_compact true t, ← fuseFrom_layout_compact true u]
  constructor
  · intro h
    rw [h]
  · intro h
    rw [t.isCompact_compact.fuseFrom_layout, u.isCompact_compact.fuseFrom_layout] at h
    exact t.isCompact_compact.ext_layout u.isCompact_compact h

theorem compact_eq_compact_of_layout_eq {t u : Toolbar} (h : t.layout = u.layout) :
    t.compact = u.compact :=
  (compact_eq_compact_iff t u).mpr (by rw [h])

theorem IsCompact.compact_eq {t : Toolbar} (ht : t.IsCompact) : t.compact = t := by
  refine t.isCompact_compact.ext_layout ht ?_
  rw [← t.isCompact_compact.fuseFrom_layout true, fuseFrom_layout_compact, ht.fuseFrom_layout]

/-- The layout of a compacted toolbar is the fused layout of the toolbar. -/
theorem layout_compact (t : Toolbar) (before : Bool) :
    t.compact.layout = fuseFrom before t.layout := by
  rw [← t.isCompact_compact.fuseFrom_layout before, fuseFrom_layout_compact]

end Toolbar

end EditorToolbar

import EditorToolbar.Proofs.Toolbar.Seats
import EditorToolbar.Proofs.Toolbar.WellFormed

/-!
# The tools of a text and what stands between them

How a text is read can be said without a reader. Whether a tool is braced depends on the last brace
or divider before it, and how it is separated from the next tool depends on the separators between
the two, no matter in which order they come (`Token.strongest_eq`). `Toolbar.Follows` says so of a
toolbar, seat by seat. The toolbar of a text, once compacted, follows the tokens of the text, and it
is the only compact toolbar that does: what tokens say fixes the gaps between all seats, and a
compact toolbar is determined by its layout (`eq_compact_ofText_iff`).
-/

namespace EditorToolbar

namespace Token

/-- Whether a token says if what follows it is braced. A divider does, since it closes a brace. -/
def setsBraces : Token → Bool
  | openBrace => true
  | closeBrace => true
  | divider _ => true
  | _ => false

/-- A brace is open after some tokens if it is the last of their braces and dividers. -/
def Opened (tokens : List Token) : Prop := tokens.reverse.find? setsBraces = some openBrace

instance : DecidablePred Opened := fun tokens =>
  inferInstanceAs (Decidable (tokens.reverse.find? setsBraces = some openBrace))

/-- Whether a brace is open after a token, if `inBraces` says whether one is open before it. -/
def bracesAfter (inBraces : Bool) : Token → Bool
  | openBrace => true
  | closeBrace => false
  | divider _ => false
  | _ => inBraces

theorem foldl_bracesAfter_iff (tokens : List Token) :
    tokens.foldl bracesAfter false = true ↔ Opened tokens := by
  induction tokens using List.reverseRecOn with
  | nil => simp [Opened]
  | append_singleton tokens t ih =>
      rw [List.foldl_append, Opened, List.reverse_append]
      cases t with
      | openBrace => exact iff_of_true rfl rfl
      | closeBrace => exact iff_of_false (by simp [bracesAfter]) (by simp [setsBraces])
      | divider d => exact iff_of_false (by simp [bracesAfter]) (by simp [setsBraces])
      | _ => exact ih

theorem marks_append (inBraces : Bool) (ts us : List Token) :
    marks inBraces (ts ++ us) = marks inBraces ts ++ marks (ts.foldl bracesAfter inBraces) us := by
  induction ts generalizing inBraces with
  | nil => rfl
  | cons t ts ih => cases t <;> simp [marks, bracesAfter, ih]

def gap : Token → Gap
  | openBrace => .seam
  | closeBrace => .seam
  | pipe => .pipe
  | divider d => .divided (some d)
  | _ => .within

def strongest : List Token → Gap
  | [] => .within
  | t :: rest => t.gap.combine (strongest rest)

theorem place_marks_append {w : List Token} (hw : tools w = []) (inBraces : Bool) (p : Gap)
    (rest : List Mark) :
    Mark.place p (marks inBraces w ++ rest) = Mark.place (p.combine (strongest w)) rest := by
  induction w generalizing inBraces p with
  | nil => rw [strongest, Gap.combine_within]; rfl
  | cons t w ih =>
      rw [strongest, ← Gap.combine_assoc]
      cases t with
      | tool name => cases hw
      | comma => simpa [marks, gap] using ih hw inBraces p
      | pipe => exact ih hw inBraces _
      | openBrace => exact ih hw true _
      | closeBrace => exact ih hw false _
      | divider d => exact ih hw false _

/-- Among separators a slash counts before a hash, a hash before a pipe and a pipe before a
brace. -/
theorem strongest_eq (w : List Token) :
    strongest w =
      if .divider .slash ∈ w then .divided (some .slash)
      else if .divider .hash ∈ w then .divided (some .hash)
      else if .pipe ∈ w then .pipe
      else if .openBrace ∈ w ∨ .closeBrace ∈ w then .seam
      else .within := by
  induction w with
  | nil => rfl
  | cons t w ih =>
      rw [strongest, ih]
      cases t with
      | divider d => cases d <;> simp [gap] <;> split_ifs <;> rfl
      | _ => simp [gap] <;> split_ifs <;> rfl

/-- Between two bare tools a brace does not count. -/
theorem fuse_strongest (w : List Token) (before after : Bool) :
    (strongest w).fuse before after =
      if .divider .slash ∈ w ∨ .divider .hash ∈ w then
        .divided (some (if .divider .slash ∈ w then .slash else .hash))
      else if .pipe ∈ w ∨ (.openBrace ∈ w ∨ .closeBrace ∈ w) ∧ (before = true ∨ after = true) then
        Joint.gap (if .pipe ∈ w then .pipe else .adjacent)
      else .within := by
  have hseam : Gap.fuse before after .seam =
      if before = true ∨ after = true then .seam else .within := by
    cases before <;> cases after <;> rfl
  rw [strongest_eq]
  by_cases hslash : .divider .slash ∈ w
  · simp [hslash, Gap.fuse]
  by_cases hhash : .divider .hash ∈ w
  · simp [hslash, hhash, Gap.fuse]
  by_cases hpipe : .pipe ∈ w
  · simp [hslash, hhash, hpipe, Gap.fuse, Joint.gap]
  by_cases hbrace : .openBrace ∈ w ∨ .closeBrace ∈ w
  · simp only [hslash, hhash, hpipe, hbrace, or_self, false_or, true_and, if_true, if_false, hseam,
      Joint.gap]
  · simp only [hslash, hhash, hpipe, hbrace, or_self, false_and, if_false]
    rfl

theorem exists_divider_mem_iff {w : List Token} :
    (∃ d, .divider d ∈ w) ↔ .divider .slash ∈ w ∨ .divider .hash ∈ w := by
  constructor
  · rintro ⟨d, hd⟩
    cases d with
    | hash => exact .inr hd
    | slash => exact .inl hd
  · rintro (h | h)
    · exact ⟨_, h⟩
    · exact ⟨_, h⟩

end Token

namespace Seat

/-- How two neighbouring seats are parted by the tokens `w` between their tools. -/
structure Parted (w : List Token) (a b : Seat) : Prop where
  row : a.row ≠ b.row ↔ ∃ d, .divider d ∈ w
  divider : a.row ≠ b.row → b.divider = some (if .divider .slash ∈ w then .slash else .hash)
  column : a.row = b.row → (a.column ≠ b.column ↔
    .pipe ∈ w ∨ (.openBrace ∈ w ∨ .closeBrace ∈ w) ∧ (a.braced = true ∨ b.braced = true))
  joint : a.row = b.row → a.column ≠ b.column →
    b.joint = if .pipe ∈ w then .pipe else .adjacent

variable {w : List Token} {a b : Seat}

/-- Two seats are parted by tokens if the gap between them is the one that the tokens make. -/
theorem parted_iff : Parted w a b ↔ a.gap b = (Token.strongest w).fuse a.braced b.braced := by
  rw [Token.fuse_strongest, gap_eq_ite_iff, ← Token.exists_divider_mem_iff]
  constructor
  · rintro ⟨hrow, hdivider, hcolumn, hjoint⟩
    exact ⟨hrow, hdivider, hcolumn, hjoint⟩
  · rintro ⟨hrow, hdivider, hcolumn, hjoint⟩
    exact ⟨hrow, hdivider, hcolumn, hjoint⟩

end Seat

/-- What is placed first is placed no matter what follows. -/
theorem Mark.exists_place_append (p : Gap) (l : List Mark) :
    ∃ q, ∀ rest, place p (l ++ rest) = place p l ++ place q rest := by
  induction l generalizing p with
  | nil => exact ⟨p, fun _ => rfl⟩
  | cons m l ih =>
      cases m with
      | gap g => exact ih (p.combine g)
      | tool braced name =>
          obtain ⟨q, hq⟩ := ih .within
          exact ⟨q, fun rest => by rw [List.cons_append, place_tool, hq]; rfl⟩

namespace Placed

theorem map_seat_fuseFrom (before : Bool) (l : List Placed) :
    (fuseFrom before l).map (fun x => (x.braced, x.name)) = l.map fun x => (x.braced, x.name) := by
  induction l generalizing before with
  | nil => rfl
  | cons x l ih => simp [ih]

theorem getElem?_fuseFrom_succ {before : Bool} {l : List Placed} {i : Nat} {x y : Placed}
    (hx : l[i]? = some x) (hy : l[i + 1]? = some y) :
    (fuseFrom before l)[i + 1]? = some { y with gap := y.gap.fuse x.braced y.braced } := by
  induction l generalizing before i with
  | nil => cases hx
  | cons z l ih =>
      cases i with
      | succ i => exact ih hx hy
      | zero =>
          obtain rfl : z = x := Option.some_inj.mp hx
          obtain ⟨rest, rfl⟩ := List.head?_eq_some_iff.mp (List.head?_eq_getElem?.trans hy)
          rfl

end Placed

namespace Toolbar

/-- A toolbar follows some tokens if it holds their tools in order, each braced if a brace is open
before it and parted from the next one by what stands between the two. -/
structure Follows (t : Toolbar) (tokens : List Token) : Prop where
  tools : t.tools = Token.tools tokens
  braced : ∀ before name after, tokens = before ++ .tool name :: after →
    ∃ a, t.seats[(Token.tools before).length]? = some a ∧ a.name = name ∧
      (a.braced = true ↔ Token.Opened before)
  parted : ∀ before x w y after, tokens = before ++ .tool x :: (w ++ .tool y :: after) →
    Token.tools w = [] →
    ∃ a b, t.seats[(Token.tools before).length]? = some a ∧
      t.seats[(Token.tools before).length + 1]? = some b ∧ Seat.Parted w a b
  first_joint : ∀ s ∈ t.sections, ∀ g ∈ s.groups.head?, g.joint = .pipe
  first_divider : ∀ s ∈ t.sections.head?, s.divider = none

variable {t : Toolbar} {l rest : List Placed} {x y : Placed}

theorem exists_seat_of_layout (h : t.layout = l ++ x :: rest) :
    ∃ a, t.compact.seats[l.length]? = some a ∧ a.braced = x.braced ∧ a.name = x.name := by
  have hmap : t.compact.seats.map (fun a => (a.braced, a.name)) =
      t.layout.map fun x => (x.braced, x.name) := by
    rw [← Seat.map_place, t.isCompact_compact.place_seats, t.layout_compact true,
      Placed.map_seat_fuseFrom]
  have hx : t.layout[l.length]? = some x := by simp [h]
  obtain ⟨a, ha, heq⟩ := exists_getElem?_of_map_eq hmap.symm hx
  exact ⟨a, ha, congrArg Prod.fst heq, congrArg Prod.snd heq⟩

/-- Two neighbours in a layout have seats next to each other when the toolbar is compacted. -/
theorem exists_seats_of_layout (h : t.layout = l ++ x :: y :: rest) :
    ∃ a b, t.compact.seats[l.length]? = some a ∧ t.compact.seats[l.length + 1]? = some b ∧
      a.gap b = y.gap.fuse a.braced b.braced := by
  have hat : (Seat.place t.compact.seats)[l.length + 1]? =
      some { y with gap := y.gap.fuse x.braced y.braced } := by
    rw [t.isCompact_compact.place_seats, t.layout_compact true]
    exact Placed.getElem?_fuseFrom_succ (by simp [h]) (by simp [h])
  obtain ⟨a, b, ha, hb, heq⟩ := Seat.exists_getElem?_of_place hat
  obtain ⟨hgap, hbraced, -⟩ := Placed.mk.inj heq
  obtain ⟨a', ha', hx, -⟩ := exists_seat_of_layout h
  obtain rfl : a = a' := Option.some_inj.mp (ha.symm.trans ha')
  exact ⟨a, b, ha, hb, by rw [hx, ← hbraced, hgap]⟩

theorem exists_layout_ofTokens (before : List Token) (name : ToolName) (after : List Token) :
    ∃ l q, l.length = (Token.tools before).length ∧
      (ofTokens (before ++ .tool name :: after)).layout =
        l ++ ⟨q, before.foldl Token.bracesAfter false, name⟩ ::
          Mark.place .within (Token.marks (before.foldl Token.bracesAfter false) after) := by
  obtain ⟨q, hq⟩ := Mark.exists_place_append .start (Token.marks false before)
  refine ⟨Mark.place .start (Token.marks false before), q, ?_, ?_⟩
  · rw [← Token.tools_marks false before, ← Mark.map_name_place .start, List.length_map]
  · rw [layout_ofTokens, Token.marks_append, hq]
    rfl

theorem exists_seat_of_tool (before : List Token) (name : ToolName) (after : List Token) :
    ∃ a, (ofTokens (before ++ .tool name :: after)).compact.seats[(Token.tools before).length]? =
        some a ∧ a.name = name ∧ (a.braced = true ↔ Token.Opened before) := by
  obtain ⟨l, q, hlength, hlayout⟩ := exists_layout_ofTokens before name after
  obtain ⟨a, ha, hbraced, hname⟩ := exists_seat_of_layout hlayout
  rw [← hlength, ← Token.foldl_bracesAfter_iff]
  exact ⟨a, ha, hname, by rw [hbraced]⟩

theorem exists_parted_of_tools {w : List Token} (hw : Token.tools w = []) (before : List Token)
    (x y : ToolName) (after : List Token) :
    let t := (ofTokens (before ++ .tool x :: (w ++ .tool y :: after))).compact
    ∃ a b, t.seats[(Token.tools before).length]? = some a ∧
      t.seats[(Token.tools before).length + 1]? = some b ∧ Seat.Parted w a b := by
  obtain ⟨l, q, hlength, hlayout⟩ := exists_layout_ofTokens before x (w ++ .tool y :: after)
  rw [Token.marks_append, Token.place_marks_append hw, Gap.within_combine, Token.marks,
    Mark.place_tool] at hlayout
  obtain ⟨a, b, ha, hb, hgap⟩ := exists_seats_of_layout hlayout
  rw [hlength] at ha hb
  exact ⟨a, b, ha, hb, Seat.parted_iff.mpr hgap⟩

theorem follows_compact_ofTokens (tokens : List Token) :
    (ofTokens tokens).compact.Follows tokens where
  tools := by rw [tools_compact, tools_ofTokens]
  braced before name after h := by
    rw [h]
    exact exists_seat_of_tool before name after
  parted before x w y after h hw := by
    rw [h]
    exact exists_parted_of_tools hw before x y after
  first_joint s hs := ((isCompact_compact _).sections s hs).first_joint
  first_divider := (isCompact_compact _).first_divider

/-! ### Nothing else follows the tokens -/

namespace Follows

variable {u : Toolbar} {tokens before w after : List Token} {x y : ToolName}

theorem exists_seat (ht : t.Follows tokens) (h : tokens = before ++ .tool x :: after) :
    ∃ a, t.seats[(Token.tools before).length]? = some a ∧ a.name = x ∧
      a.braced = decide (Token.Opened before) := by
  obtain ⟨a, ha, hname, hbraced⟩ := ht.braced before x after h
  exact ⟨a, ha, hname, by rw [Bool.eq_iff_iff, hbraced, decide_eq_true_iff]⟩

theorem place_first (ht : t.Follows tokens) (h : tokens = before ++ .tool x :: after)
    (hbefore : (Token.tools before).length = 0) :
    (Seat.place t.seats)[0]? = some ⟨.start, decide (Token.Opened before), x⟩ := by
  obtain ⟨a, ha, hname, hbraced⟩ := ht.exists_seat h
  rw [hbefore] at ha
  rw [Seat.getElem?_place_zero, ha, Option.map_some, hname, hbraced]

theorem place_next (ht : t.Follows tokens)
    (h : tokens = before ++ .tool x :: (w ++ .tool y :: after)) (hw : Token.tools w = []) :
    (Seat.place t.seats)[(Token.tools before).length + 1]? =
      some ⟨(Token.strongest w).fuse (decide (Token.Opened before))
        (decide (Token.Opened (before ++ .tool x :: w))),
        decide (Token.Opened (before ++ .tool x :: w)), y⟩ := by
  obtain ⟨a, b, ha, hb, hparted⟩ := ht.parted before x w y after h hw
  obtain ⟨a', ha', -, hx⟩ := ht.exists_seat h
  have h' : tokens = (before ++ .tool x :: w) ++ .tool y :: after := by simp [h]
  obtain ⟨b', hb', hname, hy⟩ := ht.exists_seat h'
  have hlength : (Token.tools (before ++ .tool x :: w)).length =
      (Token.tools before).length + 1 := by
    simp [Token.tools, hw]
  rw [hlength] at hb'
  obtain rfl : a = a' := Option.some_inj.mp (ha.symm.trans ha')
  obtain rfl : b = b' := Option.some_inj.mp (hb.symm.trans hb')
  rw [Seat.getElem?_place_succ ha hb, Seat.parted_iff.mp hparted, hname, hx, hy]

theorem length_place_seats (ht : t.Follows tokens) (hc : t.IsCompact) :
    (Seat.place t.seats).length = (Token.tools tokens).length := by
  rw [Seat.length_place, ← ht.tools, ← hc.map_name_seats, List.length_map]

/-- What tokens say of a compact toolbar leaves no choice where its tools are placed. -/
theorem place_seats_eq (ht : t.Follows tokens) (htc : t.IsCompact) (hu : u.Follows tokens)
    (huc : u.IsCompact) : Seat.place t.seats = Seat.place u.seats := by
  apply List.ext_getElem?
  intro i
  by_cases hi : i < (Token.tools tokens).length
  · cases i with
    | zero =>
        obtain ⟨before, x, after, h, hbefore⟩ := Token.exists_eq_append_tool hi
        rw [ht.place_first h hbefore, hu.place_first h hbefore]
    | succ i =>
        obtain ⟨before, x, rest, h, rfl⟩ := Token.exists_eq_append_tool (Nat.lt_of_succ_lt hi)
        have hrest : 0 < (Token.tools rest).length := by
          rw [h, Token.tools_append, List.length_append, Token.tools, List.length_cons] at hi
          omega
        obtain ⟨w, y, after, rfl, hw⟩ := Token.exists_eq_append_tool hrest
        rw [List.length_eq_zero_iff] at hw
        rw [ht.place_next h hw, hu.place_next h hw]
  · rw [not_lt] at hi
    rw [List.getElem?_eq_none (by rwa [ht.length_place_seats htc]),
      List.getElem?_eq_none (by rwa [hu.length_place_seats huc])]

end Follows

/-- What the toolbar of a text is, once compacted, in terms of the tokens of the text: it follows
them, and no other compact toolbar does. -/
theorem eq_compact_ofText_iff (text : Text) (t : Toolbar) :
    t = (ofText text).compact ↔ t.IsCompact ∧ t.Follows (Token.tokenize text) := by
  constructor
  · rintro rfl
    exact ⟨isCompact_compact _, follows_compact_ofTokens _⟩
  · rintro ⟨hc, ht⟩
    have hother : (ofText text).compact.IsCompact := isCompact_compact _
    apply hc.ext_layout hother
    rw [← hc.place_seats, ← hother.place_seats]
    exact ht.place_seats_eq hc (follows_compact_ofTokens _) hother

/-- In `{undo,redo|/}#code` a slash and a hash, a pipe and a brace stand before the last tool. -/
theorem exists_parted_after_unclosed_brace :
    let t := (ofText "{undo,redo|/}#code".toList).compact
    ∃ a b, t.seats[1]? = some a ∧ t.seats[2]? = some b ∧
      Seat.Parted [.pipe, .divider .slash, .closeBrace, .divider .hash] a b :=
  ((eq_compact_ofText_iff "{undo,redo|/}#code".toList _).mp rfl).2.parted
    [.openBrace, .tool "undo".toList, .comma] "redo".toList _ "code".toList [] (by decide) rfl

end Toolbar

end EditorToolbar

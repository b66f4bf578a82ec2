import EditorToolbar.ImageToolbar
import EditorToolbar.Proofs.Normalization.Textual
import EditorToolbar.Proofs.Normalization.Undamaged

/-!
# The image toolbar in normal form

The text of the image toolbar is put together without a toolbar being written. `ofRows` is the
toolbar that is meant: a section for each row, with one group in braces. It is compact and
well-formed, and writing it gives the text that has been put together (`write_ofRows`); so reading
the text gives this toolbar back. The names of the image tools hold no colon, and they are neither
fragments nor glued. So nothing is stripped from the text and nothing in it is mended.

The rows are what stands between the row breaks: with the breaks put back between them they are the
items again (`intercalate_rows`).
-/

namespace EditorToolbar

namespace ImageTool

theorem isName_name (t : ImageTool) : Token.IsName t.name := by
  cases t <;> decide +kernel

theorem unmodified_name (t : ImageTool) : Modifier.Unmodified t.name :=
  Modifier.unmodified_of_colon_notMem (by cases t <;> decide +kernel)

theorem undamaged_name (t : ImageTool) :
    Fragments.isFragment t.name = false ∧ GluedNames.cut? t.name = none := by
  cases t <;> decide +kernel

end ImageTool

namespace ImageToolbar

/-! ### Rows -/

theorem rows_ne_nil (items : List ImageItem) : rows items ≠ [] := by
  cases items with
  | nil => exact List.cons_ne_nil _ _
  | cons item rest =>
      cases item with
      | rowBreak => exact List.cons_ne_nil _ _
      | tool t =>
          rw [rows]
          split <;> exact List.cons_ne_nil _ _

/-- The rows with the row breaks between them are the items. -/
theorem intercalate_rows (items : List ImageItem) :
    [ImageItem.rowBreak].intercalate ((rows items).map (List.map .tool)) = items := by
  induction items with
  | nil => rfl
  | cons item rest ih =>
      obtain ⟨row, more, hrows⟩ := List.exists_cons_of_ne_nil (rows_ne_nil rest)
      rw [hrows, List.map_cons] at ih
      cases item with
      | rowBreak =>
          rw [rows, hrows, List.map_cons, List.map_cons, List.intercalate_cons_cons, ih]
          rfl
      | tool t =>
          have htool : rows (.tool t :: rest) = (t :: row) :: more := by rw [rows, hrows]
          rw [htool, List.map_cons, List.map_cons, ← ih]
          cases more with
          | nil => rw [List.map_nil, List.intercalate_singleton, List.intercalate_singleton]
          | cons r more =>
              rw [List.map_cons, List.intercalate_cons_cons, List.intercalate_cons_cons,
                List.cons_append, List.cons_append]

def filledRows (items : List ImageItem) : List (List ImageTool) :=
  (rows items).filter fun row => !row.isEmpty

theorem ne_nil_of_mem_filledRows {items : List ImageItem} {row : List ImageTool}
    (h : row ∈ filledRows items) : row ≠ [] := by
  simpa using (List.mem_filter.mp h).2

/-! ### The toolbar that is meant -/

/-- A row as a section: one group in braces. -/
def rowSection (d : Option Divider) (row : List ImageTool) : Section :=
  ⟨d, [⟨true, .pipe, row.map ImageTool.name⟩]⟩

/-- The toolbar with a section for each row. A slash opens every section after the first. -/
def ofRows : List (List ImageTool) → Toolbar
  | [] => ⟨[]⟩
  | row :: more => ⟨rowSection none row :: more.map (rowSection (some .slash))⟩

theorem write_rowSection (d : Option Divider) (row : List ImageTool) :
    (rowSection d row).write = (d.map Divider.toChar).toList ++ writeRow row := rfl

theorem write_ofRows (rs : List (List ImageTool)) :
    (ofRows rs).write = Text.join ['/'] (rs.map writeRow) := by
  have hmore : ∀ row more, Text.join ['/'] ((row :: more).map writeRow) =
      writeRow row ++ (more.map (rowSection (some .slash))).flatMap Section.write := by
    intro row more
    induction more generalizing row with
    | nil => exact (List.intercalate_singleton).trans (List.append_nil _).symm
    | cons r more ih =>
        rw [Text.join, List.map_cons, List.map_cons, List.intercalate_cons_cons, ← List.map_cons,
          ← Text.join, ih, List.map_cons, List.flatMap_cons, write_rowSection, List.append_assoc,
          List.append_assoc]
        rfl
  cases rs with
  | nil => rfl
  | cons row more => exact (hmore row more).symm

variable {rs : List (List ImageTool)}

theorem exists_of_mem_sections {s : Section} (h : s ∈ (ofRows rs).sections) :
    ∃ d, ∃ row ∈ rs, s = rowSection d row := by
  cases rs with
  | nil => cases h
  | cons row more =>
      rcases List.mem_cons.mp h with rfl | h
      · exact ⟨none, row, by simp, rfl⟩
      · obtain ⟨r, hr, rfl⟩ := List.mem_map.mp h
        exact ⟨some .slash, r, List.mem_cons_of_mem _ hr, rfl⟩

theorem exists_of_mem_tools {name : ToolName} (h : name ∈ (ofRows rs).tools) :
    ∃ t : ImageTool, t.name = name := by
  obtain ⟨s, hs, hname⟩ := Toolbar.mem_tools_iff_exists_section.mp h
  obtain ⟨d, row, -, rfl⟩ := exists_of_mem_sections hs
  obtain ⟨g, hg, hname⟩ := List.mem_flatMap.mp hname
  obtain rfl := List.mem_singleton.mp hg
  obtain ⟨t, -, ht⟩ := List.mem_map.mp hname
  exact ⟨t, ht⟩

theorem isCompact_rowSection (d : Option Divider) {row : List ImageTool} (h : row ≠ []) :
    (rowSection d row).IsCompact := by
  refine ⟨List.cons_ne_nil _ _, ?_, ?_, List.isChain_singleton _⟩
  · intro g hg
    obtain rfl := List.mem_singleton.mp hg
    simpa using h
  · rintro g ⟨⟩
    rfl

theorem isCompact_ofRows (h : ∀ row ∈ rs, row ≠ []) : (ofRows rs).IsCompact := by
  constructor
  · intro s hs
    obtain ⟨d, row, hrow, rfl⟩ := exists_of_mem_sections hs
    exact isCompact_rowSection d (h row hrow)
  · cases rs with
    | nil => rintro s ⟨⟩
    | cons row more => rintro s ⟨⟩; rfl

theorem wellFormed_ofRows (rs : List (List ImageTool)) : (ofRows rs).WellFormed := by
  constructor
  · intro name hname
    obtain ⟨t, rfl⟩ := exists_of_mem_tools hname
    exact t.isName_name
  · cases rs with
    | nil => rintro s ⟨⟩
    | cons row more =>
        intro s hs
        obtain ⟨r, -, rfl⟩ := List.mem_map.mp hs
        exact Option.some_ne_none _

theorem undamaged_ofRows (rs : List (List ImageTool)) : (ofRows rs).Undamaged := by
  intro name hname
  obtain ⟨t, rfl⟩ := exists_of_mem_tools hname
  exact t.undamaged_name

theorem unmodified_ofRows (rs : List (List ImageTool)) :
    Modifier.Unmodified (ofRows rs).toText := by
  refine Toolbar.unmodified_toText (wellFormed_ofRows rs) fun name hname => ?_
  obtain ⟨t, rfl⟩ := exists_of_mem_tools hname
  exact t.unmodified_name

/-! ### The text -/

variable (items : List ImageItem)

theorem compact_ofRows_filledRows : (ofRows (filledRows items)).compact =
    ofRows (filledRows items) :=
  (isCompact_ofRows fun _ => ne_nil_of_mem_filledRows).compact_eq

theorem toText_eq : toText items = (ofRows (filledRows items)).toText := by
  rw [Toolbar.toText, compact_ofRows_filledRows, write_ofRows]
  rfl

theorem normalize_toText (n : Normalizer) : n.normalize {} (toText items) = toText items := by
  have hwell := wellFormed_ofRows (filledRows items)
  have hundamaged := (undamaged_ofRows (filledRows items)).ofText_toText hwell
  rw [Normalizer.normalize_empty, toText_eq, Modifier.strip_eq_self (unmodified_ofRows _),
    repairText_of_undamaged hundamaged, Toolbar.toText_ofText_toText hwell]

/-- The text of the image toolbar is its own normal form under either strategy, whatever the limit
for runs is. Read and compacted it is the toolbar of the rows that have tools; and the rows are the
items between the row breaks. -/
theorem toText_normal_and_rows (items : List ImageItem) :
    (∀ n : Normalizer, n.normalize {} (toText items) = toText items) ∧
      (Toolbar.ofText (toText items)).compact =
        ofRows ((rows items).filter fun row => !row.isEmpty) ∧
      [ImageItem.rowBreak].intercalate ((rows items).map (List.map .tool)) = items := by
  refine ⟨normalize_toText items, ?_, intercalate_rows items⟩
  rw [toText_eq, Toolbar.compact_ofText_toText (wellFormed_ofRows _), compact_ofRows_filledRows,
    filledRows]

/-- Breaks at both ends and two in a row. -/
example : toText [.rowBreak, .tool .imagestyle, .rowBreak, .rowBreak, .tool .controlalt,
    .tool .delete, .rowBreak] = "{imagestyle}/{controlalt,delete}".toList := by
  decide

end ImageToolbar

end EditorToolbar

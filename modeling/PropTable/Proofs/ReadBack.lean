import PropTable.Proofs.Printing

/-!
# Reading a table back from its markdown

Each line of the markdown is a row of cells with a bar after each, so it can be taken apart
wherever no cell has a bar or a line break in it.  `Sheet.read` does that, knowing the style
and the two glyphs only.  In the LaTeX style and the Unicode style no label of a formula over
letters has a separator in it, so a table of a text is read back as it was
(`Table.read_markdown`).
-/

namespace PropTable

/-- No character of the text is one of those listed. -/
def Text.Avoids (listed cs : List Char) : Prop := ∀ x ∈ listed, x ∉ cs

instance (listed cs : List Char) : Decidable (Text.Avoids listed cs) :=
  List.decidableBAll (· ∉ cs) listed

namespace Text

theorem avoids_append {listed cs ds : List Char} :
    Avoids listed (cs ++ ds) ↔ Avoids listed cs ∧ Avoids listed ds := by
  simp only [Avoids, List.mem_append, not_or]
  exact ⟨fun h => ⟨fun x hx => (h x hx).1, fun x hx => (h x hx).2⟩,
    fun h x hx => ⟨h.1 x hx, h.2 x hx⟩⟩

theorem avoids_intercalate {listed sep : List Char} {texts : List (List Char)}
    (hsep : Avoids listed sep) (h : ∀ cs ∈ texts, Avoids listed cs) :
    Avoids listed (sep.intercalate texts) := by
  induction texts with
  | nil => exact fun _ _ => List.not_mem_nil
  | cons first rest ih =>
    have hfirst := h first List.mem_cons_self
    have hrest := ih fun cs hcs => h cs (List.mem_cons_of_mem first hcs)
    cases rest with
    | nil => simpa [List.intercalate] using hfirst
    | cons second rest =>
      have hjoin : sep.intercalate (first :: second :: rest) =
          first ++ (sep ++ sep.intercalate (second :: rest)) := by simp [List.intercalate]
      rw [hjoin]
      exact avoids_append.mpr ⟨hfirst, avoids_append.mpr ⟨hsep, hrest⟩⟩

theorem Avoids.mono {listed fewer cs : List Char} (h : Avoids listed cs)
    (hsub : fewer ⊆ listed) : Avoids fewer cs :=
  fun x hx => h x (hsub hx)

end Text

/-- What the markdown of a table shows. -/
structure Sheet where
  variableNames : List String
  headers : List String
  rows : List Row
deriving DecidableEq

def Table.sheet (t : Table) : Sheet :=
  { variableNames := t.program.variableNames, headers := t.headers, rows := t.rows }

namespace Sheet

/-- What stands before the label in a header cell; the same stands behind it, in reverse. -/
def margin : Style → List Char
  | .latex => [' ', '$']
  | _ => [' ']

def wrap (margin cs : List Char) : List Char := margin ++ cs ++ margin.reverse

def unwrap (margin cs : List Char) : List Char :=
  (cs.drop margin.length).take (cs.length - 2 * margin.length)

/-- The cells of a line, which stand between its bars. -/
def cells (line : List Char) : List (List Char) := (line.splitOn '|').tail.dropLast

def readGlyph (trueGlyph falseGlyph : String) (cell : List Char) : Option Bool :=
  if cell = trueGlyph.toList then some true
  else if cell = falseGlyph.toList then some false
  else none

/-- A row from its cells.  The result is the last value or, where no column has values, that
of the only variable. -/
def readRow (trueGlyph falseGlyph : String) : List (List Char) → Option Row
  | [] => none
  | first :: rest => do
    let assignment ← (first.splitOn ',').mapM (readGlyph trueGlyph falseGlyph)
    let values ← rest.mapM (readGlyph trueGlyph falseGlyph)
    let result ← values.getLast? <|> assignment.head?
    return { assignment, values, result }

/-- The sheet that a markdown text shows, if it is one. -/
def read (style : Style) (trueGlyph falseGlyph markdown : String) : Option Sheet :=
  match (markdown.toList.splitOn '\n').map cells with
  | (names :: headers) :: _ :: rows => do
    let rows ← rows.mapM (readRow trueGlyph falseGlyph)
    return {
      variableNames := ((unwrap [' '] names).splitOn ',').map String.ofList
      headers := headers.map fun cell => String.ofList (unwrap (margin style) cell)
      rows }
  | _ => none

/-! ## Lines of cells -/

/-- A line of cells: a bar, and each cell with a bar after it. -/
def line (cs : List (List Char)) : List Char := '|' :: cs.flatMap (· ++ ['|'])

theorem line_eq_intercalate (cs : List (List Char)) :
    line cs = ['|'].intercalate ([] :: (cs ++ [[]])) := by
  have hrest : ∀ first : List Char,
      first ++ line cs = ['|'].intercalate (first :: (cs ++ [[]])) := by
    induction cs with
    | nil =>
      intro first
      simp [line, List.intercalate]
    | cons c rest ih =>
      intro first
      have h := ih c
      simp only [List.intercalate, List.cons_append, List.intersperse, List.flatten_cons] at h ⊢
      rw [← h]
      simp [line]
  exact hrest []

theorem cells_line {cs : List (List Char)} (h : ∀ cell ∈ cs, '|' ∉ cell) :
    cells (line cs) = cs := by
  have hsplit : (line cs).splitOn '|' = [] :: (cs ++ [[]]) := by
    rw [line_eq_intercalate]
    refine List.splitOn_intercalate '|' (fun cell hcell => ?_) (by simp)
    simp only [List.mem_cons, List.mem_append, List.not_mem_nil, or_false] at hcell
    rcases hcell with rfl | hcell | rfl
    · simp
    · exact h cell hcell
    · simp
  rw [cells, hsplit, List.tail_cons, List.dropLast_concat]

theorem avoids_line {cs : List (List Char)} (h : ∀ cell ∈ cs, '\n' ∉ cell) : '\n' ∉ line cs := by
  intro hmem
  rw [line, List.mem_cons, List.mem_flatMap] at hmem
  rcases hmem with hbar | ⟨cell, hcell, hin⟩
  · exact absurd hbar (by decide)
  · rcases List.mem_append.mp hin with hin | hin
    · exact h cell hcell hin
    · exact absurd (List.mem_singleton.mp hin) (by decide)

theorem unwrap_wrap (margin cs : List Char) : unwrap margin (wrap margin cs) = cs := by
  have hlength : (wrap margin cs).length - 2 * margin.length = cs.length := by
    simp [wrap]
    omega
  rw [unwrap, hlength, wrap, List.append_assoc, List.drop_left' rfl, List.take_left' rfl]

theorem avoids_wrap {listed margin cs : List Char} (hm : Text.Avoids listed margin)
    (hcs : Text.Avoids listed cs) : Text.Avoids listed (wrap margin cs) := by
  have hr : Text.Avoids listed margin.reverse := by
    simpa only [Text.Avoids, List.mem_reverse] using hm
  exact Text.avoids_append.mpr ⟨Text.avoids_append.mpr ⟨hm, hcs⟩, hr⟩

theorem avoids_margin (style : Style) : Text.Avoids ['|', '\n'] (margin style) := by
  cases style <;> decide

end Sheet

/-! ## The lines of a table -/

namespace Table

open Sheet

def cellOf (t : Table) (value : Bool) : List Char := (t.settings.glyph value).toList

def headerCells (t : Table) : List (List Char) :=
  wrap [' '] ([','].intercalate (t.program.variableNames.map String.toList)) ::
    t.headers.map fun h => wrap (margin t.settings.style) h.toList

def dividerCells (t : Table) : List (List Char) := ['-'] :: t.headers.map fun _ => ['-']

def rowCells (t : Table) (row : Row) : List (List Char) :=
  [','].intercalate (row.assignment.map t.cellOf) :: row.values.map t.cellOf

theorem toList_headerLine (t : Table) : t.headerLine.toList = line t.headerCells := by
  have hcell (h : String) :
      (t.headerCell h).toList = wrap (margin t.settings.style) h.toList ++ ['|'] := by
    unfold headerCell
    cases t.settings.style <;> simp [margin, wrap]
  simp only [headerLine, String.toList_append, String.toList_intercalate, String.toList_join,
    List.flatMap_map, hcell, line, headerCells, List.flatMap_cons]
  simp [wrap]

theorem toList_dividerLine (t : Table) : t.dividerLine.toList = line t.dividerCells := by
  simp only [dividerLine, String.toList_append, String.toList_join, List.flatMap_map, line,
    dividerCells, List.flatMap_cons]
  rfl

theorem toList_rowLine (t : Table) (row : Row) :
    (t.rowLine row).toList = line (t.rowCells row) := by
  have hcell : t.cellOf = fun value => (t.settings.glyph value).toList := rfl
  simp [rowLine, glyphs, String.toList_intercalate, String.toList_join, List.flatMap_map, line,
    rowCells, hcell, Function.comp_def]

theorem toList_markdown (t : Table) :
    t.markdown.toList =
      ['\n'].intercalate (line t.headerCells :: line t.dividerCells ::
        t.rows.map fun row => line (t.rowCells row)) := by
  rw [markdown, String.toList_intercalate, List.map_cons, List.map_cons, toList_headerLine,
    toList_dividerLine, List.map_map]
  simp only [Function.comp_def, toList_rowLine]
  rfl

/-- The lines of the markdown are the lines that were written, if no cell is broken. -/
theorem splitOn_markdown {t : Table} (hheader : ∀ cell ∈ t.headerCells, '\n' ∉ cell)
    (hrows : ∀ row ∈ t.rows, ∀ cell ∈ t.rowCells row, '\n' ∉ cell) :
    t.markdown.toList.splitOn '\n' =
      line t.headerCells :: line t.dividerCells :: t.rows.map fun row => line (t.rowCells row) := by
  rw [toList_markdown]
  refine List.splitOn_intercalate '\n' ?_ (by simp)
  refine List.forall_mem_cons.mpr ⟨avoids_line hheader, List.forall_mem_cons.mpr ⟨?_, ?_⟩⟩
  · refine avoids_line fun cell hcell => ?_
    rcases List.mem_cons.mp hcell with rfl | hcell
    · decide
    · obtain ⟨_, -, rfl⟩ := List.mem_map.mp hcell
      decide
  · exact List.forall_mem_map.mpr fun row hrow => avoids_line (hrows row hrow)

theorem avoids_namesCell {t : Table}
    (h : ∀ s ∈ t.program.variableNames, Text.Avoids ['|', '\n'] s.toList) :
    Text.Avoids ['|', '\n']
      (wrap [' '] ([','].intercalate (t.program.variableNames.map String.toList))) :=
  avoids_wrap (by decide) (Text.avoids_intercalate (by decide) (List.forall_mem_map.mpr h))

theorem avoids_rowCells {t : Table} (h : ∀ value, Text.Avoids ['|', '\n'] (t.cellOf value))
    (row : Row) : ∀ cell ∈ t.rowCells row, Text.Avoids ['|', '\n'] cell := by
  refine List.forall_mem_cons.mpr ⟨Text.avoids_intercalate (by decide) ?_, ?_⟩
  · exact List.forall_mem_map.mpr fun value _ => h value
  · exact List.forall_mem_map.mpr fun value _ => h value

end Table

/-! ## Tables that can be read back -/

/-- Settings whose tables can be read back: the style has no bar among its signs, and the
glyphs are two and have no separator in them. -/
structure Settings.IsLegible (s : Settings) : Prop where
  style_ne : s.style ≠ .ascii
  glyph_ne : s.trueGlyph ≠ s.falseGlyph
  trueGlyph : Text.Avoids ['|', ',', '\n'] s.trueGlyph.toList
  falseGlyph : Text.Avoids ['|', ',', '\n'] s.falseGlyph.toList

namespace Settings

variable {s : Settings}

theorem IsLegible.avoids_glyph (hs : s.IsLegible) (value : Bool) :
    Text.Avoids ['|', ',', '\n'] (s.glyph value).toList := by
  cases value with
  | true => exact hs.trueGlyph
  | false => exact hs.falseGlyph

theorem IsLegible.readGlyph_glyph (hs : s.IsLegible) (value : Bool) :
    Sheet.readGlyph s.trueGlyph s.falseGlyph (s.glyph value).toList = some value := by
  cases value with
  | true => simp [Sheet.readGlyph, glyph]
  | false =>
    have hne : s.falseGlyph ≠ s.trueGlyph := hs.glyph_ne.symm
    simp [Sheet.readGlyph, glyph, String.toList_inj, hne]

end Settings

/-- A table whose texts have no separator in them and whose results can be told from the
values. -/
structure Table.IsLegible (t : Table) : Prop where
  settings : t.settings.IsLegible
  names_ne_nil : t.program.variableNames ≠ []
  names : ∀ s ∈ t.program.variableNames, Text.Avoids ['|', ',', '\n'] s.toList
  headers : ∀ h ∈ t.headers, Text.Avoids ['|', '\n'] h.toList
  assignment_ne_nil : ∀ row ∈ t.rows, row.assignment ≠ []
  result : ∀ row ∈ t.rows, (row.values.getLast? <|> row.assignment.head?) = some row.result

theorem mapM_map_eq_some {α β : Type} {f : β → Option α} {write : α → β} {xs : List α}
    (h : ∀ x ∈ xs, f (write x) = some x) : (xs.map write).mapM f = some xs := by
  have hread : xs.mapM (f ∘ write) = pure (xs.map id) := mapM_eq_pure h
  rw [List.mapM_map, hread, List.map_id]
  rfl

namespace Table.IsLegible

open Sheet Text

variable {t : Table} (ht : t.IsLegible)
include ht

theorem avoids_cellOf (value : Bool) : Avoids ['|', ',', '\n'] (t.cellOf value) :=
  ht.settings.avoids_glyph value

theorem avoids_headerCells : ∀ cell ∈ t.headerCells, Avoids ['|', '\n'] cell := by
  have hnames := avoids_namesCell fun s hs => (ht.names s hs).mono (by simp)
  refine List.forall_mem_cons.mpr ⟨hnames, ?_⟩
  exact List.forall_mem_map.mpr fun h hh => avoids_wrap (avoids_margin _) (ht.headers h hh)

theorem avoids_rowCells (row : Row) : ∀ cell ∈ t.rowCells row, Avoids ['|', '\n'] cell :=
  Table.avoids_rowCells (fun value => (ht.avoids_cellOf value).mono (by simp)) row

theorem readRow_rowCells {row : Row} (hrow : row ∈ t.rows) :
    readRow t.settings.trueGlyph t.settings.falseGlyph (t.rowCells row) = some row := by
  have hread (values : List Bool) :
      (values.map t.cellOf).mapM (readGlyph t.settings.trueGlyph t.settings.falseGlyph) =
        some values :=
    mapM_map_eq_some fun value _ => ht.settings.readGlyph_glyph value
  have hsplit : ([','].intercalate (row.assignment.map t.cellOf)).splitOn ',' =
      row.assignment.map t.cellOf := by
    refine List.splitOn_intercalate ',' ?_ (by simpa using ht.assignment_ne_nil row hrow)
    exact List.forall_mem_map.mpr fun value _ => ht.avoids_cellOf value ',' (by simp)
  simp only [rowCells, readRow, hsplit, hread, ht.result row hrow, bind, Option.bind, pure]

theorem read_eq_sheet :
    Sheet.read t.settings.style t.settings.trueGlyph t.settings.falseGlyph t.markdown =
      some t.sheet := by
  have hlines := splitOn_markdown
    (fun cell hcell => ht.avoids_headerCells cell hcell '\n' (by simp))
    (fun row _ cell hcell => ht.avoids_rowCells row cell hcell '\n' (by simp))
  have hheader : cells (line t.headerCells) = t.headerCells :=
    cells_line fun cell hcell => ht.avoids_headerCells cell hcell '|' (by simp)
  have hrows : t.rows.map (fun row => cells (line (t.rowCells row))) =
      t.rows.map fun row => t.rowCells row :=
    List.map_congr_left fun row _ =>
      cells_line fun cell hcell => ht.avoids_rowCells row cell hcell '|' (by simp)
  have hread : (t.rows.map fun row => t.rowCells row).mapM
      (readRow t.settings.trueGlyph t.settings.falseGlyph) = some t.rows :=
    mapM_map_eq_some fun row hrow => ht.readRow_rowCells hrow
  have hnames : ([','].intercalate (t.program.variableNames.map String.toList)).splitOn ',' =
      t.program.variableNames.map String.toList := by
    refine List.splitOn_intercalate ',' ?_ (by simpa using ht.names_ne_nil)
    exact List.forall_mem_map.mpr fun s hs => ht.names s hs ',' (by simp)
  rw [Sheet.read, hlines, List.map_cons, List.map_cons, List.map_map,
    Function.comp_def, hheader, hrows]
  simp [headerCells, hread, unwrap_wrap, hnames, sheet, Function.comp_def]

end Table.IsLegible

/-! ## Tables of texts -/

theorem Text.avoids_of_isLetter {c : Char} (h : isLetter c = true) :
    Avoids ['|', ',', '\n'] c.toString.toList := by
  have hnone : ∀ x ∈ ['|', ',', '\n'], ¬isLetter x = true :=
    List.any_eq_false.mp (by decide +kernel)
  intro x hx hmem
  obtain rfl : x = c := by simpa using hmem
  exact hnone x hx h

namespace Label

open Text

variable {a b : Label}

theorem avoids_wrapped (ha : Avoids ['|', '\n'] a.text.toList) :
    Avoids ['|', '\n'] a.wrapped.toList := by
  unfold wrapped
  split
  · simp only [String.toList_append, avoids_append]
    exact ⟨⟨by decide, ha⟩, by decide⟩
  · exact ha

/-- The bar is the sign of a connective in the plain style alone. -/
theorem avoids_plainSign {style : Style} (hstyle : style ≠ .ascii) (hlatex : style ≠ .latex)
    (c : Connective) : Avoids ['|', '\n'] (plainSign style c).toList := by
  cases style with
  | latex => exact absurd rfl hlatex
  | ascii => exact absurd rfl hstyle
  | unicode =>
    cases c with
    | not => decide
    | binary op => cases op <;> decide

theorem avoids_not {style : Style} (hstyle : style ≠ .ascii)
    (ha : Avoids ['|', '\n'] a.text.toList) :
    Avoids ['|', '\n'] (Label.not style a).text.toList := by
  cases style with
  | latex =>
    simp only [Label.not, String.toList_append, avoids_append]
    exact ⟨⟨⟨by decide, by decide⟩, ha⟩, by decide⟩
  | unicode =>
    simp only [Label.not, String.toList_append, avoids_append]
    exact ⟨avoids_plainSign hstyle (by decide) .not, avoids_wrapped ha⟩
  | ascii => exact absurd rfl hstyle

theorem avoids_binary {style : Style} (hstyle : style ≠ .ascii) (op : Binary)
    (ha : Avoids ['|', '\n'] a.text.toList) (hb : Avoids ['|', '\n'] b.text.toList) :
    Avoids ['|', '\n'] (Label.binary style op a b).text.toList := by
  cases style with
  | latex =>
    have hsign : Avoids ['|', '\n'] (Connective.binary op).latex.toList := by
      cases op <;> decide
    simp only [Label.binary, String.toList_append, avoids_append]
    exact ⟨⟨ha, hsign⟩, hb⟩
  | unicode =>
    simp only [Label.binary, String.toList_append, avoids_append]
    exact ⟨⟨avoids_wrapped ha, avoids_plainSign hstyle (by decide) (.binary op)⟩,
      avoids_wrapped hb⟩
  | ascii => exact absurd rfl hstyle

end Label

namespace Formula

open Text

variable {f : Formula Char}

theorem avoids_label {style : Style} (hstyle : style ≠ .ascii)
    (h : ∀ c ∈ f.leaves, isLetter c = true) :
    Avoids ['|', '\n'] (f.label style).text.toList := by
  induction f with
  | var c => exact (avoids_of_isLetter (h c List.mem_cons_self)).mono (by simp)
  | not f ih => exact Label.avoids_not hstyle (ih h)
  | binary op f g ihf ihg =>
    exact Label.avoids_binary hstyle op (ihf fun c hc => h c (List.mem_append_left _ hc))
      (ihg fun c hc => h c (List.mem_append_right _ hc))

theorem leaves_ne_nil {α : Type} (f : Formula α) : f.leaves ≠ [] := by
  induction f with
  | var a => exact List.cons_ne_nil a []
  | not f ih => exact ih
  | binary op f g ihf ihg => exact List.append_ne_nil_of_left_ne_nil ihf g.leaves

theorem avoids_names (h : ∀ c ∈ f.leaves, isLetter c = true) :
    ∀ s ∈ f.names, Avoids ['|', ',', '\n'] s.toList := by
  intro s hs
  obtain ⟨c, hc, rfl⟩ := List.mem_map.mp (List.mem_eraseDups.mp hs)
  exact avoids_of_isLetter (h c hc)

theorem names_ne_nil (f : Formula Char) : f.names ≠ [] := by
  obtain ⟨c, hc⟩ := List.exists_mem_of_ne_nil _ f.leaves_ne_nil
  exact List.ne_nil_of_mem (toString_mem_names hc)

/-- A formula without connectives is its only variable, so the result of a row shows in its
assignment. -/
theorem result_row (f : Formula Char) {a : Assignment} (ha : a.length = f.names.length) :
    ((f.row a).values.getLast? <|> (f.row a).assignment.head?) = some (f.row a).result := by
  cases f with
  | var c =>
    have hnames : (Formula.var c).names = [c.toString] := rfl
    rw [hnames] at ha
    obtain ⟨b, rfl⟩ := List.length_eq_one_iff.mp ha
    simp [row, steps, eval, valuation, hnames]
  | not f => simp [row, steps]
  | binary op f g => simp [row, steps]

theorem table_isLegible {settings : Settings} {source : String} (hs : settings.IsLegible)
    (h : ∀ c ∈ f.leaves, isLetter c = true) : (f.table settings source).IsLegible where
  settings := hs
  names_ne_nil := f.names_ne_nil
  names := avoids_names h
  headers := by
    refine List.forall_mem_map.mpr fun g hg => ?_
    exact avoids_label hs.style_ne fun c hc => h c (leaves_subset_of_mem_composites hg hc)
  assignment_ne_nil := by
    refine List.forall_mem_map.mpr fun a ha hnil => ?_
    have hnil : a = [] := hnil
    rw [mem_assignments, hnil] at ha
    exact f.names_ne_nil (List.eq_nil_of_length_eq_zero ha.symm)
  result := List.forall_mem_map.mpr fun a ha => f.result_row (mem_assignments.mp ha)

end Formula

namespace Table

/-- A table that is built for a text of letters can be read back, if its settings allow it. -/
theorem isLegible_of_build {compiled settings : Settings} {text : String} {p : Program}
    {t : Table} (hp : Program.ofText compiled text = .ok p) (hcompiled : compiled.strict = true)
    (hs : settings.IsLegible) (ht : build settings p = .ok t) :
    t.settings = settings ∧ t.IsLegible := by
  obtain ⟨d, -, rfl⟩ := Program.ofText_eq_ok_iff.mp hp
  have hletters : ∀ c ∈ d.formula.leaves, Text.isLetter c = true := by
    rw [← d.phrase_formula]
    exact fun c hc => (d.phrase_fits.isVariable c hc).2.2.2 hcompiled
  rw [build_ofFormula] at ht
  split at ht
  · cases ht
  · obtain rfl := Except.ok.inj ht
    exact ⟨rfl, Formula.table_isLegible hs hletters⟩

/-- From the markdown of a table its variables, headers and rows are read back, by one reader
for all tables of a style and two glyphs.  So tables with the same markdown show the same. -/
theorem read_markdown {compiled settings : Settings} {text : String} {p : Program}
    (hp : Program.ofText compiled text = .ok p) (hcompiled : compiled.strict = true)
    (hs : settings.IsLegible) (hn : p.variableCount ≤ settings.maxVariables) :
    ∃ t, build settings p = .ok t ∧
      Sheet.read settings.style settings.trueGlyph settings.falseGlyph t.markdown =
        some t.sheet ∧
      ∀ (compiled' settings' : Settings) (text' : String) (p' : Program) (t' : Table),
        Program.ofText compiled' text' = .ok p' → compiled'.strict = true →
        settings'.style = settings.style → settings'.trueGlyph = settings.trueGlyph →
        settings'.falseGlyph = settings.falseGlyph → build settings' p' = .ok t' →
        t'.markdown = t.markdown → t'.sheet = t.sheet := by
  obtain ⟨t, ht⟩ : ∃ t, build settings p = .ok t := by
    obtain ⟨d, -, rfl⟩ := Program.ofText_eq_ok_iff.mp hp
    rw [Program.variableCount_ofFormula] at hn
    exact ⟨_, by rw [build_ofFormula, if_neg (Nat.not_lt.mpr hn)]⟩
  obtain ⟨rfl, hlegible⟩ := isLegible_of_build hp hcompiled hs ht
  have hread := hlegible.read_eq_sheet
  refine ⟨t, ht, hread, ?_⟩
  intro compiled' settings' text' p' t' hp' hcompiled' hstyle htrue hfalse ht' hmarkdown
  have hs' : settings'.IsLegible :=
    ⟨hstyle ▸ hs.style_ne, by rw [htrue, hfalse]; exact hs.glyph_ne,
      htrue ▸ hs.trueGlyph, hfalse ▸ hs.falseGlyph⟩
  obtain ⟨rfl, hlegible'⟩ := isLegible_of_build hp' hcompiled' hs' ht'
  have hread' := hlegible'.read_eq_sheet
  rw [hmarkdown, hstyle, htrue, hfalse, hread] at hread'
  exact (Option.some.inj hread').symm

theorem read_markdown_empty_glyph :
    let settings : Settings := { style := .unicode, trueGlyph := "", falseGlyph := "no" }
    ∃ p, Program.ofText { strict := true } "~(p|q)" = .ok p ∧ settings.IsLegible ∧
      p.variableCount ≤ settings.maxVariables ∧ ∃ t, build settings p = .ok t ∧
        Sheet.read .unicode "" "no" t.markdown = some t.sheet := by
  intro settings
  let p : Program := .ofFormula "~(p|q)" (.not (.binary .or (.var 'p') (.var 'q')))
  have hp : Program.ofText { strict := true } "~(p|q)" = .ok p := rfl
  have hs : settings.IsLegible := ⟨by decide, by decide, by decide, by decide⟩
  have hn : p.variableCount ≤ settings.maxVariables := by decide
  obtain ⟨t, ht, hread, -⟩ := read_markdown hp rfl hs hn
  exact ⟨p, hp, hs, hn, t, ht, hread⟩

end Table
end PropTable

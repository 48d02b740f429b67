import Mathlib.Algebra.GroupWithZero.Nat
import PropTable.Proofs.ReadBack

/-!
# The bars of a table

A line of the markdown has a bar before its first cell and one behind each cell, so the lines
of a table have equally many bars if no cell has a bar of its own.  The labels of the plain
style do: they write a disjunction with a bar.  So a table of a text over letters is a
rectangle in the two other styles, and in the plain style if the text has no disjunction
(`Table.isRectangular_iff`).
-/

namespace PropTable

/-! ## Signs in labels -/

/-- What a label writes for a connective. -/
def Label.sign (style : Style) (c : Connective) : String :=
  match style with
  | .latex => c.latex
  | style => plainSign style c

/-- A character that labels have from variables and connectives only, and not as a
parenthesis. -/
def Label.IsSign (x : Char) : Prop := x ∉ ['(', ')', '\x7b', '\x7d']

instance (x : Char) : Decidable (Label.IsSign x) := inferInstanceAs (Decidable (_ ∉ _))

namespace Label

variable {x : Char} (hx : IsSign x)
include hx

theorem count_wrapped (a : Label) : a.wrapped.toList.count x = a.text.toList.count x := by
  have hopen : "(".toList.count x = 0 := List.count_eq_zero.mpr fun h => hx (by simp_all)
  have hclose : ")".toList.count x = 0 := List.count_eq_zero.mpr fun h => hx (by simp_all)
  unfold wrapped
  split
  · rw [String.toList_append, String.toList_append, List.count_append, List.count_append, hopen,
      hclose]
    omega
  · rfl

theorem count_not (style : Style) (a : Label) :
    (Label.not style a).text.toList.count x =
      a.text.toList.count x + (sign style .not).toList.count x := by
  have hopen : "\x7b".toList.count x = 0 := List.count_eq_zero.mpr fun h => hx (by simp_all)
  have hclose : "\x7d".toList.count x = 0 := List.count_eq_zero.mpr fun h => hx (by simp_all)
  have hwrapped := count_wrapped hx a
  cases style <;>
    simp only [Label.not, sign, String.toList_append, List.count_append, hwrapped, hopen,
      hclose] <;>
    omega

theorem count_binary (style : Style) (op : Binary) (a b : Label) :
    (Label.binary style op a b).text.toList.count x =
      a.text.toList.count x + b.text.toList.count x +
        (sign style (.binary op)).toList.count x := by
  have ha := count_wrapped hx a
  have hb := count_wrapped hx b
  cases style <;>
    simp only [Label.binary, sign, String.toList_append, List.count_append, ha, hb] <;>
    omega

end Label

namespace Formula

/-- The connectives, in postorder. -/
def connectives {α : Type} : Formula α → List Connective
  | var _ => []
  | not f => f.connectives ++ [.not]
  | binary op f g => f.connectives ++ g.connectives ++ [.binary op]

/-- A label has a sign as often as its connectives are written with it. -/
theorem count_label {x : Char} (hx : Label.IsSign x) (style : Style) {f : Formula Char}
    (hleaves : x ∉ f.leaves) :
    (f.label style).text.toList.count x =
      (f.connectives.map fun c => (Label.sign style c).toList.count x).sum := by
  induction f with
  | var c =>
    have hne : c.toString.toList.count x = 0 :=
      List.count_eq_zero.mpr fun h => hleaves (by simpa [leaves] using h)
    exact hne
  | not f ih =>
    have hlabel := Label.count_not hx style (f.label style)
    simp only [connectives, List.map_append, List.sum_append, List.map_cons, List.map_nil,
      List.sum_cons, List.sum_nil, ← ih hleaves]
    exact hlabel
  | binary op f g ihf ihg =>
    have hlabel := Label.count_binary hx style op (f.label style) (g.label style)
    have hf := ihf fun h => hleaves (List.mem_append_left _ h)
    have hg := ihg fun h => hleaves (List.mem_append_right _ h)
    simp only [connectives, List.map_append, List.sum_append, List.map_cons, List.map_nil,
      List.sum_cons, List.sum_nil, ← hf, ← hg]
    exact hlabel

theorem connectives_subset_of_mem_composites {α : Type} {f g : Formula α}
    (h : g ∈ f.composites) : g.connectives ⊆ f.connectives := by
  induction f with
  | var a => cases h
  | not f ih =>
    rcases List.mem_append.mp h with h | h
    · exact fun c hc => List.mem_append_left _ (ih h hc)
    · rw [List.mem_singleton.mp h]
      exact fun _ hc => hc
  | binary op l r ihl ihr =>
    rcases List.mem_append.mp h with h | h
    · rcases List.mem_append.mp h with h | h
      · exact fun c hc => List.mem_append_left _ (List.mem_append_left _ (ihl h hc))
      · exact fun c hc => List.mem_append_left _ (List.mem_append_right _ (ihr h hc))
    · rw [List.mem_singleton.mp h]
      exact fun _ hc => hc

theorem self_mem_composites {α : Type} {f : Formula α} {c : Connective}
    (h : c ∈ f.connectives) : f ∈ f.composites := by
  cases f with
  | var a => cases h
  | not f => exact List.mem_append_right _ (List.mem_singleton.mpr rfl)
  | binary op f g => exact List.mem_append_right _ (List.mem_singleton.mpr rfl)

end Formula

namespace Label

theorem count_sign_newline (style : Style) (c : Connective) :
    (sign style c).toList.count '\n' = 0 := by
  cases style <;> cases c with
  | not => decide
  | binary op => cases op <;> decide

/-- The bar is a sign in the plain style alone, and there of disjunction alone. -/
theorem count_sign_bar_eq_zero_iff (style : Style) (c : Connective) :
    (sign style c).toList.count '|' = 0 ↔ style ≠ .ascii ∨ c ≠ .binary .or := by
  cases style <;> cases c with
  | not => decide
  | binary op => cases op <;> decide

end Label

namespace Formula

variable {f : Formula Char}

theorem newline_not_mem_label (style : Style) (h : ∀ c ∈ f.leaves, Text.isLetter c = true) :
    '\n' ∉ (f.label style).text.toList := by
  have hleaves : '\n' ∉ f.leaves := fun hmem => absurd (h _ hmem) (by decide +kernel)
  rw [← List.count_eq_zero, count_label (by decide) style hleaves]
  simp only [List.sum_eq_zero_iff_forall_eq_nat, List.forall_mem_map, Label.count_sign_newline,
    implies_true]

theorem bar_not_mem_label_iff (style : Style) (h : ∀ c ∈ f.leaves, Text.isLetter c = true) :
    '|' ∉ (f.label style).text.toList ↔ style ≠ .ascii ∨ .binary .or ∉ f.connectives := by
  have hleaves : '|' ∉ f.leaves := fun hmem => absurd (h _ hmem) (by decide +kernel)
  rw [← List.count_eq_zero, count_label (by decide) style hleaves]
  simp only [List.sum_eq_zero_iff_forall_eq_nat, List.forall_mem_map,
    Label.count_sign_bar_eq_zero_iff]
  by_cases hstyle : style = .ascii
  · simp only [hstyle, ne_eq, not_true_eq_false, false_or]
    exact ⟨fun hall hmem => hall _ hmem rfl, fun hnot c hc he => hnot (he ▸ hc)⟩
  · simp [hstyle]

end Formula

/-- A text has the sign of a connective exactly if its formula has the connective. -/
theorem Phrase.sign_mem_text_iff {strict : Bool} {level : Nat} {f : Phrase}
    (hf : Fits strict level f) (op : Binary) :
    op.sign ∈ f.text ↔ .binary op ∈ f.formula.connectives := by
  induction f generalizing level with
  | var c =>
    have hne : op.sign ≠ c := by
      rintro rfl
      have hc : IsVariable strict op.sign := hf
      have hsign := Connective.ofChar?_sign (.binary op)
      rw [show (Connective.binary op).sign = op.sign from rfl, hc.2.2.1] at hsign
      cases hsign
    simp [text, formula, Formula.connectives, hne]
  | paren f ih =>
    have hf : Fits strict 1 f := hf
    have hopen : op.sign ≠ '(' := (Connective.binary op).sign_ne_open
    have hclose : op.sign ≠ ')' := (Connective.binary op).sign_ne_close
    simp [text, formula, hopen, hclose, ih hf]
  | not f ih =>
    have hsign : op.sign ≠ Connective.not.sign := by cases op <;> decide
    simp [text, formula, Formula.connectives, hsign, ih hf.2]
  | binary op' f g ihf ihg =>
    have hsign : op.sign = op'.sign ↔ op = op' := ⟨Binary.sign_injective, congrArg _⟩
    simp only [text, formula, Formula.connectives, List.mem_append, List.mem_cons, hsign,
      ihf hf.2.1, ihg hf.2.2, Connective.binary.injEq, List.not_mem_nil, or_false]
    grind

/-! ## Bars in lines -/

namespace Sheet

theorem count_bar_line (cs : List (List Char)) :
    (line cs).count '|' = cs.length + 1 + (cs.map (List.count '|')).sum := by
  have hcells : (cs.flatMap (· ++ ['|'])).count '|' =
      cs.length + (cs.map (List.count '|')).sum := by
    induction cs with
    | nil => rfl
    | cons c rest ih =>
      rw [List.flatMap_cons, List.count_append, List.count_append, ih, List.length_cons,
        List.map_cons, List.sum_cons, List.count_singleton_self]
      omega
  rw [line, List.count_cons_self, hcells]
  omega

/-- A line has a bar more than it has cells, exactly if no cell has one of its own. -/
theorem count_bar_line_eq_iff {cs : List (List Char)} :
    (line cs).count '|' = cs.length + 1 ↔ ∀ cell ∈ cs, '|' ∉ cell := by
  have hsum : (cs.map (List.count '|')).sum = 0 ↔ ∀ cell ∈ cs, '|' ∉ cell := by
    simp only [List.sum_eq_zero_iff_forall_eq_nat, List.forall_mem_map, List.count_eq_zero]
  rw [count_bar_line, ← hsum]
  omega

end Sheet

namespace Table

open Sheet

/-- The lines of the markdown. -/
def lines (t : Table) : List (List Char) := t.markdown.toList.splitOn '\n'

/-- Every line has the bars of a first cell and of one cell for each header. -/
def IsRectangular (t : Table) : Prop := ∀ l ∈ t.lines, l.count '|' = t.headers.length + 2

variable {t : Table}

theorem count_bar_headerLine_eq_iff :
    (line t.headerCells).count '|' = t.headers.length + 2 ↔ ∀ cell ∈ t.headerCells, '|' ∉ cell := by
  have hlength : t.headerCells.length = t.headers.length + 1 := by simp [headerCells]
  rw [← count_bar_line_eq_iff, hlength]

theorem count_bar_dividerLine : (line t.dividerCells).count '|' = t.headers.length + 2 := by
  have hcells : ∀ cell ∈ t.dividerCells, '|' ∉ cell :=
    List.forall_mem_cons.mpr ⟨by decide, List.forall_mem_map.mpr fun _ _ => by decide⟩
  rw [count_bar_line_eq_iff.mpr hcells, dividerCells, List.length_cons, List.length_map]

theorem count_bar_rowLine (hglyph : ∀ value, Text.Avoids ['|', '\n'] (t.cellOf value)) {row : Row}
    (hrow : row.values.length = t.headers.length) :
    (line (t.rowCells row)).count '|' = t.headers.length + 2 := by
  have hcells : ∀ cell ∈ t.rowCells row, '|' ∉ cell :=
    fun cell hcell => avoids_rowCells hglyph row cell hcell '|' (by simp)
  rw [count_bar_line_eq_iff.mpr hcells, rowCells, List.length_cons, List.length_map, hrow]

end Table

/-! ## Tables of texts -/

namespace Formula

open Sheet Text

variable {f : Formula Char} {settings : Settings} {source : String}

/-- Of the cells of the header line only those of the headers can have a bar. -/
theorem bar_not_mem_headerCells_iff (h : ∀ c ∈ f.leaves, isLetter c = true) :
    (∀ cell ∈ (f.table settings source).headerCells, '|' ∉ cell) ↔
      settings.style ≠ .ascii ∨ .binary .or ∉ f.connectives := by
  have hnames : '|' ∉ wrap [' '] ([','].intercalate (f.names.map String.toList)) :=
    Table.avoids_namesCell (t := f.table settings source)
      (fun s hs => (avoids_names h s hs).mono (by simp)) '|' (by simp)
  have hmargin : '|' ∉ margin settings.style := avoids_margin settings.style '|' (by simp)
  have hheader (g : Formula Char) :
      '|' ∉ wrap (margin settings.style) (g.label settings.style).text.toList ↔
        '|' ∉ (g.label settings.style).text.toList := by
    simp [wrap, hmargin]
  have hlabel {g : Formula Char} (hg : g ∈ f.composites) := bar_not_mem_label_iff settings.style
    fun c hc => h c (leaves_subset_of_mem_composites hg hc)
  rw [Table.headerCells, List.forall_mem_cons]
  simp only [table, List.map_map, List.forall_mem_map, Function.comp_apply, hheader]
  constructor
  · rintro ⟨-, hall⟩
    refine or_iff_not_imp_left.mpr fun hstyle hor => ?_
    have hself := self_mem_composites hor
    exact ((hlabel hself).mp (hall f hself)).elim hstyle fun hnot => hnot hor
  · intro hplain
    refine ⟨hnames, fun g hg => (hlabel hg).mpr (hplain.imp_right fun hnot hor => ?_)⟩
    exact hnot (connectives_subset_of_mem_composites hg hor)

theorem lines_table (h : ∀ c ∈ f.leaves, isLetter c = true)
    (hglyph : ∀ value, Avoids ['|', '\n'] (settings.glyph value).toList) :
    (f.table settings source).lines =
      line (f.table settings source).headerCells :: line (f.table settings source).dividerCells ::
        (f.table settings source).rows.map
          fun row => line ((f.table settings source).rowCells row) := by
  refine Table.splitOn_markdown (List.forall_mem_cons.mpr ⟨?_, ?_⟩) fun row _ cell hcell => ?_
  · exact Table.avoids_namesCell (t := f.table settings source)
      (fun s hs => (avoids_names h s hs).mono (by simp)) '\n' (by simp)
  · simp only [table, List.map_map, List.forall_mem_map, Function.comp_apply]
    intro g hg
    have hlabel := newline_not_mem_label settings.style
      fun c hc => h c (leaves_subset_of_mem_composites hg hc)
    simp [wrap, hlabel, avoids_margin settings.style '\n' (by simp)]
  · exact Table.avoids_rowCells (t := f.table settings source) hglyph row cell hcell '\n' (by simp)

/-- Rows and divider are made by counts, so they fit the headers. -/
theorem count_bar_tail (hglyph : ∀ value, Avoids ['|', '\n'] (settings.glyph value).toList) :
    ∀ l ∈ line (f.table settings source).dividerCells :: (f.table settings source).rows.map
        (fun row => line ((f.table settings source).rowCells row)),
      l.count '|' = (f.table settings source).headers.length + 2 := by
  refine List.forall_mem_cons.mpr ⟨Table.count_bar_dividerLine, List.forall_mem_map.mpr ?_⟩
  refine List.forall_mem_map.mpr fun a _ =>
    Table.count_bar_rowLine (t := f.table settings source) hglyph ?_
  rw [values_row, table, List.length_map, List.length_map]

end Formula

namespace Table

open Sheet Text

/-- The markdown of a table has a header line, a divider and a line for each row.  All of them
have as many bars as there are cells and one more, but for the header line: its labels have
bars of their own in the plain style if the text has a disjunction. -/
theorem isRectangular_iff {compiled settings : Settings} {text : String} {p : Program}
    (hp : Program.ofText compiled text = .ok p) (hcompiled : compiled.strict = true)
    (hn : p.variableCount ≤ settings.maxVariables)
    (htrue : Avoids ['|', '\n'] settings.trueGlyph.toList)
    (hfalse : Avoids ['|', '\n'] settings.falseGlyph.toList) :
    ∃ t, build settings p = .ok t ∧ t.lines.length = 2 + 2 ^ p.variableCount ∧
      (∀ l ∈ t.lines.tail, l.count '|' = t.headers.length + 2) ∧
      (t.IsRectangular ↔ settings.style ≠ .ascii ∨ '|' ∉ text.toList) := by
  obtain ⟨d, hd, rfl⟩ := Program.ofText_eq_ok_iff.mp hp
  have hletters : ∀ c ∈ d.formula.leaves, isLetter c = true := by
    rw [← d.phrase_formula]
    exact fun c hc => (d.phrase_fits.isVariable c hc).2.2.2 hcompiled
  have hglyph : ∀ value, Avoids ['|', '\n'] (settings.glyph value).toList :=
    Bool.rec hfalse htrue
  -- The bar is no blank, so it is a sign of the text if it stands in it at all.
  have hbar : .binary .or ∉ d.formula.connectives ↔ '|' ∉ text.toList := by
    rw [← d.phrase_formula, ← Phrase.sign_mem_text_iff d.phrase_fits, d.phrase_text, hd,
      mem_trim (by decide)]
    rfl
  rw [Program.variableCount_ofFormula] at hn
  refine ⟨d.formula.table settings (trimmed text), ?_, ?_, ?_, ?_⟩
  · rw [build_ofFormula, if_neg (Nat.not_lt.mpr hn)]
  · rw [Formula.lines_table hletters hglyph, List.length_cons, List.length_cons, List.length_map,
      Formula.table, List.length_map, assignments_length, Program.variableCount_ofFormula]
    omega
  · rw [Formula.lines_table hletters hglyph, List.tail_cons]
    exact Formula.count_bar_tail hglyph
  · rw [IsRectangular, Formula.lines_table hletters hglyph, List.forall_mem_cons,
      and_iff_left (Formula.count_bar_tail hglyph), count_bar_headerLine_eq_iff,
      Formula.bar_not_mem_headerCells_iff hletters, hbar]

theorem isRectangular_iff_unicode :
    let settings : Settings := { style := .unicode, trueGlyph := "1,", falseGlyph := "" }
    ∃ p, Program.ofText { strict := true } "~(p|q)" = .ok p ∧
      p.variableCount ≤ settings.maxVariables ∧ Avoids ['|', '\n'] settings.trueGlyph.toList ∧
      Avoids ['|', '\n'] settings.falseGlyph.toList ∧
      ∃ t, build settings p = .ok t ∧ t.lines.length = 6 ∧ t.IsRectangular := by
  intro settings
  let p : Program := .ofFormula "~(p|q)" (.not (.binary .or (.var 'p') (.var 'q')))
  have hp : Program.ofText { strict := true } "~(p|q)" = .ok p := rfl
  have hn : p.variableCount ≤ settings.maxVariables := by decide
  have htrue : Avoids ['|', '\n'] settings.trueGlyph.toList := by decide
  have hfalse : Avoids ['|', '\n'] settings.falseGlyph.toList := by decide
  obtain ⟨t, ht, hlength, -, hiff⟩ := isRectangular_iff hp rfl hn htrue hfalse
  exact ⟨p, hp, hn, htrue, hfalse, t, ht, hlength, hiff.mpr (.inl (by decide))⟩

/-- The header line of a disjunction in the plain style has a cell too many. -/
theorem not_isRectangular_disjunction :
    ∃ p t, Program.ofText { strict := true } "p|q" = .ok p ∧
      build { strict := true, style := .ascii } p = .ok t ∧ ¬t.IsRectangular ∧
      t.headers.length + 2 = 3 ∧ t.lines.map (·.count '|') = [4, 3, 3, 3, 3, 3] := by
  let p : Program := .ofFormula "p|q" (.binary .or (.var 'p') (.var 'q'))
  let t : Table := (Formula.binary .or (.var 'p') (.var 'q')).table
    { strict := true, style := .ascii } "p|q"
  have hcounts : t.lines.map (·.count '|') = [4, 3, 3, 3, 3, 3] := by decide +kernel
  have hfour : 4 ∈ t.lines.map (·.count '|') := by rw [hcounts]; decide
  obtain ⟨l, hl, hcount⟩ := List.mem_map.mp hfour
  refine ⟨p, t, rfl, rfl, fun h => ?_, rfl, hcounts⟩
  rw [h l hl] at hcount
  cases hcount

end Table

end PropTable

import PropTable.Proofs.Elements

/-!
# What is read off a page

The elements of a page that belong to its outcome, and what a reader finds in them: the message
of a complaint, or the title, listing, verdict, headings, cells and markdown of a table.  None
of them begins in what surrounds the outcome (`Page.Element.texts_write`), and in the outcome
each is read off the pieces that it was written with.
-/

namespace PropTable

namespace Page

open Piece

/-! ## The markup of the outcome -/

def complaintMarkups : List String := ["<p class=\"error\">", "</p>"]

def captionMarkups : List String :=
  ["\n    <h2>", "</h2>\n    <p>RPN: <code>", "</code> &mdash; "]

def tableStart : String := "</p>\n    <table>\n      <tr>\n        "

def headingMarkups : List String := ["<th>", "\n        ", "</th>"]

def cellMarkups : List String := ["<td>", "\n        ", "</td>"]

def bodyMarkups : List String := cellMarkups ++ ["\n      <tr>\n        ", "\n      </tr>\n      "]

def sheetMarkups : List String := ["\n    </table>\n    <pre>", "</pre>\n  "]

/-- The markup below the captions. -/
def belowMarkups : List String := headingMarkups ++ bodyMarkups ++ sheetMarkups

/-! ## The elements of the outcome -/

namespace Element

def complaint : Element where
  opening := "p class=\"error\">".toList
  closing := "/p>".toList
  others := captionMarkups ++ tableStart :: belowMarkups

def title : Element where
  opening := "h2>".toList
  closing := "/h2>".toList
  others := "</code> &mdash; " :: tableStart :: belowMarkups

/-- The listing stands in a code element, as the symbols of the legend do, so that its name is
taken into the mark. -/
def listing : Element where
  opening := "p>RPN: <code>".toList
  closing := "/code>".toList
  others := "\n    <h2>" :: tableStart :: belowMarkups

/-- The verdict has no tags of its own and follows the listing in its paragraph. -/
def verdict : Element where
  opening := "/code> &mdash; ".toList
  closing := "/p>".toList
  others := ["\n    <h2>", "</h2>\n    <p>RPN: <code>"] ++ belowMarkups

def table : Element where
  opening := "table>".toList
  closing := "/table>".toList
  others := captionMarkups ++ "</pre>\n  " :: complaintMarkups

def row : Element where
  opening := "tr>".toList
  closing := "/tr>".toList
  others := captionMarkups ++ sheetMarkups

def heading : Element where
  opening := "th>".toList
  closing := "/th>".toList
  others := (captionMarkups ++ [tableStart]) ++ (bodyMarkups ++ sheetMarkups)

def cell : Element where
  opening := "td>".toList
  closing := "/td>".toList
  others := headingMarkups

def markdown : Element where
  opening := "pre>".toList
  closing := "/pre>".toList
  others := captionMarkups ++ tableStart :: (headingMarkups ++ bodyMarkups)

def all : List Element := [complaint, title, listing, verdict, table, row, heading, cell, markdown]

end Element

/-! ## What surrounds the outcome -/

/-- Markup in which no element of the outcome begins. -/
def IsPlain (text : String) : Prop := ∀ e ∈ Element.all, Clear e.start text.toList

theorem isPlain_ofList {cs : List Char} (h : ∀ e ∈ Element.all, Clear e.start cs) :
    IsPlain (String.ofList cs) := fun e he => clear_ofList (h e he)

theorem isPlain_frame (v : View) : ∀ text ∈ markups (head ++ legend ++ form v), IsPlain text := by
  have hhead : ∀ text ∈ markups head, IsPlain text := by
    repeat refine List.forall_mem_cons.mpr ⟨isPlain_ofList (by decide), ?_⟩
    exact List.forall_mem_nil _
  have hlegend : ∀ text ∈ markups legend, IsPlain text := by
    repeat refine List.forall_mem_cons.mpr ⟨isPlain_ofList (by decide), ?_⟩
    exact List.forall_mem_nil _
  have hoption (style : Style) : ∀ text ∈ markups (styleOption v.selected style), IsPlain text := by
    refine List.forall_mem_cons.mpr ⟨isPlain_ofList (by decide), ?_⟩
    refine List.forall_mem_cons.mpr ⟨?_, ?_⟩
    · split
      · exact isPlain_ofList (by decide)
      · exact isPlain_ofList (by decide)
    · exact List.forall_mem_cons.mpr ⟨isPlain_ofList (by decide), List.forall_mem_nil _⟩
  have hform : ∀ text ∈ markups (form v), IsPlain text := by
    rw [form, markups_append, markups_append, markups_append, markups_flatMap]
    refine List.forall_mem_append.mpr ⟨List.forall_mem_append.mpr ⟨?_, ?_⟩, ?_⟩
    · repeat refine List.forall_mem_cons.mpr ⟨isPlain_ofList (by decide), ?_⟩
      exact List.forall_mem_nil _
    · exact List.forall_mem_flatMap.mpr fun style _ => hoption style
    · repeat refine List.forall_mem_cons.mpr ⟨isPlain_ofList (by decide), ?_⟩
      exact List.forall_mem_nil _
  rw [markups_append, markups_append]
  exact List.forall_mem_append.mpr ⟨List.forall_mem_append.mpr ⟨hhead, hlegend⟩, hform⟩

/-! ## The outcome on the page -/

namespace Element

variable {e : Element}

/-- The elements of a page are those of its outcome. -/
theorem texts_write (he : e ∈ all) {v : View} {complaints tables : List (List Char)}
    (hcomplaint : e.Reads (written (complaintPart v.outcome)) complaints)
    (htable : e.Reads (written (tablePart v.outcome)) tables) :
    e.texts (write v).toList = complaints ++ tables := by
  have hframe : e.Reads (written (head ++ legend ++ form v)) [] :=
    reads_of_markups fun text h => isPlain_frame v text h e he
  have hgap : e.Reads (written [markup "\n\n  "]) [] :=
    reads_of_markups (List.forall_mem_singleton.mpr (isPlain_ofList (by decide) e he))
  have hend : e.Reads (written [markup "\n</body>\n</html>"]) [] :=
    reads_of_markups (List.forall_mem_singleton.mpr (isPlain_ofList (by decide) e he))
  have hpage := (((hframe.append hcomplaint).append hgap).append htable).append hend
  simp only [← written_append] at hpage
  have hwrite : (write v).toList = written (pieces v) := toList_write v
  rw [hwrite, pieces, hpage.texts_eq]
  simp

end Element

/-! ### The parts of the table -/

def captions (p : Service.Presentation) : List Piece :=
  [markup "\n    <h2>", slot p.pretty, markup "</h2>\n    <p>RPN: <code>",
    slot (" ".intercalate p.report.listing), markup "</code> &mdash; ", slot p.report.verdict.name]

/-- The cells of a line of the table, which come in two groups. -/
def cellsOf (before after : String) (front back : List String) : List Piece :=
  front.flatMap (framed before · after) ++ [markup "\n        "] ++
    back.flatMap (framed before · after)

def headings (r : Report) : List Piece := cellsOf "<th>" "</th>" r.variableNames r.headers

def cells (row : Report.Row) : List Piece := cellsOf "<td>" "</td>" row.assignment row.values

def body (r : Report) : List Piece :=
  markup "\n      </tr>\n      " :: r.rows.flatMap tableRow

def sheet (r : Report) : List Piece := framed "\n    </table>\n    <pre>" r.markdown "</pre>\n  "

theorem tableRow_eq (row : Report.Row) :
    tableRow row =
      markup "\n      <tr>\n        " :: (cells row ++ [markup "\n      </tr>\n      "]) := rfl

theorem tablePart_eq (p : Service.Presentation) :
    tablePart (.table p) = captions p ++
      (markup tableStart :: (headings p.report ++ (body p.report ++ sheet p.report))) := by
  simp [tablePart, tableStart, captions, headings, headerCells, cellsOf, body, sheet, framed]

section

variable {P : String → Prop}

theorem forall_markups_cellsOf {before after : String}
    (h : ∀ text ∈ [before, "\n        ", after], P text) (front back : List String) :
    ∀ text ∈ markups (cellsOf before after front back), P text := by
  simp only [List.forall_mem_cons] at h
  obtain ⟨hbefore, hgap, hafter, -⟩ := h
  have hcells (texts : List String) :
      ∀ text ∈ markups (texts.flatMap (framed before · after)), P text :=
    forall_markups_framed hbefore hafter texts
  simp only [cellsOf, markups_append, List.forall_mem_append]
  exact ⟨⟨hcells front, List.forall_mem_singleton.mpr hgap⟩, hcells back⟩

theorem forall_markups_headings (h : ∀ text ∈ headingMarkups, P text) (r : Report) :
    ∀ text ∈ markups (headings r), P text :=
  forall_markups_cellsOf h r.variableNames r.headers

theorem forall_markups_cells (h : ∀ text ∈ cellMarkups, P text) (row : Report.Row) :
    ∀ text ∈ markups (cells row), P text :=
  forall_markups_cellsOf h row.assignment row.values

theorem forall_markups_body (h : ∀ text ∈ bodyMarkups, P text) (r : Report) :
    ∀ text ∈ markups (body r), P text := by
  rw [bodyMarkups, List.forall_mem_append, List.forall_mem_cons, List.forall_mem_singleton] at h
  obtain ⟨hcells, hstart, hstop⟩ := h
  have hrow (row : Report.Row) : ∀ text ∈ markups (tableRow row), P text := by
    rw [tableRow_eq]
    refine List.forall_mem_cons.mpr ⟨hstart, ?_⟩
    rw [← markups, markups_append, List.forall_mem_append]
    exact ⟨forall_markups_cells hcells row, List.forall_mem_singleton.mpr hstop⟩
  refine List.forall_mem_cons.mpr ⟨hstop, ?_⟩
  rw [← markups, markups_flatMap]
  exact List.forall_mem_flatMap.mpr fun row _ => hrow row

theorem forall_markups_grid (h : ∀ text ∈ headingMarkups ++ bodyMarkups, P text) (r : Report) :
    ∀ text ∈ markups (headings r ++ body r), P text := by
  rw [List.forall_mem_append] at h
  rw [markups_append, List.forall_mem_append]
  exact ⟨forall_markups_headings h.1 r, forall_markups_body h.2 r⟩

theorem forall_markups_below (h : ∀ text ∈ belowMarkups, P text) (r : Report) :
    ∀ text ∈ markups (headings r ++ (body r ++ sheet r)), P text := by
  rw [belowMarkups, List.forall_mem_append] at h
  rw [← List.append_assoc, markups_append, List.forall_mem_append]
  exact ⟨forall_markups_grid h.1 r, h.2⟩

end

/-! ### What the elements of the outcome have in them -/

namespace Element

theorem reads_complaint (message : String) :
    complaint.Reads (written (complaintPart (.complaint message))) [escaped message] :=
  reads_framed (a := []) (d := []) message (by decide) (by decide) .nil .nil

theorem reads_no_table (message : String) :
    table.Reads (written (complaintPart (.complaint message))) [] := by
  have hothers : ∀ text ∈ captionMarkups ++ "</pre>\n  " :: complaintMarkups,
      Clear table.start text.toList := table.clear_others
  rw [List.forall_mem_append, List.forall_mem_cons] at hothers
  exact reads_of_markups hothers.2.2

variable (p : Service.Presentation)

theorem reads_no_complaint : complaint.Reads (written (tablePart (.table p))) [] := by
  have hothers : ∀ text ∈ captionMarkups ++ tableStart :: belowMarkups,
      Clear complaint.start text.toList := complaint.clear_others
  rw [List.forall_mem_append, List.forall_mem_cons] at hothers
  obtain ⟨hcaptions, hstart, hbelow⟩ := hothers
  refine reads_of_markups ?_
  rw [tablePart_eq, markups_append, List.forall_mem_append]
  exact ⟨hcaptions, List.forall_mem_cons.mpr ⟨hstart, forall_markups_below hbelow p.report⟩⟩

theorem reads_title : title.Reads (written (tablePart (.table p))) [escaped p.pretty] := by
  have hframed : title.Reads (written (framed "\n    <h2>" p.pretty "</h2>\n    <p>RPN: <code>"))
      [escaped p.pretty] :=
    reads_framed (a := "\n    ".toList) (d := "\n    <p>RPN: <code>".toList) p.pretty (by decide)
      (by decide) (by decide) (clear_ofList (by decide))
  have hothers : ∀ text ∈ "</code> &mdash; " :: tableStart :: belowMarkups,
      Clear title.start text.toList := title.clear_others
  rw [List.forall_mem_cons, List.forall_mem_cons] at hothers
  obtain ⟨hcode, hstart, hbelow⟩ := hothers
  rw [tablePart_eq]
  refine hframed.within [] _ nofun (List.forall_mem_cons.mpr ⟨hcode, ?_⟩)
  exact List.forall_mem_cons.mpr ⟨hstart, forall_markups_below hbelow p.report⟩

theorem reads_listing : listing.Reads (written (tablePart (.table p)))
    [escaped (" ".intercalate p.report.listing)] := by
  have hframed : listing.Reads (written (framed "</h2>\n    <p>RPN: <code>"
      (" ".intercalate p.report.listing) "</code> &mdash; "))
      [escaped (" ".intercalate p.report.listing)] :=
    reads_framed (a := "</h2>\n    ".toList) (d := " &mdash; ".toList) _ (by decide) (by decide)
      (by decide) (by decide)
  have hothers : ∀ text ∈ "\n    <h2>" :: tableStart :: belowMarkups,
      Clear listing.start text.toList := listing.clear_others
  rw [List.forall_mem_cons, List.forall_mem_cons] at hothers
  obtain ⟨htitle, hstart, hbelow⟩ := hothers
  rw [tablePart_eq]
  refine hframed.within [markup "\n    <h2>", slot p.pretty] _
    (List.forall_mem_singleton.mpr htitle) ?_
  exact List.forall_mem_cons.mpr ⟨hstart, forall_markups_below hbelow p.report⟩

theorem reads_verdict :
    verdict.Reads (written (tablePart (.table p))) [escaped p.report.verdict.name] := by
  have hframed : verdict.Reads (written (framed "</code> &mdash; " p.report.verdict.name
      tableStart)) [escaped p.report.verdict.name] :=
    reads_framed (a := []) (d := "\n    <table>\n      <tr>\n        ".toList) _ (by decide)
      (by decide) .nil (clear_ofList (by decide))
  have hothers : ∀ text ∈ ["\n    <h2>", "</h2>\n    <p>RPN: <code>"] ++ belowMarkups,
      Clear verdict.start text.toList := verdict.clear_others
  obtain ⟨hfront, hbelow⟩ := List.forall_mem_append.mp hothers
  rw [tablePart_eq]
  exact hframed.within [markup "\n    <h2>", slot p.pretty, markup "</h2>\n    <p>RPN: <code>",
    slot (" ".intercalate p.report.listing)] _ hfront (forall_markups_below hbelow p.report)

theorem reads_markdown :
    markdown.Reads (written (tablePart (.table p))) [escaped p.report.markdown] := by
  have hframed : markdown.Reads (written (sheet p.report)) [escaped p.report.markdown] :=
    reads_framed (a := "\n    </table>\n    ".toList) (d := "\n  ".toList) _ (by decide)
      (by decide) (by decide) (by decide)
  have hothers : ∀ text ∈ captionMarkups ++ tableStart :: (headingMarkups ++ bodyMarkups),
      Clear markdown.start text.toList := markdown.clear_others
  rw [List.forall_mem_append, List.forall_mem_cons] at hothers
  obtain ⟨hcaptions, hstart, hgrid⟩ := hothers
  have hwithin := hframed.within
    (captions p ++ markup tableStart :: (headings p.report ++ body p.report)) [] ?_ nofun
  · rw [tablePart_eq]
    simpa using hwithin
  · rw [markups_append, List.forall_mem_append]
    exact ⟨hcaptions, List.forall_mem_cons.mpr ⟨hstart, forall_markups_grid hgrid p.report⟩⟩

theorem reads_table : ∃ content, table.Reads (written (tablePart (.table p))) [content] := by
  have hinner : ∀ text ∈ headingMarkups ++ bodyMarkups, table.IsClear text.toList := by
    repeat refine List.forall_mem_cons.mpr ⟨isClear_ofList (by decide), ?_⟩
    exact List.forall_mem_nil _
  have hfront : table.IsClear "\n      <tr>\n        ".toList := by decide
  have hback : table.IsClear "\n    ".toList := by decide
  have hbefore : tableStart.toList =
      "</p>\n    ".toList ++ (table.start ++ "\n      <tr>\n        ".toList) := by decide
  have hafter : "\n    </table>\n    <pre>".toList =
      "\n    ".toList ++ (table.stop ++ "\n    <pre>".toList) := by decide
  -- The table begins in the last piece of the captions and ends in the first of the sheet.
  have hgrid := isClear_written (forall_markups_grid hinner p.report)
  have hblock := reads_block hbefore hafter (by decide) (hfront.append (hgrid.append hback))
    (by decide)
  have hothers : ∀ text ∈ captionMarkups ++ "</pre>\n  " :: complaintMarkups,
      Clear table.start text.toList := table.clear_others
  rw [List.forall_mem_append, List.forall_mem_cons] at hothers
  obtain ⟨hcaptions, hend, -⟩ := hothers
  have hwithin := hblock.within (captions p) [slot p.report.markdown, markup "</pre>\n  "] hcaptions
    (List.forall_mem_singleton.mpr hend)
  have hpart : tablePart (.table p) = captions p ++
      (markup tableStart :: (headings p.report ++ body p.report ++
        [markup "\n    </table>\n    <pre>"]) ++
          [slot p.report.markdown, markup "</pre>\n  "]) := by
    simp [tablePart_eq, sheet, framed]
  rw [hpart]
  exact ⟨_, hwithin⟩

/-! ### Rows and cells -/

theorem reads_cellsOf {e : Element} {before after : String} (hbefore : before.toList = e.start)
    (hafter : after.toList = e.stop) (hgap : Clear e.start "\n        ".toList)
    (front back : List String) :
    e.Reads (written (cellsOf before after front back)) ((front ++ back).map escaped) := by
  have hcells (texts : List String) :
      e.Reads (written (texts.flatMap (framed before · after))) (texts.map escaped) :=
    reads_framed_flatMap texts fun text =>
      reads_framed (a := []) (d := []) text hbefore (by rw [hafter, List.append_nil]) .nil .nil
  have hmiddle : e.Reads (written [markup "\n        "]) [] :=
    reads_of_markups (List.forall_mem_singleton.mpr hgap)
  have hall := ((hcells front).append hmiddle).append (hcells back)
  rwa [← written_append, ← written_append, List.append_nil, ← List.map_append] at hall

theorem reads_heading : heading.Reads (written (tablePart (.table p)))
    ((p.report.variableNames ++ p.report.headers).map escaped) := by
  have hheadings : heading.Reads (written (headings p.report))
      ((p.report.variableNames ++ p.report.headers).map escaped) :=
    reads_cellsOf (by decide) (by decide) (by decide) p.report.variableNames p.report.headers
  have hothers : ∀ text ∈ (captionMarkups ++ [tableStart]) ++ (bodyMarkups ++ sheetMarkups),
      Clear heading.start text.toList := heading.clear_others
  obtain ⟨hfront, hback⟩ := List.forall_mem_append.mp hothers
  obtain ⟨hbody, hsheet⟩ := List.forall_mem_append.mp hback
  have hwithin := hheadings.within (captions p ++ [markup tableStart])
    (body p.report ++ sheet p.report) hfront ?_
  · rw [tablePart_eq]
    simpa using hwithin
  · rw [markups_append, List.forall_mem_append]
    exact ⟨forall_markups_body hbody p.report, hsheet⟩

/-- What stands in a row of the table. -/
def rowContent (ps : List Piece) : List Char :=
  "\n        ".toList ++ (written ps ++ "\n      ".toList)

theorem texts_cell_rowContent {ps : List Piece} {contents : List (List Char)}
    (h : cell.Reads (written ps) contents) : cell.texts (rowContent ps) = contents := by
  have hbefore : cell.Reads "\n        ".toList [] := reads_of_clear (by decide)
  have hafter : cell.Reads "\n      ".toList [] := reads_of_clear (by decide)
  have hall := (hbefore.append (h.append hafter)).texts_eq
  rwa [List.nil_append, List.append_nil] at hall

theorem texts_cell_headings (r : Report) : cell.texts (rowContent (headings r)) = [] := by
  have hothers : ∀ text ∈ headingMarkups, Clear cell.start text.toList := cell.clear_others
  exact texts_cell_rowContent (reads_of_markups (forall_markups_headings hothers r))

theorem texts_cell_cells (row : Report.Row) :
    cell.texts (rowContent (cells row)) = (row.assignment ++ row.values).map escaped :=
  texts_cell_rowContent
    (reads_cellsOf (by decide) (by decide) (by decide) row.assignment row.values)

/-- A row begins where the table does or in a piece of its own. -/
theorem reads_row {before : String} {a : List Char} {ps : List Piece}
    (hbefore : before.toList = a ++ (row.start ++ "\n        ".toList)) (ha : Clear row.start a)
    (hps : ∀ text ∈ markups ps, row.IsClear text.toList) :
    row.Reads (written (markup before :: (ps ++ [markup "\n      </tr>\n      "])))
      [rowContent ps] := by
  have hfront : row.IsClear "\n        ".toList := by decide
  have hback : row.IsClear "\n      ".toList := by decide
  have hafter : "\n      </tr>\n      ".toList =
      "\n      ".toList ++ (row.stop ++ "\n      ".toList) := by decide
  exact reads_block hbefore hafter ha (hfront.append ((isClear_written hps).append hback))
    (by decide)

/-- The first row has the headings, the others have the cells. -/
theorem reads_rows : row.Reads (written (tablePart (.table p)))
    (rowContent (headings p.report) :: p.report.rows.map fun x => rowContent (cells x)) := by
  have hinner : ∀ text ∈ headingMarkups ++ cellMarkups, row.IsClear text.toList := by
    repeat refine List.forall_mem_cons.mpr ⟨isClear_ofList (by decide), ?_⟩
    exact List.forall_mem_nil _
  obtain ⟨hheadings, hcells⟩ := List.forall_mem_append.mp hinner
  have hfirst : row.Reads (written (markup tableStart :: (headings p.report ++
      [markup "\n      </tr>\n      "]))) [rowContent (headings p.report)] :=
    reads_row (a := "</p>\n    <table>\n      ".toList) (by decide) (clear_ofList (by decide))
      (forall_markups_headings hheadings p.report)
  have hstart : "\n      <tr>\n        ".toList =
      "\n      ".toList ++ (row.start ++ "\n        ".toList) := by decide
  have hrow (x : Report.Row) : row.Reads (written (tableRow x)) [rowContent (cells x)] :=
    reads_row hstart (by decide) (forall_markups_cells hcells x)
  have hrows : row.Reads (written (p.report.rows.flatMap tableRow))
      (p.report.rows.map fun x => rowContent (cells x)) := by
    rw [written_flatMap, List.map_eq_flatMap]
    exact Reads.flatMap fun x _ => hrow x
  have hboth := hfirst.append hrows
  rw [← written_append] at hboth
  have hothers : ∀ text ∈ captionMarkups ++ sheetMarkups, Clear row.start text.toList :=
    row.clear_others
  obtain ⟨hcaptions, hsheet⟩ := List.forall_mem_append.mp hothers
  have hwithin := hboth.within (captions p) (sheet p.report) hcaptions hsheet
  rw [tablePart_eq]
  simpa [body] using hwithin

end Element

end Page
end PropTable

import PropTable.Proofs.Answers
import PropTable.Proofs.Blanks
import PropTable.Proofs.PageElements

/-!
# The page and the answer agree

A formula and a style can be sent with the form of the page or as a request.  The page shows a
table if the answer has one, with the texts of the answer in its elements, and a complaint if
the answer is one, with its message (`Page.formView_agrees`).
-/

namespace PropTable

namespace Service

variable {config : Config} {bound : Int}

/-- The blanks at the ends of a formula do not count, and the configured style need not be
given. -/
theorem present_congr {formula formula' : String} {given given' : Json.Value}
    (hformula : Text.trim formula.toList = Text.trim formula'.toList)
    (hgiven : optionsFor config given = optionsFor config given') :
    present config formula given = present config formula' given' := by
  have hprogram (settings : Settings) :
      Program.ofText settings formula = Program.ofText settings formula' := by
    rw [Program.ofText, Program.ofTextGrouped, hformula]
    rfl
  simp only [present, hgiven, hprogram]

theorem optionsFor_configStyle (h : config.IsTyped bound) :
    optionsFor config (configStyle config) = optionsFor config .null := by
  obtain ⟨v, hv⟩ := h.style
  have hconfigured : configStyle config = v := by rw [configStyle, hv, Option.getD_some]
  have hvalue : config.valueOf .style = v := by rw [Config.valueOf, hv, Option.getD_some]
  have hstyle : config.styleFor (configStyle config) = config.styleFor .null := by
    rw [Config.styleFor, Config.styleFor, hconfigured, hvalue]
    split <;> rfl
  rw [optionsFor_eq h, optionsFor_eq h, hstyle]

section

variable {payload given : Json.Value} {formula : String}
  (hrequest : request? payload = some (formula, given))
include hrequest

theorem answer_of_present {p : Presentation} (hp : present config formula given = .ok p) :
    answer config payload = .ok { status := 200, body := p.value } := by
  rw [answer, hrequest]
  dsimp only
  rw [hp]

theorem answer_of_refusal {refusal : Refusal} {kind message : String} {position : Option Int}
    (hp : present config formula given = .error refusal)
    (htold : refusal.told? = some (kind, message, position)) :
    answer config payload = .ok (complaintAnswer kind message position) := by
  rw [answer, hrequest]
  dsimp only
  rw [hp]
  dsimp only
  rw [htold]

end

end Service

namespace Page

/-- The form with a formula and a style, if one is chosen. -/
def fieldsOf (formula : String) (style : Option String) : List (String × String) :=
  ("formula", formula) :: style.toList.map fun name => ("style", name)

/-- The request with a formula and a style, if one is given. -/
def requestOf (formula : String) (style : Option String) : Json.Value :=
  .object (("proposition", .str formula) :: style.toList.map fun name => ("style", .str name))

/-- The elements of a page have the texts of a table in JSON. -/
structure ShowsTable (page : List Char) (body : Json.Value) : Prop where
  title : ∃ s, body.field? "formula_pretty" = some (.str s) ∧ Element.title.texts page = [escaped s]
  listing : ∃ symbols, body.field? "postfix" = some (.ofTexts symbols) ∧
    Element.listing.texts page = [escaped (" ".intercalate symbols)]
  verdict : ∃ s, body.field? "classification" = some (.str s) ∧
    Element.verdict.texts page = [escaped s]
  headings : ∃ names headers, body.field? "variables" = some (.ofTexts names) ∧
    body.field? "headers" = some (.ofTexts headers) ∧
    Element.heading.texts page = (names ++ headers).map escaped
  /-- The first row has the headings and no other cells. -/
  rows : ∃ rows : List Report.Row, body.field? "rows" = some (.list (rows.map Service.rowValue)) ∧
    (Element.row.texts page).map Element.cell.texts =
      [] :: rows.map fun row => (row.assignment ++ row.values).map escaped
  markdown : ∃ s, body.field? "markdown" = some (.str s) ∧
    Element.markdown.texts page = [escaped s]

/-- The page has a complaint with the message of an answer. -/
def ShowsComplaint (page : List Char) (body : Json.Value) : Prop :=
  ∃ message, body.field? "message" = some (.str message) ∧
    Element.complaint.texts page = [escaped message]

variable {v : View}

theorem texts_of_table {p : Service.Presentation} (hv : v.outcome = .table p) {e : Element}
    (he : e ∈ Element.all) {contents : List (List Char)}
    (h : e.Reads (written (tablePart (.table p))) contents) :
    e.texts (write v).toList = contents := by
  have hcomplaint : e.Reads (written (complaintPart v.outcome)) [] := by
    rw [hv]
    exact fun _ => rfl
  exact Element.texts_write he hcomplaint (hv ▸ h)

theorem showsTable {p : Service.Presentation} (hv : v.outcome = .table p) :
    ShowsTable (write v).toList p.value where
  title := ⟨_, rfl, texts_of_table hv (by simp [Element.all]) (Element.reads_title p)⟩
  listing := ⟨_, rfl, texts_of_table hv (by simp [Element.all]) (Element.reads_listing p)⟩
  verdict := ⟨_, rfl, texts_of_table hv (by simp [Element.all]) (Element.reads_verdict p)⟩
  headings := ⟨_, _, rfl, rfl, texts_of_table hv (by simp [Element.all]) (Element.reads_heading p)⟩
  rows := by
    refine ⟨p.report.rows, rfl, ?_⟩
    rw [texts_of_table hv (by simp [Element.all]) (Element.reads_rows p), List.map_cons,
      Element.texts_cell_headings, List.map_map]
    exact congrArg ([] :: ·) (List.map_congr_left fun row _ => Element.texts_cell_cells row)
  markdown := ⟨_, rfl, texts_of_table hv (by simp [Element.all]) (Element.reads_markdown p)⟩

theorem texts_of_complaint {message : String} (hv : v.outcome = .complaint message) {e : Element}
    (he : e ∈ Element.all) {contents : List (List Char)}
    (h : e.Reads (written (complaintPart (.complaint message))) contents) :
    e.texts (write v).toList = contents := by
  have htable : e.Reads (written (tablePart v.outcome)) [] := by
    rw [hv]
    exact fun _ => rfl
  rw [Element.texts_write he (hv ▸ h) htable, List.append_nil]

variable {config : Service.Config} {bound : Int}

/-- What is entered in the form is what is asked for in the request. -/
theorem present_entered (hconfig : config.IsTyped bound) (formula : String)
    (style : Option String) :
    ∃ given, Service.request? (requestOf formula style) = some (formula, given) ∧
      Service.present config (enteredFormula (fieldsOf formula style))
          (enteredStyle config (fieldsOf formula style)) =
        Service.present config formula given := by
  have hentered : Text.trim (Text.trimmed formula).toList = Text.trim formula.toList := by
    rw [Text.trimmed, String.toList_ofList, Text.trim_trim]
  cases style with
  | none =>
    exact ⟨.null, rfl, Service.present_congr hentered (Service.optionsFor_configStyle hconfig)⟩
  | some name => exact ⟨.str name, rfl, Service.present_congr hentered rfl⟩

/-- The page for a form and the answer to a request with the same formula and style agree.
Either both have the table, with the same texts, or both tell of the same fault. -/
theorem formView_agrees (hconfig : config.IsTyped bound) (formula : String)
    (style : Option String) :
    ∃ v a, formView config (fieldsOf formula style) = .ok v ∧
      Service.answer config (requestOf formula style) = .ok a ∧
      (a.status = 200 ∨ a.status = 400) ∧
      (Element.table.texts (write v).toList ≠ [] ↔ a.status = 200) ∧
      (Element.complaint.texts (write v).toList ≠ [] ↔ a.status = 400) ∧
      (a.status = 200 → ShowsTable (write v).toList a.body) ∧
      (a.status = 400 → ShowsComplaint (write v).toList a.body) := by
  obtain ⟨given, hrequest, hpresent⟩ := present_entered hconfig formula style
  rcases formView_cases hconfig (fieldsOf formula style) with
    ⟨p, hp, hview⟩ | ⟨refusal, kind, message, position, hrefusal, htold, hview⟩
  · rw [hpresent] at hp
    have hanswer := Service.answer_of_present hrequest hp
    obtain ⟨content, htable⟩ := Element.reads_table p
    have hshown := texts_of_table (v := viewOf config (fieldsOf formula style) (.table p)) rfl
      (by simp [Element.all]) htable
    have hnone := texts_of_table (v := viewOf config (fieldsOf formula style) (.table p)) rfl
      (by simp [Element.all]) (Element.reads_no_complaint p)
    have hother : ¬200 = 400 := by decide
    refine ⟨_, _, hview, hanswer, .inl rfl, ?_, ?_, fun _ => showsTable rfl,
      fun h => absurd h hother⟩
    · exact iff_of_true (by simp [hshown]) rfl
    · exact iff_of_false (by simp [hnone]) hother
  · rw [hpresent] at hrefusal
    have hanswer := Service.answer_of_refusal hrequest hrefusal htold
    have hshown := texts_of_complaint
      (v := viewOf config (fieldsOf formula style) (.complaint message)) rfl
      (by simp [Element.all]) (Element.reads_complaint message)
    have hnone := texts_of_complaint
      (v := viewOf config (fieldsOf formula style) (.complaint message)) rfl
      (by simp [Element.all]) (Element.reads_no_table message)
    have hother : ¬400 = 200 := by decide
    refine ⟨_, _, hview, hanswer, .inr rfl, ?_, ?_, fun h => absurd h hother,
      fun _ => ⟨message, rfl, hshown⟩⟩
    · exact iff_of_false (by simp [hnone]) hother
    · exact iff_of_true (by simp [hshown]) rfl

/-- A variable that is a quotation mark, and a connective that is an angle bracket. -/
theorem formView_agrees_quotation :
    Service.Config.IsTyped Service.baseConfig 12 ∧
      ∃ v a, formView Service.baseConfig (fieldsOf " p<\" " (some "ascii")) = .ok v ∧
        Service.answer Service.baseConfig (requestOf " p<\" " (some "ascii")) = .ok a ∧
        a.status = 200 ∧ Element.table.texts (write v).toList ≠ [] ∧
        ShowsTable (write v).toList a.body := by
  obtain ⟨v, a, hv, ha, -, htable, -, hshows, -⟩ :=
    formView_agrees Service.isTyped_baseConfig " p<\" " (some "ascii")
  have hstatus : (Service.answer Service.baseConfig (requestOf " p<\" " (some "ascii"))).map
      (·.status) = .ok 200 := rfl
  rw [ha] at hstatus
  have hok : a.status = 200 := Except.ok.inj hstatus
  exact ⟨Service.isTyped_baseConfig, v, a, hv, ha, hok, htable.mpr hok, hshows hok⟩

end Page

end PropTable

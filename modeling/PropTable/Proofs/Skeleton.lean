import PropTable.Proofs.Escaping
import PropTable.Proofs.Presentations

/-!
# The skeleton of a page

A page is a skeleton of markup with a hole for each text.  The skeleton depends on the layout
of the page only: the style that is selected, whether a table or a complaint is shown, and the
numbers of variables, headers and rows.  The holes are filled with escaped texts, so nothing
that is entered in the form can change the markup (`Page.formView_skeleton`).
-/

namespace PropTable
namespace Page

/-! ## Skeletons and holes -/

/-- The markup of a piece, if it is not a slot. -/
def Piece.markup? : Piece → Option String
  | markup text => some text
  | slot _ => none

def Piece.slot? : Piece → Option String
  | markup _ => none
  | slot text => some text

/-- The markup of pieces, with a hole for each slot. -/
def skeleton (ps : List Piece) : List (Option String) := ps.map Piece.markup?

def slots (ps : List Piece) : List String := ps.filterMap Piece.slot?

/-- Writes a text into each hole of a skeleton. -/
def fill : List (Option String) → List String → List Char
  | [], _ => []
  | some text :: rest, texts => text.toList ++ fill rest texts
  | none :: rest, text :: texts => text.toList ++ fill rest texts
  | none :: rest, [] => fill rest []

theorem skeleton_append (ps qs : List Piece) :
    skeleton (ps ++ qs) = skeleton ps ++ skeleton qs := List.map_append

@[simp] theorem slots_nil : slots [] = [] := rfl

@[simp] theorem slots_markup (text : String) (ps : List Piece) :
    slots (.markup text :: ps) = slots ps := rfl

@[simp] theorem slots_slot (text : String) (ps : List Piece) :
    slots (.slot text :: ps) = text :: slots ps := rfl

theorem slots_append (ps qs : List Piece) : slots (ps ++ qs) = slots ps ++ slots qs :=
  List.filterMap_append

theorem toList_write (v : View) :
    (write v).toList = (pieces v).flatMap fun p => p.written.toList := by
  rw [write, String.toList_join, List.flatMap_map]

theorem fill_skeleton (ps : List Piece) :
    fill (skeleton ps) ((slots ps).map escape) = ps.flatMap fun p => p.written.toList := by
  induction ps with
  | nil => rfl
  | cons p rest ih =>
    cases p with
    | markup text => exact congrArg (text.toList ++ ·) ih
    | slot text => exact congrArg ((escape text).toList ++ ·) ih

theorem skeleton_flatMap {α : Type} {f : α → List Piece} {k : List (Option String)} {xs : List α}
    (h : ∀ x ∈ xs, skeleton (f x) = k) :
    skeleton (xs.flatMap f) = (List.replicate xs.length k).flatten := by
  induction xs with
  | nil => rfl
  | cons x rest ih =>
    rw [List.flatMap_cons, skeleton_append, h x List.mem_cons_self,
      ih fun y hy => h y (List.mem_cons_of_mem x hy), List.length_cons, List.replicate_succ,
      List.flatten_cons]

theorem slots_flatMap {α : Type} (f : α → List Piece) (xs : List α) :
    slots (xs.flatMap f) = xs.flatMap fun x => slots (f x) := by
  rw [slots, List.filterMap_flatMap]
  rfl

theorem slots_framed (before after : String) (texts : List String) :
    slots (texts.flatMap (framed before · after)) = texts := by
  rw [slots_flatMap]
  exact List.flatMap_singleton' texts

/-! ## Layouts -/

/-- What a page shows below the form, apart from its texts. -/
inductive Shape where
  | nothing
  | complaint
  | table (names headers rows : Nat)
deriving DecidableEq

structure Layout where
  selected : Option Style
  shape : Shape
deriving DecidableEq

def Outcome.shape : Outcome → Shape
  | .nothing => .nothing
  | .complaint _ => .complaint
  | .table p =>
    .table p.report.variableNames.length p.report.headers.length p.report.rows.length

def View.layout (v : View) : Layout := { selected := v.selected, shape := v.outcome.shape }

/-- A table has in each row a cell for each variable and one for each header. -/
def Outcome.IsRegular : Outcome → Prop
  | .table p => ∀ row ∈ p.report.rows,
    row.assignment.length = p.report.variableNames.length ∧
      row.values.length = p.report.headers.length
  | _ => True

theorem skeleton_headerCells (texts : List String) :
    skeleton (headerCells texts) =
      (List.replicate texts.length [some "<th>", none, some "</th>"]).flatten :=
  skeleton_flatMap fun _ _ => rfl

theorem skeleton_dataCells (texts : List String) :
    skeleton (dataCells texts) =
      (List.replicate texts.length [some "<td>", none, some "</td>"]).flatten :=
  skeleton_flatMap fun _ _ => rfl

/-- The skeleton of a row with these numbers of cells. -/
def rowSkeleton (names headers : Nat) : List (Option String) :=
  skeleton (tableRow {
    assignment := List.replicate names "", values := List.replicate headers "", result := "" })

theorem skeleton_tableRow (row : Report.Row) :
    skeleton (tableRow row) = rowSkeleton row.assignment.length row.values.length := by
  simp only [rowSkeleton, tableRow, skeleton_append, skeleton_dataCells, List.length_replicate]

theorem skeleton_rows {p : Service.Presentation} (h : Outcome.IsRegular (.table p)) :
    skeleton (p.report.rows.flatMap tableRow) =
      (List.replicate p.report.rows.length
        (rowSkeleton p.report.variableNames.length p.report.headers.length)).flatten := by
  refine skeleton_flatMap fun row hrow => ?_
  obtain ⟨hassignment, hvalues⟩ := h row hrow
  rw [skeleton_tableRow, hassignment, hvalues]

/-- Below the form the skeleton depends on the shape only. -/
theorem skeleton_outcome {o o' : Outcome} (h : o.IsRegular) (h' : o'.IsRegular)
    (hshape : o.shape = o'.shape) :
    skeleton (complaintPart o) = skeleton (complaintPart o') ∧
      skeleton (tablePart o) = skeleton (tablePart o') := by
  cases o with
  | nothing =>
    cases o' with
    | nothing => exact ⟨rfl, rfl⟩
    | _ => cases hshape
  | complaint _ =>
    cases o' with
    | complaint _ => exact ⟨rfl, rfl⟩
    | _ => cases hshape
  | table p =>
    cases o' with
    | table q =>
      obtain ⟨hnames, hheaders, hrows⟩ := Shape.table.inj hshape
      refine ⟨rfl, ?_⟩
      simp only [tablePart, skeleton_append, skeleton_headerCells, skeleton_rows h,
        skeleton_rows h', hnames, hheaders, hrows]
      rfl
    | _ => cases hshape

theorem skeleton_form {v w : View} (h : v.selected = w.selected) :
    skeleton (form v) = skeleton (form w) := by
  simp only [form, skeleton_append, h]
  rfl

theorem skeleton_pieces {v w : View} (hv : v.outcome.IsRegular) (hw : w.outcome.IsRegular)
    (h : v.layout = w.layout) : skeleton (pieces v) = skeleton (pieces w) := by
  obtain ⟨hselected, hshape⟩ := Layout.mk.inj h
  obtain ⟨hcomplaint, htable⟩ := skeleton_outcome hv hw hshape
  simp only [pieces, skeleton_append, skeleton_form hselected, hcomplaint, htable]

/-! ## The texts of a page -/

/-- The texts of the legend, which are always the same. -/
def legendTexts : List String := Connective.all.flatMap fun c => [c.symbol, c.name]

/-- The texts of the style options. -/
def optionTexts : List String := Style.all.flatMap fun style => [style.name, style.name]

/-- The texts that an outcome shows. -/
def Outcome.texts : Outcome → List String
  | .nothing => []
  | .complaint message => [message]
  | .table p =>
    [p.pretty, " ".intercalate p.report.listing, p.report.verdict.name] ++
      p.report.variableNames ++ p.report.headers ++
      p.report.rows.flatMap (fun row => row.assignment ++ row.values) ++ [p.report.markdown]

theorem slots_tableRow (row : Report.Row) :
    slots (tableRow row) = row.assignment ++ row.values := by
  simp [tableRow, dataCells, slots_append, slots_framed]

theorem slots_outcome (o : Outcome) :
    slots (complaintPart o) ++ slots (tablePart o) = o.texts := by
  cases o with
  | nothing => rfl
  | complaint message => rfl
  | table p =>
    have hrows : slots (p.report.rows.flatMap tableRow) =
        p.report.rows.flatMap fun row => row.assignment ++ row.values := by
      rw [slots_flatMap]
      simp only [slots_tableRow]
    simp only [complaintPart, tablePart, headerCells, slots_append, slots_framed, hrows]
    simp [framed, Outcome.texts]

theorem slots_pieces (v : View) :
    slots (pieces v) = legendTexts ++ v.formula :: optionTexts ++ v.outcome.texts := by
  have hform : slots (form v) = v.formula :: optionTexts := by
    simp [form, framed, slots_append, slots_flatMap, styleOption, optionTexts]
  have hlegend : slots legend = legendTexts := by decide
  have hhead : slots head = [] := by decide
  simp [pieces, slots_append, hform, hlegend, hhead, ← slots_outcome]

/-! ## Pages for forms -/

/-- The formula that is entered in a form, without the blanks at its ends. -/
def enteredFormula (fields : List (String × String)) : String :=
  Text.trimmed ((fields.lookup "formula").getD "")

/-- The style that is chosen in a form, or else the configured one. -/
def enteredStyle (config : Service.Config) (fields : List (String × String)) : Json.Value :=
  match fields.lookup "style" with
  | some name => .str name
  | none => Service.configStyle config

def viewOf (config : Service.Config) (fields : List (String × String)) (outcome : Outcome) :
    View :=
  { formula := enteredFormula fields, selected := selectedStyle (enteredStyle config fields)
    outcome }

/-- The view of a form with this result. -/
def viewFor (config : Service.Config) (fields : List (String × String)) :
    Except Service.Refusal Service.Presentation → Except Service.Refusal View
  | .ok p => .ok (viewOf config fields (.table p))
  | .error refusal => match refusal.told? with
    | some (_, message, _) => .ok (viewOf config fields (.complaint message))
    | none => .error refusal

theorem formView_eq (config : Service.Config) (fields : List (String × String)) :
    formView config fields = viewFor config fields
      (Service.present config (enteredFormula fields) (enteredStyle config fields)) := rfl

variable {config : Service.Config} {bound : Int}

/-- Every form has a page, with the table or with what the user is told of the refusal. -/
theorem formView_cases (hconfig : config.IsTyped bound) (fields : List (String × String)) :
    (∃ p, Service.present config (enteredFormula fields) (enteredStyle config fields) = .ok p ∧
      formView config fields = .ok (viewOf config fields (.table p))) ∨
    ∃ refusal kind message position,
      Service.present config (enteredFormula fields) (enteredStyle config fields) =
        .error refusal ∧
      refusal.told? = some (kind, message, position) ∧
      formView config fields = .ok (viewOf config fields (.complaint message)) := by
  have hends := Service.present_ends hconfig (enteredFormula fields) (enteredStyle config fields)
  rw [formView_eq]
  cases hresult : Service.present config (enteredFormula fields) (enteredStyle config fields) with
  | ok p => exact .inl ⟨p, rfl, rfl⟩
  | error refusal =>
    rw [hresult] at hends
    obtain ⟨⟨kind, message, position⟩, htold⟩ := hends.told
    refine .inr ⟨refusal, kind, message, position, rfl, htold, ?_⟩
    rw [viewFor, htold]

theorem isRegular_of_present (hconfig : config.IsTyped bound) {formula : String}
    {given : Json.Value} {p : Service.Presentation}
    (hp : Service.present config formula given = .ok p) : Outcome.IsRegular (.table p) := by
  have hends := Service.present_ends hconfig formula given
  rw [hp] at hends
  cases hends with
  | table style hstyle hbound f htext hcount =>
    refine List.forall_mem_map.mpr (List.forall_mem_map.mpr fun a ha => ⟨?_, ?_⟩)
    · exact (List.length_map ..).trans (mem_assignments.mp ha)
    · simp only [Formula.report, Table.glyphs, List.length_map, Formula.values_row, Formula.table]

theorem isRegular_of_formView (hconfig : config.IsTyped bound) {fields : List (String × String)}
    {v : View} (hv : formView config fields = .ok v) : v.outcome.IsRegular := by
  rcases formView_cases hconfig fields with ⟨p, hp, hview⟩ | ⟨_, _, _, _, -, -, hview⟩
  · obtain rfl := Except.ok.inj (hview.symm.trans hv)
    exact isRegular_of_present hconfig hp
  · obtain rfl := Except.ok.inj (hview.symm.trans hv)
    exact trivial

/-- Every form has a page, and what is entered cannot change its markup.  The page is a
skeleton whose holes are filled with escaped texts; these have no markup in them and give the
texts back when they are unescaped.  Two pages of the same layout have the same skeleton. -/
theorem formView_skeleton (hconfig : config.IsTyped bound) (fields : List (String × String)) :
    ∃ v, formView config fields = .ok v ∧ v.formula = enteredFormula fields ∧
      (write v).toList = fill (skeleton (pieces v)) ((slots (pieces v)).map escape) ∧
      slots (pieces v) = legendTexts ++ v.formula :: optionTexts ++ v.outcome.texts ∧
      (∀ text ∈ slots (pieces v),
        IsInert (escape text).toList ∧ unescaped (escape text) = text) ∧
      ∀ (config' : Service.Config) (bound' : Int) (fields' : List (String × String)) (v' : View),
        config'.IsTyped bound' → formView config' fields' = .ok v' → v'.layout = v.layout →
          skeleton (pieces v') = skeleton (pieces v) := by
  obtain ⟨v, hv, hformula⟩ : ∃ v, formView config fields = .ok v ∧
      v.formula = enteredFormula fields := by
    rcases formView_cases hconfig fields with ⟨p, -, hview⟩ | ⟨_, _, _, _, -, -, hview⟩
    · exact ⟨_, hview, rfl⟩
    · exact ⟨_, hview, rfl⟩
  refine ⟨v, hv, hformula, ?_, slots_pieces v, fun text _ => ?_, ?_⟩
  · rw [fill_skeleton, toList_write]
  · exact ⟨isInert_escape text, unescaped_escape text⟩
  · intro config' bound' fields' v' hconfig' hv' hlayout
    exact skeleton_pieces (isRegular_of_formView hconfig' hv') (isRegular_of_formView hconfig hv)
      hlayout

/-- Markup that is entered as a formula is echoed as a text. -/
theorem formView_skeleton_hostile :
    Service.Config.IsTyped Service.baseConfig 12 ∧
      ∃ v, formView Service.baseConfig [("formula", "\"><b>&lt;")] = .ok v ∧
        v.formula = "\"><b>&lt;" ∧
        (write v).toList = fill (skeleton (pieces v)) ((slots (pieces v)).map escape) ∧
        ∀ text ∈ slots (pieces v), IsInert (escape text).toList := by
  obtain ⟨v, hv, hformula, hfill, -, hinert, -⟩ :=
    formView_skeleton Service.isTyped_baseConfig [("formula", "\"><b>&lt;")]
  have hentered : enteredFormula [("formula", "\"><b>&lt;")] = "\"><b>&lt;" := by decide +kernel
  exact ⟨Service.isTyped_baseConfig, v, hv, hformula.trans hentered, hfill,
    fun text h => (hinert text h).1⟩

end Page
end PropTable

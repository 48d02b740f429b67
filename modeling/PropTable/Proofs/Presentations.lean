import PropTable.Proofs.FormulaTable
import PropTable.Service

/-!
# What becomes of a formula that is sent to the service

If the values of a configuration have the right sorts, a request ends in one of six ways, and
the first that applies decides: the style is unknown, the bound is too small, the text is no
formula, the formula has too many variables, which can be told or are too many for that, or
there is a table with its report (`Service.present_ends`).  All refusals are such as the user
is told.
-/

namespace PropTable

namespace Options

/-- What the settings of a request are made from, when the style is all that is given. -/
theorem given?_style (config : List (String × Json.Value)) (given : Json.Value) (field : Field) :
    given? config [(Field.style.name, given)] field =
      if field = .style ∧ given.isNull = false then some given else config.lookup field.key := by
  cases field with
  | style => cases given <;> rfl
  | maxVariables | strict | trueGlyph | falseGlyph => rfl

theorem checkNames_style (given : Json.Value) :
    checkNames ([(Field.style.name, given)].filter fun p => !p.2.isNull) = .ok () := by
  cases given <;> rfl

theorem styleOf_eq_ok_iff {v : Json.Value} {style : Style} :
    styleOf v = .ok style ↔ v = .str style.name := by
  constructor
  · intro h
    cases v with
    | str s =>
      rw [styleOf] at h
      split at h
      · next found hname =>
        obtain rfl := Except.ok.inj h
        have hbeq := List.find?_some hname
        rw [beq_iff_eq.mp hbeq]
      · cases h
    | _ => cases h
  · rintro rfl
    cases style <;> rfl

theorem styleOf_eq_error {v : Json.Value} (h : ∀ style : Style, v ≠ .str style.name) :
    styleOf v = .error (.unknownStyle v) := by
  cases hstyle : styleOf v with
  | ok style => exact absurd (styleOf_eq_ok_iff.mp hstyle) (h style)
  | error m =>
    cases v with
    | str s =>
      rw [styleOf] at hstyle
      split at hstyle
      · cases hstyle
      · exact hstyle.symm
    | _ => exact hstyle.symm

end Options

namespace Service

open Options (Field)

/-- A configuration with an integer for the bound, some style, and texts for the glyphs, if it
has any.  Strictness is told by a value of any sort. -/
structure Config.IsTyped (config : Config) (bound : Int) : Prop where
  bound : config.lookup Field.maxVariables.key = some (.int bound)
  style : ∃ v, config.lookup Field.style.key = some v
  trueGlyph : ∀ v, config.lookup Field.trueGlyph.key = some v → ∃ s, v = .str s
  falseGlyph : ∀ v, config.lookup Field.falseGlyph.key = some v → ∃ s, v = .str s

def Config.valueOf (config : Config) (field : Field) : Json.Value :=
  (config.lookup field.key).getD (Options.defaultValue field)

/-- The style of a request: what it gives, if that counts as given, and else the configured
one. -/
def Config.styleFor (config : Config) (given : Json.Value) : Json.Value :=
  if given.isTruthy then given else config.valueOf .style

def Config.options (config : Config) (bound : Int) (style : Style) : Options :=
  { maxVariables := bound.toNat, strict := Options.strictOf (config.valueOf .strict), style
    trueGlyph := config.valueOf .trueGlyph, falseGlyph := config.valueOf .falseGlyph }

def Config.settings (config : Config) (bound : Int) (style : Style) : Settings :=
  (config.options bound style).settings

theorem isTyped_baseConfig : Config.IsTyped baseConfig 12 where
  bound := rfl
  style := ⟨_, rfl⟩
  trueGlyph := nofun
  falseGlyph := nofun

variable {config : Config} {bound : Int}

theorem Config.IsTyped.valueOf_bound (h : config.IsTyped bound) :
    config.valueOf .maxVariables = .int bound := by
  rw [valueOf, h.bound, Option.getD_some]

theorem Config.IsTyped.glyph_options (h : config.IsTyped bound) (style : Style) (value : Bool) :
    ∃ s, (config.options bound style).glyph value = .str s := by
  cases value with
  | true =>
    show ∃ s, config.valueOf .trueGlyph = .str s
    rw [valueOf]
    cases hlookup : config.lookup Field.trueGlyph.key with
    | none => exact ⟨_, rfl⟩
    | some v => exact h.trueGlyph v hlookup
  | false =>
    show ∃ s, config.valueOf .falseGlyph = .str s
    rw [valueOf]
    cases hlookup : config.lookup Field.falseGlyph.key with
    | none => exact ⟨_, rfl⟩
    | some v => exact h.falseGlyph v hlookup

/-- The value of a field for a request, which overrides nothing but the style. -/
theorem given?_getD (config : Config) (given : Json.Value) (field : Field) :
    (Options.given? config [(Field.style.name, if given.isTruthy then given else .null)]
        field).getD (Options.defaultValue field) =
      if field = .style then config.styleFor given else config.valueOf field := by
  rw [Options.given?_style]
  by_cases hfield : field = .style
  · subst hfield
    by_cases hgiven : given.isTruthy = true
    · have hnull : given.isNull = false := by
        cases given with
        | null => cases hgiven
        | _ => rfl
      simp [Config.styleFor, hgiven, hnull]
    · simp [Config.styleFor, Config.valueOf, hgiven, Json.Value.isNull]
  · simp [hfield, Config.valueOf]

/-- The style is looked at before the bound. -/
theorem optionsFor_eq (h : config.IsTyped bound) (given : Json.Value) :
    optionsFor config given =
      (Options.styleOf (config.styleFor given)).bind fun style =>
        if bound < 1 then .error .boundTooSmall else .ok (config.options bound style) := by
  have hvalue := given?_getD config given
  have hbound : Options.integerOf (.int bound) = .ok bound := rfl
  show Options.ofMapping config [(Field.style.name, if given.isTruthy then given else .null)] = _
  rw [Options.ofMapping]
  simp only [hvalue, reduceCtorEq, if_false, if_true, h.valueOf_bound, hbound,
    Options.checkNames_style, Options.check]
  rfl

end Service

/-- The report on the table of a formula. -/
def Formula.report (settings : Settings) (source : String) (f : Formula Char) : Report :=
  let t := f.table settings source
  { proposition := source
    listing := f.postorder Char.toString Connective.symbol
    variableNames := f.names
    headers := t.headers
    rows := t.rows.map fun row =>
      { assignment := t.glyphs row.assignment
        values := t.glyphs row.values
        result := settings.glyph row.result }
    verdict := t.verdict
    markdown := t.markdown }

theorem Formula.report_table (settings : Settings) (source : String) (f : Formula Char) :
    (f.table settings source).report = .ok (f.report settings source) := by
  have hlisting : (f.table settings source).program.listing = _ :=
    Program.listing_ofFormula source f
  rw [Table.report, hlisting]
  rfl

namespace Service

/-- The ways in which a request ends, in the order in which they are looked for. -/
inductive Ends (config : Config) (bound : Int) (formula : String) (given : Json.Value) :
    Except Refusal Presentation → Prop
  | unknownStyle (hstyle : ∀ style : Style, config.styleFor given ≠ .str style.name) :
    Ends config bound formula given
      (.error (.misfit (.unknownStyle (config.styleFor given))))
  | boundTooSmall (style : Style) (hstyle : config.styleFor given = .str style.name)
    (hbound : bound < 1) : Ends config bound formula given (.error (.misfit .boundTooSmall))
  | flaw (style : Style) (hstyle : config.styleFor given = .str style.name) (hbound : 1 ≤ bound)
    (f : Flaw) (htext : Program.ofText (config.settings bound style) formula = .error (.flaw f))
    (hflaw : f.IsOfText) : Ends config bound formula given (.error (.fault (.flaw f)))
  | tooManyVariables (style : Style) (hstyle : config.styleFor given = .str style.name)
    (hbound : 1 ≤ bound) (f : Formula Char)
    (htext : Program.ofText (config.settings bound style) formula =
      .ok (.ofFormula (Text.trimmed formula) f))
    (hcount : bound < f.names.length) (htold : f.names.length ≤ Table.maxTold) :
    Ends config bound formula given (.error (.fault (.flaw
      (.tooManyVariables f.names.length bound.toNat (Text.isWritable_two_pow_iff.mpr htold)))))
  | untold (style : Style) (hstyle : config.styleFor given = .str style.name)
    (hbound : 1 ≤ bound) (f : Formula Char)
    (htext : Program.ofText (config.settings bound style) formula =
      .ok (.ofFormula (Text.trimmed formula) f))
    (hcount : bound < f.names.length) (huntold : Table.maxTold < f.names.length) :
    Ends config bound formula given (.error (.fault .longNumeral))
  | table (style : Style) (hstyle : config.styleFor given = .str style.name)
    (hbound : 1 ≤ bound) (f : Formula Char)
    (htext : Program.ofText (config.settings bound style) formula =
      .ok (.ofFormula (Text.trimmed formula) f))
    (hcount : f.names.length ≤ bound) :
    Ends config bound formula given
      (.ok { report := f.report (config.settings bound style) (Text.trimmed formula)
             pretty := pretty (Text.trimmed formula) })

@[simp] theorem mapError_ok {ε ε' α : Type} (f : ε → ε') (a : α) :
    (Except.ok a).mapError f = .ok a := rfl

variable {config : Config} {bound : Int}

theorem present_of_options {formula : String} {given : Json.Value} {style : Style}
    (h : config.IsTyped bound)
    (hoptions : optionsFor config given = .ok (config.options bound style)) :
    present config formula given =
      match Program.ofText (config.settings bound style) formula with
      | .error e => .error (.fault e)
      | .ok p => match Table.build (config.settings bound style) p with
        | .error e => .error (.fault e)
        | .ok t => match t.report with
          | .error e => .error (.fault e)
          | .ok r => .ok { report := r, pretty := pretty p.source } := by
  have hrows (t : Table) : (config.options bound style).checkRows t.rows = .ok () :=
    Options.checkRows_eq_ok (h.glyph_options style) t.rows
  have hsettings : (config.options bound style).settings = config.settings bound style := rfl
  rw [present, hoptions]
  simp only [mapError_ok, bind, Except.bind, report, hrows, hsettings]
  cases Program.ofText (config.settings bound style) formula with
  | error e => rfl
  | ok p =>
    simp only [mapError_ok]
    cases Table.build (config.settings bound style) p with
    | error e => rfl
    | ok t =>
      simp only [mapError_ok]
      cases t.report <;> rfl

theorem present_ends (h : config.IsTyped bound) (formula : String) (given : Json.Value) :
    Ends config bound formula given (present config formula given) := by
  have hoptions := optionsFor_eq h given
  by_cases hstyle : ∃ style : Style, config.styleFor given = .str style.name
  case neg =>
    have hnone : ∀ style : Style, config.styleFor given ≠ .str style.name :=
      fun style hs => hstyle ⟨style, hs⟩
    rw [Options.styleOf_eq_error hnone] at hoptions
    rw [present, hoptions]
    exact .unknownStyle hnone
  obtain ⟨style, hstyle⟩ := hstyle
  rw [Options.styleOf_eq_ok_iff.mpr hstyle, Except.bind] at hoptions
  by_cases hbound : bound < 1
  · rw [if_pos hbound] at hoptions
    rw [present, hoptions]
    exact .boundTooSmall style hstyle hbound
  rw [if_neg hbound] at hoptions
  have hone : 1 ≤ bound := Int.not_lt.mp hbound
  rw [present_of_options h hoptions]
  cases htext : Program.ofText (config.settings bound style) formula with
  | error e =>
    obtain ⟨f, rfl, hf⟩ := Program.ofText_eq_error htext
    exact .flaw style hstyle hone f htext hf
  | ok p =>
    obtain ⟨d, -, rfl⟩ := Program.ofText_eq_ok_iff.mp htext
    have hmax : (config.settings bound style).maxVariables = bound.toNat := rfl
    simp only [Table.build_ofFormula, hmax]
    by_cases hcount : bound < d.formula.names.length
    · rw [if_pos (by omega)]
      by_cases htold : d.formula.names.length ≤ Table.maxTold
      · rw [Fault.tooManyVariables_of_le htold]
        exact .tooManyVariables style hstyle hone d.formula htext hcount htold
      · rw [Fault.tooManyVariables_of_lt (Nat.not_le.mp htold)]
        exact .untold style hstyle hone d.formula htext hcount (Nat.not_le.mp htold)
    · rw [if_neg (by omega)]
      simp only [Formula.report_table]
      exact .table style hstyle hone d.formula htext (Int.not_lt.mp hcount)

/-- The user is told of every refusal. -/
theorem Ends.told {formula : String} {given : Json.Value} {refusal : Refusal}
    (h : Ends config bound formula given (.error refusal)) : ∃ told, refusal.told? = some told := by
  cases h <;> exact ⟨_, rfl⟩

end Service

end PropTable

import Mathlib.Data.List.Nodup
import PropTable.Proofs.Conjunctions
import PropTable.Proofs.Interning
import PropTable.Proofs.Presentations

/-!
# Answers to requests

A service whose configuration is sound answers every payload, and what is wrong with a request
is looked for in a fixed order: whether it is a request at all, the settings, the formula, the
number of its variables (`Service.answer_isInOrder`).  The payload is what the framework makes of
a request, of which only what it documents is used (`Service.Framework.IsDocumented`).

Variables that are too many for the number of rows to be written are told as a fault of the
settings.
-/

namespace PropTable

/-- The field of an object with a name. -/
def Json.Value.field? (v : Json.Value) (name : String) : Option Json.Value :=
  match v with
  | .object fields => fields.lookup name
  | _ => none

/-! ## The variables of a text -/

namespace Phrase

/-- The variables of a text, each listed once. -/
def alphabet (cs : List Char) : List Char := (occurrences cs).eraseDups

theorem length_names {strict : Bool} {level : Nat} {f : Phrase} (hf : Fits strict level f) :
    f.formula.names.length = (alphabet f.text).length := by
  have hinjective : Function.Injective Char.toString := fun c d h => by simpa using h
  have hperm : f.formula.names.Perm ((alphabet f.text).map Char.toString) := by
    have hnodup : ((alphabet f.text).map Char.toString).Nodup :=
      (nodup_eraseDups _).map hinjective
    refine (List.perm_ext_iff_of_nodup (nodup_eraseDups _) hnodup).mpr fun s => ?_
    simp only [alphabet, occurrences_text hf, List.mem_eraseDups, List.mem_map]
  rw [hperm.length_eq, List.length_map]

end Phrase

namespace Service

open Options (Field)

/-! ## Requests -/

/-- A payload that asks for a formula: nothing, or an object whose proposition is a text, if
it has one. -/
def IsRequest (payload : Json.Value) : Prop :=
  payload = .null ∨ ∃ fields, payload = .object fields ∧
    ∀ v, fields.lookup "proposition" = some v → ∃ formula, v = .str formula

/-- The proposition of a payload, or the empty one. -/
def formulaOf (payload : Json.Value) : String :=
  match payload.field? "proposition" with
  | some (.str formula) => formula
  | _ => ""

def givenStyle (payload : Json.Value) : Json.Value := (payload.field? "style").getD .null

theorem request?_eq_some {payload : Json.Value} (h : IsRequest payload) :
    request? payload = some (formulaOf payload, givenStyle payload) := by
  rcases h with rfl | ⟨fields, rfl, h⟩
  · rfl
  · simp only [request?, formulaOf, givenStyle, Json.Value.field?]
    cases hlookup : fields.lookup "proposition" with
    | none => rfl
    | some v =>
      obtain ⟨formula, rfl⟩ := h v hlookup
      rfl

theorem isRequest_of_lookup {fields : List (String × Json.Value)} {formula : String}
    (h : fields.lookup "proposition" = some (.str formula)) : IsRequest (.object fields) :=
  .inr ⟨fields, rfl, fun _ hv => ⟨formula, Option.some.inj (hv.symm.trans h)⟩⟩

theorem request?_eq_none {payload : Json.Value} (h : ¬IsRequest payload) :
    request? payload = none := by
  cases payload with
  | null => exact absurd (.inl rfl) h
  | object fields =>
    simp only [request?]
    cases hlookup : fields.lookup "proposition" with
    | none =>
      refine absurd (.inr ⟨fields, rfl, fun v hv => ?_⟩) h
      rw [hlookup] at hv
      cases hv
    | some v =>
      cases v with
      | str formula => exact absurd (isRequest_of_lookup hlookup) h
      | _ => rfl
  | _ => rfl

/-- How many different variables the proposition of a payload has. -/
def variableCountOf (payload : Json.Value) : Nat :=
  (Phrase.alphabet (Text.trim (formulaOf payload).toList)).length

/-- The settings of a request that cannot be met: a style that counts as given and is none of
the three, or a bound below one. -/
def IsMisset (bound : Int) (payload : Json.Value) : Prop :=
  ((givenStyle payload).isTruthy = true ∧ ∀ style : Style, givenStyle payload ≠ .str style.name) ∨
    bound < 1

/-- The proposition of a payload is a formula with too many variables, so many that the number of
rows cannot be told. -/
def IsUntold (config : Config) (bound : Int) (payload : Json.Value) : Prop :=
  ∃ (style : Style) (p : Program), config.styleFor (givenStyle payload) = .str style.name ∧
    Program.ofText (config.settings bound style) (formulaOf payload) = .ok p ∧
    bound < variableCountOf payload ∧ Table.maxTold < variableCountOf payload

/-! ## Payloads -/

/-- The payload of a request: the value of its body, or null for a body that is not announced as
JSON or is malformed. -/
inductive Framework.HasPayload (w : Framework) (r : Request) : Json.Value → Prop where
  | value {v : Json.Value} (hjson : w.isJson r.contentType = true) (h : w.read r.body = .value v) :
    HasPayload w r v
  | unannounced (h : w.isJson r.contentType = false) : HasPayload w r .null
  | malformed (hjson : w.isJson r.contentType = true) (h : w.read r.body = .malformed) :
    HasPayload w r .null

/-- What is documented of a framework: in silence, a body that is not announced or is malformed
makes no difference to the null that it comes to.  No other failure is silenced. -/
structure Framework.IsDocumented (w : Framework) : Prop where
  payload : ∀ r v, w.HasPayload r v → w.payload? r = some v
  aborted : ∀ r, w.isJson r.contentType = true → w.read r.body = .aborted → w.payload? r = none

theorem Framework.isDocumented_ofReading (isJson : String → Bool) (read : String → Reading) :
    (Framework.ofReading isJson read).IsDocumented where
  payload r v h := by
    cases h with
    | value hjson h => simp_all [ofReading]
    | unannounced h => simp_all [ofReading]
    | malformed hjson h => simp_all [ofReading]
  aborted r hjson h := by simp_all [ofReading]

/-- The framework that reads a single body. -/
def Framework.ofBody (body : String) (v : Json.Value) : Framework :=
  .ofReading (· == "application/json") fun text => if text = body then .value v else .malformed

theorem Framework.isDocumented_ofBody (body : String) (v : Json.Value) :
    (Framework.ofBody body v).IsDocumented :=
  isDocumented_ofReading ..

theorem Framework.read_ofBody (body : String) (v : Json.Value) :
    (Framework.ofBody body v).read body = .value v :=
  if_pos rfl

theorem exchange_eq_answer {w : Framework} (hw : w.IsDocumented) {r : Request} {v : Json.Value}
    (h : w.HasPayload r v) (config : Config) : exchange w config r = answer config v := by
  rw [exchange, hw.payload r v h]

/-! ## Answers -/

/-- The kind of what is wrong, if the answer tells that something is. -/
def Answer.kind? (a : Answer) : Option String :=
  match a.body.field? "error" with
  | some (.str kind) => some kind
  | _ => none

/-- An answer that tells of the first thing that is wrong with a payload, in the order request,
settings, formula, number of variables, or else shows the table of the formula. -/
structure Answer.IsInOrder (config : Config) (bound : Int) (payload : Json.Value) (a : Answer) :
    Prop where
  status : ∀ kind, a.kind? = some kind → a.status = 400
  invalidRequest : a.kind? = some "InvalidRequest" ↔ ¬IsRequest payload
  invalidSettings : a.kind? = some "InvalidSettings" ↔
    IsRequest payload ∧ (IsMisset bound payload ∨ IsUntold config bound payload)
  position : a.kind? = some "InvalidSettings" → a.body.field? "position" = some .null
  formula : IsRequest payload → ¬IsMisset bound payload → ∃ style : Style,
    config.styleFor (givenStyle payload) = .str style.name ∧
    (∀ e, Program.ofText (config.settings bound style) (formulaOf payload) = .error e →
      ∃ f : Flaw, e = .flaw f ∧
        a = complaintAnswer f.complaint.kind.name f.complaint.text f.complaint.position) ∧
    ∀ p, Program.ofText (config.settings bound style) (formulaOf payload) = .ok p →
      (a.kind? = some "TooManyVariables" ↔
        bound < variableCountOf payload ∧ variableCountOf payload ≤ Table.maxTold) ∧
      (bound < variableCountOf payload → Table.maxTold < variableCountOf payload →
        a = complaintAnswer "InvalidSettings" Fault.longNumeral.message none) ∧
      (variableCountOf payload ≤ bound →
        ∃ t r, Table.build (config.settings bound style) p = .ok t ∧ t.report = .ok r ∧
          a = { status := 200
                body := .object (reportFields r ++ [("formula_pretty", .str (pretty p.source))]) })

theorem kind?_complaintAnswer (kind message : String) (position : Option Int) :
    (complaintAnswer kind message position).kind? = some kind := rfl

theorem kind?_complaintAnswer_ne {kind name message : String} {position : Option Int}
    (h : kind ≠ name) : (complaintAnswer kind message position).kind? ≠ some name :=
  fun he => h (Option.some.inj ((kind?_complaintAnswer ..).symm.trans he))

variable {config : Config} {bound : Int} {payload : Json.Value}

theorem isInOrder_invalidRequest (h : ¬IsRequest payload) :
    invalidRequest.IsInOrder config bound payload where
  status _ _ := rfl
  invalidRequest := iff_of_true rfl h
  invalidSettings := iff_of_false (by decide) fun hin => h hin.1
  position hkind := absurd hkind (by decide)
  formula hrequest := absurd hrequest h

theorem isInOrder_invalidSettings (h : IsRequest payload) (hmisset : IsMisset bound payload)
    (message : String) :
    (complaintAnswer "InvalidSettings" message none).IsInOrder config bound payload where
  status _ _ := rfl
  invalidRequest := iff_of_false (kind?_complaintAnswer_ne (by decide)) (not_not_intro h)
  invalidSettings := iff_of_true rfl ⟨h, .inl hmisset⟩
  position _ := rfl
  formula _ hset := absurd hmisset hset

/-- With a known style in the configuration, a style is unknown only if it counts as given. -/
theorem styleFor_unknown_iff {style : Style}
    (hstyle : config.lookup Field.style.key = some (.str style.name)) (given : Json.Value) :
    (∀ s : Style, config.styleFor given ≠ .str s.name) ↔
      given.isTruthy = true ∧ ∀ s : Style, given ≠ .str s.name := by
  have hvalue : config.valueOf .style = .str style.name := by
    rw [Config.valueOf, hstyle, Option.getD_some]
  by_cases hgiven : given.isTruthy = true
  · simp [Config.styleFor, hgiven]
  · simp only [Config.styleFor, hgiven, hvalue]
    exact iff_of_false (fun h => h style rfl) fun h => absurd h.1 Bool.false_ne_true

theorem variableCount_of_ofText {settings : Settings} {text : String} {p : Program}
    (h : Program.ofText settings text = .ok p) :
    p.variableCount = (Phrase.alphabet (Text.trim text.toList)).length := by
  obtain ⟨d, hd, rfl⟩ := Program.ofText_eq_ok_iff.mp h
  rw [Program.variableCount_ofFormula, ← d.phrase_formula, Phrase.length_names d.phrase_fits,
    d.phrase_text, hd]

theorem Config.style_unique {given : Json.Value} {style style' : Style}
    (h : config.styleFor given = .str style.name) (h' : config.styleFor given = .str style'.name) :
    style' = style :=
  Except.ok.inj ((Options.styleOf_eq_ok_iff.mpr h').symm.trans (Options.styleOf_eq_ok_iff.mpr h))

section

variable {style : Style} (hrequest : IsRequest payload) (hmisset : ¬IsMisset bound payload)
  (hstyle : config.styleFor (givenStyle payload) = .str style.name)
include hrequest hmisset hstyle

theorem isInOrder_flaw {f : Flaw}
    (htext : Program.ofText (config.settings bound style) (formulaOf payload) = .error (.flaw f))
    (hflaw : f.IsOfText) :
    (complaintAnswer f.complaint.kind.name f.complaint.text f.complaint.position).IsInOrder
      config bound payload := by
  have hkind (name : String) (hmalformed : ComplaintKind.malformed.name ≠ name)
      (hunknown : ComplaintKind.unknownToken.name ≠ name) : ¬some f.kind.name = some name := by
    rcases hflaw with hk | hk <;> simpa [hk]
  refine ⟨fun _ _ => rfl, ?_, ?_, fun hkind' => ?_, fun _ _ => ⟨style, hstyle, ?_, ?_⟩⟩
  · exact iff_of_false (hkind _ (by decide) (by decide)) (not_not_intro hrequest)
  · refine iff_of_false (hkind _ (by decide) (by decide)) ?_
    rintro ⟨-, hset | ⟨style', p, hstyle', hp, -⟩⟩
    · exact hmisset hset
    · obtain rfl := Config.style_unique hstyle hstyle'
      cases htext.symm.trans hp
  · exact absurd hkind' (hkind _ (by decide) (by decide))
  · intro e he
    rw [htext] at he
    exact ⟨f, (Except.error.inj he).symm, rfl⟩
  · intro p hp
    rw [htext] at hp
    cases hp

variable {f : Formula Char} (htext : Program.ofText (config.settings bound style)
  (formulaOf payload) = .ok (.ofFormula (Text.trimmed (formulaOf payload)) f))
include htext

/-- The answer to a text that has a program is in order if the number of variables decides what
it tells. -/
theorem isInOrder_of_program {a : Answer} (hstatus : ∀ kind, a.kind? = some kind → a.status = 400)
    (hvalid : a.kind? ≠ some "InvalidRequest")
    (hposition : a.kind? = some "InvalidSettings" → a.body.field? "position" = some .null)
    (hsettings : a.kind? = some "InvalidSettings" ↔
      bound < f.names.length ∧ Table.maxTold < f.names.length)
    (hmany : a.kind? = some "TooManyVariables" ↔
      bound < f.names.length ∧ f.names.length ≤ Table.maxTold)
    (huntold : bound < f.names.length → Table.maxTold < f.names.length →
      a = complaintAnswer "InvalidSettings" Fault.longNumeral.message none)
    (htable : f.names.length ≤ bound →
      a = { status := 200
            body := Presentation.value
              { report := f.report (config.settings bound style)
                  (Text.trimmed (formulaOf payload))
                pretty := pretty (Text.trimmed (formulaOf payload)) } }) :
    a.IsInOrder config bound payload := by
  have hlength : variableCountOf payload = f.names.length := (variableCount_of_ofText htext).symm
  refine ⟨hstatus, iff_of_false hvalid (not_not_intro hrequest), ?_, hposition,
    fun _ _ => ⟨style, hstyle, ?_, ?_⟩⟩
  · rw [hsettings]
    constructor
    · rintro ⟨hlt, hmany⟩
      exact ⟨hrequest, .inr ⟨style, _, hstyle, htext, hlength ▸ hlt, hlength ▸ hmany⟩⟩
    · rintro ⟨-, hset | ⟨-, -, -, -, hlt, hmany⟩⟩
      · exact absurd hset hmisset
      · exact hlength ▸ ⟨hlt, hmany⟩
  · intro e he
    cases htext.symm.trans he
  · intro p hp
    obtain rfl := Except.ok.inj (htext.symm.trans hp)
    rw [hlength]
    refine ⟨hmany, huntold, fun hle => ⟨_, _, ?_, Formula.report_table _ _ f, htable hle⟩⟩
    have hmax : (config.settings bound style).maxVariables = bound.toNat := rfl
    rw [Table.build_ofFormula, if_neg (by omega)]

theorem isInOrder_tooManyVariables (hcount : bound < f.names.length)
    (htold : f.names.length ≤ Table.maxTold) (message : String) :
    (complaintAnswer "TooManyVariables" message none).IsInOrder config bound payload := by
  have hother : (complaintAnswer "TooManyVariables" message none).kind? ≠ some "InvalidSettings" :=
    kind?_complaintAnswer_ne (by decide)
  exact isInOrder_of_program hrequest hmisset hstyle htext (fun _ _ => rfl)
    (kind?_complaintAnswer_ne (by decide)) (fun h => absurd h hother)
    (iff_of_false hother (by omega)) (iff_of_true rfl ⟨hcount, htold⟩) (fun _ _ => by omega)
    (fun _ => by omega)

theorem isInOrder_untold (hcount : bound < f.names.length)
    (huntold : Table.maxTold < f.names.length) :
    (complaintAnswer "InvalidSettings" Fault.longNumeral.message none).IsInOrder
      config bound payload :=
  isInOrder_of_program hrequest hmisset hstyle htext (fun _ _ => rfl)
    (kind?_complaintAnswer_ne (by decide)) (fun _ => rfl)
    (iff_of_true rfl ⟨hcount, huntold⟩)
    (iff_of_false (kind?_complaintAnswer_ne (by decide)) (by omega)) (fun _ _ => rfl)
    (fun _ => by omega)

theorem isInOrder_table (hcount : f.names.length ≤ bound) :
    Answer.IsInOrder config bound payload
      { status := 200
        body := Presentation.value
          { report := f.report (config.settings bound style) (Text.trimmed (formulaOf payload))
            pretty := pretty (Text.trimmed (formulaOf payload)) } } := by
  refine isInOrder_of_program hrequest hmisset hstyle htext (fun _ h => ?_) (fun h => ?_)
    (fun h => ?_) (iff_of_false (fun h => ?_) (by omega)) (iff_of_false (fun h => ?_) (by omega))
    (fun _ => by omega) (fun _ => rfl)
  -- A table has no kind.
  all_goals cases h

end

/-- Every payload is answered, and the answer tells of the first thing that is wrong. -/
theorem exists_answer {style : Style} (hconfig : config.IsTyped bound)
    (hstyle : config.lookup Field.style.key = some (.str style.name)) (payload : Json.Value) :
    ∃ a, answer config payload = .ok a ∧ a.IsInOrder config bound payload := by
  by_cases hrequest : IsRequest payload
  case neg =>
    refine ⟨invalidRequest, ?_, isInOrder_invalidRequest hrequest⟩
    rw [answer, request?_eq_none hrequest]
  have hends := present_ends hconfig (formulaOf payload) (givenStyle payload)
  have hunknown := styleFor_unknown_iff hstyle (givenStyle payload)
  have hset {s : Style} (hs : config.styleFor (givenStyle payload) = .str s.name)
      (hbound : 1 ≤ bound) : ¬IsMisset bound payload := by
    rintro (hnone | hlt)
    · exact hunknown.mpr hnone s hs
    · omega
  rw [answer, request?_eq_some hrequest]
  dsimp only
  generalize present config (formulaOf payload) (givenStyle payload) = result at hends ⊢
  cases hends with
  | unknownStyle hnone =>
    exact ⟨_, rfl, isInOrder_invalidSettings hrequest (.inl (hunknown.mp hnone)) _⟩
  | boundTooSmall s hs hbound =>
    exact ⟨_, rfl, isInOrder_invalidSettings hrequest (.inr hbound) _⟩
  | flaw s hs hbound f htext hflaw =>
    exact ⟨_, rfl, isInOrder_flaw hrequest (hset hs hbound) hs htext hflaw⟩
  | tooManyVariables s hs hbound f htext hcount htold =>
    exact ⟨_, rfl, isInOrder_tooManyVariables hrequest (hset hs hbound) hs htext hcount htold _⟩
  | untold s hs hbound f htext hcount huntold =>
    exact ⟨_, rfl, isInOrder_untold hrequest (hset hs hbound) hs htext hcount huntold⟩
  | table s hs hbound f htext hcount =>
    exact ⟨_, rfl, isInOrder_table hrequest (hset hs hbound) hs htext hcount⟩

/-- A service whose configuration has a known style and values of the right sorts answers every
payload, and so every request whose body is not broken off.  The answer tells of the first thing
that is wrong, in the order request, settings, formula, number of variables, or else shows the
table. -/
theorem answer_isInOrder {style : Style} (hconfig : config.IsTyped bound)
    (hstyle : config.lookup Field.style.key = some (.str style.name)) :
    (∀ payload, ∃ a, answer config payload = .ok a ∧ a.IsInOrder config bound payload) ∧
    ∀ w : Framework, w.IsDocumented → ∀ r payload, w.HasPayload r payload →
      ∃ a, exchange w config r = .ok a ∧ a.IsInOrder config bound payload := by
  refine ⟨exists_answer hconfig hstyle, fun w hw r payload hpayload => ?_⟩
  rw [exchange_eq_answer hw hpayload]
  exact exists_answer hconfig hstyle payload

/-- A style that is given replaces the configured one, and blanks around the formula do not
count. -/
theorem answer_isInOrder_table :
    let r : Request :=
      { contentType := "application/json"
        body := "\x7b\"proposition\": \" p>q \", \"style\": \"ascii\"\x7d" }
    let payload : Json.Value := .object [("proposition", .str " p>q "), ("style", .str "ascii")]
    let w : Framework := .ofBody r.body payload
    Config.IsTyped baseConfig 12 ∧
      baseConfig.lookup Field.style.key = some (.str Style.latex.name) ∧ w.IsDocumented ∧
      w.HasPayload r payload ∧
      ∃ a, exchange w baseConfig r = .ok a ∧ a.IsInOrder baseConfig 12 payload ∧
        a.status = 200 ∧ a.body.field? "headers" = some (.ofTexts ["p>q"]) ∧
        a.body.field? "classification" = some (.str "contingency") := by
  intro r payload w
  have hstyle : baseConfig.lookup Field.style.key = some (.str Style.latex.name) := rfl
  have hw : w.IsDocumented := Framework.isDocumented_ofBody ..
  have hpayload : w.HasPayload r payload := .value rfl (Framework.read_ofBody ..)
  obtain ⟨a, ha, horder⟩ :=
    (answer_isInOrder isTyped_baseConfig hstyle).2 w hw r payload hpayload
  refine ⟨isTyped_baseConfig, hstyle, hw, hpayload, a, ha, horder, ?_⟩
  have hrequest : IsRequest payload := isRequest_of_lookup rfl
  have hset : ¬IsMisset 12 payload := by
    rintro (⟨-, hnone⟩ | hlt)
    · exact hnone .ascii rfl
    · exact absurd hlt (by decide)
  obtain ⟨style, hgiven, -, htable⟩ := horder.formula hrequest hset
  have hascii : baseConfig.styleFor (givenStyle payload) = .str Style.ascii.name := rfl
  obtain rfl := Config.style_unique hascii hgiven
  have hp : Program.ofText (baseConfig.settings 12 .ascii) " p>q " =
      .ok (.ofFormula "p>q" (.binary .implies (.var 'p') (.var 'q'))) := rfl
  obtain ⟨t, report, ht, hreport, rfl⟩ := (htable _ hp).2.2 (by decide)
  obtain rfl := Except.ok.inj ht
  obtain rfl := Except.ok.inj hreport
  exact ⟨rfl, rfl, rfl⟩

/-- A proposition of one variable more than can be told is answered as if the settings could not
be met. -/
theorem answer_isInOrder_untold :
    let payload : Json.Value := .object [("proposition", .str (Program.manyText Table.maxTold))]
    IsRequest payload ∧ ¬IsMisset 12 payload ∧ 12 < variableCountOf payload ∧
      ∃ a, answer baseConfig payload = .ok a ∧ a.status = 400 ∧
        a.kind? = some "InvalidSettings" := by
  intro payload
  have hrequest : IsRequest payload := isRequest_of_lookup rfl
  have hset : ¬IsMisset 12 payload := by
    rintro (⟨hgiven, -⟩ | hlt)
    · cases hgiven
    · exact absurd hlt (by decide)
  have hstyle : baseConfig.lookup Field.style.key = some (.str Style.latex.name) := rfl
  obtain ⟨a, ha, horder⟩ := exists_answer isTyped_baseConfig hstyle payload
  obtain ⟨style, -, -, htable⟩ := horder.formula hrequest hset
  have hlax : (baseConfig.settings 12 style).strict = false := rfl
  obtain ⟨p, hp, hnames⟩ := Program.exists_ofText_many (n := Table.maxTold) hlax (by decide)
  have hcount : variableCountOf payload = Table.maxTold + 1 :=
    (variableCount_of_ofText hp).symm.trans hnames
  have hmore : 12 < variableCountOf payload := by
    rw [hcount]
    decide
  obtain rfl := (htable p hp).2.1 (by omega) (by omega)
  exact ⟨hrequest, hset, hmore, _, ha, rfl, rfl⟩

end Service
end PropTable

import PropTable.Proofs.Answers
import PropTable.Proofs.Strictness

/-!
# What an answer tells of a request

A body that is not announced as JSON or is malformed counts as null, null as an object without
fields, and an object without a proposition as one with an empty proposition.  So these are
refused for their settings or for the missing formula, and only the other bodies that are no
requests are told to be invalid (`Service.exchange_invalidRequest`).

The column in an answer counts from the first character of the proposition that is no blank,
and the character at fault stands that much further on in the text that was sent
(`Service.answer_position`).
-/

namespace PropTable

/-! ## Bodies that are no requests -/

namespace Service

variable {config : Config} {given payload : Json.Value}

/-- What becomes of a request without a formula.  Its settings are looked at first, as those of
any request. -/
structure EndsBlank (config : Config) (given : Json.Value) (outcome : Except Refusal Answer) :
    Prop where
  blank : ∀ options, optionsFor config given = .ok options →
    outcome = .ok (complaintAnswer "MalformedExpression" "Escribe una proposición." none)
  misset : ∀ m, optionsFor config given = .error m → m.isAboutValue = true →
    outcome = .ok (complaintAnswer "InvalidSettings" m.message none)
  misconfigured : ∀ m, optionsFor config given = .error m → m.isAboutValue = false →
    outcome = .error (.misfit m)

theorem answer_endsBlank (h : request? payload = some ("", given)) :
    EndsBlank config given (answer config payload) where
  blank options hoptions := by
    rw [answer, h]
    simp only [present, hoptions]
    rfl
  misset m hoptions hm := by
    rw [answer, h]
    simp only [present, hoptions, Except.mapError, bind, Except.bind, Refusal.told?, hm, if_true]
  misconfigured m hoptions hm := by
    rw [answer, h]
    simp only [present, hoptions, Except.mapError, bind, Except.bind, Refusal.told?, hm,
      Bool.false_eq_true, if_false]

/-- What is told comes from the settings or from a flaw. -/
theorem told?_cases {refusal : Refusal} {kind message : String} {position : Option Int}
    (h : refusal.told? = some (kind, message, position)) :
    kind = "InvalidSettings" ∨ ∃ f : Flaw, refusal = .fault (.flaw f) ∧ kind = f.kind.name ∧
      message = f.complaint.text ∧ position = f.complaint.position := by
  cases refusal with
  | misfit m =>
    rw [Refusal.told?] at h
    split at h
    · cases h
      exact .inl rfl
    · cases h
  | fault e =>
    cases e with
    | flaw f =>
      cases h
      exact .inr ⟨f, rfl, rfl, rfl, rfl⟩
    | longNumeral =>
      cases h
      exact .inl rfl
    | _ => cases h
  | unread => cases h

theorem told?_ne_invalidRequest {refusal : Refusal} {kind message : String}
    {position : Option Int} (h : refusal.told? = some (kind, message, position)) :
    kind ≠ "InvalidRequest" := by
  rcases told?_cases h with rfl | ⟨f, -, rfl, -⟩
  · decide
  · cases f.kind <;> decide

/-- A request is answered with a table, which has no kind, or told what is wrong. -/
theorem answer_cases {formula : String} {a : Answer} (h : request? payload = some (formula, given))
    (ha : answer config payload = .ok a) :
    a.kind? = none ∨ ∃ refusal kind message position,
      present config formula given = .error refusal ∧
        refusal.told? = some (kind, message, position) ∧
        a = complaintAnswer kind message position := by
  rw [answer, h] at ha
  dsimp only at ha
  cases hpresent : present config formula given with
  | ok p =>
    rw [hpresent] at ha
    obtain rfl := Except.ok.inj ha
    exact .inl rfl
  | error refusal =>
    simp only [hpresent] at ha
    cases htold : refusal.told? with
    | none =>
      rw [htold] at ha
      cases ha
    | some told =>
      rw [htold] at ha
      obtain rfl := Except.ok.inj ha
      exact .inr ⟨refusal, told.1, told.2.1, told.2.2, rfl, htold, rfl⟩

theorem answer_invalidRequest_iff :
    (∃ a, answer config payload = .ok a ∧ a.status = 400 ∧ a.kind? = some "InvalidRequest") ↔
      ¬IsRequest payload := by
  constructor
  · rintro ⟨a, ha, -, hkind⟩ hrequest
    rcases answer_cases (request?_eq_some hrequest) ha with
      hnone | ⟨refusal, kind, message, position, -, htold, rfl⟩
    · cases hnone.symm.trans hkind
    · rw [kind?_complaintAnswer] at hkind
      exact told?_ne_invalidRequest htold (Option.some.inj hkind)
  · intro h
    exact ⟨invalidRequest, by rw [answer, request?_eq_none h], rfl, rfl⟩

/-- The bodies that are told to be invalid requests are those from which a value is read that is
neither null nor an object, or an object whose proposition is no text.  A body from which no
value is read, null and an object without a proposition are requests without a formula.  A body
whose reading is broken off is not answered. -/
theorem exchange_invalidRequest {w : Framework} (hw : w.IsDocumented) (config : Config)
    (r : Request) :
    ((∃ a, exchange w config r = .ok a ∧ a.status = 400 ∧ a.kind? = some "InvalidRequest") ↔
      w.isJson r.contentType = true ∧ ∃ v, w.read r.body = .value v ∧ ¬IsRequest v) ∧
    (w.isJson r.contentType = false ∨ w.read r.body = .malformed ∨
        w.read r.body = .value .null → EndsBlank config .null (exchange w config r)) ∧
    (∀ fields, w.isJson r.contentType = true → w.read r.body = .value (.object fields) →
      fields.lookup "proposition" = none →
        EndsBlank config ((fields.lookup "style").getD .null) (exchange w config r)) ∧
    (w.isJson r.contentType = true → w.read r.body = .aborted →
      exchange w config r = .error .unread) := by
  have hnull : IsRequest .null := .inl rfl
  have hblank (h : w.HasPayload r .null) : EndsBlank config .null (exchange w config r) := by
    rw [exchange_eq_answer hw h]
    exact answer_endsBlank rfl
  have htold {v : Json.Value} (h : w.HasPayload r v) :
      (∃ a, exchange w config r = .ok a ∧ a.status = 400 ∧ a.kind? = some "InvalidRequest") ↔
        ¬IsRequest v := by
    rw [exchange_eq_answer hw h, answer_invalidRequest_iff]
  have hunread (hjson : w.isJson r.contentType = true) (hread : w.read r.body = .aborted) :
      exchange w config r = .error .unread := by
    rw [exchange, hw.aborted r hjson hread]
  refine ⟨?_, ?_, fun fields hjson hread hlookup => ?_, hunread⟩
  · cases hjson : w.isJson r.contentType with
    | false =>
      rw [htold (.unannounced hjson)]
      exact iff_of_false (not_not_intro hnull) fun h => Bool.false_ne_true h.1
    | true =>
      cases hread : w.read r.body with
      | value v => simp [htold (.value hjson hread)]
      | malformed =>
        rw [htold (.malformed hjson hread)]
        simp [hnull]
      | aborted =>
        rw [hunread hjson hread]
        simp
  · intro hnone
    cases hjson : w.isJson r.contentType with
    | false => exact hblank (.unannounced hjson)
    | true =>
      rcases hnone with hfalse | hread | hread
      · cases hjson.symm.trans hfalse
      · exact hblank (.malformed hjson hread)
      · exact hblank (.value hjson hread)
  · rw [exchange_eq_answer hw (.value hjson hread)]
    refine answer_endsBlank ?_
    rw [request?]
    simp only [hlookup]

/-- A list is no request, unless it is not announced as JSON. -/
theorem exchange_invalidRequest_list :
    let w : Framework := .ofBody "[1]" (.list [.int 1])
    w.IsDocumented ∧
      (∃ a, exchange w baseConfig { contentType := "application/json", body := "[1]" } = .ok a ∧
        a.status = 400 ∧ a.kind? = some "InvalidRequest") ∧
      EndsBlank baseConfig .null
        (exchange w baseConfig { contentType := "text/plain", body := "[1]" }) := by
  intro w
  have hw : w.IsDocumented := Framework.isDocumented_ofBody ..
  have hread : w.read "[1]" = .value (.list [.int 1]) := Framework.read_ofBody ..
  have hlist : ¬IsRequest (.list [.int 1]) := by
    rintro (h | ⟨fields, h, -⟩) <;> cases h
  refine ⟨hw, ?_, ?_⟩
  · exact (exchange_invalidRequest hw baseConfig _).1.mpr ⟨by decide, _, hread, hlist⟩
  · exact (exchange_invalidRequest hw baseConfig _).2.1 (.inl (by decide))

/-- Null is no object with a proposition, and yet it is not told to be an invalid request. -/
theorem exchange_null :
    ¬∀ w : Framework, w.IsDocumented → ∀ (config : Config) (r : Request),
      (¬∃ fields formula, w.isJson r.contentType = true ∧
        w.read r.body = .value (.object fields) ∧
        fields.lookup "proposition" = some (.str formula)) →
      ∃ a, exchange w config r = .ok a ∧ a.status = 400 ∧ a.kind? = some "InvalidRequest" := by
  intro h
  let w : Framework := .ofBody "null" .null
  let r : Request := { contentType := "application/json", body := "null" }
  have hw : w.IsDocumented := Framework.isDocumented_ofBody ..
  have hread : w.read r.body = .value .null := Framework.read_ofBody ..
  have hnone : ¬∃ fields formula, w.isJson r.contentType = true ∧
      w.read r.body = .value (.object fields) ∧
      fields.lookup "proposition" = some (.str formula) := by
    rintro ⟨fields, formula, -, hobject, -⟩
    cases hread.symm.trans hobject
  have hanswer := h w hw baseConfig r hnone
  rw [exchange_eq_answer hw (.value (by decide) hread), answer_invalidRequest_iff] at hanswer
  exact hanswer (.inl rfl)

end Service

/-! ## The character at fault -/

/-- How many blanks a text begins with. -/
def Text.leadingBlanks (cs : List Char) : Nat := (cs.takeWhile isBlank).length

theorem Text.getElem?_trim {cs : List Char} {k : Nat} (h : k < (trim cs).length) :
    (trim cs)[k]? = cs[leadingBlanks cs + k]? := by
  obtain ⟨tail, htail⟩ : trim cs <+: cs.dropWhile isBlank := List.rdropWhile_prefix ..
  have hsplit : cs[leadingBlanks cs + k]? = (cs.dropWhile isBlank)[k]? := by
    conv =>
      lhs
      arg 1
      rw [← List.takeWhile_append_dropWhile (p := isBlank) (l := cs)]
    rw [leadingBlanks, List.getElem?_append_right (Nat.le_add_right ..), Nat.add_sub_cancel_left]
  rw [hsplit, ← htail, List.getElem?_append_left h]

namespace Scan

/-- The scan of a text fails at a character: what is before it is read, but not with it. -/
def FailsAt (strict : Bool) (cs : List Char) (k : Nat) : Prop :=
  (∃ t, (start (String.ofList cs)).run .right strict 0 (cs.take k) = .ok t) ∧
    ∃ e, (start (String.ofList cs)).run .right strict 0 (cs.take (k + 1)) = .error e

/-- The scan of a text reaches its end, and the last parenthesis left open is the one in a
place. -/
def EndsOpenAt (strict : Bool) (cs : List Char) (k : Nat) : Prop :=
  (∃ t, (start (String.ofList cs)).run .right strict 0 cs = .ok t) ∧
    Text.Unclosed cs k ∧ ∀ j, Text.Unclosed cs j → j ≤ k

variable {strict : Bool} {cs : List Char} {k : Nat}

theorem FailsAt.lt_length (h : FailsAt strict cs k) : k < cs.length := by
  obtain ⟨⟨t, ht⟩, e, he⟩ := h
  rw [← Nat.not_le]
  intro hlong
  rw [List.take_of_length_le (Nat.le_succ_of_le hlong)] at he
  rw [List.take_of_length_le hlong, he] at ht
  cases ht

theorem FailsAt.exists_flaw (h : FailsAt strict cs k) :
    ∃ f : Flaw, Program.ofChars .right strict cs = .error (.flaw f) ∧ f.position? = some k := by
  have hlt := h.lt_length
  have hne : cs ≠ [] := List.ne_nil_of_length_pos (Nat.zero_lt_of_lt hlt)
  have hbefore := (Program.comesTo_iff_run hne (Nat.le_of_lt hlt)).mpr h.1
  have hafter : ¬Program.ComesTo (Program.ofChars .right strict cs) (k + 1) := by
    rw [Program.comesTo_iff_run hne hlt]
    rintro ⟨t, ht⟩
    obtain ⟨e, he⟩ := h.2
    cases ht.symm.trans he
  rcases hbefore with hp | ⟨f, hf, hfar⟩
  · exact absurd (.inl hp) hafter
  refine ⟨f, hf, ?_⟩
  by_contra hposition
  -- A flaw elsewhere would let the reading come further.
  refine hafter (.inr ⟨f, hf, fun j hj => Nat.lt_of_le_of_ne (hfar j hj) ?_⟩)
  rintro rfl
  exact hposition (Flaw.position?_of_refusedAt? hj)

theorem EndsOpenAt.exists_flaw (h : EndsOpenAt strict cs k) :
    ∃ f : Flaw, Program.ofChars .right strict cs = .error (.flaw f) ∧ f.position? = some k := by
  obtain ⟨⟨t, ht⟩, hopen, hlast⟩ := h
  have hstart := start_aligned (String.ofList cs)
  have htracks : Tracks ([] ++ cs) t.opens := run_tracks hstart Tracks.nil ht
  rw [List.nil_append] at htracks
  have hmem : k ∈ t.opens := (htracks.mem_iff k).mpr hopen
  have hne : cs ≠ [] := List.ne_nil_of_length_pos (Nat.zero_lt_of_lt hopen.lt_length)
  rw [Program.ofChars_eq hne, ht]
  rcases finish_cases (hstart.of_run ht) cs.length with
    ⟨j, outer, hopens, he⟩ | ⟨hopens, -⟩ | ⟨hopens, -⟩
  · have hj : Text.Unclosed cs j := (htracks.mem_iff j).mp (hopens ▸ List.mem_cons_self)
    have hle : k ≤ j := by
      rw [hopens] at hmem htracks
      rcases List.mem_cons.mp hmem with rfl | hmem
      · exact Nat.le_refl k
      · exact Nat.le_of_lt ((List.pairwise_cons.mp htracks.descending).1 k hmem)
    obtain rfl := Nat.le_antisymm hle (hlast j hj)
    exact ⟨.unclosed k, he, rfl⟩
  all_goals
    rw [hopens] at hmem
    cases hmem

end Scan

namespace Service

variable {config : Config} {given : Json.Value} {formula : String}

/-- The kinds of a fault in the text of a formula are told of nothing else. -/
theorem told?_eq_flaw {refusal : Refusal} {kind message : String} {position : Option Int}
    (h : refusal.told? = some (kind, message, position))
    (hkind : kind = "MalformedExpression" ∨ kind = "UnknownToken") :
    ∃ f : Flaw, refusal = .fault (.flaw f) ∧ f.kind ≠ .tooManyVariables ∧
      complaintAnswer kind message position =
        complaintAnswer f.kind.name f.complaint.text f.complaint.position := by
  rcases told?_cases h with rfl | ⟨f, rfl, rfl, rfl, rfl⟩
  · rcases hkind with hkind | hkind <;> exact absurd hkind (by decide)
  · refine ⟨f, rfl, fun htoo => ?_, rfl⟩
    rw [htoo] at hkind
    rcases hkind with hkind | hkind <;> exact absurd hkind (by decide)

/-- A report on the table of a formula can only fail at the glyphs of the settings. -/
theorem report_ne_fault (options : Options) (source : String) (f : Formula Char) (e : Fault) :
    report options (f.table options.settings source) ≠ .error (.fault e) := by
  intro h
  simp only [report, Formula.report_table, mapError_ok, bind, Except.bind] at h
  cases hrows : options.checkRows (f.table options.settings source).rows with
  | error m =>
    rw [hrows] at h
    cases h
  | ok _ =>
    rw [hrows] at h
    cases h

/-- A request is refused for a flaw of its text only by the compilation of its formula. -/
theorem present_eq_flaw {f : Flaw} (hkind : f.kind ≠ .tooManyVariables)
    (h : present config formula given = .error (.fault (.flaw f))) :
    ∃ options, optionsFor config given = .ok options ∧
      Program.ofText options.settings formula = .error (.flaw f) := by
  rw [present] at h
  cases hoptions : optionsFor config given with
  | error m =>
    rw [hoptions] at h
    cases h
  | ok options =>
    simp only [hoptions, mapError_ok, bind, Except.bind] at h
    refine ⟨options, rfl, ?_⟩
    cases htext : Program.ofText options.settings formula with
    | error e =>
      rw [htext] at h
      exact congrArg Except.error (Refusal.fault.inj (Except.error.inj h))
    | ok p =>
      obtain ⟨d, -, rfl⟩ := Program.ofText_eq_ok_iff.mp htext
      simp only [htext, mapError_ok, Table.build_ofFormula] at h
      by_cases hcount : options.settings.maxVariables < d.formula.names.length
      · simp only [if_pos hcount, Except.mapError] at h
        have hfault := Refusal.fault.inj (Except.error.inj h)
        rw [Fault.tooManyVariables] at hfault
        split at hfault
        · obtain rfl := Fault.flaw.inj hfault
          exact absurd rfl hkind
        · cases hfault
      · simp only [if_neg hcount, mapError_ok] at h
        have hreport := report_ne_fault options (Text.trimmed formula) d.formula (.flaw f)
        cases hresult : report options (d.formula.table options.settings _) with
        | error e =>
          rw [hresult] at h
          obtain rfl := Except.error.inj h
          exact absurd hresult hreport
        | ok r =>
          rw [hresult] at h
          cases h

/-- An answer points to a place in a text without the blanks at its ends, in its own field and
at the end of its message.  In the text as it was sent the same character stands after these
blanks. -/
structure Answer.PointsTo (a : Answer) (text : String) (k : Nat) : Prop where
  position : a.body.field? "position" = some (.int k)
  message : ∃ reason, a.body.field? "message" =
    some (.str (reason ++ " (columna " ++ toString k ++ ")"))
  character : ∃ c, (Text.trim text.toList)[k]? = some c ∧
    text.toList[Text.leadingBlanks text.toList + k]? = some c

theorem complaintAnswer_pointsTo {f : Flaw} {text : String} {k : Nat}
    (hposition : f.position? = some k) (hlt : k < (Text.trim text.toList).length) :
    (complaintAnswer f.kind.name f.complaint.text f.complaint.position).PointsTo text k := by
  have hcolumn : f.complaint.position = some (k : Int) := by
    show f.position?.map Int.ofNat = _
    rw [hposition]
    rfl
  have hmessage : f.complaint.text = f.message ++ " (columna " ++ toString k ++ ")" := by
    rw [Complaint.text, hcolumn]
    rfl
  rw [hcolumn, hmessage]
  exact ⟨rfl, ⟨f.message, rfl⟩, _, List.getElem?_eq_getElem hlt,
    (Text.getElem?_trim hlt).symm.trans (List.getElem?_eq_getElem hlt)⟩

/-- The column that a request is told counts from the first character of its proposition that is
no blank.  It is that of the character at which the scan fails or, when the scan comes to the
end, of the last parenthesis that is left open. -/
theorem answer_position {fields : List (String × Json.Value)} {text : String} {a : Answer}
    (htext : fields.lookup "proposition" = some (.str text))
    (ha : answer config (.object fields) = .ok a)
    (hkind : a.kind? = some "MalformedExpression" ∨ a.kind? = some "UnknownToken") :
    ∃ options, optionsFor config ((fields.lookup "style").getD .null) = .ok options ∧
      ∀ k, Scan.FailsAt options.settings.strict (Text.trim text.toList) k ∨
        Scan.EndsOpenAt options.settings.strict (Text.trim text.toList) k → a.PointsTo text k := by
  have hrequest : request? (.object fields) =
      some (text, (fields.lookup "style").getD .null) := by
    rw [request?]
    simp only [htext]
  rcases answer_cases hrequest ha with
    hnone | ⟨refusal, kind, message, position, hrefusal, htold, rfl⟩
  · rw [hnone] at hkind
    rcases hkind with hkind | hkind <;> cases hkind
  rw [kind?_complaintAnswer, Option.some_inj, Option.some_inj] at hkind
  obtain ⟨f, rfl, hf, heq⟩ := told?_eq_flaw htold hkind
  obtain ⟨options, hoptions, hflaw⟩ := present_eq_flaw hf hrefusal
  refine ⟨options, hoptions, fun k hk => ?_⟩
  rw [heq]
  have hlt : k < (Text.trim text.toList).length := by
    rcases hk with hk | hk
    · exact hk.lt_length
    · exact hk.2.1.lt_length
  obtain ⟨g, hg, hposition⟩ : ∃ g : Flaw, Program.ofText options.settings text =
      .error (.flaw g) ∧ g.position? = some k := by
    rcases hk with hk | hk
    · exact hk.exists_flaw
    · exact hk.exists_flaw
  rw [hflaw] at hg
  obtain rfl := Fault.flaw.inj (Except.error.inj hg)
  exact complaintAnswer_pointsTo hposition hlt

/-- A no-break space before the text shifts what the column counts from. -/
theorem answer_position_shifted :
    let fields : List (String × Json.Value) := [("proposition", .str "\u00a0(p q)")]
    ∃ a, fields.lookup "proposition" = some (.str "\u00a0(p q)") ∧
      answer baseConfig (.object fields) = .ok a ∧
      (a.kind? = some "MalformedExpression" ∨ a.kind? = some "UnknownToken") ∧
      a.PointsTo "\u00a0(p q)" 2 := by
  intro fields
  have htext : fields.lookup "proposition" = some (.str "\u00a0(p q)") := rfl
  let a : Answer := complaintAnswer "MalformedExpression"
    "Falta un operador antes de ' ' (columna 2)" (some 2)
  have ha : answer baseConfig (.object fields) = .ok a := rfl
  obtain ⟨options, hoptions, hpoints⟩ := answer_position htext ha (.inl rfl)
  obtain rfl : _ = options := Except.ok.inj hoptions
  exact ⟨a, htext, ha, .inl rfl, hpoints 2 (.inl ⟨⟨_, rfl⟩, _, rfl⟩)⟩

/-- The column is not that of the character in the text as it was sent. -/
theorem answer_position_after_blank :
    ¬∀ (config : Config) (fields : List (String × Json.Value)) (text : String) (a : Answer),
      fields.lookup "proposition" = some (.str text) →
      answer config (.object fields) = .ok a →
      (a.kind? = some "MalformedExpression" ∨ a.kind? = some "UnknownToken") →
      ∀ options, optionsFor config ((fields.lookup "style").getD .null) = .ok options →
        ∀ j, Scan.FailsAt options.settings.strict (Text.trim text.toList) j →
          a.body.field? "position" =
            some (.int (Text.leadingBlanks text.toList + j : Nat)) := by
  intro h
  let fields : List (String × Json.Value) := [("proposition", .str " )")]
  let a : Answer := complaintAnswer "MalformedExpression"
    "Paréntesis no balanceados: ')' sin abrir (columna 0)" (some 0)
  have htext : fields.lookup "proposition" = some (.str " )") := rfl
  have ha : answer baseConfig (.object fields) = .ok a := rfl
  have hfails : Scan.FailsAt false (Text.trim " )".toList) 0 := ⟨⟨_, rfl⟩, _, rfl⟩
  have hposition := h baseConfig fields " )" a htext ha (.inl rfl) _ rfl 0 hfails
  have hblanks : Text.leadingBlanks " )".toList = 1 := rfl
  rw [hblanks] at hposition
  have hnumber := Json.Value.int.inj (Option.some.inj hposition)
  exact absurd hnumber (by decide)

end Service

end PropTable

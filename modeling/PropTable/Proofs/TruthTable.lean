import PropTable.Proofs.FormulaTable

/-!
# Truth tables are truth tables

The table that is built for a text lists the truth values of the formula that the text reads
as, one row for each valuation of its variables, and the verdict is right about all
valuations of all characters.
-/

namespace PropTable

/-- What the verdict says about the results, and that it says nothing less. -/
theorem Table.verdict_cases (t : Table) :
    (t.verdict = .tautology ∧ ∀ row ∈ t.rows, row.result = true) ∨
    (t.verdict = .contradiction ∧ t.rows ≠ [] ∧ ∀ row ∈ t.rows, row.result = false) ∨
    (t.verdict = .contingency ∧
      (∃ row ∈ t.rows, row.result = true) ∧ ∃ row ∈ t.rows, row.result = false) := by
  by_cases hall : t.rows.all (·.result) = true
  · exact .inl ⟨by rw [verdict, if_pos hall], List.all_eq_true.mp hall⟩
  have hfalse : ∃ row ∈ t.rows, row.result = false := by simpa using hall
  by_cases hany : t.rows.any (·.result) = true
  · have htrue : ∃ row ∈ t.rows, row.result = true := List.any_eq_true.mp hany
    exact .inr (.inr ⟨by rw [verdict, if_neg hall, if_pos hany], htrue, hfalse⟩)
  · obtain ⟨row, hrow, -⟩ := hfalse
    refine .inr (.inl ⟨by rw [verdict, if_neg hall, if_neg hany], List.ne_nil_of_mem hrow, ?_⟩)
    simpa using hany

namespace Formula

variable {f : Formula Char}

/-- Each valuation of all characters agrees with some row on the variables that occur. -/
theorem exists_mem_assignments (f : Formula Char) (v : Char → Bool) :
    ∃ a ∈ assignments f.names.length, f.eval (f.valuation a) = f.eval v := by
  -- Each name is one character, so a valuation of characters gives it a value.
  let a : Assignment := f.names.map fun s => v (s.toList.headD ' ')
  have hlength : a.length = f.names.length := List.length_map ..
  refine ⟨a, mem_assignments.mpr hlength, eval_congr fun c hc => ?_⟩
  have hget : a[f.names.idxOf c.toString]? = some (v c) := by
    rw [List.getElem?_map, getElem?_idxOf_names hc]
    simp
  exact valuation_of_getElem? hget

theorem exists_row_iff {settings : Settings} {source : String} {b : Bool} :
    (∃ row ∈ (f.table settings source).rows, row.result = b) ↔ ∃ v, f.eval v = b := by
  constructor
  · rintro ⟨row, hrow, rfl⟩
    obtain ⟨a, -, rfl⟩ := List.mem_map.mp hrow
    exact ⟨f.valuation a, rfl⟩
  · rintro ⟨v, rfl⟩
    obtain ⟨a, ha, heval⟩ := f.exists_mem_assignments v
    exact ⟨f.row a, List.mem_map_of_mem ha, heval⟩

end Formula

/-- A table of `n` variables is the truth table of a formula if variable `i` is false in
exactly the rows whose number has bit `n - i - 1`, if each row tells the truth value under
what it assigns, and if the verdict does so for all valuations. -/
structure Table.IsTruthTableOf (t : Table) (f : Formula Char) : Prop where
  variableNames : t.program.variableNames = (f.leaves.map Char.toString).eraseDups
  length_rows : t.rows.length = 2 ^ t.program.variableCount
  row : ∀ r < 2 ^ t.program.variableCount, ∃ row, t.rows[r]? = some row ∧
    row.assignment.length = t.program.variableCount ∧
    (∀ i < t.program.variableCount,
      row.assignment[i]? = some (!r.testBit (t.program.variableCount - i - 1))) ∧
    ∀ v, row.assignment.Gives t.program.variableNames v → row.result = f.eval v
  tautology : t.verdict = .tautology ↔ ∀ v, f.eval v = true
  contradiction : t.verdict = .contradiction ↔ ∀ v, f.eval v = false
  contingency : t.verdict = .contingency ↔
    (∃ v, f.eval v = true) ∧ ∃ v, f.eval v = false

/-- The verdict is a tautology exactly if the formula holds whatever its variables say. -/
theorem Table.IsTruthTableOf.tautology_iff_holds {t : Table} {f : Formula Char}
    (h : t.IsTruthTableOf f) : t.verdict = .tautology ↔ ∀ v : Char → Prop, f.Holds v := by
  rw [h.tautology]
  constructor
  · intro htrue v
    classical
    have hholds := (f.eval_eq_true_iff fun c => decide (v c)).mp (htrue _)
    simpa only [decide_eq_true_eq] using hholds
  · exact fun hholds v => (f.eval_eq_true_iff v).mpr (hholds _)

namespace Formula

variable {f : Formula Char} {settings : Settings} {source : String}

theorem eval_of_gives {a : Assignment} {v : Char → Bool} (h : a.Gives f.names v) :
    f.eval (f.valuation a) = f.eval v :=
  eval_congr fun c hc => valuation_of_getElem? (h _ c (getElem?_idxOf_names hc))

theorem verdict_table (f : Formula Char) (settings : Settings) (source : String) :
    ((f.table settings source).verdict = .tautology ↔ ∀ v, f.eval v = true) ∧
    ((f.table settings source).verdict = .contradiction ↔ ∀ v, f.eval v = false) ∧
    ((f.table settings source).verdict = .contingency ↔
      (∃ v, f.eval v = true) ∧ ∃ v, f.eval v = false) := by
  -- A result that all rows share is the value under every valuation.
  have hall {b : Bool} (h : ∀ row ∈ (f.table settings source).rows, row.result = b) (v) :
      f.eval v = b := by
    obtain ⟨row, hrow, heq⟩ := exists_row_iff.mpr ⟨v, rfl⟩
    rw [← heq, h row hrow]
  rcases (f.table settings source).verdict_cases with ⟨h, ht⟩ | ⟨h, -, hf⟩ | ⟨h, ht, hf⟩
  · simp [h, hall ht]
  · simp [h, hall hf]
  · obtain ⟨v, hv⟩ := exists_row_iff.mp ht
    obtain ⟨w, hw⟩ := exists_row_iff.mp hf
    refine ⟨iff_of_false (by simp [h]) ?_, iff_of_false (by simp [h]) ?_,
      iff_of_true h ⟨⟨v, hv⟩, w, hw⟩⟩
    · intro htrue
      rw [htrue w] at hw
      cases hw
    · intro hfalse
      rw [hfalse v] at hv
      cases hv

theorem table_isTruthTableOf : (f.table settings source).IsTruthTableOf f where
  variableNames := rfl
  length_rows := by
    rw [table, List.length_map, assignments_length]
    rfl
  row := by
    intro r hr
    have hr : r < 2 ^ f.names.length := hr
    refine ⟨f.row (assignmentAt f.names.length r), ?_, assignmentAt_length .., ?_, ?_⟩
    · rw [table, assignments_eq_map, List.getElem?_map, List.getElem?_map,
        List.getElem?_range hr]
      rfl
    · exact fun i hi => assignmentAt_getElem? hi
    · exact fun v hv => eval_of_gives hv
  tautology := (f.verdict_table settings source).1
  contradiction := (f.verdict_table settings source).2.1
  contingency := (f.verdict_table settings source).2.2

end Formula

/-- The table that is built for a text is the truth table of the formula that the text
reads as. -/
theorem Table.build_isTruthTableOf {compiled settings : Settings} {text : String} {p : Program}
    (hp : Program.ofText compiled text = .ok p) (hn : p.variableCount ≤ settings.maxVariables) :
    ∃ (d : Derivation compiled.strict .iff) (t : Table), d.text = Text.trim text.toList ∧
      Table.build settings p = .ok t ∧ t.program = p ∧ t.IsTruthTableOf d.formula := by
  obtain ⟨d, hd, rfl⟩ := Program.ofText_eq_ok_iff.mp hp
  rw [Program.variableCount_ofFormula] at hn
  refine ⟨d, d.formula.table settings (Text.trimmed text), hd, ?_, rfl,
    Formula.table_isTruthTableOf⟩
  rw [Table.build_ofFormula, if_neg (Nat.not_lt.mpr hn)]

/-- Only the row of a true premise and a false conclusion is false. -/
theorem Table.build_isTruthTableOf_implication :
    ∃ p, Program.ofText {} "p>q" = .ok p ∧ p.variableCount ≤ 2 ∧
      ∃ (d : Derivation false .iff) (t : Table), d.text = Text.trim "p>q".toList ∧
        Table.build { maxVariables := 2 } p = .ok t ∧ t.program = p ∧
        t.IsTruthTableOf d.formula ∧ t.verdict = .contingency ∧
        t.rows.map (fun row => (row.assignment, row.result)) =
          [([true, true], true), ([true, false], false), ([false, true], true),
            ([false, false], true)] := by
  let p : Program := .ofFormula "p>q" (.binary .implies (.var 'p') (.var 'q'))
  have hp : Program.ofText {} "p>q" = .ok p := rfl
  have hn : p.variableCount ≤ ({ maxVariables := 2 } : Settings).maxVariables := by decide
  obtain ⟨d, t, hd, ht, htp, htable⟩ := build_isTruthTableOf hp hn
  obtain rfl := Except.ok.inj (ht.symm.trans rfl)
  exact ⟨p, hp, hn, d, _, hd, ht, htp, htable, rfl, rfl⟩

end PropTable

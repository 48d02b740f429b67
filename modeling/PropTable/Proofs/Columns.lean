import PropTable.Proofs.Printing

/-!
# The columns of a table

In the plain style the header of a column is a formula, and each row has in the column the
truth value of that formula under what the row assigns.
-/

namespace PropTable

/-- An assignment gives each symbol of a program the value that stands in the place of its
number. -/
def Program.Gives (p : Program) (a : Assignment) (v : String → Bool) : Prop :=
  ∀ s id, p.numbering.idOf? s = some id → a.value id = .ok (v s)

namespace Program

variable {source : String} {f g : Formula Char} {a : Assignment} {v : String → Bool}

theorem exists_gives (h : f.names.length ≤ a.length) : ∃ v, (ofFormula source f).Gives a v := by
  refine ⟨fun s => a.getD (f.names.idxOf s) false, fun s id hid => ?_⟩
  have hid : (Numbering.ofNames f.names).idOf? s = some id := hid
  rw [Numbering.idOf?_ofNames] at hid
  split at hid
  · have hlt := List.idxOf_lt_length_iff.mpr ‹s ∈ f.names›
    obtain rfl := Option.some.inj hid
    refine Assignment.value_numberIn.mpr ?_
    show a[f.names.idxOf s]? = some (a.getD (f.names.idxOf s) false)
    rw [List.getD_eq_getElem?_getD, List.getElem?_eq_getElem (by omega), Option.getD_some]
  · cases hid

theorem Gives.valuation_eq (h : (ofFormula source f).Gives a v) {c : Char} (hc : c ∈ f.leaves) :
    f.valuation a c = v c.toString := by
  have hmention : c.toString ∈ f.leaves.map Char.toString := List.mem_map_of_mem hc
  have hid := Numbering.idOf?_ofMentions hmention
  have hget : a[f.names.idxOf c.toString]? = some (v c.toString) :=
    Assignment.value_numberIn.mp (h _ _ hid)
  exact Formula.valuation_of_getElem? hget

/-- A subformula that numbers its variables anew has the same truth value, if its variables
have the same values. -/
theorem run_composite {source' : String} (h : (ofFormula source f).Gives a v)
    (hg : g ∈ f.composites) :
    ∃ steps, (ofFormula source' g).run ((ofFormula source' g).variableNames.map v) =
      .ok (steps, g.eval (f.valuation a)) := by
  have hgives : Assignment.Gives (g.names.map v) g.names fun c => v c.toString := by
    intro i c hi
    rw [List.getElem?_map, hi, Option.map_some]
  have heval : g.eval (f.valuation a) = g.eval fun c => v c.toString :=
    Formula.eval_congr fun c hc =>
      h.valuation_eq (Formula.leaves_subset_of_mem_composites hg hc)
  rw [variableNames_ofFormula, heval]
  exact ⟨_, run_ofFormula hgives⟩

end Program

/-- The plain label of a subformula compiles even if only letters are variables. -/
theorem Formula.ofText_label_of_mem_composites {f g : Formula Char} {settings : Settings}
    (hs : settings.strict = true) (hf : ∀ c ∈ f.leaves, Phrase.IsVariable true c)
    (hg : g ∈ f.composites) : Program.ofText settings (g.label .ascii).text =
      .ok (.ofFormula (g.label .ascii).text g) := by
  have hvariable : ∀ c ∈ g.leaves, Phrase.IsVariable true c :=
    fun c hc => hf c (leaves_subset_of_mem_composites hg hc)
  refine ofText_label ?_ fun c hc => Text.isBlank_of_isLetter ((hvariable c hc).2.2.2 rfl)
  rwa [hs]

/-- In the plain style the headers of a table compile, and each row has in a column the
result of the program of its header. -/
theorem Table.values_eq_run_headers {compiled settings again : Settings} {text : String}
    {p : Program} (hp : Program.ofText compiled text = .ok p) (hcompiled : compiled.strict = true)
    (hstyle : settings.style = .ascii) (hn : p.variableCount ≤ settings.maxVariables)
    (hagain : again.strict = true) :
    ∃ t, Table.build settings p = .ok t ∧ ∀ row ∈ t.rows,
      row.values.length = t.headers.length ∧ (∃ v, p.Gives row.assignment v) ∧
        ∀ v, p.Gives row.assignment v → ∀ (i : Nat) (header : String),
          t.headers[i]? = some header → ∃ q steps b, Program.ofText again header = .ok q ∧
            q.run (q.variableNames.map v) = .ok (steps, b) ∧ row.values[i]? = some b := by
  obtain ⟨d, -, rfl⟩ := Program.ofText_eq_ok_iff.mp hp
  have hvariable : ∀ c ∈ d.formula.leaves, Phrase.IsVariable true c := by
    rw [← d.phrase_formula, ← hcompiled]
    exact d.phrase_fits.isVariable
  rw [Program.variableCount_ofFormula] at hn
  refine ⟨d.formula.table settings (Text.trimmed text), ?_, fun row hrow => ?_⟩
  · rw [build_ofFormula, if_neg (Nat.not_lt.mpr hn)]
  obtain ⟨a, ha, rfl⟩ := List.mem_map.mp hrow
  have hlength := mem_assignments.mp ha
  refine ⟨?_, Program.exists_gives (Nat.le_of_eq hlength.symm), fun v hv i header hheader => ?_⟩
  · rw [Formula.values_row, Formula.table, List.length_map, List.length_map]
  -- Headers and values are both listed by the subformulas that have a connective.
  rw [Formula.table, List.getElem?_map, hstyle] at hheader
  obtain ⟨g, hg, rfl⟩ := Option.map_eq_some_iff.mp hheader
  have hmem := List.mem_of_getElem? hg
  obtain ⟨steps, hrun⟩ := Program.run_composite hv hmem
  refine ⟨_, steps, _, Formula.ofText_label_of_mem_composites hagain hvariable hmem, hrun, ?_⟩
  rw [Formula.values_row, List.getElem?_map, hg]
  rfl

theorem Table.values_eq_run_headers_nested :
    ∃ p, Program.ofText { strict := true } "~(p>q)&p" = .ok p ∧ p.variableCount ≤ 2 ∧
      ∃ t, Table.build { maxVariables := 2, style := .ascii } p = .ok t ∧ ∀ row ∈ t.rows,
        row.values.length = t.headers.length ∧ (∃ v, p.Gives row.assignment v) ∧
          ∀ v, p.Gives row.assignment v → ∀ (i : Nat) (header : String),
            t.headers[i]? = some header →
              ∃ q steps b, Program.ofText { strict := true } header = .ok q ∧
                q.run (q.variableNames.map v) = .ok (steps, b) ∧ row.values[i]? = some b := by
  let p : Program := .ofFormula "~(p>q)&p"
    (.binary .and (.not (.binary .implies (.var 'p') (.var 'q'))) (.var 'p'))
  have hp : Program.ofText { strict := true } "~(p>q)&p" = .ok p := rfl
  let settings : Settings := { maxVariables := 2, style := .ascii }
  have hn : p.variableCount ≤ settings.maxVariables := by decide
  exact ⟨p, hp, hn, values_eq_run_headers hp rfl rfl hn rfl⟩

end PropTable

import PropTable.Proofs.Conjunctions
import PropTable.Service

/-!
# Compiled programs do not go wrong

A program that comes from a text lists its symbols, numbers its variables and labels its
connectives without a fault.  A run faults only for want of a value, which is when the
assignment is too short, and a table is refused only for its number of variables.
-/

namespace PropTable

theorem Assignment.Gives.take {a : Assignment} {names : List String} {v : Char → Bool}
    (h : a.Gives names v) : Assignment.Gives (a.take names.length) names v := by
  intro i c hi
  have hlt := (List.getElem?_eq_some_iff.mp hi).1
  rw [List.getElem?_take_of_lt hlt, h i c hi]

theorem Assignment.value_eq_error {a : Assignment} {id : Int} {e : Fault}
    (h : a.value id = .error e) : e = .noValue (id - 1) := by
  rw [value] at h
  split at h
  · cases h
  · exact (Except.error.inj h).symm

namespace Program

variable {source : String} {f : Formula Char}

theorem variableIds_ofFormula :
    (ofFormula source f).variableIds =
      .ok (f.names.map (Numbering.numberIn (f.leaves.map Char.toString))) := by
  refine mapM_eq_pure fun s hs => ?_
  have hid := Numbering.idOf?_ofMentions (List.mem_eraseDups.mp hs)
  simp only [ofFormula, hid]
  rfl

/-- Every number up to that of the last name occurs in the program, so an assignment that is
too short is found out. -/
theorem run_ofFormula_of_lt {a : Assignment} (h : a.length < f.names.length) :
    ∃ place, (ofFormula source f).run a = .error (.noValue place) := by
  -- The first name without a value occurs in the formula, so not all its variables have one.
  obtain ⟨c, hc, hname, hidx⟩ :=
    Formula.mem_leaves_of_getElem?_names (List.getElem?_eq_getElem h)
  rw [run_eq_evaluate]
  rcases a.algebra.evaluate_cases (f.numbered (f.leaves.map Char.toString)) with
    ⟨-, hall⟩ | ⟨id, -, e, hleaf, he⟩
  · rw [Formula.numbered, Formula.leaves_map] at hall
    obtain ⟨b, hb⟩ := hall _ (List.mem_map_of_mem hc)
    have hget : a[f.names.idxOf c.toString]? = some b := Assignment.value_numberIn.mp hb
    rw [hname, hidx, List.getElem?_eq_none (Nat.le_refl _)] at hget
    cases hget
  · exact ⟨id - 1, by rw [he, Assignment.value_eq_error hleaf]⟩

/-- What is not looked at cannot go wrong: a run reads the first places only. -/
theorem run_ofFormula_take {a : Assignment} (h : f.names.length ≤ a.length) :
    (ofFormula source f).run (a.take f.names.length) = (ofFormula source f).run a := by
  have hgives := Formula.gives_valuation h
  rw [run_ofFormula hgives, run_ofFormula hgives.take]

/-- A program that cannot go wrong. -/
structure IsSafe (p : Program) : Prop where
  listing : ∃ symbols, p.listing = .ok symbols
  variableIds : ∃ ids, p.variableIds = .ok ids
  labels : ∀ style, ∃ headers, p.labels style = .ok headers
  run_short : ∀ a : Assignment, a.length < p.variableCount →
    ∃ place, p.run a = .error (.noValue place)
  run_long : ∀ a : Assignment, p.variableCount ≤ a.length → ∃ r, p.run a = .ok r
  run_take : ∀ a : Assignment, p.variableCount ≤ a.length →
    p.run (a.take p.variableCount) = p.run a
  table_refused : ∀ s : Settings, s.maxVariables < p.variableCount →
    p.variableCount ≤ Table.maxTold → ∃ h, Table.build s p =
      .error (.flaw (.tooManyVariables p.variableCount s.maxVariables h))
  /-- The number of rows cannot be told, and that is what is refused. -/
  table_untold : ∀ s : Settings, s.maxVariables < p.variableCount →
    Table.maxTold < p.variableCount → Table.build s p = .error .longNumeral
  table_built : ∀ s : Settings, p.variableCount ≤ s.maxVariables →
    ∃ t, Table.build s p = .ok t ∧ (∃ r, Service.report (.ofSettings s) t = .ok r) ∧
      ∃ text, (Options.ofSettings s).markdown t = .ok text

theorem isSafe_ofFormula (source : String) (f : Formula Char) : (ofFormula source f).IsSafe where
  listing := ⟨_, listing_ofFormula source f⟩
  variableIds := ⟨_, variableIds_ofFormula⟩
  labels style := ⟨_, labels_ofFormula style⟩
  run_short _ h := run_ofFormula_of_lt h
  run_long _ h := ⟨_, run_ofFormula (Formula.gives_valuation h)⟩
  run_take _ h := run_ofFormula_take h
  table_refused s h hfew := by
    rw [variableCount_ofFormula] at h hfew ⊢
    rw [Table.build_ofFormula, if_pos h, Fault.tooManyVariables_of_le hfew]
    exact ⟨_, rfl⟩
  table_untold s h hmany := by
    exact Table.build_of_maxTold_lt h hmany
  table_built s h := by
    rw [variableCount_ofFormula] at h
    refine ⟨f.table s source, by rw [Table.build_ofFormula, if_neg (Nat.not_lt.mpr h)], ?_, ?_⟩
    · have hlisting : (f.table s source).program.listing = _ := listing_ofFormula source f
      rw [Service.report, Table.report, hlisting, Options.checkRows_ofSettings]
      exact ⟨_, rfl⟩
    · rw [Options.markdown, Options.checkRows_ofSettings]
      exact ⟨_, rfl⟩

/-- A program that comes from a text cannot go wrong. -/
theorem ofText_isSafe {settings : Settings} {text : String} {p : Program}
    (hp : ofText settings text = .ok p) : p.IsSafe := by
  obtain ⟨d, -, rfl⟩ := ofText_eq_ok_iff.mp hp
  exact isSafe_ofFormula ..

theorem ofText_isSafe_negation :
    ofText {} " ~p&q " =
        .ok (ofFormula "~p&q" (.binary .and (.not (.var 'p')) (.var 'q'))) ∧
      (ofFormula "~p&q" (.binary .and (.not (.var 'p')) (.var 'q'))).IsSafe := by
  have hp : ofText {} " ~p&q " =
      .ok (ofFormula "~p&q" (.binary .and (.not (.var 'p')) (.var 'q'))) := rfl
  exact ⟨hp, ofText_isSafe hp⟩

/-- A text of one variable more than can be told is refused a table, but not with a flaw. -/
theorem ofText_isSafe_untold :
    ∃ p, ofText {} (manyText Table.maxTold) = .ok p ∧
      ({} : Settings).maxVariables < p.variableCount ∧
      Table.build {} p = .error .longNumeral := by
  have hlax : ({} : Settings).strict = false := rfl
  obtain ⟨p, hp, hmax, huntold⟩ := exists_ofText_untold hlax (by decide)
  exact ⟨p, hp, hmax, Table.build_of_maxTold_lt hmax huntold⟩

end Program

end PropTable

import PropTable.Proofs.Conjunctions
import PropTable.Proofs.Faults

/-!
# Which programs have a table

Any tokens may be put into a program by hand.  A table is built from exactly those that are
the postorder of a formula over the variables of the program, and otherwise the first of what
is wrong is reported: too many variables, the first token at fault, the number of values left
(`Table.build_edits`).  The labels come before the rows, so a number that stands for no
variable is refused before an assignment is asked for its value.
-/

namespace PropTable

theorem Assignment.exists_value {a : Assignment} {id : Int} (hone : 1 ≤ id)
    (hle : id ≤ a.length) : ∃ b, a.value id = .ok b := by
  have hpos : 0 ≤ id - 1 := by omega
  have hlt : (id - 1).toNat < a.length := by omega
  refine ⟨a[(id - 1).toNat], ?_⟩
  simp only [value, value?, if_pos hpos, if_neg (Int.not_lt.mpr hpos),
    List.getElem?_eq_getElem hlt]

namespace Formula

theorem map_id {α : Type} (f : Formula α) : f.map id = f := by
  induction f with
  | var a => rfl
  | not f ih => rw [map, ih]
  | binary op f g ihf ihg => rw [map, ihf, ihg]

/-- The last step is the value of the whole, if there are steps. -/
theorem getLast?_steps {α : Type} {f : Formula α} {v : α → Bool} {b : Bool}
    (h : (f.steps v).getLast? = some b) : f.eval v = b := by
  cases f with
  | var a => cases h
  | not f => simpa [steps] using h
  | binary op f g => simpa [steps] using h

end Formula

theorem Algebra.evaluate_of_leaves {α : Type} {alg : Algebra α} {v : Int → α} {f : Formula Int}
    (h : ∀ id ∈ f.leaves, alg.leaf id = .ok (v id)) :
    alg.evaluate f = .ok (f.composites.map (alg.value v), alg.value v f) := by
  have hmap := evaluate_map (m := id) h
  rwa [f.map_id] at hmap

namespace Program

/-- The variables have the numbers from 1 on, and any other number is at fault. -/
def idFault? (p : Program) (id : Int) : Option Fault :=
  if 1 ≤ id ∧ id ≤ p.variableCount then none else some (.unknownId id)

/-- The tokens are the postorder of a formula over the variables of the program. -/
def IsPostorder (p : Program) : Prop :=
  ∃ f : Formula Int, p.tokens = f.tokens ∧ ∀ id ∈ f.leaves, 1 ≤ id ∧ id ≤ p.variableCount

variable {p : Program}

theorem idFault?_eq_none_iff {id : Int} :
    p.idFault? id = none ↔ 1 ≤ id ∧ id ≤ p.variableCount := by
  simp [idFault?]

theorem isPostorder_iff :
    p.IsPostorder ↔ Token.Faultless p.idFault? p.tokens ∧ Token.height p.tokens = 1 := by
  simp only [Token.faultless_and_height_iff, idFault?_eq_none_iff, IsPostorder]

/-! ## Labels -/

/-- The labels find a symbol for the numbers of the variables, and for no others. -/
theorem idFault?_labelAlgebra (hp : p.numbering.IsBijection) (style : Style) :
    (Label.algebra style p.numbering).idFault? = p.idFault? := by
  funext id
  have hrange := hp.isSome_symbolOf?_iff id
  cases h : p.numbering.symbolOf? id with
  | some s =>
    rw [h] at hrange
    rw [idFault?_eq_none_iff.mpr (hrange.mp rfl)]
    simp [Algebra.idFault?, Label.algebra, h]
  | none =>
    rw [h] at hrange
    have hout : ¬(1 ≤ id ∧ id ≤ p.variableCount) := fun hin =>
      absurd (hrange.mpr hin) Bool.false_ne_true
    rw [idFault?, if_neg hout]
    simp [Algebra.idFault?, Label.algebra, h]

theorem labels_of_firstFault (hp : p.numbering.IsBijection) {e : Fault}
    (h : Token.FirstFault p.idFault? p.tokens e) (style : Style) : p.labels style = .error e := by
  have hrun := Replay.run_of_firstFault (idFault?_labelAlgebra hp style) h
  rw [labels, hrun]
  rfl

theorem labels_of_faultless (hp : p.numbering.IsBijection)
    (h : Token.Faultless p.idFault? p.tokens) (style : Style) :
    ∃ headers, p.labels style = .ok headers := by
  obtain ⟨steps, stack, hrun, -⟩ := Replay.run_of_faultless (idFault?_labelAlgebra hp style) h
  exact ⟨_, by rw [labels, hrun]; rfl⟩

theorem labels_of_tokens (hp : p.numbering.IsBijection) {f : Formula Int}
    (hf : p.tokens = f.tokens) (hleaves : ∀ id ∈ f.leaves, 1 ≤ id ∧ id ≤ p.variableCount)
    (style : Style) :
    ∃ headers, p.labels style = .ok headers ∧ headers.length = f.composites.length := by
  let symbol (id : Int) : Label :=
    { text := (p.numbering.symbolOf? id).getD "", composite := false }
  have hleaf : ∀ id ∈ f.leaves,
      (Label.algebra style p.numbering).leaf id = .ok (symbol id) := by
    intro id hid
    obtain ⟨s, hs⟩ := Option.isSome_iff_exists.mp
      ((hp.isSome_symbolOf?_iff id).mpr (hleaves id hid))
    simp [Label.algebra, symbol, hs]
  have hrun := Replay.run_tokens (Label.algebra style p.numbering) f []
  rw [Algebra.evaluate_of_leaves hleaf, ← hf] at hrun
  exact ⟨_, by rw [labels, hrun]; rfl, by simp⟩

/-! ## Runs -/

theorem run_of_replay_eq_error {a : Assignment} {e : Fault}
    (h : Replay.run a.algebra p.tokens [] = .error e) : p.run a = .error e := by
  rw [run, h]
  rfl

theorem run_of_replay_eq_ok {a : Assignment} {steps stack : List Bool}
    (h : Replay.run a.algebra p.tokens [] = .ok (steps, stack)) :
    (∀ result, stack = [result] → p.run a = .ok (steps, result)) ∧
      (stack.length ≠ 1 → p.run a = .error (.flaw (.valuesLeft stack.length))) := by
  rw [run, h]
  refine ⟨fun result hstack => ?_, fun hone => ?_⟩
  · subst hstack
    rfl
  · cases stack with
    | nil => rfl
    | cons b lower =>
      cases lower with
      | nil => exact absurd rfl hone
      | cons _ _ => rfl

theorem run_of_tokens {f : Formula Int} (hf : p.tokens = f.tokens) {a : Assignment}
    {v : Int → Bool} (hv : ∀ id ∈ f.leaves, a.value id = .ok (v id)) :
    p.run a = .ok (f.steps v, f.eval v) := by
  have hrun := Replay.run_tokens a.algebra f []
  rw [Algebra.evaluate_of_leaves hv, ← hf] at hrun
  rw [run, hrun, f.steps_eq_composites, ← Formula.value_boolAlgebra a v f]
  simp only [funext (Formula.value_boolAlgebra a v)]
  rfl

theorem run_of_faultless {a : Assignment} (ha : p.variableCount ≤ a.length)
    (h : Token.Faultless p.idFault? p.tokens) (hone : Token.height p.tokens ≠ 1) :
    p.run a = .error (.flaw (.valuesLeft (Token.height p.tokens))) := by
  have hvalues : Token.Faultless a.algebra.idFault? p.tokens := by
    refine h.mono fun id hid => ?_
    obtain ⟨hpos, hle⟩ := idFault?_eq_none_iff.mp hid
    obtain ⟨b, hb⟩ := Assignment.exists_value hpos (a := a) (by omega)
    simp [Algebra.idFault?, Assignment.algebra, hb]
  obtain ⟨steps, stack, hrun, hstack⟩ := Replay.run_of_faultless rfl hvalues
  have hlength := hstack.length_eq
  rw [← hlength] at hone ⊢
  exact (run_of_replay_eq_ok hrun).2 hone

end Program

/-! ## Tables -/

namespace Table

/-- One row for each assignment of the variables and one value for each header.  The result
is the last value, if there is one. -/
structure IsRegular (t : Table) : Prop where
  length_rows : t.rows.length = 2 ^ t.program.variableCount
  length_assignment : ∀ row ∈ t.rows, row.assignment.length = t.program.variableCount
  length_values : ∀ row ∈ t.rows, row.values.length = t.headers.length
  result : ∀ row ∈ t.rows, ∀ b, row.values.getLast? = some b → row.result = b

variable {settings : Settings} {p : Program}

theorem build_of_firstFault (settings : Settings) (hn : p.variableCount ≤ settings.maxVariables)
    (hp : p.numbering.IsBijection) {e : Fault}
    (h : Token.FirstFault p.idFault? p.tokens e) : build settings p = .error e := by
  rw [build, if_neg (Nat.not_lt.mpr hn), Program.labels_of_firstFault hp h]
  rfl

theorem build_of_faultless (settings : Settings) (hn : p.variableCount ≤ settings.maxVariables)
    (hp : p.numbering.IsBijection) (hpost : ¬p.IsPostorder)
    (h : Token.Faultless p.idFault? p.tokens) :
    build settings p = .error (.flaw (.valuesLeft (Token.height p.tokens))) := by
  have hone : Token.height p.tokens ≠ 1 :=
    fun hone => hpost (Program.isPostorder_iff.mpr ⟨h, hone⟩)
  obtain ⟨headers, hheaders⟩ := Program.labels_of_faultless hp h settings.style
  -- There is a first row, also of a program without variables, and it fails.
  have hrows : (assignments p.variableCount).mapM p.row =
      .error (.flaw (.valuesLeft (Token.height p.tokens))) := by
    cases hassignments : assignments p.variableCount with
    | nil =>
      have hlength := assignments_length p.variableCount
      rw [hassignments] at hlength
      exact absurd hlength.symm (Nat.ne_of_gt (Nat.two_pow_pos _))
    | cons a rest =>
      have ha : a ∈ assignments p.variableCount := by rw [hassignments]; exact List.mem_cons_self
      have hrun := Program.run_of_faultless (Nat.le_of_eq (mem_assignments.mp ha).symm) h hone
      rw [List.mapM_cons, Program.row, hrun]
      rfl
  rw [build, if_neg (Nat.not_lt.mpr hn), hheaders, hrows]
  rfl

theorem build_of_isPostorder (settings : Settings) (hn : p.variableCount ≤ settings.maxVariables)
    (hp : p.numbering.IsBijection) (h : p.IsPostorder) :
    ∃ t, build settings p = .ok t ∧ t.program = p ∧ t.IsRegular := by
  obtain ⟨f, hf, hleaves⟩ := h
  obtain ⟨headers, hheaders, hlength⟩ := Program.labels_of_tokens hp hf hleaves settings.style
  let v (a : Assignment) (id : Int) : Bool := (a.value id).toOption.getD false
  let row (a : Assignment) : Row :=
    { assignment := a, values := f.steps (v a), result := f.eval (v a) }
  have hrow : ∀ a ∈ assignments p.variableCount, p.row a = .ok (row a) := by
    intro a ha
    have hv : ∀ id ∈ f.leaves, a.value id = .ok (v a id) := by
      intro id hid
      obtain ⟨hpos, hle⟩ := hleaves id hid
      obtain ⟨b, hb⟩ := Assignment.exists_value hpos (by rwa [mem_assignments.mp ha])
      simp [v, hb, Except.toOption]
    rw [Program.row, Program.run_of_tokens hf hv]
    rfl
  have hbuild : build settings p =
      .ok { program := p, headers, rows := (assignments p.variableCount).map row, settings } := by
    rw [build, if_neg (Nat.not_lt.mpr hn), hheaders, mapM_eq_pure hrow]
    rfl
  refine ⟨_, hbuild, rfl, ?_, ?_, ?_, ?_⟩
  · exact (List.length_map ..).trans (assignments_length _)
  · intro r hr
    obtain ⟨a, ha, rfl⟩ := List.mem_map.mp hr
    exact mem_assignments.mp ha
  · intro r hr
    obtain ⟨a, -, rfl⟩ := List.mem_map.mp hr
    simp only [row, f.steps_eq_composites, List.length_map, hlength]
  · intro r hr b hb
    obtain ⟨a, -, rfl⟩ := List.mem_map.mp hr
    exact Formula.getLast?_steps hb

theorem firstFault_ne_tooManyVariables {e : Fault}
    (h : Token.FirstFault p.idFault? p.tokens e) (count maximum : Nat) :
    e ≠ .tooManyVariables count maximum := by
  obtain ⟨before, t, after, -, -, he⟩ := h
  rintro rfl
  cases t with
  | var id =>
    simp only [Token.fault?, Program.idFault?, Fault.tooManyVariables] at he
    split at he <;> split at he <;> simp at he
  | sign symbol =>
    simp only [Token.fault?, Fault.tooManyVariables] at he
    split at he
    · split at he <;> simp at he
    · split at he <;> split at he <;> simp at he

theorem build_of_not_isPostorder (settings : Settings)
    (hn : p.variableCount ≤ settings.maxVariables) (hp : p.numbering.IsBijection)
    (hpost : ¬p.IsPostorder) :
    ∃ e, build settings p = .error e ∧
      ∀ count maximum, e ≠ .tooManyVariables count maximum := by
  rcases Token.faultless_or_firstFault p.idFault? p.tokens with h | ⟨e, h⟩
  · refine ⟨_, build_of_faultless settings hn hp hpost h, fun count maximum => ?_⟩
    rw [Fault.tooManyVariables]
    split <;> simp
  · exact ⟨e, build_of_firstFault settings hn hp h, firstFault_ne_tooManyVariables h⟩

theorem exists_tooManyVariables_iff (settings : Settings) (hp : p.numbering.IsBijection) :
    (∃ count maximum, build settings p = .error (.tooManyVariables count maximum)) ↔
      settings.maxVariables < p.variableCount := by
  constructor
  · rintro ⟨count, maximum, he⟩
    rw [← Nat.not_le]
    intro hn
    by_cases hpost : p.IsPostorder
    · obtain ⟨t, ht, -⟩ := build_of_isPostorder settings hn hp hpost
      cases ht.symm.trans he
    · obtain ⟨e, he', hne⟩ := build_of_not_isPostorder settings hn hp hpost
      exact hne count maximum (Except.error.inj (he'.symm.trans he))
  · intro h
    exact ⟨_, _, build_of_lt h⟩

theorem build_eq_flaw_iff (settings : Settings) (hp : p.numbering.IsBijection) :
    (∃ count maximum h,
        build settings p = .error (.flaw (.tooManyVariables count maximum h))) ↔
      settings.maxVariables < p.variableCount ∧ p.variableCount ≤ maxTold := by
  constructor
  · rintro ⟨count, maximum, h, he⟩
    have hfault : Fault.tooManyVariables count maximum =
        .flaw (.tooManyVariables count maximum h) := dif_pos h
    have hlt := (exists_tooManyVariables_iff settings hp).mp ⟨count, maximum, hfault ▸ he⟩
    refine ⟨hlt, Nat.not_lt.mp fun hmany => ?_⟩
    rw [build_of_lt hlt, Fault.tooManyVariables_of_lt hmany] at he
    cases he
  · rintro ⟨hlt, hfew⟩
    exact ⟨_, _, _, (build_of_lt hlt).trans (congrArg _ (Fault.tooManyVariables_of_le hfew _))⟩

theorem build_eq_longNumeral_iff (settings : Settings) (hp : p.numbering.IsBijection) :
    build settings p = .error .longNumeral ↔
      settings.maxVariables < p.variableCount ∧ maxTold < p.variableCount := by
  constructor
  · intro he
    have hfault : Fault.tooManyVariables (maxTold + 1) 0 = .longNumeral :=
      Fault.tooManyVariables_of_lt (Nat.lt_succ_self maxTold) 0
    have hlt := (exists_tooManyVariables_iff settings hp).mp ⟨_, _, hfault ▸ he⟩
    refine ⟨hlt, Nat.not_le.mp fun hfew => ?_⟩
    rw [build_of_lt hlt, Fault.tooManyVariables_of_le hfew] at he
    cases he
  · rintro ⟨hlt, hmany⟩
    exact build_of_maxTold_lt hlt hmany

/-- What becomes of a program that was put together by hand.  Too many variables are refused
whatever the tokens are, and if there are so many that the number of rows cannot be written,
the refusal is that of the number.  Otherwise there is a table exactly for the postorder of a
formula over the variables; for other tokens the first one at fault decides, and if none is, the
number of values left is reported. -/
theorem build_edits (settings : Settings) (source : String) (edits : List Edit) :
    let p := ({ source } : Program).edits edits
    ((∃ count maximum h,
        build settings p = .error (.flaw (.tooManyVariables count maximum h))) ↔
      settings.maxVariables < p.variableCount ∧ p.variableCount ≤ maxTold) ∧
    (build settings p = .error .longNumeral ↔
      settings.maxVariables < p.variableCount ∧ maxTold < p.variableCount) ∧
    (p.variableCount ≤ settings.maxVariables →
      ((∃ t, build settings p = .ok t) ↔ p.IsPostorder) ∧
      (Token.Faultless p.idFault? p.tokens ∨ ∃ e, Token.FirstFault p.idFault? p.tokens e) ∧
      (∀ e, Token.FirstFault p.idFault? p.tokens e → build settings p = .error e) ∧
      (¬p.IsPostorder → Token.Faultless p.idFault? p.tokens →
        build settings p = .error (.flaw (.valuesLeft (Token.height p.tokens))))) ∧
    ∀ t, build settings p = .ok t → t.program = p ∧ t.IsRegular := by
  intro p
  have hp : p.numbering.IsBijection :=
    (Program.isNumbered_of_mentions (Program.numbering_edits_empty source edits)).bijection []
  refine ⟨build_eq_flaw_iff settings hp, build_eq_longNumeral_iff settings hp, fun hn => ?_,
    fun t ht => ?_⟩
  · refine ⟨?_, Token.faultless_or_firstFault p.idFault? p.tokens,
      fun e h => build_of_firstFault settings hn hp h,
      fun hpost h => build_of_faultless settings hn hp hpost h⟩
    by_cases hpost : p.IsPostorder
    · obtain ⟨t, ht, -⟩ := build_of_isPostorder settings hn hp hpost
      exact iff_of_true ⟨t, ht⟩ hpost
    · obtain ⟨e, he, -⟩ := build_of_not_isPostorder settings hn hp hpost
      refine iff_of_false ?_ hpost
      rintro ⟨t, ht⟩
      cases he.symm.trans ht
  · have hn : p.variableCount ≤ settings.maxVariables := by
      rw [← Nat.not_lt]
      intro hlt
      cases (build_of_lt hlt).symm.trans ht
    have hpost : p.IsPostorder := by
      by_contra hpost
      obtain ⟨e, he, -⟩ := build_of_not_isPostorder settings hn hp hpost
      cases he.symm.trans ht
    obtain ⟨t', ht', hprogram, hregular⟩ := build_of_isPostorder settings hn hp hpost
    obtain rfl := Except.ok.inj (ht'.symm.trans ht)
    exact ⟨hprogram, hregular⟩

/-- The declarations of different symbols. -/
def declarations (n : Nat) : List Edit :=
  (List.range n).map fun k => .declare (Phrase.ideograph k).toString

theorem variableCount_declarations {n : Nat} (h : n < 0x8A00) :
    (Program.edits {} (declarations (n + 1))).variableCount = n + 1 := by
  have hmentions : (declarations (n + 1)).filterMap Edit.symbol? =
      (List.range (n + 1)).map fun k => (Phrase.ideograph k).toString := by
    rw [declarations, List.filterMap_map]
    exact congrFun List.filterMap_eq_map _
  rw [Program.variableCount, Program.variableNames, Program.numbering_edits_empty, hmentions]
  exact (length_eraseDups_of_nodup (Phrase.nodup_ideographs h)).trans (by simp)

/-- Number 0 would read the last value of an assignment, but the labels refuse it first. -/
theorem build_edits_zero :
    let edits : List Edit := [.variable "p", .token (.var 0), .token (.sign "&")]
    let p := Program.edits {} edits
    p.variableCount ≤ 12 ∧ Token.FirstFault p.idFault? p.tokens (.unknownId 0) ∧
      build {} p = .error (.unknownId 0) := by
  intro edits p
  have hn : p.variableCount ≤ 12 := by decide
  have hbefore : Token.Faultless p.idFault? ([] ++ [.var 1]) :=
    Token.faultless_concat.mpr ⟨Token.faultless_nil, rfl⟩
  have hfirst : Token.FirstFault p.idFault? p.tokens (.unknownId 0) :=
    ⟨[.var 1], .var 0, [.sign "&"], rfl, hbefore, rfl⟩
  exact ⟨hn, hfirst, ((build_edits {} "" edits).2.2.1 hn).2.2.1 _ hfirst⟩

/-- One declaration more than can be told, with no token at all. -/
theorem build_edits_untold :
    let p := Program.edits {} (declarations (maxTold + 1))
    ({} : Settings).maxVariables < p.variableCount ∧ build {} p = .error .longNumeral := by
  have hcount := variableCount_declarations (n := maxTold) (by decide)
  have hmax : ({} : Settings).maxVariables <
      (Program.edits {} (declarations (maxTold + 1))).variableCount := by
    rw [hcount]
    decide
  exact ⟨hmax, build_of_maxTold_lt hmax (by omega)⟩

end Table
end PropTable

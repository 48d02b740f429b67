import PropTable.Proofs.Assignments
import PropTable.Proofs.Compilation
import PropTable.Proofs.Postorder
import PropTable.Table

/-!
# The table of a formula

A text is compiled to `Program.ofFormula` of its formula, so what can be said of compiled
programs is said here of these: their runs, their labels and their tables in closed form.
-/

namespace PropTable

theorem mapM_eq_pure {m : Type → Type} [Monad m] [LawfulMonad m] {α β : Type} {f : α → m β}
    {g : α → β} {xs : List α} (h : ∀ x ∈ xs, f x = pure (g x)) :
    xs.mapM f = pure (xs.map g) := by
  induction xs with
  | nil => rfl
  | cons x xs ih =>
    rw [List.mapM_cons, h x List.mem_cons_self, ih fun y hy => h y (List.mem_cons_of_mem x hy),
      pure_bind, pure_bind, List.map_cons]

/-- An assignment gives the variables in the order of their names the values of a
valuation. -/
def Assignment.Gives (a : Assignment) (names : List String) (v : Char → Bool) : Prop :=
  ∀ (i : Nat) (c : Char), names[i]? = some c.toString → a[i]? = some (v c)

namespace Formula

/-- The names of the variables in the order of their first occurrences. -/
def names (f : Formula Char) : List String := (f.leaves.map Char.toString).eraseDups

def label (style : Style) : Formula Char → Label
  | var c => { text := c.toString, composite := false }
  | not f => Label.not style (f.label style)
  | binary op f g => Label.binary style op (f.label style) (g.label style)

def valuation (f : Formula Char) (a : Assignment) (c : Char) : Bool :=
  a.getD (f.names.idxOf c.toString) false

def row (f : Formula Char) (a : Assignment) : Row :=
  { assignment := a, values := f.steps (f.valuation a), result := f.eval (f.valuation a) }

theorem values_row (f : Formula Char) (a : Assignment) :
    (f.row a).values = f.composites.map (eval (f.valuation a)) :=
  f.steps_eq_composites _

theorem toString_mem_names {f : Formula Char} {c : Char} (hc : c ∈ f.leaves) :
    c.toString ∈ f.names :=
  List.mem_eraseDups.mpr (List.mem_map_of_mem hc)

theorem getElem?_idxOf_names {f : Formula Char} {c : Char} (hc : c ∈ f.leaves) :
    f.names[f.names.idxOf c.toString]? = some c.toString := by
  have hlt := List.idxOf_lt_length_iff.mpr (toString_mem_names hc)
  rw [List.getElem?_eq_getElem hlt, List.getElem_idxOf]

theorem mem_leaves_of_getElem?_names {f : Formula Char} {i : Nat} {s : String}
    (h : f.names[i]? = some s) : ∃ c ∈ f.leaves, c.toString = s ∧ f.names.idxOf s = i := by
  obtain ⟨hlt, hget⟩ := List.getElem?_eq_some_iff.mp h
  obtain ⟨c, hc, hname⟩ := List.mem_map.mp (List.mem_eraseDups.mp (List.mem_of_getElem? h))
  refine ⟨c, hc, hname, ?_⟩
  -- No name is repeated, so it stands in one place only.
  rw [← hget]
  exact (nodup_eraseDups _).idxOf_getElem i hlt

theorem valuation_of_getElem? {f : Formula Char} {a : Assignment} {c : Char} {b : Bool}
    (h : a[f.names.idxOf c.toString]? = some b) : f.valuation a c = b := by
  rw [valuation, List.getD_eq_getElem?_getD, h, Option.getD_some]

theorem gives_valuation {f : Formula Char} {a : Assignment} (h : f.names.length ≤ a.length) :
    a.Gives f.names (f.valuation a) := by
  intro i c hi
  have hlt := (List.getElem?_eq_some_iff.mp hi).1
  obtain ⟨-, -, -, hidx⟩ := mem_leaves_of_getElem?_names hi
  rw [valuation, hidx, List.getD_eq_getElem?_getD, List.getElem?_eq_getElem (by omega)]
  rfl

theorem value_boolAlgebra {β : Type} (a : Assignment) (v : β → Bool) (f : Formula β) :
    a.algebra.value v f = f.eval v := by
  induction f with
  | var b => rfl
  | not f ih =>
    rw [Algebra.value, ih]
    rfl
  | binary op f g ihf ihg =>
    rw [Algebra.value, ihf, ihg]
    rfl

theorem value_labelAlgebra (style : Style) (m : Numbering) (f : Formula Char) :
    (Label.algebra style m).value (fun c => { text := c.toString, composite := false }) f =
      f.label style := by
  induction f with
  | var c => rfl
  | not f ih =>
    rw [Algebra.value, ih]
    rfl
  | binary op f g ihf ihg =>
    rw [Algebra.value, ihf, ihg]
    rfl

end Formula

theorem Assignment.value?_numberIn (a : Assignment) (mentions : List String) (s : String) :
    a.value? (Numbering.numberIn mentions s - 1) = a[mentions.eraseDups.idxOf s]? := by
  have hplace : Numbering.numberIn mentions s - 1 = (mentions.eraseDups.idxOf s : Int) := by
    rw [Numbering.numberIn]
    omega
  have hpos : (0 : Int) ≤ (mentions.eraseDups.idxOf s : Int) := by omega
  rw [hplace]
  simp only [value?, if_pos hpos, if_neg (Int.not_lt.mpr hpos), Int.toNat_natCast]

theorem Assignment.value_numberIn {a : Assignment} {mentions : List String} {s : String}
    {b : Bool} : a.value (Numbering.numberIn mentions s) = .ok b ↔
      a[mentions.eraseDups.idxOf s]? = some b := by
  rw [value, a.value?_numberIn]
  cases a[mentions.eraseDups.idxOf s]? <;> simp

namespace Program

variable {source : String} {f : Formula Char}

theorem variableNames_ofFormula : (ofFormula source f).variableNames = f.names := rfl

theorem variableCount_ofFormula : (ofFormula source f).variableCount = f.names.length := rfl

/-- A run is an evaluation on the tree. -/
theorem run_eq_evaluate (a : Assignment) :
    (ofFormula source f).run a =
      a.algebra.evaluate (f.numbered (f.leaves.map Char.toString)) := by
  have htokens : (ofFormula source f).tokens =
      (f.numbered (f.leaves.map Char.toString)).tokens := rfl
  rw [run, htokens, Replay.run_tokens]
  cases a.algebra.evaluate (f.numbered (f.leaves.map Char.toString)) <;> rfl

theorem run_ofFormula {a : Assignment} {v : Char → Bool} (h : a.Gives f.names v) :
    (ofFormula source f).run a = .ok (f.steps v, f.eval v) := by
  have hleaf : ∀ c ∈ f.leaves,
      a.algebra.leaf (Numbering.numberIn (f.leaves.map Char.toString) c.toString) =
        .ok (v c) := by
    intro c hc
    exact Assignment.value_numberIn.mpr (h _ c (Formula.getElem?_idxOf_names hc))
  rw [run_eq_evaluate, Formula.numbered, Algebra.evaluate_map hleaf, f.steps_eq_composites,
    f.value_boolAlgebra]
  simp only [funext (Formula.value_boolAlgebra a v)]

theorem row_ofFormula {a : Assignment} (h : f.names.length ≤ a.length) :
    (ofFormula source f).row a = .ok (f.row a) := by
  rw [row, run_ofFormula (Formula.gives_valuation h)]
  rfl

/-- There is one label for each subformula with a connective. -/
theorem labels_ofFormula (style : Style) :
    (ofFormula source f).labels style =
      .ok (f.composites.map fun g => (g.label style).text) := by
  have hleaf : ∀ c ∈ f.leaves,
      (Label.algebra style (ofFormula source f).numbering).leaf
          (Numbering.numberIn (f.leaves.map Char.toString) c.toString) =
        .ok { text := c.toString, composite := false } := by
    intro c hc
    have hmention : c.toString ∈ f.leaves.map Char.toString := List.mem_map_of_mem hc
    have hsymbol := Numbering.symbolOf?_ofMentions hmention
    simp only [Label.algebra, ofFormula, hsymbol]
  have hrun := Replay.run_tokens (Label.algebra style (ofFormula source f).numbering)
    (f.numbered (f.leaves.map Char.toString)) []
  rw [Formula.numbered, Algebra.evaluate_map hleaf] at hrun
  have htokens : (ofFormula source f).tokens =
      (f.map fun c => Numbering.numberIn (f.leaves.map Char.toString) c.toString).tokens := rfl
  rw [labels, htokens, hrun]
  simp only [Except.map, bind, Except.bind, pure, Except.pure, List.map_map]
  congr 1
  exact List.map_congr_left fun g _ => congrArg Label.text (Formula.value_labelAlgebra style _ g)

end Program

/-- The most variables whose number of rows can be written. -/
def Table.maxTold : Nat := 14284

theorem two_pow_lt_iff {k bound n : Nat} (hlast : 2 ^ k < bound) (hnext : bound ≤ 2 ^ (k + 1)) :
    2 ^ n < bound ↔ n ≤ k := by
  constructor
  · intro h
    have hlt : 2 ^ n < 2 ^ (k + 1) := Nat.lt_of_lt_of_le h hnext
    exact Nat.le_of_lt_succ ((Nat.pow_lt_pow_iff_right (by decide)).mp hlt)
  · intro h
    exact Nat.lt_of_le_of_lt (Nat.pow_le_pow_right (by decide) h) hlast

theorem Text.isWritable_two_pow_iff {n : Nat} :
    IsWritable (Nat.pow 2 n) ↔ n ≤ Table.maxTold :=
  (Nat.length_toDigits_le_iff (by decide) (by decide)).trans
    (two_pow_lt_iff (by decide +kernel) (by decide +kernel))

theorem Fault.tooManyVariables_of_le {count : Nat} (h : count ≤ Table.maxTold) (maximum : Nat) :
    Fault.tooManyVariables count maximum =
      .flaw (.tooManyVariables count maximum (Text.isWritable_two_pow_iff.mpr h)) :=
  dif_pos (Text.isWritable_two_pow_iff.mpr h)

theorem Fault.tooManyVariables_of_lt {count : Nat} (h : Table.maxTold < count) (maximum : Nat) :
    Fault.tooManyVariables count maximum = .longNumeral :=
  dif_neg (mt Text.isWritable_two_pow_iff.mp (Nat.not_le.mpr h))

theorem Table.build_of_lt {settings : Settings} {p : Program}
    (h : settings.maxVariables < p.variableCount) :
    build settings p = .error (.tooManyVariables p.variableCount settings.maxVariables) := by
  rw [build, if_pos h]

/-- Too many variables, and too many to be told. -/
theorem Table.build_of_maxTold_lt {settings : Settings} {p : Program}
    (h : settings.maxVariables < p.variableCount) (huntold : maxTold < p.variableCount) :
    build settings p = .error .longNumeral := by
  rw [build_of_lt h, Fault.tooManyVariables_of_lt huntold]

def Formula.table (settings : Settings) (source : String) (f : Formula Char) : Table :=
  { program := .ofFormula source f
    headers := f.composites.map fun g => (g.label settings.style).text
    rows := (assignments f.names.length).map f.row
    settings }

theorem Table.build_ofFormula (settings : Settings) (source : String) (f : Formula Char) :
    Table.build settings (.ofFormula source f) =
      if settings.maxVariables < f.names.length then
        .error (.tooManyVariables f.names.length settings.maxVariables)
      else .ok (f.table settings source) := by
  have hrows : (assignments f.names.length).mapM (Program.ofFormula source f).row =
      .ok ((assignments f.names.length).map f.row) :=
    mapM_eq_pure fun a ha => Program.row_ofFormula (Nat.le_of_eq (mem_assignments.mp ha).symm)
  rw [Table.build, Program.variableCount_ofFormula]
  split
  · rfl
  · rw [Program.labels_ofFormula, hrows]
    rfl

end PropTable

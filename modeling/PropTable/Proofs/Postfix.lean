import PropTable.Proofs.Lockstep

/-!
# Which token lists run

A run has a result exactly if the tokens are the postorder of a formula
(`Program.run_iff_postorder`).  A replay that leaves one value is in step with a replay over
formulas, which leaves one formula, and what is on a stack of formulas is what was read.  The
formula is unique, because the replay over formulas builds it anew from its tokens alone
(`Formula.tokens_injective`).
-/

namespace PropTable

namespace Formula

theorem value_algebra (idFault? : Int → Option Fault) (f : Formula Int) :
    (algebra idFault?).value .var f = f := by
  induction f with
  | var id => rfl
  | not f ih =>
    show Formula.not _ = _
    rw [ih]
  | binary op f g ihf ihg =>
    show Formula.binary op _ _ = _
    rw [ihf, ihg]

/-- A replay over formulas builds a formula from its postorder. -/
theorem run_tokens_algebra (f : Formula Int) (stack : List (Formula Int)) :
    ∃ steps, Replay.run (algebra fun _ => none) f.tokens stack = .ok (steps, f :: stack) := by
  have hleaf : ∀ id ∈ f.leaves, (algebra fun _ => none).leaf id = .ok (.var id) :=
    fun _ _ => rfl
  refine ⟨f.composites.map ((algebra fun _ => none).value .var), ?_⟩
  rw [Replay.run_tokens, Algebra.evaluate_of_leaves hleaf, value_algebra]
  rfl

theorem tokens_injective {f g : Formula Int} (h : f.tokens = g.tokens) : f = g := by
  obtain ⟨steps, hf⟩ := f.run_tokens_algebra []
  obtain ⟨steps', hg⟩ := g.run_tokens_algebra []
  rw [h, hg] at hf
  have hstack : [g] = [f] := (Prod.mk.inj (Except.ok.inj hf)).2
  exact (List.cons.inj hstack).1.symm

/-- A formula without steps is a variable; otherwise the last step is its value. -/
theorem steps_cases (v : Int → Bool) (f : Formula Int) :
    (f.steps v = [] ∧ ∃ id, f.tokens = [.var id]) ∨ (f.steps v).getLast? = some (f.eval v) := by
  cases f with
  | var id => exact .inl ⟨rfl, id, rfl⟩
  | not f => exact .inr (by simp [steps])
  | binary op f g => exact .inr (by simp [steps])

end Formula

/-- A replay that leaves one value has read the postorder of a formula. -/
theorem Replay.exists_tokens_of_run {α : Type} {alg : Algebra α} {ts : List Token}
    {steps : List α} {a : α} (h : run alg ts [] = .ok (steps, [a])) :
    ∃ f : Formula Int, ts = f.tokens := by
  have hagree : ∀ id, .var id ∈ ts →
      alg.idFault? id = (Formula.algebra alg.idFault?).idFault? id := by
    intro id _
    rw [Formula.idFault?_algebra]
  have hstep : InStep (run alg ts []) (run (Formula.algebra alg.idFault?) ts []) :=
    run_inStep hagree rfl
  rw [h] at hstep
  obtain ⟨steps', stack, hrun, -, hlength⟩ := hstep.exists_eq_ok
  obtain ⟨f, rfl⟩ := List.length_eq_one_iff.mp hlength
  exact ⟨f, by simpa using (flatMap_tokens_of_run hrun).symm⟩

/-- The truth values of the variable numbers, of which 1 is the first. -/
def Assignment.valuation (a : Assignment) (id : Int) : Bool := a.getD (id - 1).toNat false

theorem Assignment.value_eq_valuation {a : Assignment} {id : Int} (hone : 1 ≤ id)
    (hle : id ≤ a.length) : a.value id = .ok (a.valuation id) := by
  have hpos : 0 ≤ id - 1 := by omega
  have hlt : (id - 1).toNat < a.length := by omega
  simp only [value, value?, valuation, if_pos hpos, if_neg (Int.not_lt.mpr hpos),
    List.getD_eq_getElem?_getD, List.getElem?_eq_getElem hlt, Option.getD_some]

namespace Program

variable {p : Program} {a : Assignment}

/-- A run of connectives over variables with values fails as malformed, unless it leaves one
value. -/
theorem run_cases (hsigns : ∀ s, .sign s ∈ p.tokens → ∃ c : Connective, s = c.symbol)
    (hids : ∀ id : Int, .var id ∈ p.tokens → 1 ≤ id ∧ id ≤ a.length) :
    (∃ steps b, Replay.run a.algebra p.tokens [] = .ok (steps, [b])) ∨
      ∃ f : Flaw, p.run a = .error (.flaw f) ∧ f.kind = .malformed := by
  have hvalue (id : Int) (hid : .var id ∈ p.tokens) : a.algebra.idFault? id = none :=
    idFault?_value_eq_none (hids id hid).1 (hids id hid).2
  cases hrun : Replay.run a.algebra p.tokens [] with
  | error e =>
    obtain ⟨s, hs, ⟨hnone, -⟩ | ⟨-, rfl⟩⟩ := Replay.fault_of_run hvalue hrun
    · obtain ⟨c, rfl⟩ := hsigns s hs
      simp [Connective.symbol] at hnone
    · exact .inr ⟨.operandsMissing s, run_of_replay_eq_error hrun, rfl⟩
  | ok r =>
    obtain ⟨steps, stack⟩ := r
    by_cases hone : stack.length = 1
    · obtain ⟨b, rfl⟩ := List.length_eq_one_iff.mp hone
      exact .inl ⟨steps, b, rfl⟩
    · exact .inr ⟨.valuesLeft stack.length, (run_of_replay_eq_ok hrun).2 hone, rfl⟩

/-- A program of connectives over variables that have values runs exactly if it is the
postorder of a formula, then of one only.  The steps are the truth values of its connectives,
the result is its own truth value, and the last step is the result, unless the formula is a
variable.  Every other program is refused as malformed. -/
theorem run_iff_postorder
    (hsigns : ∀ s, .sign s ∈ p.tokens → ∃ c : Connective, s = c.symbol)
    (hids : ∀ id : Int, .var id ∈ p.tokens → 1 ≤ id ∧ id ≤ a.length) :
    ((∃ r, p.run a = .ok r) ↔ ∃ f : Formula Int, p.tokens = f.tokens) ∧
    (∀ f g : Formula Int, p.tokens = f.tokens → p.tokens = g.tokens → f = g) ∧
    (∀ f : Formula Int, p.tokens = f.tokens →
      p.run a = .ok (f.steps a.valuation, f.eval a.valuation)) ∧
    (∀ steps result, p.run a = .ok (steps, result) →
      (steps = [] ∧ ∃ id, p.tokens = [.var id]) ∨ steps.getLast? = some result) ∧
    ((¬∃ f : Formula Int, p.tokens = f.tokens) →
      ∃ f : Flaw, p.run a = .error (.flaw f) ∧ f.kind = .malformed) := by
  have hpostorder (f : Formula Int) (hf : p.tokens = f.tokens) :
      p.run a = .ok (f.steps a.valuation, f.eval a.valuation) := by
    refine run_of_tokens hf fun id hid => ?_
    obtain ⟨hone, hle⟩ := hids id (hf ▸ Token.var_mem_tokens_iff.mpr hid)
    exact Assignment.value_eq_valuation hone hle
  have hexists (r) (hr : p.run a = .ok r) : ∃ f : Formula Int, p.tokens = f.tokens := by
    rcases run_cases hsigns hids with ⟨steps, b, hrun⟩ | ⟨f, he, -⟩
    · exact Replay.exists_tokens_of_run hrun
    · rw [he] at hr
      cases hr
  refine ⟨⟨?_, ?_⟩, ?_, hpostorder, ?_, ?_⟩
  · rintro ⟨r, hr⟩
    exact hexists r hr
  · rintro ⟨f, hf⟩
    exact ⟨_, hpostorder f hf⟩
  · intro f g hf hg
    exact Formula.tokens_injective (hf.symm.trans hg)
  · intro steps result h
    obtain ⟨f, hf⟩ := hexists _ h
    rw [hpostorder f hf] at h
    obtain ⟨rfl, rfl⟩ := Prod.mk.inj (Except.ok.inj h)
    rw [hf]
    exact f.steps_cases a.valuation
  · intro hnone
    rcases run_cases hsigns hids with ⟨steps, b, hrun⟩ | h
    · exact absurd (Replay.exists_tokens_of_run hrun) hnone
    · exact h

theorem run_iff_postorder_shared :
    let p : Program := { tokens := [.var 2, .var 1, .sign ">", .var 2, .sign "~", .sign "^"] }
    (∀ s, .sign s ∈ p.tokens → ∃ c : Connective, s = c.symbol) ∧
      (∀ id : Int, .var id ∈ p.tokens → 1 ≤ id ∧ id ≤ 2) ∧
      p.run [true, true] = .ok ([true, false, true], true) ∧
      p.run [false, true] = .ok ([false, false, false], false) ∧
      ∃ f : Formula Int, p.tokens = f.tokens ∧
        f.steps (Assignment.valuation [true, true]) = [true, false, true] := by
  intro p
  have hsigns : ∀ s, .sign s ∈ p.tokens → ∃ c : Connective, s = c.symbol := by
    intro s hs
    have hs : s = ">" ∨ s = "~" ∨ s = "^" := by simpa [p] using hs
    rcases hs with rfl | rfl | rfl
    · exact ⟨.binary .implies, rfl⟩
    · exact ⟨.not, rfl⟩
    · exact ⟨.binary .xor, rfl⟩
  have hids : ∀ id : Int, .var id ∈ p.tokens → 1 ≤ id ∧ id ≤ 2 := by
    intro id hid
    have hid : id = 2 ∨ id = 1 ∨ id = 2 := by simpa [p] using hid
    omega
  have hrun : p.run [true, true] = .ok ([true, false, true], true) := rfl
  obtain ⟨hiff, -, htree, -⟩ := run_iff_postorder (a := [true, true]) hsigns hids
  obtain ⟨f, hf⟩ := hiff.mp ⟨_, hrun⟩
  have hsteps := (Prod.mk.inj (Except.ok.inj ((htree f hf).symm.trans hrun))).1
  exact ⟨hsigns, hids, hrun, rfl, f, hf, hsteps⟩

end Program
end PropTable

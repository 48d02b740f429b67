import PropTable.Proofs.EditedTables

/-!
# Two replays of one program in lockstep

The labels and the truth values of a program come from two replays of the same tokens over
different values.  What a token does to the depth of the stack, and whether it fails, does not
depend on the values, so the two replays fail at the same token with the same fault, or both
reach the end with as many steps and as many values (`Replay.run_inStep`).  Only a run goes on
to ask how many values are left (`Program.labels_run_inStep`).
-/

namespace PropTable

def Token.isSign : Token → Bool
  | .var _ => false
  | .sign _ => true

namespace Replay

variable {α β : Type} {alg : Algebra α} {alg' : Algebra β} {ts : List Token} {t : Token}
  {stack : List α} {stack' : List β} {e : Fault}

/-- Two replays of the same tokens fail alike, or they record as many steps and leave as many
values. -/
inductive InStep : Except Fault (List α × List α) → Except Fault (List β × List β) → Prop where
  | fault (e : Fault) : InStep (.error e) (.error e)
  | values {steps stack : List α} {steps' stack' : List β}
      (hsteps : steps.length = steps'.length) (hstack : stack.length = stack'.length) :
      InStep (.ok (steps, stack)) (.ok (steps', stack'))

theorem InStep.eq_error {r' : Except Fault (List β × List β)}
    (h : InStep (.error e : Except Fault (List α × List α)) r') : r' = .error e := by
  cases h
  rfl

theorem InStep.exists_eq_ok {steps : List α} {r' : Except Fault (List β × List β)}
    (h : InStep (.ok (steps, stack)) r') :
    ∃ steps' stack', r' = .ok (steps', stack') ∧ steps'.length = steps.length ∧
      stack'.length = stack.length := by
  cases h with
  | values hsteps hstack => exact ⟨_, _, rfl, hsteps.symm, hstack.symm⟩

theorem step_var_inStep {id : Int} (hleaf : alg.idFault? id = alg'.idFault? id)
    (hstack : stack.length = stack'.length) :
    InStep (step alg stack (.var id)) (step alg' stack' (.var id)) := by
  simp only [Algebra.idFault?] at hleaf
  simp only [step]
  cases ha : alg.leaf id with
  | ok a =>
    cases hb : alg'.leaf id with
    | ok b => exact .values rfl (congrArg (· + 1) hstack)
    | error e => simp [ha, hb] at hleaf
  | error e =>
    cases hb : alg'.leaf id with
    | ok b => simp [ha, hb] at hleaf
    | error e' =>
      obtain rfl : e = e' := by simpa [ha, hb] using hleaf
      exact .fault e

theorem step_sign_inStep (symbol : String) (hstack : stack.length = stack'.length) :
    InStep (step alg stack (.sign symbol)) (step alg' stack' (.sign symbol)) := by
  simp only [step]
  cases Connective.ofSymbol? symbol with
  | none => exact .fault _
  | some c =>
    -- Both stacks are as deep, so both have the operands of the connective or neither has.
    rcases combine_cases alg c stack with ⟨hfew, hnone⟩ | ⟨a, rest, hsome, hrest⟩
    · rcases combine_cases alg' c stack' with ⟨-, hnone'⟩ | ⟨b, rest', -, hrest'⟩
      · simp only [hnone, hnone']
        exact .fault _
      · omega
    · rcases combine_cases alg' c stack' with ⟨hfew', -⟩ | ⟨b, rest', hsome', hrest'⟩
      · omega
      · simp only [hsome, hsome']
        refine .values rfl ?_
        simp only [List.length_cons]
        omega

theorem step_inStep (hleaf : ∀ id, .var id = t → alg.idFault? id = alg'.idFault? id)
    (hstack : stack.length = stack'.length) :
    InStep (step alg stack t) (step alg' stack' t) := by
  cases t with
  | var id => exact step_var_inStep (hleaf id rfl) hstack
  | sign symbol => exact step_sign_inStep symbol hstack

/-- Two replays that are in step after one part of the tokens and keep in step over the other
part are in step after both. -/
theorem InStep.append {r : Except Fault (List α × List α)} {r' : Except Fault (List β × List β)}
    {next : List α → Except Fault (List α × List α)}
    {next' : List β → Except Fault (List β × List β)} (h : InStep r r')
    (hnext : ∀ {middle : List α} {middle' : List β}, middle.length = middle'.length →
      InStep (next middle) (next' middle')) :
    InStep
      (do
        let (now, middle) ← r
        let (later, last) ← next middle
        return (now ++ later, last))
      (do
        let (now, middle) ← r'
        let (later, last) ← next' middle
        return (now ++ later, last)) := by
  cases h with
  | fault e => exact .fault e
  | @values now middle now' middle' hnow hmiddle =>
    have hlater := hnext hmiddle
    simp only [bind, Except.bind, pure, Except.pure]
    generalize next middle = q at hlater ⊢
    generalize next' middle' = q' at hlater ⊢
    cases hlater with
    | fault e => exact .fault e
    | values hlater hlast =>
      refine .values ?_ hlast
      simp only [List.length_append, hnow, hlater]

/-- Two replays that start with stacks of one depth keep in step, if they agree on which
variable numbers are at fault. -/
theorem run_inStep (hleaf : ∀ id, .var id ∈ ts → alg.idFault? id = alg'.idFault? id)
    (hstack : stack.length = stack'.length) : InStep (run alg ts stack) (run alg' ts stack') := by
  induction ts generalizing stack stack' with
  | nil => exact .values rfl hstack
  | cons t rest ih =>
    have hnow : InStep (step alg stack t) (step alg' stack' t) :=
      step_inStep (fun id hid => hleaf id (hid ▸ List.mem_cons_self)) hstack
    have hrest : ∀ id, .var id ∈ rest → alg.idFault? id = alg'.idFault? id :=
      fun id hid => hleaf id (List.mem_cons_of_mem t hid)
    exact hnow.append fun hmiddle => ih hrest hmiddle

/-! ## What a replay records -/

/-- A connective records one step and a variable none. -/
theorem length_steps_of_step {now last : List α} (h : step alg stack t = .ok (now, last)) :
    now.length = [t].countP Token.isSign := by
  cases t with
  | var id =>
    simp only [step, bind, Except.bind, pure, Except.pure] at h
    split at h
    · cases h
    · obtain ⟨rfl, -⟩ := Prod.mk.inj (Except.ok.inj h)
      rfl
  | sign symbol =>
    simp only [step] at h
    split at h
    · cases h
    · split at h
      · obtain ⟨rfl, -⟩ := Prod.mk.inj (Except.ok.inj h)
        rfl
      · cases h

theorem length_steps_of_run {steps last : List α} (h : run alg ts stack = .ok (steps, last)) :
    steps.length = ts.countP Token.isSign := by
  induction ts generalizing stack steps with
  | nil =>
    obtain ⟨rfl, -⟩ := Prod.mk.inj (Except.ok.inj h)
    rfl
  | cons t rest ih =>
    simp only [run, bind, Except.bind, pure, Except.pure] at h
    cases hstep : step alg stack t with
    | error e => simp [hstep] at h
    | ok r =>
      obtain ⟨now, middle⟩ := r
      cases hrun : run alg rest middle with
      | error e => simp [hstep, hrun] at h
      | ok s =>
        obtain ⟨later, last'⟩ := s
        obtain ⟨rfl, rfl⟩ : now ++ later = steps ∧ last' = last := by simpa [hstep, hrun] using h
        rw [List.length_append, length_steps_of_step hstep, ih hrun, ← List.countP_append,
          List.singleton_append]

/-- A replay whose variables all have values fails for a symbol that is no connective, or for a
connective that lacks operands. -/
theorem fault_of_run (hleaf : ∀ id, .var id ∈ ts → alg.idFault? id = none)
    (h : run alg ts [] = .error e) :
    ∃ symbol, .sign symbol ∈ ts ∧
      (Connective.ofSymbol? symbol = none ∧ e = .unknownSymbol symbol ∨
        (∃ c, Connective.ofSymbol? symbol = some c) ∧ e = .flaw (.operandsMissing symbol)) := by
  rcases Token.faultless_or_firstFault alg.idFault? ts with hts | ⟨e', he'⟩
  · obtain ⟨steps, stack, hrun, -⟩ := run_of_faultless rfl hts
    rw [hrun] at h
    cases h
  obtain rfl : e' = e := Except.error.inj ((run_of_firstFault rfl he').symm.trans h)
  obtain ⟨before, t, after, rfl, -, hfault⟩ := he'
  have ht : t ∈ before ++ t :: after := List.mem_append_right _ List.mem_cons_self
  cases t with
  | var id =>
    have hnone := hleaf id ht
    rw [Token.fault?, hnone] at hfault
    cases hfault
  | sign symbol =>
    refine ⟨symbol, ht, ?_⟩
    simp only [Token.fault?] at hfault
    cases hsymbol : Connective.ofSymbol? symbol with
    | none =>
      rw [hsymbol] at hfault
      exact .inl ⟨rfl, (Option.some.inj hfault).symm⟩
    | some c =>
      simp only [hsymbol] at hfault
      split at hfault
      · cases hfault
      · exact .inr ⟨⟨c, rfl⟩, (Option.some.inj hfault).symm⟩

end Replay

namespace Program

variable {p : Program} {a : Assignment}

theorem idFault?_label_eq_none (style : Style) {id : Int}
    (h : (p.numbering.symbolOf? id).isSome) :
    (Label.algebra style p.numbering).idFault? id = none := by
  obtain ⟨s, hs⟩ := Option.isSome_iff_exists.mp h
  simp [Algebra.idFault?, Label.algebra, hs]

theorem idFault?_value_eq_none {id : Int} (hone : 1 ≤ id) (hle : id ≤ a.length) :
    a.algebra.idFault? id = none := by
  obtain ⟨b, hb⟩ := Assignment.exists_value hone hle
  simp [Algebra.idFault?, Assignment.algebra, hb]

theorem labels_eq_map (p : Program) (style : Style) :
    p.labels style = (Replay.run (Label.algebra style p.numbering) p.tokens []).map
      fun r => r.1.map (·.text) := by
  rw [labels]
  cases Replay.run (Label.algebra style p.numbering) p.tokens [] <;> rfl

/-- The labels and the values of a program, whatever its tokens are: if its variable numbers
have symbols and values, then both fail for the same token or neither does.  If neither does,
there is one label and one step for each connective, and the run has a result exactly if one
value is left, which the labels do not ask. -/
theorem labels_run_inStep (p : Program) (a : Assignment) (styleName : String)
    (hids : ∀ id : Int, .var id ∈ p.tokens →
      (p.numbering.symbolOf? id).isSome ∧ 1 ≤ id ∧ id ≤ a.length) :
    (∀ e, p.labels (.ofName styleName) = .error e ↔
      Replay.run a.algebra p.tokens [] = .error e) ∧
    (∀ e, p.labels (.ofName styleName) = .error e → p.run a = .error e ∧
      ∃ symbol, .sign symbol ∈ p.tokens ∧
        (Connective.ofSymbol? symbol = none ∧ e = .unknownSymbol symbol ∨
          (∃ c, Connective.ofSymbol? symbol = some c) ∧ e = .flaw (.operandsMissing symbol))) ∧
    ∀ headers, p.labels (.ofName styleName) = .ok headers →
      headers.length = p.tokens.countP Token.isSign ∧
      ∃ steps stack, Replay.run a.algebra p.tokens [] = .ok (steps, stack) ∧
        steps.length = headers.length ∧
        (∀ result, stack = [result] → p.run a = .ok (steps, result)) ∧
        (stack.length ≠ 1 → p.run a = .error (.flaw (.valuesLeft stack.length))) := by
  have hlabel (id : Int) (hid : .var id ∈ p.tokens) :
      (Label.algebra (.ofName styleName) p.numbering).idFault? id = none :=
    idFault?_label_eq_none _ (hids id hid).1
  have hvalue (id : Int) (hid : .var id ∈ p.tokens) : a.algebra.idFault? id = none :=
    idFault?_value_eq_none (hids id hid).2.1 (hids id hid).2.2
  have hstep : Replay.InStep
      (Replay.run (Label.algebra (.ofName styleName) p.numbering) p.tokens [])
      (Replay.run a.algebra p.tokens []) :=
    Replay.run_inStep (fun id hid => (hlabel id hid).trans (hvalue id hid).symm) rfl
  rw [labels_eq_map]
  cases hlabels : Replay.run (Label.algebra (.ofName styleName) p.numbering) p.tokens [] with
  | error e =>
    rw [hlabels] at hstep
    have hrun := hstep.eq_error
    refine ⟨fun e' => ?_, fun e' he' => ?_, fun headers h => ?_⟩
    · simp [Except.map, hrun]
    · obtain rfl : e = e' := by simpa [Except.map] using he'
      exact ⟨run_of_replay_eq_error hrun, Replay.fault_of_run hlabel hlabels⟩
    · cases h
  | ok r =>
    obtain ⟨labels, texts⟩ := r
    rw [hlabels] at hstep
    obtain ⟨steps, stack, hrun, hsteps, -⟩ := hstep.exists_eq_ok
    refine ⟨fun e => ?_, fun e he => ?_, fun headers h => ?_⟩
    · simp [Except.map, hrun]
    · cases he
    · obtain rfl : labels.map (·.text) = headers := by simpa [Except.map] using h
      rw [List.length_map]
      exact ⟨Replay.length_steps_of_run hlabels, steps, stack, hrun, hsteps,
        run_of_replay_eq_ok hrun⟩

/-- Two values are left: the labels do not mind, and the run does. -/
theorem labels_run_inStep_leftover :
    let p : Program := { tokens := [.var 1, .var 1, .sign "~"], numbering := .ofNames ["p"] }
    (∀ id : Int, .var id ∈ p.tokens → (p.numbering.symbolOf? id).isSome ∧ 1 ≤ id ∧ id ≤ 1) ∧
      p.labels (.ofName "html") = .ok ["~p"] ∧ p.run [true] = .error (.flaw (.valuesLeft 2)) := by
  intro p
  have hids : ∀ id : Int, .var id ∈ p.tokens →
      (p.numbering.symbolOf? id).isSome ∧ 1 ≤ id ∧ id ≤ 1 := by
    intro id hid
    obtain rfl : id = 1 := by simpa [p] using hid
    exact ⟨rfl, Int.le_refl 1, Int.le_refl 1⟩
  have hlabels : p.labels (.ofName "html") = .ok ["~p"] := rfl
  obtain ⟨-, steps, stack, hrun, -, -, hleft⟩ :=
    (labels_run_inStep p [true] "html" hids).2.2 _ hlabels
  obtain rfl : [false, true] = stack := (Prod.mk.inj (Except.ok.inj hrun)).2
  exact ⟨hids, hlabels, hleft (by decide)⟩

end Program
end PropTable

import PropTable.Proofs.FormulaTable

/-!
# Chains grouped to the left

Compiling with the chains grouped to the left accepts the same texts and gives the same
variables, but other programs.  Every connective but implication is associative, and those of a
chain are all the same unless the two disjunctions mix.  So the outcome of a phrase is the same
for both groupings, with any lead before it (`Phrase.outcome_grouped`), and the programs have the
same results (`Program.ofTextGrouped_left`).
-/

namespace PropTable

theorem Binary.apply_assoc {op : Binary} (h : op ≠ .implies) (a b c : Bool) :
    op.apply (op.apply a b) c = op.apply a (op.apply b c) := by
  cases op with
  | implies => exact absurd rfl h
  | and => exact Bool.and_assoc a b c
  | or => exact Bool.or_assoc a b c
  | xor => exact Bool.xor_assoc a b c
  | iff => cases a <;> cases b <;> cases c <;> rfl

namespace Formula

variable {α β : Type} (v : α → Except Fault Bool)

/-- The truth value of a formula, or the fault of its first variable that has none. -/
def outcome : Formula α → Except Fault Bool
  | var a => v a
  | not f => return !(← f.outcome)
  | binary op f g => return op.apply (← f.outcome) (← g.outcome)

theorem outcome_map (m : β → α) (f : Formula β) :
    (f.map m).outcome v = f.outcome fun b => v (m b) := by
  induction f with
  | var b => rfl
  | not f ih => rw [map, outcome, ih, outcome]
  | binary op f g ihf ihg => rw [map, outcome, ihf, ihg, outcome]

/-- The grouping of two equal connectives does not matter, except for implication. -/
theorem outcome_assoc {op : Binary} (hop : op ≠ .implies) (f g h : Formula α) :
    (binary op (binary op f g) h).outcome v = (binary op f (binary op g h)).outcome v := by
  simp only [outcome]
  cases f.outcome v with
  | error e => rfl
  | ok a =>
    cases g.outcome v with
    | error e => rfl
    | ok b =>
      cases h.outcome v with
      | error e => rfl
      | ok c => exact congrArg Except.ok (Binary.apply_assoc hop a b c)

theorem outcome_joined {v : Char → Except Fault Bool} {f g : Formula Char}
    (h : f.outcome v = g.outcome v) (lead : Phrase.Lead) :
    (f.joined lead).outcome v = (g.joined lead).outcome v := by
  cases lead with
  | none => exact h
  | some l => simp only [joined, outcome, h]

theorem outcome_evaluate (a : Assignment) (f : Formula Int) :
    (a.algebra.evaluate f).map (·.2) = f.outcome a.value := by
  induction f with
  | var id =>
    rw [Algebra.evaluate, outcome]
    cases h : a.algebra.leaf id <;> exact h.symm
  | not f ih =>
    rw [Algebra.evaluate, outcome, ← ih]
    cases a.algebra.evaluate f <;> rfl
  | binary op f g ihf ihg =>
    rw [Algebra.evaluate, outcome, ← ihf, ← ihg]
    cases a.algebra.evaluate f with
    | error e => rfl
    | ok r => cases a.algebra.evaluate g <;> rfl

end Formula

/-- The result of a run is the truth value of the formula. -/
theorem Program.result_ofFormula (source : String) (f : Formula Char) (a : Assignment) :
    ((ofFormula source f).run a).map (·.2) =
      f.outcome fun c => a.value (Numbering.numberIn (f.leaves.map Char.toString) c.toString) := by
  rw [run_eq_evaluate, Formula.outcome_evaluate, Formula.numbered, Formula.outcome_map]

namespace Phrase

/-- The part of a text from one connective to another of the same precedence, and the
connectives of that precedence between them.  What separates these binds more strongly. -/
inductive Chain (strict : Bool) (level : Nat) : List Binary → List Char → Prop where
  | last {op : Binary} (hop : op.precedence = level) : Chain strict level [op] [op.sign]
  | link {op : Binary} {f : Phrase} {ops : List Binary} {cs : List Char}
    (hop : op.precedence = level) (hf : Fits strict (level + 1) f)
    (rest : Chain strict level ops cs) :
    Chain strict level (op :: ops) (op.sign :: (f.text ++ cs))

/-- No chain of a text has two implications, or a disjunction and an exclusive one. -/
def Regroupable (strict : Bool) (cs : List Char) : Prop :=
  ∀ (level : Nat) (ops : List Binary) (chain : List Char), Chain strict level ops chain →
    chain <:+: cs → ops.count .implies ≤ 1 ∧ ¬(.or ∈ ops ∧ .xor ∈ ops)

/-- Each connective of a chain is written in it. -/
theorem Chain.count_le {strict : Bool} {level : Nat} {ops : List Binary} {cs : List Char}
    (h : Chain strict level ops cs) (op : Binary) : ops.count op ≤ cs.count op.sign := by
  have hsign (op' : Binary) : (op'.sign == op.sign) = (op' == op) := by
    cases op' <;> cases op <;> rfl
  induction h with
  | last hop =>
    rw [List.count_cons, List.count_cons, hsign]
    exact Nat.le_refl _
  | link hop hf rest ih =>
    rw [List.count_cons, List.count_cons, List.count_append, hsign]
    exact Nat.add_le_add_right (Nat.le_trans ih (Nat.le_add_left ..)) _

theorem regroupable_of_count {strict : Bool} {cs : List Char} (himplies : cs.count '>' ≤ 1)
    (hmixed : '|' ∉ cs ∨ '^' ∉ cs) : Regroupable strict cs := by
  intro level ops chain hchain hin
  refine ⟨?_, fun hmix => ?_⟩
  · calc ops.count .implies ≤ chain.count '>' := hchain.count_le .implies
      _ ≤ cs.count '>' := hin.sublist.count_le _
      _ ≤ 1 := himplies
  · have hsign {op : Binary} (hop : op ∈ ops) : op.sign ∈ cs :=
      hin.subset (List.count_pos_iff.mp
        (Nat.lt_of_lt_of_le (List.count_pos_iff.mpr hop) (hchain.count_le op)))
    exact hmixed.elim (· (hsign hmix.1)) (· (hsign hmix.2))

/-- Two connectives of one precedence that follow each other in a chain are the same, and no
implications. -/
theorem Regroupable.same {strict : Bool} {cs : List Char} (h : Regroupable strict cs)
    {op op' : Binary} {f : Phrase} (hop : op'.precedence = op.precedence)
    (hf : Fits strict (op.precedence + 1) f)
    (hin : op'.sign :: (f.text ++ [op.sign]) <:+: cs) : op' = op ∧ op ≠ .implies := by
  obtain ⟨himplies, hmixed⟩ := h _ _ _ (.link hop hf (.last rfl)) hin
  cases op <;> cases op' <;> simp_all [Binary.precedence]

/-- What is written of a lead right before the phrase. -/
def Lead.signs (lead : Lead) : List Char := lead.waiting.map (·.sign)

/-- Grouping the chains of a phrase to the left does not change its outcome, whatever leads up
to it. -/
theorem outcome_grouped {strict : Bool} {cs : List Char} (hcs : Regroupable strict cs)
    (v : Char → Except Fault Bool) {level : Nat} {f : Phrase} (hf : Fits strict level f)
    {lead : Lead} (hlead : lead.IsAt level) (hin : lead.signs ++ f.text <:+: cs) :
    (f.grouped .left lead).outcome v = (f.formula.joined lead).outcome v := by
  induction f generalizing level lead with
  | var c => rfl
  | paren f ih =>
    have hinner : f.text <:+: cs := by
      refine List.IsInfix.trans ⟨lead.signs ++ ['('], [')'], ?_⟩ hin
      simp [text]
    exact Formula.outcome_joined (ih (show Fits strict 1 f from hf) (Lead.isAt_none 1) hinner) lead
  | not f ih =>
    have hinner : f.text <:+: cs :=
      List.IsInfix.trans ⟨lead.signs ++ [Connective.not.sign], [], by simp [text]⟩ hin
    have hnot := ih hf.2 (Lead.isAt_none _) hinner
    refine Formula.outcome_joined ?_ lead
    rw [Formula.outcome, hnot]
    rfl
  | binary op f h ihf ihh =>
    have hleft : f.text <:+: cs :=
      List.IsInfix.trans ⟨lead.signs, op.sign :: h.text, by simp [text]⟩ hin
    have hright : op.sign :: h.text <:+: cs :=
      List.IsInfix.trans ⟨lead.signs ++ f.text, [], by simp [text]⟩ hin
    have hoperand : (f.grouped .left none).outcome v = f.formula.outcome v :=
      ihf hf.2.1 (Lead.isAt_none _) hleft
    have hrest (a : Formula Char) : (h.grouped .left (some (a, op))).outcome v =
        (Formula.binary op a h.formula).outcome v :=
      ihh hf.2.2 (Lead.isAt_some a op) hright
    rw [grouped]
    split
    next hjoins =>
      cases lead with
      | none => cases hjoins
      | some l =>
        obtain ⟨a, op'⟩ := l
        have hprecedence : op'.precedence = op.precedence := by
          have hlevel : op'.precedence = level := hlead _ List.mem_cons_self
          exact Nat.le_antisymm (hlevel ▸ hf.1) (Grouping.left_releases_iff.mp hjoins)
        have hpair : op'.sign :: (f.text ++ [op.sign]) <:+: cs :=
          List.IsInfix.trans ⟨[], h.text, by simp [text, Lead.signs, Connective.sign]⟩ hin
        obtain ⟨rfl, hop⟩ := hcs.same hprecedence hf.2.1 hpair
        calc (h.grouped .left (some (.binary op' a (f.grouped .left none), op'))).outcome v
          _ = (Formula.binary op' (.binary op' a (f.grouped .left none)) h.formula).outcome v :=
            hrest _
          _ = (Formula.binary op' a (.binary op' (f.grouped .left none) h.formula)).outcome v :=
            Formula.outcome_assoc v hop ..
          _ = (Formula.binary op' a (.binary op' f.formula h.formula)).outcome v := by
            simp only [Formula.outcome, hoperand]
    next =>
      refine Formula.outcome_joined ?_ lead
      rw [hrest, Formula.outcome, hoperand]
      rfl

end Phrase

namespace Program

open Phrase

/-- If no chain has two implications or mixes the disjunctions, its grouping can be changed:
grouped to the left, an accepted text is still accepted, with the same variables, and every
assignment has the same result. -/
theorem ofTextGrouped_left {settings : Settings} {text : String} {p : Program}
    (hp : ofText settings text = .ok p)
    (hchains : Regroupable settings.strict (Text.trim text.toList)) :
    ∃ q, ofTextGrouped .left settings text = .ok q ∧ q.numbering = p.numbering ∧
      (∀ a, (q.run a).map (·.2) = (p.run a).map (·.2)) ∧
      ∀ a : Assignment, p.variableCount ≤ a.length → ∃ steps steps' result,
        p.run a = .ok (steps, result) ∧ q.run a = .ok (steps', result) := by
  obtain ⟨f, hf, rfl⟩ := ofText_eq_ok_iff_reads.mp hp
  have hleaves : (f.grouped .left none).leaves = f.formula.leaves := leaves_grouped .left f none
  have hresult (a : Assignment) :
      ((ofFormula (Text.trimmed text) (f.grouped .left none)).run a).map (·.2) =
        ((ofFormula (Text.trimmed text) f.formula).run a).map (·.2) := by
    rw [result_ofFormula, result_ofFormula, hleaves]
    exact outcome_grouped hchains _ hf.1 (Lead.isAt_none 1) ⟨[], [], by simp [Lead.signs, hf.2]⟩
  refine ⟨_, ofTextGrouped_eq_ok_iff.mpr ⟨f, hf, rfl⟩, ?_, hresult, ?_⟩
  · rw [ofFormula, hleaves]
    rfl
  · intro a ha
    have hrun : (ofFormula (Text.trimmed text) f.formula).run a = .ok _ :=
      run_ofFormula (Formula.gives_valuation ha)
    have hleft := hresult a
    rw [hrun] at hleft
    cases hq : (ofFormula (Text.trimmed text) (f.grouped .left none)).run a with
    | error e =>
      rw [hq] at hleft
      cases hleft
    | ok r =>
      obtain ⟨steps', result⟩ := r
      rw [hq] at hleft
      obtain rfl : result = f.formula.eval (f.formula.valuation a) := Except.ok.inj hleft
      exact ⟨_, steps', _, hrun, rfl⟩

/-- Chains of two levels, one of them in parentheses. -/
theorem ofTextGrouped_left_nested :
    Regroupable false "p|q|r>~(s<t<u)".toList ∧
      ∃ p q, ofText {} "p|q|r>~(s<t<u)" = .ok p ∧
        p.listing = .ok ["p", "q", "r", "|", "|", "s", "t", "u", "<", "<", "~", ">"] ∧
        ofTextGrouped .left {} "p|q|r>~(s<t<u)" = .ok q ∧
        q.listing = .ok ["p", "q", "|", "r", "|", "s", "t", "<", "u", "<", "~", ">"] ∧
        q.numbering = p.numbering ∧ (∀ a, (q.run a).map (·.2) = (p.run a).map (·.2)) := by
  have hchains : Regroupable false "p|q|r>~(s<t<u)".toList :=
    regroupable_of_count (by decide) (.inr (by decide))
  let p : Program := .ofFormula "p|q|r>~(s<t<u)"
    (.binary .implies (.binary .or (.var 'p') (.binary .or (.var 'q') (.var 'r')))
      (.not (.binary .iff (.var 's') (.binary .iff (.var 't') (.var 'u')))))
  have hp : ofText {} "p|q|r>~(s<t<u)" = .ok p := rfl
  obtain ⟨q, hq, hnumbering, hresult, -⟩ := ofTextGrouped_left hp hchains
  have hlisting : (ofTextGrouped .left {} "p|q|r>~(s<t<u)").bind (·.listing) =
      .ok ["p", "q", "|", "r", "|", "s", "t", "<", "u", "<", "~", ">"] := rfl
  rw [hq] at hlisting
  exact ⟨hchains, p, q, hp, rfl, hq, hlisting, hnumbering, hresult⟩

/-- Two implications disagree with each other, and disjunction with the exclusive one. -/
example :
    (ofTextGrouped .left {} "p>q>r").bind (·.run [false, true, false]) =
        .ok ([true, false], false) ∧
      (ofText {} "p>q>r").bind (·.run [false, true, false]) = .ok ([false, true], true) ∧
      (ofTextGrouped .left {} "p|q^r").bind (·.run [true, false, true]) =
        .ok ([true, false], false) ∧
      (ofText {} "p|q^r").bind (·.run [true, false, true]) = .ok ([true, true], true) :=
  ⟨rfl, rfl, rfl, rfl⟩

end Program
end PropTable

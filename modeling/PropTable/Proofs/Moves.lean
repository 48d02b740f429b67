import PropTable.Phrase
import PropTable.Proofs.Levels

/-!
# The moves of a scan

As long as the level points at a stack, a step of the scan either makes one of five moves or
refuses the character with a flaw of the text.  `Move` lists the moves with the states
before and after them, `step_move` says that there is nothing else, and both a reading of a
text and an invariant of the scan go by cases on them.
-/

namespace PropTable

/-- A flaw that a text is refused for: it is malformed or has an unknown symbol. -/
def Flaw.IsOfText (f : Flaw) : Prop := f.kind = .malformed ∨ f.kind = .unknownToken

/-- The place of the character that is refused for a flaw.  A flaw that shows only at the end of
a text refuses none, although it may point to an earlier place. -/
def Flaw.refusedAt? : Flaw → Option Nat
  | openAfterOperand k | unopened k | closeBeforeOperand k | negationAfterOperand k
  | leftOperandMissing _ k | unknownSymbol _ k | operatorMissing _ k => some k
  | blank | unclosed _ | operandMissingAtEnd _ | operandsMissing _ | valuesLeft _
  | tooManyVariables .. => none

theorem Flaw.position?_of_refusedAt? {f : Flaw} {k : Nat} (h : f.refusedAt? = some k) :
    f.position? = some k := by
  cases f with
  | blank | unclosed | operandMissingAtEnd | operandsMissing | valuesLeft | tooManyVariables =>
    cases h
  | openAfterOperand | unopened | closeBeforeOperand | negationAfterOperand | leftOperandMissing
  | unknownSymbol | operatorMissing => exact h

namespace Scan

/-- The level points at a stack, and there is one level for each open parenthesis. -/
def Aligned (s : Scan) : Prop :=
  ∃ current around spare, s.pending = .ofLevels current around spare ∧
    around.length = s.opens.length

theorem start_aligned (source : String) : (start source).Aligned :=
  ⟨[], [], 0, Pending.initial_eq_ofLevels, rfl⟩

/-- What the scan does with a character at a position: the states before and after it. -/
inductive Move (g : Grouping) (strict : Bool) (position : Nat) : Char → Scan → Scan → Prop where
  | opening (p : Program) (current : List Connective) (around : List (List Connective))
      (spare : Nat) (opens : List Nat) :
      Move g strict position '('
        { program := p, pending := .ofLevels current around spare, expectsOperand := true, opens }
        { program := p, pending := .ofLevels [] (current :: around) (spare - 1)
          expectsOperand := true, opens := position :: opens }
  | closing (p : Program) (current outer : List Connective) (around : List (List Connective))
      (spare : Nat) (k : Nat) (opens : List Nat) :
      Move g strict position ')'
        { program := p, pending := .ofLevels current (outer :: around) spare
          expectsOperand := false, opens := k :: opens }
        { program := p.emit (current.map (·.token)), pending := .ofLevels outer around (spare + 1)
          expectsOperand := false, opens }
  | negation (p : Program) (current : List Connective) (around : List (List Connective))
      (spare : Nat) (opens : List Nat) :
      Move g strict position Connective.not.sign
        { program := p, pending := .ofLevels current around spare, expectsOperand := true, opens }
        { program := p.emit ((current.takeWhile (g.releases · .not)).map (·.token))
          pending := .ofLevels (.not :: current.dropWhile (g.releases · .not)) around spare
          expectsOperand := true, opens }
  | joining (op : Binary) (p : Program) (current : List Connective)
      (around : List (List Connective)) (spare : Nat) (opens : List Nat) :
      Move g strict position op.sign
        { program := p, pending := .ofLevels current around spare, expectsOperand := false, opens }
        { program := p.emit ((current.takeWhile (g.releases · (.binary op))).map (·.token))
          pending :=
            .ofLevels (.binary op :: current.dropWhile (g.releases · (.binary op))) around spare
          expectsOperand := true, opens }
  | mention (c : Char) (h : Phrase.IsVariable strict c) (p : Program) (pending : Pending)
      (opens : List Nat) :
      Move g strict position c { program := p, pending, expectsOperand := true, opens }
        { program := (p.mention c.toString).1, pending, expectsOperand := false, opens }

theorem pushConnective_ofLevels (g : Grouping) (c : Connective) (p : Program)
    (current : List Connective) (around : List (List Connective)) (spare : Nat)
    (expectsOperand : Bool) (opens : List Nat) :
    pushConnective g c
        { program := p, pending := .ofLevels current around spare, expectsOperand, opens } =
      .ok { program := p.emit ((current.takeWhile (g.releases · c)).map (·.token))
            pending := .ofLevels (c :: current.dropWhile (g.releases · c)) around spare
            expectsOperand := true, opens } := by
  simp only [pushConnective, Pending.place_ofLevels, bind, Except.bind, pure, Except.pure]

variable {g : Grouping} {strict : Bool} {position : Nat} {c : Char} {s s' : Scan}

theorem step_open : s.step g strict position '(' = s.openLevel position := rfl

theorem step_close : s.step g strict position ')' = s.closeLevel position := rfl

theorem step_sign (op : Connective) :
    s.step g strict position op.sign = s.readConnective g position op := by
  simp only [step, if_neg op.sign_ne_open, if_neg op.sign_ne_close, Connective.ofChar?_sign]

theorem step_other (hopen : c ≠ '(') (hclose : c ≠ ')') (hsign : Connective.ofChar? c = none) :
    s.step g strict position c = s.readVariable strict position c := by
  simp only [step, if_neg hopen, if_neg hclose, hsign]

theorem letter_check_iff : (strict && !Text.isLetter c) = false ↔
    (strict = true → Text.isLetter c = true) := by
  cases strict <;> simp

theorem Move.step_eq (h : Move g strict position c s s') :
    s.step g strict position c = .ok s' := by
  cases h with
  | opening p current around spare opens =>
    rw [step_open]
    simp [openLevel, Pending.deepen_ofLevels]
  | closing p current outer around spare k opens =>
    rw [step_close]
    simp [closeLevel, Pending.leave_ofLevels, bind, Except.bind, pure, Except.pure]
  | negation p current around spare opens =>
    rw [step_sign]
    exact pushConnective_ofLevels g .not p current around spare true opens
  | joining op p current around spare opens =>
    rw [show op.sign = (Connective.binary op).sign from rfl, step_sign]
    exact pushConnective_ofLevels g (.binary op) p current around spare false opens
  | mention c h p pending opens =>
    obtain ⟨hopen, hclose, hsign, hletter⟩ := h
    simp [step_other hopen hclose hsign, readVariable, letter_check_iff.mpr hletter]

theorem Aligned.length_eq {current : List Connective} {around : List (List Connective)}
    {spare : Nat} (hs : s.Aligned) (hp : s.pending = .ofLevels current around spare) :
    around.length = s.opens.length := by
  obtain ⟨current', around', spare', hp', hlength⟩ := hs
  have hlevel : (around.length : Int) = around'.length :=
    congrArg Pending.level (hp.symm.trans hp')
  omega

theorem Move.aligned (h : Move g strict position c s s') (hs : s.Aligned) : s'.Aligned := by
  cases h with
  | opening p current around spare opens =>
    have hlength := hs.length_eq rfl
    exact ⟨[], current :: around, spare - 1, rfl, by simpa using hlength⟩
  | closing p current outer around spare k opens =>
    have hlength := hs.length_eq rfl
    exact ⟨outer, around, spare + 1, rfl, by simpa using hlength⟩
  | negation p current around spare opens => exact ⟨_, around, spare, rfl, hs.length_eq rfl⟩
  | joining op p current around spare opens => exact ⟨_, around, spare, rfl, hs.length_eq rfl⟩
  | mention c h p pending opens => exact hs

/-- A step of an aligned scan is a move, or the character is refused for a flaw of the text
at its position. -/
theorem step_move (g : Grouping) (strict : Bool) (position : Nat) (c : Char) (hs : s.Aligned) :
    (∃ s', Move g strict position c s s') ∨
      ∃ f : Flaw, s.step g strict position c = .error (.flaw f) ∧ f.IsOfText ∧
        f.refusedAt? = some position := by
  obtain ⟨program, pending, expectsOperand, opens⟩ := s
  obtain ⟨current, around, spare, hp, hlength⟩ := hs
  simp only at hp hlength
  subst hp
  by_cases hopen : c = '('
  · subst hopen
    cases expectsOperand with
    | true => exact .inl ⟨_, .opening ..⟩
    | false => exact .inr ⟨.openAfterOperand position, rfl, .inl rfl, rfl⟩
  by_cases hclose : c = ')'
  · subst hclose
    cases opens with
    | nil => exact .inr ⟨.unopened position, rfl, .inl rfl, rfl⟩
    | cons k opens =>
      cases expectsOperand with
      | true => exact .inr ⟨.closeBeforeOperand position, rfl, .inl rfl, rfl⟩
      | false =>
        -- One level for each open parenthesis, so there is a level around this one.
        cases around with
        | nil => simp at hlength
        | cons outer around => exact .inl ⟨_, .closing ..⟩
  cases hsign : Connective.ofChar? c with
  | some op =>
    obtain rfl := Connective.ofChar?_eq_some_iff.mp hsign
    cases op with
    | not =>
      cases expectsOperand with
      | true => exact .inl ⟨_, .negation ..⟩
      | false => exact .inr ⟨.negationAfterOperand position, step_sign .not, .inl rfl, rfl⟩
    | binary op =>
      cases expectsOperand with
      | true => exact .inr ⟨.leftOperandMissing op position, step_sign (.binary op), .inl rfl, rfl⟩
      | false => exact .inl ⟨_, .joining op ..⟩
  | none =>
    rw [step_other hopen hclose hsign]
    by_cases hletter : strict = true → Text.isLetter c = true
    · cases expectsOperand with
      | true => exact .inl ⟨_, .mention c ⟨hopen, hclose, hsign, hletter⟩ ..⟩
      | false =>
        exact .inr ⟨.operatorMissing c position,
          by simp [readVariable, letter_check_iff.mpr hletter], .inl rfl, rfl⟩
    · rw [Classical.not_imp] at hletter
      exact .inr ⟨.unknownSymbol c position, by simp [readVariable, hletter], .inr rfl, rfl⟩

end Scan
end PropTable

import PropTable.Proofs.Blanks
import PropTable.Proofs.FormulaTable

/-!
# Labels are formulas

The plain label of a formula is the text of a phrase: the one with parentheses around every
operand that has a connective.  That phrase may stand anywhere, so the label is compiled to
the program of the formula.
-/

namespace PropTable

namespace Phrase

/-- A phrase as an operand, in parentheses unless it is a variable. -/
def enclosed : Phrase → Phrase
  | var c => var c
  | f => paren f

theorem enclosed_formula (f : Phrase) : f.enclosed.formula = f.formula := by
  cases f <;> rfl

theorem Fits.enclosed {strict : Bool} {f : Phrase} (h : Fits strict 1 f) (level : Nat) :
    Fits strict level f.enclosed := by
  cases f <;> exact h

theorem Fits.isVariable {strict : Bool} {level : Nat} {f : Phrase} (h : Fits strict level f) :
    ∀ c ∈ f.formula.leaves, IsVariable strict c := by
  induction f generalizing level with
  | var c =>
    intro d hd
    rw [List.mem_singleton.mp hd]
    exact h
  | paren f ih => exact ih h
  | not f ih => exact ih h.2
  | binary op f g ihf ihg =>
    intro c hc
    rcases List.mem_append.mp hc with hc | hc
    · exact ihf h.2.1 c hc
    · exact ihg h.2.2 c hc

/-- What holds of the parentheses, of the signs and of its variables holds of every character
of a phrase. -/
theorem forall_mem_text {P : Char → Prop} {f : Phrase} (hopen : P '(') (hclose : P ')')
    (hsign : ∀ op : Connective, P op.sign) (h : ∀ c ∈ f.formula.leaves, P c) :
    ∀ c ∈ f.text, P c := by
  induction f with
  | var c => exact h
  | paren f ih =>
    simp only [text, List.cons_append, List.mem_cons, List.mem_append, List.not_mem_nil, or_false]
    rintro c (rfl | hc | rfl)
    · exact hopen
    · exact ih h c hc
    · exact hclose
  | not f ih =>
    simp only [text, List.mem_cons]
    rintro c (rfl | hc)
    · exact hsign .not
    · exact ih h c hc
  | binary op f g ihf ihg =>
    simp only [text, List.mem_cons, List.mem_append]
    rintro c (hc | rfl | hc)
    · exact ihf (fun d hd => h d (List.mem_append_left _ hd)) c hc
    · exact hsign (.binary op)
    · exact ihg (fun d hd => h d (List.mem_append_right _ hd)) c hc

theorem isBlank_of_mem_text {f : Phrase} (h : ∀ c ∈ f.formula.leaves, Text.isBlank c = false) :
    ∀ c ∈ f.text, Text.isBlank c = false := by
  refine forall_mem_text rfl rfl (fun op => ?_) h
  cases op with
  | not => rfl
  | binary op => cases op <;> rfl

end Phrase

namespace Formula

variable {strict : Bool} {f : Formula Char}

/-- A formula written out, with parentheses around each operand that has a connective. -/
def phrase : Formula Char → Phrase
  | var c => .var c
  | not f => .not f.phrase.enclosed
  | binary op f g => .binary op f.phrase.enclosed g.phrase.enclosed

theorem phrase_formula (f : Formula Char) : f.phrase.formula = f := by
  induction f with
  | var c => rfl
  | not f ih => rw [phrase, Phrase.formula, Phrase.enclosed_formula, ih]
  | binary op f g ihf ihg =>
    rw [phrase, Phrase.formula, Phrase.enclosed_formula, Phrase.enclosed_formula, ihf, ihg]

theorem phrase_fits (h : ∀ c ∈ f.leaves, Phrase.IsVariable strict c) :
    f.phrase.Fits strict 1 := by
  induction f with
  | var c => exact h c List.mem_cons_self
  | not f ih => exact ⟨by decide, (ih h).enclosed _⟩
  | binary op f g ihf ihg =>
    have hf := ihf fun c hc => h c (List.mem_append_left _ hc)
    have hg := ihg fun c hc => h c (List.mem_append_right _ hc)
    exact ⟨op.precedence_pos, hf.enclosed _, hg.enclosed _⟩

theorem wrapped_label_ascii (h : (f.label .ascii).text = String.ofList f.phrase.text) :
    (f.label .ascii).wrapped = String.ofList f.phrase.enclosed.text := by
  cases f with
  | var c => exact h
  | not f | binary op f g =>
    have hopen : "(" = String.ofList ['('] := rfl
    have hclose : ")" = String.ofList [')'] := rfl
    show "(" ++ Label.text _ ++ ")" = _
    rw [h, hopen, hclose, ← String.ofList_append, ← String.ofList_append]
    rfl

theorem label_ascii (f : Formula Char) :
    (f.label .ascii).text = String.ofList f.phrase.text := by
  induction f with
  | var c => rfl
  | not f ih =>
    show String.singleton _ ++ (f.label .ascii).wrapped = _
    rw [wrapped_label_ascii ih, String.singleton_eq_ofList, ← String.ofList_append]
    rfl
  | binary op f g ihf ihg =>
    show (f.label .ascii).wrapped ++ String.singleton _ ++ (g.label .ascii).wrapped = _
    rw [wrapped_label_ascii ihf, wrapped_label_ascii ihg, String.singleton_eq_ofList,
      ← String.ofList_append, ← String.ofList_append, List.append_assoc]
    rfl

/-- The plain label of a formula is compiled to its program. -/
theorem ofText_label {settings : Settings}
    (hvariable : ∀ c ∈ f.leaves, Phrase.IsVariable settings.strict c)
    (hblank : ∀ c ∈ f.leaves, Text.isBlank c = false) :
    Program.ofText settings (f.label .ascii).text =
      .ok (.ofFormula (f.label .ascii).text f) := by
  have htrim : Text.trim f.phrase.text = f.phrase.text := by
    refine Text.trim_eq_self (Phrase.isBlank_of_mem_text ?_)
    rwa [phrase_formula]
  have hreads : Phrase.Reads settings.strict f.phrase.text f.phrase :=
    ⟨phrase_fits hvariable, rfl⟩
  rw [label_ascii, Program.ofText_ofList htrim hreads, phrase_formula]

end Formula

end PropTable

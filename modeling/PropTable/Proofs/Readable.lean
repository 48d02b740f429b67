import PropTable.Proofs.Grammar
import PropTable.Proofs.Moves

/-!
# Which texts a scan reads to the end

Whether a scan succeeds does not depend on the pending connectives, only on whether an
operand is expected and how many parentheses are open: `Readable` is the automaton over
these two.  A text that it reads from the start is the text of a phrase
(`Readable.exists_reads`), found by descent through the levels of the grammar.
-/

namespace PropTable
namespace Scan

open Phrase

/-- The texts that are read to their end, all parentheses closed and no operand missing,
given whether an operand is expected and how many parentheses are open. -/
inductive Readable (strict : Bool) : (expectsOperand : Bool) → (depth : Nat) → List Char → Prop
    where
  | done : Readable strict false 0 []
  | opening {depth : Nat} {cs : List Char} (h : Readable strict true (depth + 1) cs) :
      Readable strict true depth ('(' :: cs)
  | closing {depth : Nat} {cs : List Char} (h : Readable strict false depth cs) :
      Readable strict false (depth + 1) (')' :: cs)
  | negation {depth : Nat} {cs : List Char} (h : Readable strict true depth cs) :
      Readable strict true depth (Connective.not.sign :: cs)
  | joining {depth : Nat} {cs : List Char} (op : Binary) (h : Readable strict true depth cs) :
      Readable strict false depth (op.sign :: cs)
  | mention {depth : Nat} {cs : List Char} {c : Char} (hc : IsVariable strict c)
      (h : Readable strict false depth cs) : Readable strict true depth (c :: cs)

/-! ## The runs of the scan -/

theorem run_cons (g : Grouping) (strict : Bool) (position : Nat) (c : Char) (cs : List Char)
    (s : Scan) : run g strict position (c :: cs) s =
      (s.step g strict position c).bind (run g strict (position + 1) cs) := rfl

theorem run_append (g : Grouping) (strict : Bool) (position : Nat) (xs ys : List Char)
    (s : Scan) : run g strict position (xs ++ ys) s =
      (run g strict position xs s).bind (run g strict (position + xs.length) ys) := by
  induction xs generalizing position s with
  | nil => rfl
  | cons c xs ih =>
    have hposition : position + (c :: xs).length = position + 1 + xs.length := by
      rw [List.length_cons]
      omega
    rw [List.cons_append, run_cons, run_cons, hposition]
    cases s.step g strict position c with
    | ok s' => exact ih (position + 1) s'
    | error e => rfl

/-- A run of an aligned scan ends aligned, or a character is refused for a flaw of the
text. -/
theorem run_aligned (g : Grouping) (strict : Bool) (position : Nat) (cs : List Char)
    {s : Scan} (hs : s.Aligned) :
    (∃ t, run g strict position cs s = .ok t ∧ t.Aligned) ∨
      ∃ f : Flaw, run g strict position cs s = .error (.flaw f) ∧ f.IsOfText := by
  induction cs generalizing position s with
  | nil => exact .inl ⟨s, rfl, hs⟩
  | cons c cs ih =>
    rw [run_cons]
    rcases step_move g strict position c hs with ⟨s', hmove⟩ | ⟨f, he, hf, -⟩
    · rw [hmove.step_eq]
      exact ih (position + 1) (hmove.aligned hs)
    · rw [he]
      exact .inr ⟨f, rfl, hf⟩

/-- What every move keeps, a run keeps. -/
theorem run_induction {g : Grouping} {strict : Bool} {P : List Char → Scan → Prop}
    (hmove : ∀ {read : List Char} {c : Char} {s s' : Scan},
      Move g strict read.length c s s' → P read s → P (read ++ [c]) s')
    {read cs : List Char} {s t : Scan} (hs : s.Aligned) (hread : P read s)
    (h : run g strict read.length cs s = .ok t) : P (read ++ cs) t := by
  induction cs generalizing read s with
  | nil =>
    obtain rfl := Except.ok.inj h
    rwa [List.append_nil]
  | cons c cs ih =>
    rw [run_cons] at h
    rcases step_move g strict read.length c hs with ⟨s', hstep⟩ | ⟨f, he, -⟩
    · rw [hstep.step_eq] at h
      rw [List.append_cons]
      refine ih (hstep.aligned hs) (hmove hstep hread) ?_
      rwa [List.length_append]
    · rw [he] at h
      cases h

theorem Aligned.of_run {g : Grouping} {strict : Bool} {position : Nat} {cs : List Char}
    {s t : Scan} (hs : s.Aligned) (h : run g strict position cs s = .ok t) : t.Aligned := by
  rcases run_aligned g strict position cs hs with ⟨u, hu, haligned⟩ | ⟨f, he, -⟩
  · obtain rfl := Except.ok.inj (h.symm.trans hu)
    exact haligned
  · rw [h] at he
    cases he

theorem readable_of_run {g : Grouping} {strict : Bool} {position : Nat} {cs : List Char}
    {s t : Scan} (hs : s.Aligned) (h : run g strict position cs s = .ok t)
    (hopens : t.opens = []) (hexpects : t.expectsOperand = false) :
    Readable strict s.expectsOperand s.opens.length cs := by
  induction cs generalizing position s with
  | nil =>
    obtain rfl := Except.ok.inj h
    rw [hopens, hexpects]
    exact .done
  | cons c cs ih =>
    rw [run_cons] at h
    rcases step_move g strict position c hs with ⟨s', hmove⟩ | ⟨f, he, -⟩
    · rw [hmove.step_eq] at h
      have hrest := ih (hmove.aligned hs) h
      cases hmove with
      | opening p current around spare opens => exact .opening hrest
      | closing p current outer around spare k opens => exact .closing hrest
      | negation p current around spare opens => exact .negation hrest
      | joining op p current around spare opens => exact .joining op hrest
      | mention c hc p pending opens => exact .mention hc hrest
    · rw [he] at h
      cases h

/-- A character that a readable text begins with is read by a move, which leaves the rest
readable. -/
theorem Readable.exists_move {strict : Bool} {c : Char} {cs : List Char} {s : Scan}
    (hs : s.Aligned) (h : Readable strict s.expectsOperand s.opens.length (c :: cs))
    (g : Grouping) (position : Nat) : ∃ s', Move g strict position c s s' ∧
      Readable strict s'.expectsOperand s'.opens.length cs := by
  obtain ⟨program, pending, expectsOperand, opens⟩ := s
  obtain ⟨current, around, spare, hp, hlength⟩ := hs
  simp only at hp hlength h
  subst hp
  generalize hdepth : opens.length = depth at h
  cases h with
  | opening h =>
    subst hdepth
    exact ⟨_, .opening .., h⟩
  | closing h =>
    obtain ⟨k, opens, rfl⟩ := List.exists_cons_of_length_eq_add_one hdepth
    obtain ⟨outer, around, rfl⟩ := List.exists_cons_of_length_eq_add_one (hlength.trans hdepth)
    obtain rfl := Nat.succ.inj hdepth
    exact ⟨_, .closing .., h⟩
  | negation h =>
    subst hdepth
    exact ⟨_, .negation .., h⟩
  | joining op h =>
    subst hdepth
    exact ⟨_, .joining op .., h⟩
  | mention hc h =>
    subst hdepth
    exact ⟨_, .mention c hc .., h⟩

theorem Readable.exists_run {strict : Bool} {cs : List Char} {s : Scan} (hs : s.Aligned)
    (h : Readable strict s.expectsOperand s.opens.length cs) (g : Grouping) (position : Nat) :
    ∃ t, run g strict position cs s = .ok t ∧ t.opens = [] ∧ t.expectsOperand = false := by
  induction cs generalizing position s with
  | nil =>
    generalize hexpects : s.expectsOperand = expectsOperand at h
    generalize hdepth : s.opens.length = depth at h
    cases h with
    | done => exact ⟨s, rfl, List.eq_nil_of_length_eq_zero hdepth, hexpects⟩
  | cons c cs ih =>
    obtain ⟨s', hmove, hrest⟩ := h.exists_move hs g position
    rw [run_cons, hmove.step_eq]
    exact ih (hmove.aligned hs) hrest (position + 1)

/-! ## To a phrase -/

/-- A readable text begins with a phrase of a level that nothing in the rest continues, and
the rest is readable. -/
def BeginsWith (strict : Bool) (level depth : Nat) (cs : List Char) : Prop :=
  ∃ f rest, cs = f.text ++ rest ∧ Fits strict level f ∧ Stops level rest ∧
    Readable strict false depth rest

theorem Readable.begins_with_operand {strict : Bool} {depth : Nat} {cs : List Char}
    (h : Readable strict true depth cs)
    (ih : ∀ {level depth : Nat} {cs' : List Char}, cs'.length < cs.length → 1 ≤ level →
      level ≤ Connective.not.precedence → Readable strict true depth cs' →
      BeginsWith strict level depth cs') :
    BeginsWith strict Connective.not.precedence depth cs := by
  cases h with
  | opening h =>
    obtain ⟨f, rest, rfl, hf, hstops, hrest⟩ := ih (by simp) (Nat.le_refl 1) (by decide) h
    -- The phrase ends at the closing parenthesis: no connective continues it.
    cases hrest with
    | closing hrest => exact ⟨.paren f, _, by simp [text], hf, stops_not _, hrest⟩
    | joining op _ => exact absurd (hstops op _ rfl) (Nat.not_lt_of_le op.precedence_pos)
  | negation h =>
    obtain ⟨f, rest, rfl, hf, hstops, hrest⟩ := ih (by simp) (by decide) (Nat.le_refl _) h
    exact ⟨.not f, rest, rfl, ⟨Nat.le_refl _, hf⟩, hstops, hrest⟩
  | mention hc h => exact ⟨.var _, _, rfl, hc, stops_not _, h⟩

/-- A phrase of the next tighter level is a phrase of this level or the left operand of
one. -/
theorem BeginsWith.loosen {strict : Bool} {level depth : Nat} {cs : List Char}
    (h : BeginsWith strict (level + 1) depth cs)
    (ih : ∀ {cs' : List Char}, cs'.length < cs.length → Readable strict true depth cs' →
      BeginsWith strict level depth cs') : BeginsWith strict level depth cs := by
  obtain ⟨f, rest, rfl, hf, hstops, hrest⟩ := h
  cases hrest with
  | done => exact ⟨f, [], rfl, hf.mono (Nat.le_succ _), stops_nil _, .done⟩
  | closing hrest =>
    exact ⟨f, _, rfl, hf.mono (Nat.le_succ _), stops_close _ _, .closing hrest⟩
  | joining op hright =>
    rcases Nat.lt_or_eq_of_le (Nat.le_of_lt_succ (hstops op _ rfl)) with hlt | rfl
    · exact ⟨f, _, rfl, hf.mono (Nat.le_succ _), (stops_sign op _).mono hlt, .joining op hright⟩
    · obtain ⟨g, rest', rfl, hg, hstops', hrest'⟩ := ih (by simp; omega) hright
      exact ⟨.binary op f g, rest', by simp [text], ⟨Nat.le_refl _, hf, hg⟩, hstops', hrest'⟩

/-- A readable text begins with a phrase of every level.  The outer induction is on the
length, for the phrases inside parentheses and to the right of connectives; the inner one
goes from the operands through the levels to the one that is asked for. -/
theorem Readable.begins_with {strict : Bool} {level depth : Nat} {cs : List Char}
    (h : Readable strict true depth cs) (hpos : 1 ≤ level)
    (hle : level ≤ Connective.not.precedence) : BeginsWith strict level depth cs := by
  induction n : cs.length using Nat.strongRecOn generalizing level depth cs with
  | ind n ih =>
    subst n
    induction hgap : Connective.not.precedence - level generalizing level with
    | zero =>
      obtain rfl : level = Connective.not.precedence := by omega
      exact h.begins_with_operand fun hlt hpos hle h => ih _ hlt h hpos hle rfl
    | succ gap ihgap =>
      have hnext : BeginsWith strict (level + 1) depth cs :=
        ihgap (by omega) (by omega) (by omega)
      exact hnext.loosen fun hlt h => ih _ hlt h hpos hle rfl

theorem Readable.exists_reads {strict : Bool} {cs : List Char} (h : Readable strict true 0 cs) :
    ∃ f, Reads strict cs f := by
  obtain ⟨f, rest, rfl, hf, hstops, hrest⟩ := h.begins_with (Nat.le_refl 1) (by decide)
  cases hrest with
  | done => exact ⟨f, hf, (List.append_nil _).symm⟩
  | joining op _ => exact absurd (hstops op _ rfl) (Nat.not_lt_of_le op.precedence_pos)

end Scan
end PropTable

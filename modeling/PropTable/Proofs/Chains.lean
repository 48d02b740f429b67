import PropTable.Pending
import PropTable.Phrase

/-!
# How chains are grouped

Connectives of one precedence at one level of parentheses form a chain.  `Phrase.grouped` reads
a phrase with its chains grouped either way.  The variables occur in the same order
(`Phrase.leaves_grouped`), and grouping to the right gives the formula of the phrase
(`Phrase.grouped_right`).
-/

namespace PropTable

namespace Grouping

variable (g : Grouping) {c x : Connective}

theorem releases_of_lt (h : c.precedence < x.precedence) : g.releases x c = true := by
  cases g <;> simp [releases, h]

theorem precedence_le_of_not_releases {g : Grouping} (h : ¬g.releases x c = true) :
    x.precedence ≤ c.precedence :=
  Nat.not_lt.mp fun hlt => h (g.releases_of_lt hlt)

theorem releases_eq_false_of_lt (h : x.precedence < c.precedence) : g.releases x c = false := by
  have hle : ¬c.precedence < x.precedence := Nat.lt_asymm h
  have hne : ¬c.precedence = x.precedence := (Nat.ne_of_lt h).symm
  cases g <;> simp [releases, hle, hne]

theorem releases_not (x : Connective) : g.releases x .not = false := by
  cases x with
  | not => cases g <;> rfl
  | binary op => cases g <;> cases op <;> rfl

/-- What a connective leaves waiting is also left by those that bind more strongly. -/
theorem releases_eq_false_mono {op op' : Binary} (h : g.releases x (.binary op) = false)
    (hle : op.precedence ≤ op'.precedence) : g.releases x (.binary op') = false := by
  rcases Nat.lt_or_eq_of_le hle with hlt | heq
  · have hle : x.precedence ≤ op.precedence :=
      precedence_le_of_not_releases (Bool.eq_false_iff.mp h)
    exact g.releases_eq_false_of_lt (Nat.lt_of_le_of_lt hle hlt)
  · have hsame : (Connective.binary op).precedence = (Connective.binary op').precedence := heq
    cases g with
    | right => rwa [releases, ← hsame]
    | left => rwa [releases, ← hsame]

theorem left_releases_iff {op op' : Binary} :
    left.releases (.binary op') (.binary op) = true ↔ op.precedence ≤ op'.precedence := by
  simp only [releases, Bool.or_eq_true, decide_eq_true_eq]
  simp [Connective.precedence, Connective.arity, Nat.le_iff_lt_or_eq]

end Grouping

/-- What leads up to a phrase inside a chain, if anything does: a left operand, and the
connective that waits to join it to the phrase. -/
abbrev Phrase.Lead := Option (Formula Char × Binary)

def Formula.joined (lead : Phrase.Lead) (f : Formula Char) : Formula Char :=
  match lead with
  | none => f
  | some (a, op) => .binary op a f

/-- The formula of a phrase with what leads up to it, chains being grouped as said.  A connective
takes the whole lead into its left operand if it releases the connective that waits there. -/
def Phrase.grouped (g : Grouping) : Phrase.Lead → Phrase → Formula Char
  | lead, var c => (Formula.var c).joined lead
  | lead, paren f => (f.grouped g none).joined lead
  | lead, not f => (Formula.not (f.grouped g none)).joined lead
  | lead, binary op f h =>
    if lead.any fun l => g.releases (.binary l.2) (.binary op) then
      h.grouped g (some ((f.grouped g none).joined lead, op))
    else (h.grouped g (some (f.grouped g none, op))).joined lead

namespace Phrase.Lead

/-- What still waits of a lead. -/
def waiting : Lead → List Connective
  | none => []
  | some (_, op) => [.binary op]

@[simp] theorem waiting_none : waiting none = [] := rfl

@[simp] theorem waiting_some (l : Formula Char × Binary) : waiting (some l) = [.binary l.2] := rfl

/-- The occurrences of variables in a lead. -/
def leaves : Lead → List Char
  | none => []
  | some (a, _) => a.leaves

theorem leaves_joined (f : Formula Char) (lead : Lead) :
    (f.joined lead).leaves = lead.leaves ++ f.leaves := by
  cases lead <;> rfl

/-- Each connective of a lead has the precedence of the level. -/
def IsAt (level : Nat) (lead : Lead) : Prop := ∀ c ∈ lead.waiting, c.precedence = level

theorem isAt_none (level : Nat) : IsAt level none := by simp [IsAt]

theorem isAt_some (a : Formula Char) (op : Binary) : IsAt op.precedence (some (a, op)) := by
  simp [IsAt, Connective.precedence]

end Phrase.Lead

namespace Phrase

/-- However a chain is grouped, its variables occur in the order in which they are written. -/
theorem leaves_grouped (g : Grouping) (f : Phrase) (lead : Lead) :
    (f.grouped g lead).leaves = lead.leaves ++ f.formula.leaves := by
  induction f generalizing lead with
  | var c => exact Lead.leaves_joined _ lead
  | paren f ih =>
    rw [grouped, Lead.leaves_joined, ih]
    rfl
  | not f ih =>
    rw [grouped, Lead.leaves_joined, Formula.leaves, ih]
    rfl
  | binary op f h ihf ihh =>
    rw [grouped]
    split
    · rw [ihh, Lead.leaves, Lead.leaves_joined, ihf, formula, Formula.leaves, List.append_assoc]
      rfl
    · rw [Lead.leaves_joined, ihh, Lead.leaves, ihf, formula, Formula.leaves]
      rfl

/-- The formula of a phrase has its chains grouped to the right. -/
theorem grouped_right {strict : Bool} {level : Nat} {f : Phrase} (hf : Fits strict level f)
    {lead : Lead} (hlead : lead.IsAt level) : f.grouped .right lead = f.formula.joined lead := by
  induction f generalizing level lead with
  | var c => rfl
  | paren f ih => rw [grouped, ih (show Fits strict 1 f from hf) (Lead.isAt_none 1)]; rfl
  | not f ih => rw [grouped, ih hf.2 (Lead.isAt_none _)]; rfl
  | binary op f h ihf ihh =>
    have hstays : ¬lead.any (fun l => Grouping.right.releases (.binary l.2) (.binary op)) := by
      cases lead with
      | none => simp
      | some l =>
        have hprecedence : l.2.precedence = level := hlead _ List.mem_cons_self
        simpa [Grouping.releases, Connective.precedence, hprecedence] using hf.1
    rw [grouped, if_neg hstays, ihf hf.2.1 (Lead.isAt_none _), ihh hf.2.2 (Lead.isAt_some _ op)]
    rfl

end Phrase

end PropTable

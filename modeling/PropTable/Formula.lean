import PropTable.Program

/-!
Formulas as trees: their truth values, and the order in which a postfix program lists them.
-/

namespace PropTable

/-- What a connective says of two propositions. -/
def Binary.Joins : Binary → Prop → Prop → Prop
  | and, p, q => p ∧ q
  | or, p, q => p ∨ q
  | xor, p, q => ¬(p ↔ q)
  | implies, p, q => p → q
  | iff, p, q => p ↔ q

theorem Binary.apply_eq_true_iff (op : Binary) (a b : Bool) :
    op.apply a b = true ↔ op.Joins (a = true) (b = true) := by
  cases op <;> cases a <;> cases b <;> simp [apply, Joins]

/-- A propositional formula over variables named by `α`. -/
inductive Formula (α : Type) where
  | var (a : α)
  | not (f : Formula α)
  | binary (op : Binary) (left right : Formula α)
deriving DecidableEq, Repr

namespace Formula

variable {α β : Type}

def eval (v : α → Bool) : Formula α → Bool
  | var a => v a
  | not f => !f.eval v
  | binary op f g => op.apply (f.eval v) (g.eval v)

/-- What the formula says if each variable stands for a proposition. -/
def Holds (v : α → Prop) : Formula α → Prop
  | var a => v a
  | not f => ¬f.Holds v
  | binary op f g => op.Joins (f.Holds v) (g.Holds v)

/-- The truth value is that of what the formula says. -/
theorem eval_eq_true_iff (v : α → Bool) (f : Formula α) :
    f.eval v = true ↔ f.Holds fun a => v a = true := by
  induction f with
  | var a => rfl
  | not f ih => simp [eval, Holds, ← ih]
  | binary op f g ihf ihg => simp only [eval, Holds, Binary.apply_eq_true_iff, ihf, ihg]

/-- The nodes from the leaves up: the operands of a connective come before it, the left one
first. -/
def postorder (leaf : α → β) (sign : Connective → β) : Formula α → List β
  | var a => [leaf a]
  | not f => f.postorder leaf sign ++ [sign .not]
  | binary op f g => f.postorder leaf sign ++ g.postorder leaf sign ++ [sign (.binary op)]

/-- The program of a formula over variable numbers. -/
def tokens (f : Formula Int) : List Token := f.postorder .var Connective.token

theorem tokens_not (f : Formula Int) : (not f).tokens = f.tokens ++ [Connective.not.token] := rfl

theorem tokens_binary (op : Binary) (f g : Formula Int) : (binary op f g).tokens =
    f.tokens ++ g.tokens ++ [(Connective.binary op).token] := rfl

def listing (f : Formula String) : List String := f.postorder id Connective.symbol

/-- The truth values of the connectives, in postorder. -/
def steps (v : α → Bool) : Formula α → List Bool
  | var _ => []
  | not f => f.steps v ++ [(not f).eval v]
  | binary op f g => f.steps v ++ g.steps v ++ [(binary op f g).eval v]

/-- The occurrences of variables from left to right. -/
def leaves : Formula α → List α
  | var a => [a]
  | not f => f.leaves
  | binary _ f g => f.leaves ++ g.leaves

def map (m : α → β) : Formula α → Formula β
  | var a => var (m a)
  | not f => not (f.map m)
  | binary op f g => binary op (f.map m) (g.map m)

/-- A truth value depends on the variables that occur, and on no others. -/
theorem eval_congr {v w : α → Bool} {f : Formula α} (h : ∀ a ∈ f.leaves, v a = w a) :
    f.eval v = f.eval w := by
  induction f with
  | var a => exact h a (by simp [leaves])
  | not f ih => simp [eval, ih h]
  | binary op f g ihf ihg =>
    simp [eval, ihf fun a ha => h a (by simp [leaves, ha]),
      ihg fun a ha => h a (by simp [leaves, ha])]

end Formula

end PropTable

import PropTable.Assignment
import PropTable.Formula
import PropTable.Label

/-!
# Replaying the postorder of a formula

On the postorder of a formula the stack machine computes what evaluation on the tree does
(`Replay.run_tokens`), whatever the values are and whatever lies on the stack below.  The
truth values and the labels are two instances, so they come in the same order: one for each
subformula that has a connective.
-/

namespace PropTable

namespace Formula

variable {α β : Type}

/-- The subformulas that have a connective, in postorder. -/
def composites : Formula α → List (Formula α)
  | var _ => []
  | not f => f.composites ++ [not f]
  | binary op f g => f.composites ++ g.composites ++ [binary op f g]

theorem steps_eq_composites (v : α → Bool) (f : Formula α) :
    f.steps v = f.composites.map (eval v) := by
  induction f with
  | var a => rfl
  | not f ih => simp only [steps, composites, ih, List.map_append, List.map_cons, List.map_nil]
  | binary op f g ihf ihg =>
    simp only [steps, composites, ihf, ihg, List.map_append, List.map_cons, List.map_nil]

theorem leaves_subset_of_mem_composites {f g : Formula α} (h : g ∈ f.composites) :
    g.leaves ⊆ f.leaves := by
  induction f with
  | var a => cases h
  | not f ih =>
    rcases List.mem_append.mp h with h | h
    · exact ih h
    · rw [List.mem_singleton.mp h]
      exact fun _ ha => ha
  | binary op l r ihl ihr =>
    rcases List.mem_append.mp h with h | h
    · rcases List.mem_append.mp h with h | h
      · exact fun a ha => List.mem_append_left _ (ihl h ha)
      · exact fun a ha => List.mem_append_right _ (ihr h ha)
    · rw [List.mem_singleton.mp h]
      exact fun _ ha => ha

theorem leaves_map (m : α → β) (f : Formula α) : (f.map m).leaves = f.leaves.map m := by
  induction f with
  | var a => rfl
  | not f ih => exact ih
  | binary op f g ihf ihg => simp only [map, leaves, ihf, ihg, List.map_append]

end Formula

namespace Algebra

variable {α β : Type}

/-- The value of a formula whose variables all have values. -/
def value (alg : Algebra α) (v : β → α) : Formula β → α
  | .var a => v a
  | .not f => alg.not (alg.value v f)
  | .binary op f g => alg.binary op (alg.value v f) (alg.value v g)

/-- Evaluation on the tree: the values of the subformulas that have a connective, in
postorder, and the value of the whole, unless a variable has no value. -/
def evaluate (alg : Algebra α) : Formula Int → Except Fault (List α × α)
  | .var id => do
    let a ← alg.leaf id
    return ([], a)
  | .not f => do
    let (steps, a) ← alg.evaluate f
    return (steps ++ [alg.not a], alg.not a)
  | .binary op f g => do
    let (left, a) ← alg.evaluate f
    let (right, b) ← alg.evaluate g
    return (left ++ right ++ [alg.binary op a b], alg.binary op a b)

theorem evaluate_map {alg : Algebra α} {m : β → Int} {v : β → α} {f : Formula β}
    (h : ∀ b ∈ f.leaves, alg.leaf (m b) = .ok (v b)) :
    alg.evaluate (f.map m) = .ok (f.composites.map (alg.value v), alg.value v f) := by
  induction f with
  | var b =>
    rw [Formula.map, evaluate, h b List.mem_cons_self]
    rfl
  | not f ih =>
    rw [Formula.map, evaluate, ih h]
    simp [Formula.composites, value, bind, Except.bind, pure, Except.pure]
  | binary op f g ihf ihg =>
    rw [Formula.map, evaluate, ihf fun b hb => h b (List.mem_append_left _ hb),
      ihg fun b hb => h b (List.mem_append_right _ hb)]
    simp [Formula.composites, value, bind, Except.bind, pure, Except.pure]

/-- Evaluation succeeds if every variable has a value, and otherwise fails with the fault of
one that has none. -/
theorem evaluate_cases (alg : Algebra α) (f : Formula Int) :
    ((∃ r, alg.evaluate f = .ok r) ∧ ∀ id ∈ f.leaves, ∃ a, alg.leaf id = .ok a) ∨
      ∃ id ∈ f.leaves, ∃ e, alg.leaf id = .error e ∧ alg.evaluate f = .error e := by
  induction f with
  | var id =>
    simp only [Formula.leaves, List.mem_singleton, forall_eq, exists_eq_left, evaluate]
    cases alg.leaf id with
    | ok a => exact .inl ⟨⟨_, rfl⟩, a, rfl⟩
    | error e => exact .inr ⟨e, rfl, rfl⟩
  | not f ih =>
    rcases ih with ⟨⟨r, hr⟩, hleaves⟩ | ⟨id, hid, e, hleaf, he⟩
    · exact .inl ⟨⟨_, by rw [evaluate, hr]; rfl⟩, hleaves⟩
    · exact .inr ⟨id, hid, e, hleaf, by rw [evaluate, he]; rfl⟩
  | binary op f g ihf ihg =>
    rcases ihf with ⟨⟨r, hr⟩, hf⟩ | ⟨id, hid, e, hleaf, he⟩
    · rcases ihg with ⟨⟨r', hr'⟩, hg⟩ | ⟨id, hid, e, hleaf, he⟩
      · refine .inl ⟨⟨_, by rw [evaluate, hr, hr']; rfl⟩, fun id hid => ?_⟩
        exact (List.mem_append.mp hid).elim (hf id) (hg id)
      · exact .inr ⟨id, List.mem_append_right _ hid, e, hleaf, by rw [evaluate, hr, he]; rfl⟩
    · exact .inr ⟨id, List.mem_append_left _ hid, e, hleaf, by rw [evaluate, he]; rfl⟩

end Algebra

namespace Replay

variable {α : Type}

theorem run_binary (alg : Algebra α) (op : Binary) (a b : α) (stack : List α) :
    run alg [(Connective.binary op).token] (b :: a :: stack) =
      .ok ([alg.binary op a b], alg.binary op a b :: stack) := by
  cases op <;> rfl

/-- On the postorder of a formula the machine records the values of its subformulas and
leaves its value on top of the stack. -/
theorem run_tokens (alg : Algebra α) (f : Formula Int) (stack : List α) :
    run alg f.tokens stack =
      (alg.evaluate f).map fun r => (r.1, r.2 :: stack) := by
  -- The right operand is computed above the value of the left one, so the stack varies.
  induction f generalizing stack with
  | var id =>
    simp only [Formula.tokens, Formula.postorder, run, step, Algebra.evaluate, bind,
      Except.bind, pure, Except.pure]
    cases alg.leaf id <;> rfl
  | not f ih =>
    rw [Formula.tokens_not, run_append, ih, Algebra.evaluate]
    cases alg.evaluate f <;> rfl
  | binary op f g ihf ihg =>
    rw [Formula.tokens_binary, List.append_assoc, run_append, ihf, Algebra.evaluate]
    cases alg.evaluate f with
    | error e => rfl
    | ok r =>
      simp only [Except.map, bind, Except.bind, run_append, ihg]
      cases alg.evaluate g with
      | error e => rfl
      | ok r' =>
        simp only [run_binary, pure, Except.pure, List.append_assoc]

end Replay
end PropTable

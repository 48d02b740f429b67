import Mathlib.Algebra.Group.Nat.Defs
import PropTable.Assignment

/-!
# The assignments of a number of variables

Each assignment is listed once, and row `r` of the list is read off the bits of `r`.
-/

namespace PropTable

theorem assignments_length (n : Nat) : (assignments n).length = 2 ^ n := by
  induction n with
  | zero => rfl
  | succ n ih =>
    rw [assignments, List.length_append, List.length_map, List.length_map, ih, Nat.pow_succ]
    omega

/-- The assignments of `n` variables are the lists of `n` truth values. -/
theorem mem_assignments {n : Nat} {a : Assignment} : a ∈ assignments n ↔ a.length = n := by
  induction n generalizing a with
  | zero => simp [assignments]
  | succ n ih =>
    rw [assignments, List.mem_append, List.mem_map, List.mem_map]
    constructor
    · rintro (⟨b, hb, rfl⟩ | ⟨b, hb, rfl⟩)
      · rw [List.length_cons, ih.mp hb]
      · rw [List.length_cons, ih.mp hb]
    · intro h
      cases a with
      | nil => simp at h
      | cons x b =>
        have hb := ih.mpr (Nat.succ.inj h)
        cases x with
        | true => exact .inl ⟨b, hb, rfl⟩
        | false => exact .inr ⟨b, hb, rfl⟩

theorem assignmentAt_length (n r : Nat) : (assignmentAt n r).length = n := by
  simp [assignmentAt]

theorem assignmentAt_getElem? {n r i : Nat} (h : i < n) :
    (assignmentAt n r)[i]? = some (!r.testBit (n - i - 1)) := by
  simp [assignmentAt, h]

theorem assignmentAt_succ (n r : Nat) :
    assignmentAt (n + 1) r = (!r.testBit n) :: assignmentAt n r := by
  rw [assignmentAt, List.range_succ_eq_map, List.map_cons, List.map_map]
  have hfirst : n + 1 - 0 - 1 = n := by omega
  rw [hfirst]
  congr 1
  refine List.map_congr_left fun i hi => ?_
  have hshift : n + 1 - (i + 1) - 1 = n - i - 1 := by omega
  rw [Function.comp, Nat.succ_eq_add_one, hshift]

theorem assignmentAt_add_two_pow (n r : Nat) :
    assignmentAt n (2 ^ n + r) = assignmentAt n r := by
  refine List.map_congr_left fun i hi => ?_
  have hlt : n - i - 1 < n := by
    have := List.mem_range.mp hi
    omega
  rw [Nat.testBit_two_pow_add_gt hlt]

/-- Row `r` of the assignments has the complements of the bits of `r`, the highest bit for
the first variable. -/
theorem assignments_eq_map (n : Nat) :
    assignments n = (List.range (2 ^ n)).map (assignmentAt n) := by
  induction n with
  | zero => rfl
  | succ n ih =>
    have hpow : 2 ^ (n + 1) = 2 ^ n + 2 ^ n := by rw [Nat.pow_succ]; omega
    rw [assignments, ih, hpow, List.range_add, List.map_append, List.map_map, List.map_map,
      List.map_map]
    congr 1
    · refine List.map_congr_left fun r hr => ?_
      rw [Function.comp, assignmentAt_succ, Nat.testBit_lt_two_pow (List.mem_range.mp hr)]
      rfl
    · refine List.map_congr_left fun r hr => ?_
      rw [Function.comp, Function.comp, assignmentAt_succ, Nat.testBit_two_pow_add_eq,
        Nat.testBit_lt_two_pow (List.mem_range.mp hr), assignmentAt_add_two_pow]
      rfl

end PropTable

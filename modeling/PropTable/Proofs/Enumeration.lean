import Mathlib.Algebra.GroupWithZero.Nat
import Mathlib.Data.List.Nodup
import PropTable.Proofs.Assignments

/-!
# The order of the assignments

The assignments of some variables come in descending lexicographic order, true being above
false, so each is listed once.  Where an assignment stands is told by its false variables, and
places that mirror each other hold complements (`assignments_isEnumeration`).
-/

namespace PropTable

namespace Assignment

/-- Where an assignment stands among those of its variables: each variable that is false adds a
power of two, the first variable the highest one. -/
def place (a : Assignment) : Nat :=
  ((List.range a.length).map fun i =>
    if a[i]? = some true then 0 else 2 ^ (a.length - 1 - i)).sum

/-- The lexicographic order of assignments, true being above false. -/
def Below : Assignment → Assignment → Prop :=
  List.Lex fun x y => x = false ∧ y = true

theorem place_cons (b : Bool) (a : Assignment) :
    place (b :: a) = (if b = true then 0 else 2 ^ a.length) + place a := by
  rw [place, List.length_cons, List.range_succ_eq_map, List.map_cons, List.sum_cons, List.map_map]
  congr 1
  · simp
  · refine congrArg List.sum (List.map_congr_left fun i _ => ?_)
    have hexponent : a.length + 1 - 1 - (i + 1) = a.length - 1 - i := by omega
    rw [Function.comp, Nat.succ_eq_add_one, List.getElem?_cons_succ, hexponent]

theorem place_lt (a : Assignment) : a.place < 2 ^ a.length := by
  induction a with
  | nil => exact Nat.zero_lt_one
  | cons b a ih =>
    rw [place_cons, List.length_cons, Nat.pow_succ]
    split <;> omega

theorem Below.ne {a b : Assignment} (h : Below a b) : a ≠ b := by
  induction h with
  | nil => exact List.cons_ne_nil _ _ ∘ Eq.symm
  | rel hxy =>
    obtain ⟨rfl, rfl⟩ := hxy
    exact fun he => Bool.false_ne_true (List.cons.inj he).1
  | cons _ ih => exact fun he => ih (List.cons.inj he).2

end Assignment

open Assignment

/-- An assignment stands where its false variables say. -/
theorem getElem?_place (a : Assignment) : (assignments a.length)[a.place]? = some a := by
  induction a with
  | nil => rfl
  | cons b a ih =>
    have hlt := place_lt a
    have hlength (x : Bool) : ((assignments a.length).map (x :: ·)).length = 2 ^ a.length := by
      rw [List.length_map, assignments_length]
    rw [List.length_cons, assignments, place_cons]
    cases b with
    | true =>
      rw [if_pos rfl, Nat.zero_add, List.getElem?_append_left (by rwa [hlength]),
        List.getElem?_map, ih]
      rfl
    | false =>
      rw [if_neg Bool.false_ne_true,
        List.getElem?_append_right (by rw [hlength]; exact Nat.le_add_right ..), hlength,
        Nat.add_sub_cancel_left, List.getElem?_map, ih]
      rfl

theorem assignments_descend (n : Nat) :
    (assignments n).Pairwise fun a b => Below b a := by
  induction n with
  | zero => exact List.pairwise_singleton ..
  | succ n ih =>
    rw [assignments, List.pairwise_append]
    refine ⟨?_, ?_, ?_⟩
    · exact List.pairwise_map.mpr (ih.imp fun h => .cons h)
    · exact List.pairwise_map.mpr (ih.imp fun h => .cons h)
    · intro a ha b hb
      obtain ⟨a, -, rfl⟩ := List.mem_map.mp ha
      obtain ⟨b, -, rfl⟩ := List.mem_map.mp hb
      exact .rel ⟨rfl, rfl⟩

theorem nodup_assignments (n : Nat) : (assignments n).Nodup :=
  (assignments_descend n).imp fun h he => h.ne he.symm

theorem assignments_head? (n : Nat) : (assignments n).head? = some (List.replicate n true) := by
  induction n with
  | zero => rfl
  | succ n ih => rw [assignments, List.head?_append, List.head?_map, ih]; rfl

theorem assignments_getLast? (n : Nat) :
    (assignments n).getLast? = some (List.replicate n false) := by
  induction n with
  | zero => rfl
  | succ n ih => rw [assignments, List.getLast?_append, List.getLast?_map, ih]; rfl

theorem assignments_getElem? {n r : Nat} (h : r < 2 ^ n) :
    (assignments n)[r]? = some (assignmentAt n r) := by
  rw [assignments_eq_map, List.getElem?_map, List.getElem?_range h]
  rfl

/-- Counting down from the last row turns every bit of its number over. -/
theorem assignmentAt_mirror {n r : Nat} (h : r < 2 ^ n) :
    assignmentAt n (2 ^ n - 1 - r) = (assignmentAt n r).map (!·) := by
  rw [assignmentAt, assignmentAt, List.map_map]
  refine List.map_congr_left fun i hi => ?_
  have hbit : n - i - 1 < n := by
    have := List.mem_range.mp hi
    omega
  have hmirror : 2 ^ n - 1 - r = 2 ^ n - (r + 1) := by omega
  rw [Function.comp, hmirror, Nat.testBit_two_pow_sub_succ h, decide_eq_true hbit, Bool.true_and]

/-- Rows that list the assignments of `n` variables from all true to all false. -/
structure IsEnumeration (n : Nat) (rows : List Assignment) : Prop where
  length_rows : rows.length = 2 ^ n
  length_row : ∀ a ∈ rows, a.length = n
  once : ∀ a : Assignment, a.length = n → rows.count a = 1
  stands : ∀ a : Assignment, a.length = n → rows[a.place]? = some a
  descends : ∀ (r : Nat) (a b : Assignment), rows[r]? = some a → rows[r + 1]? = some b → Below b a
  first : rows.head? = some (List.replicate n true)
  last : rows.getLast? = some (List.replicate n false)
  mirrored : ∀ r < 2 ^ n, ∃ a, rows[r]? = some a ∧ rows[2 ^ n - 1 - r]? = some (a.map (!·))

/-- For every number of variables there are assignments, and each is listed once, in the place
that its false variables tell. -/
theorem assignments_isEnumeration (n : Nat) :
    assignments? n = .ok (assignments n) ∧ IsEnumeration n (assignments n) := by
  have hcount : assignments? n = .ok (assignments n) := by
    rw [assignments?, if_pos (Int.natCast_nonneg n), Int.toNat_natCast]
  refine ⟨hcount, assignments_length n, fun a => mem_assignments.mp, ?_, ?_, ?_,
    assignments_head? n, assignments_getLast? n, ?_⟩
  · intro a ha
    exact List.count_eq_one_of_mem (nodup_assignments n) (mem_assignments.mpr ha)
  · rintro a rfl
    exact getElem?_place a
  · intro r a b ha hb
    obtain ⟨hr, rfl⟩ := List.getElem?_eq_some_iff.mp ha
    obtain ⟨hr', rfl⟩ := List.getElem?_eq_some_iff.mp hb
    exact List.pairwise_iff_getElem.mp (assignments_descend n) r (r + 1) hr hr' (Nat.lt_succ_self r)
  · intro r hr
    have hmirror : 2 ^ n - 1 - r < 2 ^ n := by omega
    refine ⟨assignmentAt n r, assignments_getElem? hr, ?_⟩
    rw [assignments_getElem? hmirror, assignmentAt_mirror hr]

end PropTable

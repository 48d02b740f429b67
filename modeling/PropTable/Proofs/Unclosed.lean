import PropTable.Proofs.Readable

/-!
# Parentheses that are left open

The scan keeps the positions of the parentheses that are open.  They are those of the text read
so far after which no stretch closes more than it opens, the last one first
(`Scan.run_tracks`).
-/

namespace PropTable

/-- A parenthesis is opened at a position and never closed: no stretch of the text after it
closes more parentheses than it opens. -/
def Text.Unclosed (cs : List Char) (k : Nat) : Prop :=
  cs[k]? = some '(' ∧
    ∀ stretch, stretch <+: cs.drop (k + 1) → stretch.count ')' ≤ stretch.count '('

namespace Text

variable {cs : List Char} {c : Char} {k : Nat}

theorem Unclosed.lt_length (h : Unclosed cs k) : k < cs.length :=
  (List.getElem?_eq_some_iff.mp h.1).1

theorem unclosed_concat_length : Unclosed (cs ++ [c]) cs.length ↔ c = '(' := by
  have hget : (cs ++ [c])[cs.length]? = some c := List.getElem?_concat_length
  have hdrop : (cs ++ [c]).drop (cs.length + 1) = [] := by simp
  rw [Unclosed, hget, hdrop, Option.some.injEq]
  refine ⟨fun h => h.1, fun h => ⟨h, fun stretch hstretch => ?_⟩⟩
  rw [List.prefix_nil.mp hstretch]
  exact Nat.le_refl 0

theorem drop_concat_of_lt (h : k < cs.length) :
    (cs ++ [c]).drop (k + 1) = cs.drop (k + 1) ++ [c] :=
  List.drop_append_of_le_length h

/-- A parenthesis stays open until a closing one is left over after it. -/
theorem unclosed_concat_of_lt (h : k < cs.length) :
    Unclosed (cs ++ [c]) k ↔ Unclosed cs k ∧
      (cs.drop (k + 1) ++ [c]).count ')' ≤ (cs.drop (k + 1) ++ [c]).count '(' := by
  rw [Unclosed, Unclosed, List.getElem?_append_left h, drop_concat_of_lt h, and_assoc]
  refine and_congr_right fun _ => ⟨fun hall => ⟨fun stretch hstretch => ?_, ?_⟩, ?_⟩
  · exact hall stretch (hstretch.trans (List.prefix_append _ _))
  · exact hall _ (List.prefix_refl _)
  · intro hboth stretch hstretch
    rcases List.prefix_concat_iff.mp hstretch with rfl | hstretch
    · exact hboth.2
    · exact hboth.1 stretch hstretch

theorem unclosed_concat_cases (h : Unclosed (cs ++ [c]) k) :
    (k = cs.length ∧ c = '(') ∨ k < cs.length := by
  have hlt := h.lt_length
  rw [List.length_append, List.length_singleton] at hlt
  rcases Nat.lt_or_eq_of_le (Nat.le_of_lt_succ hlt) with hlt | rfl
  · exact .inr hlt
  · exact .inl ⟨rfl, unclosed_concat_length.mp h⟩

end Text

namespace Scan

open Text

/-- Positions are those of the unclosed parentheses of a text, the last one first.  After the
one in place `i` of the list, the text opens `i` more parentheses than it closes. -/
structure Tracks (cs : List Char) (opens : List Nat) : Prop where
  mem_iff : ∀ k, k ∈ opens ↔ Unclosed cs k
  descending : opens.Pairwise (· > ·)
  count_eq : ∀ (i k : Nat), opens[i]? = some k →
    (cs.drop (k + 1)).count '(' = (cs.drop (k + 1)).count ')' + i

namespace Tracks

variable {cs : List Char} {c : Char} {opens : List Nat} {k : Nat}

theorem nil : Tracks [] [] where
  mem_iff k := by simp [Unclosed]
  descending := List.Pairwise.nil
  count_eq i k h := by cases h

theorem lt_length (h : Tracks cs opens) (hk : k ∈ opens) : k < cs.length :=
  ((h.mem_iff k).mp hk).lt_length

theorem other (h : Tracks cs opens) (hopen : c ≠ '(') (hclose : c ≠ ')') :
    Tracks (cs ++ [c]) opens where
  mem_iff k := by
    have hcounts (xs : List Char) : (xs ++ [c]).count ')' = xs.count ')' ∧
        (xs ++ [c]).count '(' = xs.count '(' := by
      simp [List.count_append, hopen, hclose]
    constructor
    · intro hk
      have hun := (h.mem_iff k).mp hk
      rw [unclosed_concat_of_lt (h.lt_length hk), (hcounts _).1, (hcounts _).2]
      exact ⟨hun, hun.2 _ (List.prefix_refl _)⟩
    · intro hun
      rcases unclosed_concat_cases hun with ⟨-, hc⟩ | hlt
      · exact absurd hc hopen
      · exact (h.mem_iff k).mpr ((unclosed_concat_of_lt hlt).mp hun).1
  descending := h.descending
  count_eq i k hi := by
    have hcount := h.count_eq i k hi
    rw [drop_concat_of_lt (h.lt_length (List.mem_of_getElem? hi)), List.count_append,
      List.count_append, List.count_singleton, List.count_singleton]
    simp [hopen, hclose, hcount]

theorem opening (h : Tracks cs opens) : Tracks (cs ++ ['(']) (cs.length :: opens) where
  mem_iff k := by
    rw [List.mem_cons]
    constructor
    · intro hk
      rcases hk with rfl | hk
      · exact unclosed_concat_length.mpr rfl
      · have hun := (h.mem_iff k).mp hk
        have hle := hun.2 _ (List.prefix_refl _)
        refine (unclosed_concat_of_lt (h.lt_length hk)).mpr ⟨hun, ?_⟩
        rw [List.count_append, List.count_append]
        exact Nat.add_le_add hle (by decide)
    · intro hun
      rcases unclosed_concat_cases hun with ⟨hk, -⟩ | hlt
      · exact .inl hk
      · exact .inr ((h.mem_iff k).mpr ((unclosed_concat_of_lt hlt).mp hun).1)
  descending := List.pairwise_cons.mpr ⟨fun _ hk => h.lt_length hk, h.descending⟩
  count_eq i k hi := by
    cases i with
    | zero =>
      obtain rfl := Option.some.inj hi
      simp
    | succ i =>
      have hi : opens[i]? = some k := hi
      have hcount := h.count_eq i k hi
      rw [drop_concat_of_lt (h.lt_length (List.mem_of_getElem? hi)), List.count_append,
        List.count_append, hcount]
      rfl

/-- Each other parenthesis that is open opens one more than the last one, so it stays open. -/
theorem closing (h : Tracks cs (k :: opens)) : Tracks (cs ++ [')']) opens where
  mem_iff j := by
    constructor
    · intro hj
      obtain ⟨i, hi⟩ := List.mem_iff_getElem?.mp hj
      have hcount := h.count_eq (i + 1) j hi
      have hun := (h.mem_iff j).mp (List.mem_cons_of_mem k hj)
      refine (unclosed_concat_of_lt hun.lt_length).mpr ⟨hun, ?_⟩
      rw [List.count_append, List.count_append, hcount]
      simp
    · intro hun
      rcases unclosed_concat_cases hun with ⟨-, hc⟩ | hlt
      · exact absurd hc (by decide)
      · obtain ⟨hun, hroom⟩ := (unclosed_concat_of_lt hlt).mp hun
        rcases List.mem_cons.mp ((h.mem_iff j).mpr hun) with rfl | hj
        · -- As many are closed as opened after the last one, so one more closes it.
          have hcount := h.count_eq 0 j rfl
          rw [List.count_append, List.count_append, hcount] at hroom
          exact absurd hroom (by simp)
        · exact hj
  descending := (List.pairwise_cons.mp h.descending).2
  count_eq i j hi := by
    have hcount := h.count_eq (i + 1) j hi
    have hlt := h.lt_length (List.mem_cons_of_mem k (List.mem_of_getElem? hi))
    rw [drop_concat_of_lt hlt, List.count_append, List.count_append, hcount]
    simp
    omega

end Tracks

/-! ## Along a run -/

variable {g : Grouping} {strict : Bool}

theorem Move.tracks {cs : List Char} {c : Char} {s s' : Scan}
    (h : Move g strict cs.length c s s') (hs : Tracks cs s.opens) :
    Tracks (cs ++ [c]) s'.opens := by
  cases h with
  | opening p current around spare opens => exact hs.opening
  | closing p current outer around spare k opens => exact hs.closing
  | negation p current around spare opens => exact hs.other (by decide) (by decide)
  | joining op p current around spare opens =>
    exact hs.other (Connective.binary op).sign_ne_open (Connective.binary op).sign_ne_close
  | mention c hc p pending opens => exact hs.other hc.1 hc.2.1

/-- The open parentheses of a scan are the unclosed ones of the text that it has read. -/
theorem run_tracks {before cs : List Char} {s t : Scan} (hs : s.Aligned)
    (htracks : Tracks before s.opens) (h : run g strict before.length cs s = .ok t) :
    Tracks (before ++ cs) t.opens :=
  run_induction (P := fun read s => Tracks read s.opens) (fun hmove => hmove.tracks) hs htracks h

end Scan
end PropTable

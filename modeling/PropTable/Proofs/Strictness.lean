import PropTable.Proofs.Interning
import PropTable.Proofs.Prefixes

/-!
# Strict and lax readings of a text

A strict reading refuses the characters that a lax one takes for variables without their being
letters.  Up to the first of these the two readings make the same steps, so the strict one is
refused there if the lax one comes so far, and otherwise both end alike
(`Program.ofText_strict`).
-/

namespace PropTable

namespace Text

/-- A character that is a variable for a lax reading only. -/
def IsStray (c : Char) : Prop := Phrase.IsVariable false c ∧ isLetter c = false

def FirstStray (cs : List Char) (j : Nat) (c : Char) : Prop :=
  cs[j]? = some c ∧ IsStray c ∧ ∀ d ∈ cs.take j, ¬IsStray d

theorem not_isStray_or_firstStray (cs : List Char) :
    (∀ c ∈ cs, ¬IsStray c) ∨ ∃ j c, FirstStray cs j c := by
  induction cs with
  | nil => exact .inl (by simp)
  | cons d cs ih =>
    by_cases hd : IsStray d
    · exact .inr ⟨0, d, rfl, hd, by simp⟩
    · rcases ih with hnone | ⟨j, c, hc, hstray, hbefore⟩
      · exact .inl (List.forall_mem_cons.mpr ⟨hd, hnone⟩)
      · refine .inr ⟨j + 1, c, hc, hstray, ?_⟩
        rw [List.take_succ_cons]
        exact List.forall_mem_cons.mpr ⟨hd, hbefore⟩

end Text

namespace Scan

open Text

variable {g : Grouping} {strict : Bool} {position : Nat} {c : Char} {cs : List Char} {s : Scan}

theorem step_isStray (h : IsStray c) :
    s.step g true position c = .error (.flaw (.unknownSymbol c position)) := by
  obtain ⟨⟨hopen, hclose, hsign, -⟩, hletter⟩ := h
  rw [step_other hopen hclose hsign]
  simp [readVariable, hletter]

/-- A character that is not stray is read alike, strictly or not. -/
theorem step_eq_lax (h : ¬IsStray c) :
    s.step g strict position c = s.step g false position c := by
  by_cases hopen : c = '('
  · subst hopen
    rw [step_open, step_open]
  by_cases hclose : c = ')'
  · subst hclose
    rw [step_close, step_close]
  cases hsign : Connective.ofChar? c with
  | some op =>
    obtain rfl := Connective.ofChar?_eq_some_iff.mp hsign
    rw [step_sign, step_sign]
  | none =>
    have hletter : isLetter c = true := by
      by_contra hnot
      exact h ⟨⟨hopen, hclose, hsign, nofun⟩, Bool.eq_false_iff.mpr hnot⟩
    rw [step_other hopen hclose hsign, step_other hopen hclose hsign]
    simp only [readVariable, hletter, Bool.not_true, Bool.and_false]

theorem run_eq_lax (h : ∀ c ∈ cs, ¬IsStray c) :
    run g strict position cs s = run g false position cs s := by
  induction cs generalizing position s with
  | nil => rfl
  | cons c cs ih =>
    obtain ⟨hc, hcs⟩ := List.forall_mem_cons.mp h
    rw [run_cons, run_cons, step_eq_lax hc]
    cases s.step g false position c with
    | ok s' => exact ih hcs
    | error e => rfl

/-- A strict run does what the lax one does before the first stray character, where it ends. -/
theorem run_firstStray {j : Nat} (h : FirstStray cs j c) :
    run g true 0 cs s =
      (run g false 0 (cs.take j) s).bind fun _ => .error (.flaw (.unknownSymbol c j)) := by
  obtain ⟨hc, hstray, hbefore⟩ := h
  obtain ⟨hj, hget⟩ := List.getElem?_eq_some_iff.mp hc
  have hsplit : cs = cs.take j ++ c :: cs.drop (j + 1) := by
    rw [← hget, List.getElem_cons_drop, List.take_append_drop]
  have hlength : 0 + (cs.take j).length = j := by
    rw [List.length_take]
    omega
  conv => lhs; rw [hsplit]
  rw [run_append, run_eq_lax hbefore, hlength]
  cases run g false 0 (cs.take j) s with
  | ok t =>
    show run g true j (c :: cs.drop (j + 1)) t = _
    rw [run_cons, step_isStray hstray]
    rfl
  | error e => rfl

end Scan

namespace Program

open Text

variable {strict : Bool} {cs : List Char}

/-- What a reading that comes as far as a place ends with: a program, a flaw that shows at the
end of the text, or one that a character from that place on is refused for. -/
def ComesTo (outcome : Except Fault Program) (j : Nat) : Prop :=
  (∃ p, outcome = .ok p) ∨
    ∃ f : Flaw, outcome = .error (.flaw f) ∧ ∀ k, f.refusedAt? = some k → j ≤ k

/-- The outcome tells how far the scan comes. -/
theorem comesTo_iff_run (hcs : cs ≠ []) {j : Nat} (hj : j ≤ cs.length) :
    ComesTo (ofChars .right strict cs) j ↔
      ∃ t, (Scan.start (String.ofList cs)).run .right strict 0 (cs.take j) = .ok t := by
  have hstart := Scan.start_aligned (String.ofList cs)
  have hlength : 0 + (cs.take j).length = j := by
    rw [List.length_take]
    omega
  have happend := Scan.run_append .right strict 0 (cs.take j) (cs.drop j)
    (Scan.start (String.ofList cs))
  rw [List.take_append_drop, hlength] at happend
  rw [ofChars_eq hcs, happend]
  cases hread : (Scan.start (String.ofList cs)).run .right strict 0 (cs.take j) with
  | ok t =>
    refine iff_of_true ?_ ⟨t, rfl⟩
    cases hrest : t.run .right strict j (cs.drop j) with
    | ok u =>
      have hu : u.Aligned := (hstart.of_run hread).of_run hrest
      simp only [Except.bind, hrest]
      rcases Scan.finish_cases hu cs.length with ⟨k, outer, -, he⟩ | ⟨-, he⟩ | ⟨-, -, hp⟩
      · exact .inr ⟨.unclosed k, he, fun _ h => absurd h (Option.some_ne_none _).symm⟩
      · exact .inr ⟨_, he, fun _ h => absurd h (Option.some_ne_none _).symm⟩
      · exact .inl hp
    | error e =>
      obtain ⟨k, -, -, -, f, rfl, hplace⟩ := Scan.exists_refused (hstart.of_run hread) hrest
      simp only [Except.bind, hrest]
      refine .inr ⟨f, rfl, fun k' hk' => ?_⟩
      obtain rfl := Option.some.inj (hplace.symm.trans hk')
      exact Nat.le_add_right j k
  | error e =>
    obtain ⟨k, hk, -, -, f, rfl, hplace⟩ := Scan.exists_refused hstart hread
    refine iff_of_false ?_ (by simp)
    rintro (⟨p, hp⟩ | ⟨f', hf', hfar⟩)
    · cases hp
    · obtain rfl : f = f' := Fault.flaw.inj (Except.error.inj hf')
      have hjk := hfar _ hplace
      rw [Nat.zero_add] at hjk
      rw [List.length_take] at hk
      omega

theorem ofChars_eq_lax (h : ∀ c ∈ cs, ¬IsStray c) :
    ofChars .right true cs = ofChars .right false cs := by
  by_cases hcs : cs = []
  · subst hcs
    rfl
  · rw [ofChars_eq hcs, ofChars_eq hcs, Scan.run_eq_lax h]

theorem ofChars_firstStray {j : Nat} {c : Char} (h : FirstStray cs j c) :
    (ComesTo (ofChars .right false cs) j →
      ofChars .right true cs = .error (.flaw (.unknownSymbol c j))) ∧
    (¬ComesTo (ofChars .right false cs) j →
      ofChars .right true cs = ofChars .right false cs) := by
  have hj : j < cs.length := (List.getElem?_eq_some_iff.mp h.1).1
  have hcs : cs ≠ [] := List.ne_nil_of_length_pos (Nat.zero_lt_of_lt hj)
  rw [comesTo_iff_run hcs (Nat.le_of_lt hj), ofChars_eq hcs, Scan.run_firstStray h]
  cases hread : (Scan.start (String.ofList cs)).run .right false 0 (cs.take j) with
  | ok t => exact ⟨fun _ => rfl, fun hnot => absurd ⟨t, rfl⟩ hnot⟩
  | error e =>
    refine ⟨?_, fun _ => ?_⟩
    · rintro ⟨t, ht⟩
      cases ht
    rw [ofChars_eq hcs, ← List.take_append_drop j cs, Scan.run_append, List.take_append_drop,
      hread]
    rfl

/-- A text has a strict program exactly if its lax program has letters for its variables. -/
theorem ofText_strict_eq_ok_iff {settings : Settings} {text : String} {p : Program} :
    ofText { settings with strict := true } text = .ok p ↔
      ofText { settings with strict := false } text = .ok p ∧
        ∀ s ∈ p.variableNames, ∃ c : Char, s = c.toString ∧ isLetter c = true := by
  have hstrict : ofText { settings with strict := true } text =
      ofChars .right true (trim text.toList) := rfl
  have hlax : ofText { settings with strict := false } text =
      ofChars .right false (trim text.toList) := rfl
  rcases not_isStray_or_firstStray (trim text.toList) with hnone | ⟨j, c, hfirst⟩
  · rw [hstrict, hlax, ofChars_eq_lax hnone, ← hlax]
    refine ⟨fun hp => ⟨hp, fun s hs => ?_⟩, fun hp => hp.1⟩
    obtain ⟨c, hc, hvariable, rfl⟩ := (mem_variableNames_iff hp).mp hs
    refine ⟨c, rfl, ?_⟩
    by_contra hnot
    exact hnone c hc ⟨hvariable, Bool.eq_false_iff.mpr hnot⟩
  · constructor
    · intro hp
      obtain ⟨hcomes, hends⟩ := ofChars_firstStray hfirst
      by_cases hfar : ComesTo (ofChars .right false (trim text.toList)) j
      · rw [hstrict, hcomes hfar] at hp
        cases hp
      · rw [hstrict, hends hfar] at hp
        exact absurd (.inl ⟨p, hp⟩) hfar
    · rintro ⟨hp, hletters⟩
      obtain ⟨hc, ⟨hvariable, hletter⟩, -⟩ := hfirst
      obtain ⟨d, hd, hd'⟩ := hletters _ ((mem_variableNames_iff hp).mpr
        ⟨c, List.mem_of_getElem? hc, hvariable, rfl⟩)
      obtain rfl : c = d := String.singleton_inj.mp hd
      rw [hletter] at hd'
      cases hd'

/-- A strict reading only refuses more than a lax one.

If no character is stray, both end alike.  Otherwise the strict reading is refused at the first
stray character, provided that the lax one comes so far, and ends like the lax one if that does
not.  So the strict programs are the lax ones whose variables are letters. -/
theorem ofText_strict (settings : Settings) (text : String) :
    ((∀ c ∈ trim text.toList, ¬IsStray c) →
      ofText { settings with strict := true } text =
        ofText { settings with strict := false } text) ∧
    (∀ (j : Nat) (c : Char), FirstStray (trim text.toList) j c →
      (ComesTo (ofText { settings with strict := false } text) j ↔
        ∃ t, (Scan.start (trimmed text)).run .right false 0 ((trim text.toList).take j) =
          .ok t) ∧
      (ComesTo (ofText { settings with strict := false } text) j →
        ofText { settings with strict := true } text = .error (.flaw (.unknownSymbol c j))) ∧
      (¬ComesTo (ofText { settings with strict := false } text) j →
        ofText { settings with strict := true } text =
          ofText { settings with strict := false } text)) ∧
    ∀ p, ofText { settings with strict := true } text = .ok p ↔
      ofText { settings with strict := false } text = .ok p ∧
        ∀ s ∈ p.variableNames, ∃ c : Char, s = c.toString ∧ isLetter c = true := by
  refine ⟨fun hnone => ofChars_eq_lax hnone, fun j c hfirst => ?_, fun p =>
    ofText_strict_eq_ok_iff⟩
  have hj : j < (trim text.toList).length := (List.getElem?_eq_some_iff.mp hfirst.1).1
  have hcs : trim text.toList ≠ [] := List.ne_nil_of_length_pos (Nat.zero_lt_of_lt hj)
  exact ⟨comesTo_iff_run hcs (Nat.le_of_lt hj), ofChars_firstStray hfirst⟩

/-- The lax reading is refused after the digit, which the strict one does not pass. -/
theorem ofText_strict_digit :
    FirstStray ['p', '&', '1', ')'] 2 '1' ∧
      ofText { strict := false } "p&1)" = .error (.flaw (.unopened 3)) ∧
      ofText { strict := true } "p&1)" = .error (.flaw (.unknownSymbol '1' 2)) := by
  have hp : ¬IsStray 'p' := by
    rintro ⟨-, hletter⟩
    exact absurd hletter (by decide)
  have hand : ¬IsStray '&' := by
    rintro ⟨hvariable, -⟩
    exact absurd hvariable (by decide)
  have hfirst : FirstStray ['p', '&', '1', ')'] 2 '1' :=
    ⟨rfl, ⟨by decide, by decide⟩, by simp [hp, hand]⟩
  have hlax : ofText { strict := false } "p&1)" = .error (.flaw (.unopened 3)) := rfl
  have hcomes : ComesTo (ofText { strict := false } "p&1)") 2 := by
    refine .inr ⟨_, hlax, fun k hk => ?_⟩
    obtain rfl := Option.some.inj hk
    decide
  exact ⟨hfirst, hlax, ((ofText_strict {} "p&1)").2.1 2 '1' hfirst).2.1 hcomes⟩

end Program
end PropTable

import PropTable.Proofs.Blanks
import PropTable.Proofs.Compilation
import PropTable.Proofs.Unclosed

/-!
# Where a text is refused

Whatever a scan has read, there is a text that completes it (`Scan.readable_completion`).  So a
text is read to its end exactly if it begins a text that has a program
(`Program.viable_iff_run`), and a character is refused as soon as no such text goes on with it.
When a text is refused, its column is the earliest one at which that could be known
(`Program.ofText_position`).
-/

namespace PropTable
namespace Scan

variable {g : Grouping} {strict : Bool} {position : Nat} {cs : List Char} {s t : Scan}

/-- A text that closes what is open after an operand.  There is an operand even if none is
missing, so that a blank that was the last variable does not end the whole text. -/
def completion (s : Scan) : List Char :=
  if s.expectsOperand then 'p' :: List.replicate s.opens.length ')'
  else Binary.and.sign :: 'p' :: List.replicate s.opens.length ')'

theorem readable_replicate_close (strict : Bool) (depth : Nat) :
    Readable strict false depth (List.replicate depth ')') := by
  induction depth with
  | zero => exact .done
  | succ depth ih => exact .closing ih

theorem readable_completion (strict : Bool) (s : Scan) :
    Readable strict s.expectsOperand s.opens.length s.completion := by
  have hletter : Phrase.IsVariable strict 'p' :=
    ⟨by decide, by decide, by decide, fun _ => by decide⟩
  have hclose := readable_replicate_close strict s.opens.length
  rw [completion]
  cases s.expectsOperand with
  | true => exact .mention hletter hclose
  | false => exact .joining .and (.mention hletter hclose)

theorem completion_ne_nil (s : Scan) : s.completion ≠ [] := by
  rw [completion]
  split <;> exact List.cons_ne_nil _ _

theorem isBlank_of_mem_completion (s : Scan) :
    ∀ c ∈ s.completion, Text.isBlank c = false := by
  have hclose : ∀ c ∈ List.replicate s.opens.length ')', Text.isBlank c = false := by
    intro c hc
    obtain rfl := List.eq_of_mem_replicate hc
    rfl
  have hp : ∀ c ∈ 'p' :: List.replicate s.opens.length ')', Text.isBlank c = false :=
    List.forall_mem_cons.mpr ⟨rfl, hclose⟩
  rw [completion]
  split
  · exact hp
  · exact List.forall_mem_cons.mpr ⟨rfl, hp⟩

theorem readable_append_completion (hs : s.Aligned)
    (h : run g strict position cs s = .ok t) :
    Readable strict s.expectsOperand s.opens.length (cs ++ t.completion) := by
  obtain ⟨u, hrun, hopens, hexpects⟩ :=
    (readable_completion strict t).exists_run (hs.of_run h) g (position + cs.length)
  have hall : run g strict position (cs ++ t.completion) s = .ok u := by
    rw [run_append, h]
    exact hrun
  exact readable_of_run hs hall hopens hexpects

theorem Readable.exists_run_of_append {tail : List Char} (hs : s.Aligned)
    (h : Readable strict s.expectsOperand s.opens.length (cs ++ tail)) (g : Grouping)
    (position : Nat) : ∃ t, run g strict position cs s = .ok t := by
  obtain ⟨u, hrun, -⟩ := h.exists_run hs g position
  rw [run_append] at hrun
  cases ht : run g strict position cs s with
  | ok t => exact ⟨t, rfl⟩
  | error e =>
    rw [ht] at hrun
    cases hrun

/-- A run that fails does so at a character: what is before it is read, and it is refused for
the flaw. -/
theorem exists_refused (hs : s.Aligned) {e : Fault}
    (h : run g strict position cs s = .error e) :
    ∃ k < cs.length, (∃ t, run g strict position (cs.take k) s = .ok t) ∧
      run g strict position (cs.take (k + 1)) s = .error e ∧
      ∃ f : Flaw, e = .flaw f ∧ f.refusedAt? = some (position + k) := by
  induction cs generalizing position s with
  | nil => cases h
  | cons c cs ih =>
    rw [run_cons] at h
    rcases step_move g strict position c hs with ⟨s', hmove⟩ | ⟨f, he, -, hplace⟩
    · rw [hmove.step_eq] at h
      obtain ⟨k, hk, hread, hrefused, f, he, hplace⟩ := ih (hmove.aligned hs) h
      refine ⟨k + 1, Nat.succ_lt_succ hk, ?_, ?_, f, he, ?_⟩
      · rw [List.take_succ_cons, run_cons, hmove.step_eq]
        exact hread
      · rw [List.take_succ_cons, run_cons, hmove.step_eq]
        exact hrefused
      · rw [hplace, Nat.add_assoc, Nat.add_comm 1 k]
    · rw [he] at h
      refine ⟨0, Nat.succ_pos _, ⟨s, rfl⟩, ?_, f, (Except.error.inj h).symm, hplace⟩
      rw [List.take_succ_cons, run_cons, he]
      exact h

end Scan

namespace Program

variable {settings : Settings} {cs ds : List Char}

/-- Whether a text begins one that has a program and no blanks at its ends. -/
def Viable (settings : Settings) (cs : List Char) : Prop :=
  ∃ text : String, Text.trimmed text = text ∧ (∃ p, ofText settings text = .ok p) ∧
    cs <+: text.toList

theorem Viable.of_prefix (h : Viable settings ds) (hbegins : cs <+: ds) : Viable settings cs := by
  obtain ⟨text, htrim, hp, hds⟩ := h
  exact ⟨text, htrim, hp, hbegins.trans hds⟩

/-- A text that does not begin with a blank is viable exactly if it is read to its end. -/
theorem viable_iff_run (hcs : cs.dropWhile Text.isBlank = cs) (source : String) :
    Viable settings cs ↔
      ∃ t, (Scan.start source).run .right settings.strict 0 cs = .ok t := by
  have hstart := Scan.start_aligned source
  constructor
  · rintro ⟨text, htrim, ⟨p, hp⟩, tail, htail⟩
    have htext : Text.trim text.toList = cs ++ tail := by
      rw [htail, ← String.toList_ofList (l := Text.trim text.toList)]
      exact congrArg String.toList htrim
    rw [ofText, ofTextGrouped, htext] at hp
    rcases ofChars_cases .right settings.strict (cs ++ tail) with ⟨hreadable, -⟩ | ⟨f, he, -⟩
    · exact Scan.Readable.exists_run_of_append hstart hreadable .right 0
    · rw [hp] at he
      cases he
  · rintro ⟨t, ht⟩
    have hreadable := Scan.readable_append_completion hstart ht
    obtain ⟨f, hreads⟩ := Scan.Readable.exists_reads hreadable
    have htrim : Text.trim (cs ++ t.completion) = cs ++ t.completion :=
      Text.trim_append_eq_self hcs t.isBlank_of_mem_completion t.completion_ne_nil
    refine ⟨String.ofList (cs ++ t.completion), ?_, ⟨_, ofText_ofList htrim hreads⟩, ?_⟩
    · rw [Text.trimmed, String.toList_ofList, htrim]
    · rw [String.toList_ofList]
      exact List.prefix_append ..

/-- The column of a refused text, the blanks at its ends left out.

If some of its beginnings are not viable, it is the place up to which the text is viable and
after which it is not.  If all are, it is that of the last parenthesis that is left open, and
the end of the text if there is none. -/
structure IsEarliestColumn (settings : Settings) (cs : List Char) (k : Nat) : Prop where
  refused : (∃ before, before ≠ [] ∧ before <+: cs ∧ ¬Viable settings before) →
    ∀ j, (Viable settings (cs.take j) ∧ ¬Viable settings (cs.take (j + 1))) ↔ j = k
  unclosed : (∀ before, before ≠ [] → before <+: cs → Viable settings before) →
    (∃ j, Text.Unclosed cs j) → Text.Unclosed cs k ∧ ∀ j, Text.Unclosed cs j → j ≤ k
  ended : (∀ before, before ≠ [] → before <+: cs → Viable settings before) →
    (¬∃ j, Text.Unclosed cs j) → k = cs.length

theorem isEarliestColumn_of_refused {k : Nat} (hk : k < cs.length)
    (hbefore : Viable settings (cs.take k)) (hafter : ¬Viable settings (cs.take (k + 1))) :
    IsEarliestColumn settings cs k := by
  have hne : cs.take (k + 1) ≠ [] := by
    have hcs : cs ≠ [] := List.ne_nil_of_length_pos (Nat.zero_lt_of_lt hk)
    simpa using hcs
  have hsome : ¬∀ before, before ≠ [] → before <+: cs → Viable settings before :=
    fun hall => hafter (hall _ hne (List.take_prefix ..))
  refine ⟨fun _ j => ⟨fun ⟨hj, hnext⟩ => ?_, ?_⟩, fun hall => absurd hall hsome,
    fun hall => absurd hall hsome⟩
  · rcases Nat.lt_trichotomy j k with hlt | rfl | hgt
    · exact absurd (hbefore.of_prefix (List.take_prefix_take_left hlt)) hnext
    · rfl
    · exact absurd (hj.of_prefix (List.take_prefix_take_left hgt)) hafter
  · rintro rfl
    exact ⟨hbefore, hafter⟩

theorem isEarliestColumn_of_unclosed {k : Nat} {outer : List Nat} (hread : Viable settings cs)
    (htracks : Scan.Tracks cs (k :: outer)) : IsEarliestColumn settings cs k where
  refused := by
    rintro ⟨before, -, hbegins, hnot⟩
    exact absurd (hread.of_prefix hbegins) hnot
  unclosed _ _ := by
    refine ⟨(htracks.mem_iff k).mp List.mem_cons_self, fun j hj => ?_⟩
    rcases List.mem_cons.mp ((htracks.mem_iff j).mpr hj) with rfl | hj
    · exact Nat.le_refl j
    · exact Nat.le_of_lt ((List.pairwise_cons.mp htracks.descending).1 j hj)
  ended _ hnone := absurd ⟨k, (htracks.mem_iff k).mp List.mem_cons_self⟩ hnone

theorem isEarliestColumn_of_ended (hread : Viable settings cs) (htracks : Scan.Tracks cs []) :
    IsEarliestColumn settings cs cs.length where
  refused := by
    rintro ⟨before, -, hbegins, hnot⟩
    exact absurd (hread.of_prefix hbegins) hnot
  unclosed := by
    rintro - ⟨j, hj⟩
    exact absurd ((htracks.mem_iff j).mpr hj) List.not_mem_nil
  ended _ _ := rfl

theorem finish_position {t : Scan} {e : Fault} (hread : Viable settings cs) (ht : t.Aligned)
    (htracks : Scan.Tracks cs t.opens) (h : t.finish cs.length = .error e) :
    ∃ (f : Flaw) (k : Nat), e = .flaw f ∧ f.position? = some k ∧
      IsEarliestColumn settings cs k := by
  rcases Scan.finish_cases ht cs.length with
    ⟨k, outer, hopens, he⟩ | ⟨hopens, he⟩ | ⟨-, -, p, hp⟩
  · rw [hopens] at htracks
    exact ⟨.unclosed k, k, Except.error.inj (h.symm.trans he), rfl,
      isEarliestColumn_of_unclosed hread htracks⟩
  · rw [hopens] at htracks
    exact ⟨.operandMissingAtEnd cs.length, cs.length, Except.error.inj (h.symm.trans he), rfl,
      isEarliestColumn_of_ended hread htracks⟩
  · rw [hp] at h
    cases h

theorem ofChars_position (hcs : cs ≠ []) (hblank : cs.dropWhile Text.isBlank = cs) {e : Fault}
    (h : ofChars .right settings.strict cs = .error e) :
    ∃ (f : Flaw) (k : Nat), e = .flaw f ∧ f.position? = some k ∧
      IsEarliestColumn settings cs k := by
  have hstart := Scan.start_aligned (String.ofList cs)
  have hviable (ds : List Char) (hds : ds <+: cs) : Viable settings ds ↔
      ∃ t, (Scan.start (String.ofList cs)).run .right settings.strict 0 ds = .ok t :=
    viable_iff_run (Text.dropWhile_eq_self_of_prefix hds hblank) _
  rw [ofChars_eq hcs] at h
  cases hrun : (Scan.start (String.ofList cs)).run .right settings.strict 0 cs with
  | ok t =>
    rw [hrun] at h
    have hread : Viable settings cs := (hviable cs (List.prefix_refl cs)).mpr ⟨t, hrun⟩
    have htracks : Scan.Tracks ([] ++ cs) t.opens :=
      Scan.run_tracks hstart Scan.Tracks.nil hrun
    rw [List.nil_append] at htracks
    exact finish_position hread (hstart.of_run hrun) htracks h
  | error e' =>
    rw [hrun] at h
    obtain rfl := Except.error.inj h
    obtain ⟨k, hk, hread, hrefused, f, he, hposition⟩ := Scan.exists_refused hstart hrun
    rw [Nat.zero_add] at hposition
    have hbefore := (hviable _ (List.take_prefix ..)).mpr hread
    have hafter : ¬Viable settings (cs.take (k + 1)) := by
      rw [hviable _ (List.take_prefix ..), hrefused]
      rintro ⟨t, ht⟩
      cases ht
    exact ⟨f, k, he, Flaw.position?_of_refusedAt? hposition,
      isEarliestColumn_of_refused hk hbefore hafter⟩

/-- A text that has no program is refused at the earliest column: where it is left by the texts
that have one, at the last parenthesis that stays open, or at its end.  Only a text of blanks
is refused without a column. -/
theorem ofText_position {text : String} {e : Fault} (h : ofText settings text = .error e) :
    ∃ f : Flaw, e = .flaw f ∧ (f.position? = none ↔ Text.trim text.toList = []) ∧
      ∀ k, f.position? = some k →
        IsEarliestColumn settings (Text.trim text.toList) k := by
  have hblank := Text.dropWhile_trim text.toList
  rw [ofText, ofTextGrouped] at h
  generalize Text.trim text.toList = cs at h hblank ⊢
  by_cases hcs : cs = []
  · subst hcs
    obtain rfl := Except.error.inj h
    exact ⟨.blank, rfl, iff_of_true rfl rfl, fun k hk => absurd hk (Option.some_ne_none k).symm⟩
  · obtain ⟨f, k, he, hk, hearliest⟩ := ofChars_position hcs hblank h
    refine ⟨f, he, ?_, fun j hj => ?_⟩
    · rw [hk]
      exact iff_of_false (Option.some_ne_none k) hcs
    · obtain rfl := Option.some.inj (hk.symm.trans hj)
      exact hearliest

/-- The blank inside the parentheses would be a variable, and nothing goes on after two
operands in a row. -/
theorem ofText_position_adjacent :
    ofText {} " ~(p q) " = .error (.flaw (.operatorMissing ' ' 3)) ∧
      IsEarliestColumn {} ['~', '(', 'p', ' ', 'q', ')'] 3 := by
  have h : ofText {} " ~(p q) " = .error (.flaw (.operatorMissing ' ' 3)) := rfl
  have htrim : Text.trim " ~(p q) ".toList = ['~', '(', 'p', ' ', 'q', ')'] := rfl
  obtain ⟨f, he, -, hcolumn⟩ := ofText_position h
  obtain rfl := Fault.flaw.inj he
  rw [htrim] at hcolumn
  exact ⟨h, hcolumn 3 rfl⟩

end Program
end PropTable

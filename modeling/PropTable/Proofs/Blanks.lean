import Mathlib.Data.List.DropRight
import PropTable.Text.Blank
import PropTable.Text.Letter

/-!
# Blanks

A text with no blank at all is its own trimmed text, and a letter is no blank.  Trimming takes
blanks only, and trimming twice takes no more.
-/

namespace PropTable
namespace Text

theorem Ranges.exists_of_contains {ranges : Ranges} {n : Nat} (h : ranges.contains n = true) :
    ∃ r ∈ ranges, r.1 ≤ n ∧ n ≤ r.2 := by
  induction ranges with
  | nil => cases h
  | cons r rest ih =>
    obtain ⟨low, high⟩ := r
    rw [contains] at h
    by_cases hlow : n < low
    · rw [if_pos hlow] at h
      cases h
    rw [if_neg hlow, Bool.or_eq_true, decide_eq_true_eq] at h
    rcases h with hhigh | hrest
    · exact ⟨(low, high), List.mem_cons_self, Nat.not_lt.mp hlow, hhigh⟩
    · obtain ⟨r, hr, hbounds⟩ := ih hrest
      exact ⟨r, List.mem_cons_of_mem _ hr, hbounds⟩

/-- There are few blanks, so each of them is looked up among the letters. -/
theorem letterRanges_of_blank :
    ∀ r ∈ blankRanges, ∀ k < r.2 + 1 - r.1, letterRanges.contains (r.1 + k) = false := by
  decide +kernel

theorem isBlank_of_isLetter {c : Char} (h : isLetter c = true) : isBlank c = false := by
  rw [Bool.eq_false_iff]
  intro hblank
  obtain ⟨r, hr, hlow, hhigh⟩ := Ranges.exists_of_contains hblank
  have hnone := letterRanges_of_blank r hr (c.toNat - r.1) (by omega)
  rw [Nat.add_sub_cancel' hlow] at hnone
  rw [isLetter, hnone] at h
  cases h

theorem dropWhile_isBlank_eq_self {cs : List Char} (h : ∀ c ∈ cs, isBlank c = false) :
    cs.dropWhile isBlank = cs := by
  cases cs with
  | nil => rfl
  | cons c rest => rw [List.dropWhile_cons, h c List.mem_cons_self, if_neg Bool.false_ne_true]

theorem trim_eq_self {cs : List Char} (h : ∀ c ∈ cs, isBlank c = false) : trim cs = cs := by
  have hreverse : ∀ c ∈ cs.reverse, isBlank c = false := fun c hc => h c (List.mem_reverse.mp hc)
  rw [trim, trimStart, dropWhile_isBlank_eq_self h, trimEnd, dropWhile_isBlank_eq_self hreverse,
    List.reverse_reverse]

theorem mem_dropWhile_isBlank {c : Char} (hc : isBlank c = false) (cs : List Char) :
    c ∈ cs.dropWhile isBlank ↔ c ∈ cs := by
  refine ⟨fun h => (List.dropWhile_suffix isBlank).subset h, fun h => ?_⟩
  rw [← List.takeWhile_append_dropWhile (p := isBlank) (l := cs), List.mem_append] at h
  rcases h with hblank | h
  · rw [List.mem_takeWhile_imp hblank] at hc
    cases hc
  · exact h

theorem mem_trim {c : Char} (hc : isBlank c = false) (cs : List Char) : c ∈ trim cs ↔ c ∈ cs := by
  rw [trim, trimEnd, List.mem_reverse, mem_dropWhile_isBlank hc, List.mem_reverse, trimStart,
    mem_dropWhile_isBlank hc]

theorem dropWhile_eq_self_of_prefix {p : Char → Bool} {cs ds : List Char} (h : cs <+: ds)
    (hds : ds.dropWhile p = ds) : cs.dropWhile p = cs := by
  rw [List.dropWhile_eq_self_iff]
  intro hpos
  rw [h.getElem hpos]
  exact List.dropWhile_eq_self_iff.mp hds _

/-- A trimmed text begins as it did before its end was trimmed, with no blank. -/
theorem dropWhile_trim (cs : List Char) : (trim cs).dropWhile isBlank = trim cs := by
  have hbegins : trim cs <+: cs.dropWhile isBlank := List.rdropWhile_prefix ..
  exact dropWhile_eq_self_of_prefix hbegins (List.dropWhile_idempotent ..)

theorem trim_trim (cs : List Char) : trim (trim cs) = trim cs := by
  have htrim (ds : List Char) : trim ds = (ds.dropWhile isBlank).rdropWhile isBlank := rfl
  rw [htrim (trim cs), dropWhile_trim, htrim, List.rdropWhile_idempotent]

theorem trim_toList {s : String} (h : trimmed s = s) : trim s.toList = s.toList := by
  rw [← String.toList_ofList (l := trim s.toList)]
  exact congrArg String.toList h

/-- Trimming takes nothing exactly if neither the first nor the last character is a blank. -/
theorem trim_eq_self_iff {cs : List Char} : trim cs = cs ↔
    (∀ c ∈ cs.head?, isBlank c = false) ∧ ∀ c ∈ cs.getLast?, isBlank c = false := by
  have htrim : trim cs = (cs.dropWhile isBlank).rdropWhile isBlank := rfl
  have hfirst : cs.dropWhile isBlank = cs ↔ ∀ c ∈ cs.head?, isBlank c = false := by
    rw [List.dropWhile_eq_self_iff]
    cases cs <;> simp
  have hlast : cs.rdropWhile isBlank = cs ↔ ∀ c ∈ cs.getLast?, isBlank c = false := by
    rw [List.rdropWhile_eq_self_iff]
    constructor
    · intro h c hc
      obtain ⟨hne, rfl⟩ := List.mem_getLast?_eq_getLast hc
      exact Bool.eq_false_iff.mpr (h hne)
    · intro h hne
      exact Bool.eq_false_iff.mp (h _ (List.getLast_mem_getLast? hne))
  rw [← hfirst, ← hlast]
  constructor
  · intro h
    have hstart : cs.dropWhile isBlank = cs := by
      have hdrop := dropWhile_trim cs
      rwa [h] at hdrop
    rw [htrim, hstart] at h
    exact ⟨hstart, h⟩
  · rintro ⟨hstart, hend⟩
    rw [htrim, hstart, hend]

/-- Trimming takes nothing from a text that begins with no blank and ends in a stretch that
has none. -/
theorem trim_append_eq_self {cs tail : List Char} (hcs : cs.dropWhile isBlank = cs)
    (htail : ∀ c ∈ tail, isBlank c = false) (hne : tail ≠ []) :
    trim (cs ++ tail) = cs ++ tail := by
  rw [trim_eq_self_iff, List.getLast?_append_of_ne_nil _ hne]
  refine ⟨fun c hc => ?_, fun c hc => htail c (List.mem_of_getLast? hc)⟩
  cases cs with
  | nil => exact htail c (List.mem_of_head? hc)
  | cons d cs =>
    obtain rfl : d = c := by simpa using hc
    exact Bool.eq_false_iff.mpr (List.dropWhile_eq_self_iff.mp hcs (Nat.zero_lt_succ _))

end Text
end PropTable

import Mathlib.Data.List.Forall2
import Mathlib.Data.List.TakeWhile
import PropTable.Proofs.Blanks
import PropTable.Settings.Options

/-!
# Numbers and words in texts

The decimal text of a number is read as that number, unless it has too many digits to be read
(`Text.readInt_toDigits`).  A text is a word in lower case exactly if it is the word in some mix
of case (`Options.lowered_eq_iff`).
-/

namespace PropTable
namespace Text

/-! ## Numerals -/

variable {c : Char} {cs : List Char}

theorem isDigit_bounds (h : c.isDigit = true) : 0x30 ≤ c.toNat ∧ c.toNat ≤ 0x39 := by
  simpa [Char.isDigit, UInt32.le_iff_toNat_le] using h

theorem digitValue?_of_isDigit (h : c.isDigit = true) :
    digitValue? c = some (c.toNat - '0'.toNat) := by
  obtain ⟨hlow, hhigh⟩ := isDigit_bounds h
  have hstart : digitRanges.start? c.toNat = some 0x30 := by
    rw [digitRanges, Ranges.start?, if_neg (Nat.not_lt.mpr hlow), if_pos hhigh]
  have hvalue : (c.toNat - 0x30) % 10 = c.toNat - 0x30 := Nat.mod_eq_of_lt (by omega)
  rw [digitValue?, hstart, Option.map_some, hvalue]
  rfl

/-- A digit is no blank, no sign and no underscore. -/
theorem isNumeralBlank_of_isDigit (h : c.isDigit = true) : isNumeralBlank c = false := by
  obtain ⟨hlow, hhigh⟩ := isDigit_bounds h
  have hranges : ∀ r ∈ blankRanges, r.2 < 0x30 ∨ 0x39 < r.1 := by decide
  have hblank : isBlank c = false := by
    rw [Bool.eq_false_iff]
    intro hblank
    obtain ⟨r, hr, hbelow, habove⟩ := Ranges.exists_of_contains hblank
    rcases hranges r hr with hlt | hlt <;> omega
  rw [isNumeralBlank, hblank, Bool.false_and]

theorem ne_of_isDigit (h : c.isDigit = true) : c ≠ '-' ∧ c ≠ '+' ∧ c ≠ '_' := by
  refine ⟨?_, ?_, ?_⟩ <;>
  · rintro rfl
    exact absurd h (by decide)

theorem readSign_of_isDigit (h : ∀ c ∈ cs, c.isDigit = true) : readSign cs = (false, cs) := by
  unfold readSign
  split
  · exact absurd rfl (ne_of_isDigit (h '-' List.mem_cons_self)).1
  · exact absurd rfl (ne_of_isDigit (h '+' List.mem_cons_self)).2.1
  · rfl

theorem isGrouped_cons_of_isDigit (h : c.isDigit = true) (afterDigit : Bool) :
    isGrouped afterDigit (c :: cs) = isGrouped true cs := by
  rw [isGrouped, if_neg (ne_of_isDigit h).2.2, isDigit, digitValue?_of_isDigit h]
  rfl

theorem isGrouped_true (h : ∀ c ∈ cs, c.isDigit = true) : isGrouped true cs = true := by
  induction cs with
  | nil => rfl
  | cons c cs ih =>
    obtain ⟨hc, hcs⟩ := List.forall_mem_cons.mp h
    rw [isGrouped_cons_of_isDigit hc]
    exact ih hcs

theorem isGrouped_of_isDigit (hne : cs ≠ []) (h : ∀ c ∈ cs, c.isDigit = true) :
    isGrouped false cs = true := by
  obtain ⟨c, rest, rfl⟩ := List.exists_cons_of_ne_nil hne
  obtain ⟨hc, hrest⟩ := List.forall_mem_cons.mp h
  rw [isGrouped_cons_of_isDigit hc]
  exact isGrouped_true hrest

theorem filterMap_digitValue? (h : ∀ c ∈ cs, c.isDigit = true) :
    cs.filterMap digitValue? = cs.map fun c => c.toNat - '0'.toNat := by
  induction cs with
  | nil => rfl
  | cons c cs ih =>
    obtain ⟨hc, hcs⟩ := List.forall_mem_cons.mp h
    rw [List.filterMap_cons_some (digitValue?_of_isDigit hc), ih hcs, List.map_cons]

theorem digitsValue_toDigits (n : Nat) :
    digitsValue ((Nat.toDigits 10 n).map fun c => c.toNat - '0'.toNat) = n := by
  rw [digitsValue, List.foldl_map, ← Nat.ofDigitChars_eq_foldl]
  exact Nat.ofDigitChars_ten_toDigits

/-- A number is read back from its decimal text. -/
theorem readInt_toDigits {n : Nat} (h : (Nat.toDigits 10 n).length ≤ maxDigits) :
    readInt (Nat.toDigits 10 n) = .ok n := by
  have hdigits : ∀ c ∈ Nat.toDigits 10 n, c.isDigit = true :=
    fun c hc => Nat.isDigit_of_mem_toDigits (by decide) (by decide) hc
  have hblank : (Nat.toDigits 10 n).dropWhile isNumeralBlank = Nat.toDigits 10 n :=
    List.dropWhile_eq_self_iff.mpr fun hlt => by
      rw [isNumeralBlank_of_isDigit (hdigits _ (List.getElem_mem hlt))]
      exact Bool.false_ne_true
  have hsign : readSign (Nat.toDigits 10 n) = (false, Nat.toDigits 10 n) :=
    readSign_of_isDigit hdigits
  have hrun : ∀ c ∈ Nat.toDigits 10 n, (isDigit c || c = '_') = true := fun c hc => by
    rw [isDigit, digitValue?_of_isDigit (hdigits c hc)]
    rfl
  have hgrouped := isGrouped_of_isDigit Nat.toDigits_ne_nil hdigits
  rw [readInt, hblank, hsign]
  simp only [List.takeWhile_eq_self_iff.mpr hrun, List.dropWhile_eq_nil_iff.mpr hrun, hgrouped,
    filterMap_digitValue? hdigits, List.length_map, digitsValue_toDigits, Nat.not_lt.mpr h]
  rfl

/-! ## Words in any case -/

/-- A text is a word in some mix of case: each character is that of the word or its capital. -/
def InAnyCase (word cs : List Char) : Prop :=
  List.Forall₂ (fun c d => c = d ∨ c = d.toUpper) cs word

theorem toNat_toLower (c : Char) :
    c.toLower.toNat = if 65 ≤ c.toNat ∧ c.toNat ≤ 90 then c.toNat + 32 else c.toNat := by
  have hupper : (c.val ≥ 'A'.val ∧ c.val ≤ 'Z'.val) ↔ 65 ≤ c.toNat ∧ c.toNat ≤ 90 := by
    simp [ge_iff_le, UInt32.le_iff_toNat_le]
  have hgap : ('a'.val - 'A'.val).toNat = 32 := rfl
  by_cases h : 65 ≤ c.toNat ∧ c.toNat ≤ 90
  · have hlower : c.toLower = _ := dif_pos (hupper.mpr h)
    have hval : c.val.toNat = c.toNat := rfl
    rw [if_pos h, hlower, Char.toNat, UInt32.toNat_add, hgap, hval]
    omega
  · have hlower : c.toLower = c := dif_neg (mt hupper.mp h)
    rw [if_neg h, hlower]

theorem toNat_toUpper (c : Char) :
    c.toUpper.toNat = if 97 ≤ c.toNat ∧ c.toNat ≤ 122 then c.toNat - 32 else c.toNat := by
  have hlower : ('a'.val ≤ c.val ∧ c.val ≤ 'z'.val) ↔ 97 ≤ c.toNat ∧ c.toNat ≤ 122 := by
    simp [UInt32.le_iff_toNat_le]
  have hgap : ('A'.val - 'a'.val).toNat = 2 ^ 32 - 32 := rfl
  by_cases h : 97 ≤ c.toNat ∧ c.toNat ≤ 122
  · have hupper : c.toUpper = _ := dif_pos (hlower.mpr h)
    have hval : c.val.toNat = c.toNat := rfl
    rw [if_pos h, hupper, Char.toNat, UInt32.toNat_add, hgap, hval]
    omega
  · have hupper : c.toUpper = c := dif_neg (mt hlower.mp h)
    rw [if_neg h, hupper]

theorem toLower_eq_iff {c d : Char} (hd : d.toLower = d) :
    c.toLower = d ↔ c = d ∨ c = d.toUpper := by
  have hd := (toNat_toLower d).symm.trans (congrArg Char.toNat hd)
  rw [← Char.toNat_inj, ← Char.toNat_inj, ← Char.toNat_inj, toNat_toLower, toNat_toUpper]
  split at hd <;> split <;> split <;> omega

end Text

/-- A word of small letters is what the texts that have it in any case are in lower case. -/
theorem Options.lowered_eq_iff {word cs : List Char} (hword : lowered word = word) :
    lowered cs = word ↔ Text.InAnyCase word cs := by
  have hcons (c : Char) (cs : List Char) : lowered (c :: cs) = c.toLower :: lowered cs := rfl
  induction word generalizing cs with
  | nil => simp [lowered, Text.InAnyCase]
  | cons d word ih =>
    rw [hcons, List.cons.injEq] at hword
    obtain ⟨hd, hrest⟩ := hword
    cases cs with
    | nil => simp [lowered, Text.InAnyCase]
    | cons c cs =>
      have htail : lowered cs = word ↔ Text.InAnyCase word cs := ih hrest
      rw [hcons, List.cons.injEq, Text.toLower_eq_iff hd, htail, Text.InAnyCase,
        Text.InAnyCase, List.forall₂_cons]

end PropTable

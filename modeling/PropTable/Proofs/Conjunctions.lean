import Mathlib.Data.List.Nodup
import PropTable.Proofs.Printing

/-!
# Texts with many variables

Variables joined by conjunctions are a text that needs no parentheses, and if they all differ,
the program of the text has as many variables (`Program.exists_ofText_many`).  The characters from
U+4E00 on, none of which is a blank or part of the language, are enough of them to go beyond
the number of variables that can be told.
-/

namespace PropTable

theorem length_eraseDups_of_nodup {α : Type} [BEq α] [LawfulBEq α] {xs : List α}
    (h : xs.Nodup) : xs.eraseDups.length = xs.length :=
  ((List.perm_ext_iff_of_nodup (nodup_eraseDups xs) h).mpr fun _ => List.mem_eraseDups).length_eq

theorem Text.isBlank_of_lt {c : Char} (h : 0x3000 < c.toNat) : isBlank c = false := by
  have hlast : ∀ r ∈ blankRanges, r.2 ≤ 0x3000 := by decide
  rw [Bool.eq_false_iff]
  intro hblank
  obtain ⟨r, hr, -, hhigh⟩ := Ranges.exists_of_contains hblank
  have := hlast r hr
  omega

namespace Phrase

theorem isVariable_of_lt {c : Char} (h : 0x3000 < c.toNat) : IsVariable false c := by
  refine ⟨?_, ?_, ?_, nofun⟩
  · rintro rfl
    exact absurd h (by decide)
  · rintro rfl
    exact absurd h (by decide)
  · cases hc : Connective.ofChar? c with
    | none => rfl
    | some op =>
      obtain rfl := Connective.ofChar?_eq_some_iff.mp hc
      have := op.toNat_sign_lt
      omega

/-- Variables joined by conjunctions. -/
def conjunction (c : Char) : List Char → Phrase
  | [] => var c
  | d :: rest => binary .and (var c) (conjunction d rest)

theorem leaves_conjunction (c : Char) (cs : List Char) :
    (conjunction c cs).formula.leaves = c :: cs := by
  induction cs generalizing c with
  | nil => rfl
  | cons d rest ih => exact congrArg (c :: ·) (ih d)

theorem fits_conjunction {strict : Bool} {c : Char} {cs : List Char}
    (h : ∀ d ∈ c :: cs, IsVariable strict d) :
    Fits strict Binary.and.precedence (conjunction c cs) := by
  induction cs generalizing c with
  | nil => exact h c List.mem_cons_self
  | cons d rest ih =>
    exact ⟨Nat.le_refl _, h c List.mem_cons_self, ih fun e he => h e (List.mem_cons_of_mem c he)⟩

/-! ## A range of variables -/

/-- The variables with the code points from U+4E00 on, of which there are 0x8A00 before the
surrogates. -/
def ideograph (k : Nat) : Char := Char.ofNat (0x4E00 + k)

theorem toNat_ideograph {k : Nat} (h : k < 0x8A00) : (ideograph k).toNat = 0x4E00 + k := by
  have hvalid : (0x4E00 + k).isValidChar := .inl (by omega)
  rw [ideograph, Char.ofNat, dif_pos hvalid]
  rfl

theorem nodup_ideographs {n : Nat} (h : n < 0x8A00) :
    ((List.range (n + 1)).map fun k => (ideograph k).toString).Nodup := by
  refine List.nodup_range.map_on fun j hj k hk heq => ?_
  have hj := List.mem_range.mp hj
  have hk := List.mem_range.mp hk
  have hchar : ideograph j = ideograph k := by simpa using heq
  have hcode := congrArg Char.toNat hchar
  rw [toNat_ideograph (by omega), toNat_ideograph (by omega)] at hcode
  omega

/-- The conjunction of one variable and `n` further ones. -/
def many (n : Nat) : Phrase :=
  conjunction (ideograph 0) ((List.range n).map fun k => ideograph (k + 1))

theorem leaves_many (n : Nat) : (many n).formula.leaves = (List.range (n + 1)).map ideograph := by
  rw [many, leaves_conjunction, List.range_succ_eq_map, List.map_cons, List.map_map]
  rfl

variable {n : Nat}

theorem lt_toNat_of_mem_many (h : n < 0x8A00) :
    ∀ c ∈ (many n).formula.leaves, 0x3000 < c.toNat := by
  intro c hc
  rw [leaves_many] at hc
  obtain ⟨k, hk, rfl⟩ := List.mem_map.mp hc
  rw [toNat_ideograph (by have := List.mem_range.mp hk; omega)]
  omega

theorem length_names_many (h : n < 0x8A00) : (many n).formula.names.length = n + 1 := by
  have hnames : (many n).formula.names =
      ((List.range (n + 1)).map fun k => (ideograph k).toString).eraseDups := by
    rw [Formula.names, leaves_many, List.map_map]
    rfl
  rw [hnames, length_eraseDups_of_nodup (nodup_ideographs h), List.length_map,
    List.length_range]

theorem trim_many (h : n < 0x8A00) : Text.trim (many n).text = (many n).text := by
  refine Text.trim_eq_self (isBlank_of_mem_text fun c hc => ?_)
  exact Text.isBlank_of_lt (lt_toNat_of_mem_many h c hc)

theorem reads_many (h : n < 0x8A00) : Reads false (many n).text (many n) := by
  have hvariable : ∀ c ∈ (many n).formula.leaves, IsVariable false c :=
    fun c hc => isVariable_of_lt (lt_toNat_of_mem_many h c hc)
  refine ⟨Fits.mono (by decide) (fits_conjunction ?_), rfl⟩
  rwa [many, leaves_conjunction] at hvariable

end Phrase

namespace Program

/-- The text of a conjunction of `n + 1` variables. -/
def manyText (n : Nat) : String := String.ofList (Phrase.many n).text

theorem ofText_many {settings : Settings} (hlax : settings.strict = false) {n : Nat}
    (h : n < 0x8A00) : ofText settings (manyText n) =
      .ok (ofFormula (manyText n) (Phrase.many n).formula) := by
  refine ofText_ofList (Phrase.trim_many h) ?_
  rw [hlax]
  exact Phrase.reads_many h

example : manyText 2 = "一&丁&丂" := by decide

theorem trimmed_many {n : Nat} (h : n < 0x8A00) : Text.trimmed (manyText n) = manyText n := by
  rw [Text.trimmed, manyText, String.toList_ofList, Phrase.trim_many h]

theorem exists_ofText_many {settings : Settings} (hlax : settings.strict = false) {n : Nat}
    (h : n < 0x8A00) : ∃ p, ofText settings (manyText n) = .ok p ∧ p.variableCount = n + 1 :=
  ⟨_, ofText_many hlax h, variableCount_ofFormula.trans (Phrase.length_names_many h)⟩

/-- One variable more than can be told. -/
theorem exists_ofText_untold {settings : Settings} (hlax : settings.strict = false)
    (hmax : settings.maxVariables ≤ Table.maxTold) :
    ∃ p, ofText settings (manyText Table.maxTold) = .ok p ∧
      settings.maxVariables < p.variableCount ∧ Table.maxTold < p.variableCount := by
  obtain ⟨p, hp, hcount⟩ := exists_ofText_many (n := Table.maxTold) hlax (by decide)
  exact ⟨p, hp, by omega, by omega⟩

end Program

end PropTable

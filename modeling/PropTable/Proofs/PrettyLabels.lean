import Mathlib.Data.List.Forall2
import PropTable.Proofs.Interning
import PropTable.Proofs.Lockstep
import PropTable.Proofs.Printing

/-!
# Labels in mathematical signs

The labels of a program in mathematical signs are its plain labels with the connectives written
otherwise, character by character: writing them so is a map of labels that both replays commute
with (`Replay.run_map`).  No letter is a mathematical sign, so the plain label of a text of
letters can be told from the other (`Program.labels_unicode`).
-/

namespace PropTable

/-! ## Characters -/

def prettyChar (c : Char) : Char :=
  match Connective.ofChar? c with
  | some op => op.glyph
  | none => c

theorem toList_pretty (s : String) : (pretty s).toList = s.toList.map prettyChar :=
  String.toList_ofList

theorem pretty_append (s t : String) : pretty (s ++ t) = pretty s ++ pretty t := by
  rw [← String.toList_inj, String.toList_append, toList_pretty, toList_pretty, toList_pretty,
    String.toList_append, List.map_append]

theorem prettyChar_sign (c : Connective) : prettyChar c.sign = c.glyph := by
  rw [prettyChar, Connective.ofChar?_sign]

theorem pretty_symbol (c : Connective) : pretty c.symbol = c.glyph.toString := by
  rw [← String.toList_inj, toList_pretty]
  simp [Connective.symbol, prettyChar_sign]

theorem pretty_eq_self {s : String} (h : ∀ c ∈ s.toList, Connective.ofChar? c = none) :
    pretty s = s := by
  have hsame : ∀ c ∈ s.toList, prettyChar c = id c := fun c hc => by rw [prettyChar, h c hc, id]
  rw [← String.toList_inj, toList_pretty, List.map_congr_left hsame, List.map_id]

namespace Connective

/-- No mathematical sign is an ASCII character, as parentheses and the plain signs are. -/
theorem le_toNat_glyph (op : Connective) : 0x80 ≤ op.glyph.toNat := by
  cases op with
  | not => decide
  | binary op => cases op <;> decide

theorem ne_glyph_of_lt {c : Char} (h : c.toNat < 0x80) (op : Connective) : c ≠ op.glyph := by
  rintro rfl
  exact Nat.not_lt.mpr op.le_toNat_glyph h

theorem ne_glyph_of_isLetter {c : Char} (h : Text.isLetter c = true) (op : Connective) :
    c ≠ op.glyph := by
  have hnone : ∀ op ∈ all, ¬Text.isLetter op.glyph = true :=
    List.any_eq_false.mp (by decide +kernel)
  have hmem : op ∈ all := by
    cases op with
    | not => decide
    | binary op => cases op <;> decide
  rintro rfl
  exact hnone op hmem h

theorem find?_glyph (op : Connective) : all.find? (·.glyph == op.glyph) = some op := by
  cases op with
  | not => decide
  | binary op => cases op <;> decide

theorem glyph_injective {op op' : Connective} (h : op.glyph = op'.glyph) : op = op' := by
  have hfind := find?_glyph op
  rw [h, find?_glyph op'] at hfind
  exact (Option.some.inj hfind).symm

end Connective

/-- Characters that are no mathematical signs themselves can be told from how they are
written. -/
theorem prettyChar_inj {c d : Char} (hc : ∀ op : Connective, c ≠ op.glyph)
    (hd : ∀ op : Connective, d ≠ op.glyph) (h : prettyChar c = prettyChar d) : c = d := by
  rw [prettyChar, prettyChar] at h
  cases hcop : Connective.ofChar? c with
  | some op =>
    obtain rfl := Connective.ofChar?_eq_some_iff.mp hcop
    cases hdop : Connective.ofChar? d with
    | some op' =>
      obtain rfl := Connective.ofChar?_eq_some_iff.mp hdop
      simp only [Connective.ofChar?_sign] at h
      rw [Connective.glyph_injective h]
    | none =>
      simp only [Connective.ofChar?_sign, hdop] at h
      exact absurd h.symm (hd op)
  | none =>
    cases hdop : Connective.ofChar? d with
    | some op' =>
      obtain rfl := Connective.ofChar?_eq_some_iff.mp hdop
      simp only [hcop, Connective.ofChar?_sign] at h
      exact absurd h (hc op')
    | none => simpa only [hcop, hdop] using h

theorem pretty_inj {s t : String} (hs : ∀ c ∈ s.toList, ∀ op : Connective, c ≠ op.glyph)
    (ht : ∀ c ∈ t.toList, ∀ op : Connective, c ≠ op.glyph) (h : pretty s = pretty t) : s = t := by
  rw [← String.toList_inj, toList_pretty, toList_pretty] at h
  rw [← String.toList_inj]
  generalize s.toList = cs at hs h
  generalize t.toList = ds at ht h
  induction cs generalizing ds with
  | nil => exact (List.map_eq_nil_iff.mp h.symm).symm
  | cons c cs ih =>
    cases ds with
    | nil => cases h
    | cons d ds =>
      obtain ⟨hhead, htail⟩ := List.cons.inj h
      obtain ⟨hc, hcs⟩ := List.forall_mem_cons.mp hs
      obtain ⟨hd, hds⟩ := List.forall_mem_cons.mp ht
      rw [prettyChar_inj hc hd hhead, ih hcs ds hds htail]

/-- Two texts of one length with their parentheses in the same places. -/
def Text.SameParentheses (s t : String) : Prop :=
  s.length = t.length ∧ ∀ k : Nat,
    (s.toList[k]? = some '(' ↔ t.toList[k]? = some '(') ∧
    (s.toList[k]? = some ')' ↔ t.toList[k]? = some ')')

theorem prettyChar_eq_iff {c d : Char} (hd : d.toNat < 0x80) (hsign : Connective.ofChar? d = none) :
    prettyChar c = d ↔ c = d := by
  rw [prettyChar]
  cases hop : Connective.ofChar? c with
  | some op =>
    refine iff_of_false (Connective.ne_glyph_of_lt hd op).symm ?_
    rintro rfl
    rw [hop] at hsign
    cases hsign
  | none => rfl

theorem sameParentheses_pretty (s : String) : Text.SameParentheses s (pretty s) := by
  have hplace (k : Nat) (d : Char) (hd : d.toNat < 0x80) (hsign : Connective.ofChar? d = none) :
      s.toList[k]? = some d ↔ (pretty s).toList[k]? = some d := by
    rw [toList_pretty, List.getElem?_map]
    cases s.toList[k]? with
    | none => rfl
    | some c => rw [Option.map_some, Option.some_inj, Option.some_inj, prettyChar_eq_iff hd hsign]
  refine ⟨?_, fun k => ⟨hplace k '(' (by decide) rfl, hplace k ')' (by decide) rfl⟩⟩
  rw [← String.length_toList, ← String.length_toList, toList_pretty, List.length_map]

/-! ## Replays under a map of values -/

variable {α β : Type} {alg : Algebra α} {alg' : Algebra β} {f : α → β}

/-- A map of values that the connectives of two algebras commute with. -/
structure Algebra.Commutes (alg : Algebra α) (alg' : Algebra β) (f : α → β) : Prop where
  not : ∀ a, alg'.not (f a) = f (alg.not a)
  binary : ∀ op a b, alg'.binary op (f a) (f b) = f (alg.binary op a b)

namespace Replay

theorem combine_map (h : alg.Commutes alg' f) (c : Connective) (stack : List α) :
    combine alg' c (stack.map f) = (combine alg c stack).map (Prod.map f (List.map f)) := by
  cases c with
  | not =>
    cases stack with
    | nil => rfl
    | cons a rest => simp [combine, h.not]
  | binary op =>
    cases stack with
    | nil => rfl
    | cons b lower =>
      cases lower with
      | nil => rfl
      | cons a rest => simp [combine, h.binary]

theorem step_map (h : alg.Commutes alg' f) {t : Token}
    (hleaf : ∀ id, .var id = t → alg'.leaf id = (alg.leaf id).map f) (stack : List α) :
    step alg' (stack.map f) t =
      (step alg stack t).map (Prod.map (List.map f) (List.map f)) := by
  cases t with
  | var id =>
    simp only [step, hleaf id rfl]
    cases alg.leaf id <;> rfl
  | sign symbol =>
    simp only [step]
    cases Connective.ofSymbol? symbol with
    | none => rfl
    | some c =>
      simp only [combine_map h]
      cases combine alg c stack <;> rfl

/-- A replay over the images of the values has the images of the results, and the same fault if
it has one. -/
theorem run_map (h : alg.Commutes alg' f) {ts : List Token}
    (hleaf : ∀ id, .var id ∈ ts → alg'.leaf id = (alg.leaf id).map f) (stack : List α) :
    run alg' ts (stack.map f) =
      (run alg ts stack).map (Prod.map (List.map f) (List.map f)) := by
  induction ts generalizing stack with
  | nil => rfl
  | cons t rest ih =>
    have hnow := step_map h (fun id hid => hleaf id (hid ▸ List.mem_cons_self)) stack
    have hrest := ih fun id hid => hleaf id (List.mem_cons_of_mem t hid)
    simp only [run, hnow]
    cases step alg stack t with
    | error e => rfl
    | ok r =>
      simp only [Except.map, bind, Except.bind, Prod.map, hrest]
      cases run alg rest r.2 with
      | error e => rfl
      | ok s => simp [pure, Except.pure]

end Replay

namespace Label

/-- A plain label with its connectives in mathematical signs. -/
def pretty (a : Label) : Label := { a with text := PropTable.pretty a.text }

theorem wrapped_pretty (a : Label) : a.pretty.wrapped = PropTable.pretty a.wrapped := by
  obtain ⟨text, composite⟩ := a
  cases composite with
  | true =>
    have hopen : PropTable.pretty "(" = "(" := rfl
    have hclose : PropTable.pretty ")" = ")" := rfl
    simp [wrapped, pretty, pretty_append, hopen, hclose]
  | false => rfl

theorem commutes_pretty (m : Numbering) :
    (algebra .ascii m).Commutes (algebra .unicode m) pretty where
  not a := by
    simp only [algebra, not, plainSign, wrapped_pretty]
    simp only [pretty, pretty_append, pretty_symbol]
  binary op a b := by
    simp only [algebra, binary, plainSign, wrapped_pretty]
    simp only [pretty, pretty_append, pretty_symbol]

end Label

namespace Program

/-- The symbols of the variables that a program uses have no character of a connective. -/
def IsPlain (p : Program) : Prop :=
  ∀ id s, .var id ∈ p.tokens → p.numbering.symbolOf? id = some s →
    ∀ c ∈ s.toList, Connective.ofChar? c = none

theorem IsPlain.labels_eq {p : Program} (hp : p.IsPlain) :
    p.labels .unicode = (p.labels .ascii).map (List.map pretty) := by
  have hleaf : ∀ id, .var id ∈ p.tokens → (Label.algebra .unicode p.numbering).leaf id =
      ((Label.algebra .ascii p.numbering).leaf id).map Label.pretty := by
    intro id hid
    simp only [Label.algebra]
    cases hsymbol : p.numbering.symbolOf? id with
    | none => rfl
    | some s =>
      simp only [Except.map, Label.pretty, pretty_eq_self (hp id s hid hsymbol)]
  have hrun := Replay.run_map (Label.commutes_pretty p.numbering) hleaf []
  rw [labels_eq_map, labels_eq_map]
  rw [List.map_nil] at hrun
  rw [hrun]
  cases Replay.run (Label.algebra .ascii p.numbering) p.tokens [] with
  | error e => rfl
  | ok r =>
    simp only [Except.map, Prod.map, List.map_map]
    rfl

/-- A program is plain if no symbol at all has a character of a connective. -/
theorem isPlain_of_all {p : Program} (h : (p.numbering.symbols.all fun pair =>
    pair.2.toList.all fun c => (Connective.ofChar? c).isNone) = true) : p.IsPlain := by
  intro id s _ hs c hc
  obtain ⟨before, after, hsplit, -⟩ := List.lookup_eq_some_iff.mp hs
  have hmem : (id, s) ∈ p.numbering.symbols :=
    hsplit ▸ List.mem_append_right before List.mem_cons_self
  exact Option.isNone_iff_eq_none.mp (List.all_eq_true.mp (List.all_eq_true.mp h _ hmem) c hc)

/-- The variables of a program that is compiled are single characters of its formula. -/
theorem isPlain_ofFormula {source : String} {f : Formula Char}
    (h : ∀ c ∈ f.leaves, Connective.ofChar? c = none) : (ofFormula source f).IsPlain := by
  intro id s _ hsymbol
  obtain ⟨i, -, hname⟩ := Numbering.symbolOf?_ofNames_eq_some_iff.mp hsymbol
  obtain ⟨c, hc, rfl, -⟩ := Formula.mem_leaves_of_getElem?_names hname
  intro d hd
  rw [Char.toString, String.toList_singleton, List.mem_singleton] at hd
  rw [hd]
  exact h c hc

end Program

theorem Formula.ne_glyph_of_mem_label {f : Formula Char}
    (hf : ∀ c ∈ f.leaves, Phrase.IsVariable true c) :
    ∀ c ∈ (f.label .ascii).text.toList, ∀ op : Connective, c ≠ op.glyph := by
  rw [label_ascii, String.toList_ofList]
  refine Phrase.forall_mem_text (fun op => ?_) (fun op => ?_) (fun c op => ?_) ?_
  · exact Connective.ne_glyph_of_lt (by decide) op
  · exact Connective.ne_glyph_of_lt (by decide) op
  · exact Connective.ne_glyph_of_lt c.toNat_sign_lt op
  · rw [phrase_formula]
    exact fun c hc => Connective.ne_glyph_of_isLetter ((hf c hc).2.2.2 rfl)

namespace Program

theorem exists_labels_of_strict {settings : Settings} {text : String} {p : Program}
    (hs : settings.strict = true) (hp : ofText settings text = .ok p) :
    ∃ plains, p.labels .ascii = .ok plains ∧ p.labels .unicode = .ok (plains.map PropTable.pretty) ∧
      ∀ a ∈ plains, ∀ c ∈ a.toList, ∀ op : Connective, c ≠ op.glyph := by
  obtain ⟨f, ⟨hfits, -⟩, rfl⟩ := ofText_eq_ok_iff_reads.mp hp
  rw [hs] at hfits
  have hplain : (ofFormula (Text.trimmed text) f.formula).labels .ascii = _ :=
    labels_ofFormula .ascii
  have hvariable : (ofFormula (Text.trimmed text) f.formula).IsPlain :=
    isPlain_ofFormula fun c hc => (hfits.isVariable c hc).2.2.1
  have hsigned := hvariable.labels_eq
  rw [hplain] at hsigned
  refine ⟨_, hplain, hsigned, fun a ha => ?_⟩
  obtain ⟨g, hg, rfl⟩ := List.mem_map.mp ha
  exact Formula.ne_glyph_of_mem_label fun c hc =>
    hfits.isVariable c (Formula.leaves_subset_of_mem_composites hg hc)

/-- The labels in mathematical signs are the plain ones with every connective written so, with
the parentheses in the same places.  Where only letters are variables, different plain labels
are written differently. -/
theorem labels_unicode :
    (∀ p : Program, p.IsPlain →
      p.labels .unicode = (p.labels .ascii).map (List.map PropTable.pretty) ∧
      ∀ plains signeds, p.labels .ascii = .ok plains → p.labels .unicode = .ok signeds →
        List.Forall₂ Text.SameParentheses plains signeds) ∧
    ∀ (settings settings' : Settings) (text text' : String) (p p' : Program),
      settings.strict = true → settings'.strict = true →
      ofText settings text = .ok p → ofText settings' text' = .ok p' →
      ∃ plains plains' signeds signeds',
        p.labels .ascii = .ok plains ∧ p.labels .unicode = .ok signeds ∧
        p'.labels .ascii = .ok plains' ∧ p'.labels .unicode = .ok signeds' ∧
        plains.length = signeds.length ∧ plains'.length = signeds'.length ∧
        ∀ (i j : Nat) (a a' : String), plains[i]? = some a → plains'[j]? = some a' →
          signeds[i]? = signeds'[j]? → a = a' := by
  constructor
  · intro p hp
    refine ⟨hp.labels_eq, fun plains signeds hplain hsigned => ?_⟩
    rw [hp.labels_eq, hplain] at hsigned
    obtain rfl := Except.ok.inj hsigned
    exact List.forall₂_map_right_iff.mpr (List.forall₂_same.mpr fun a _ => sameParentheses_pretty a)
  · intro settings settings' text text' p p' hs hs' hp hp'
    obtain ⟨plains, hplain, hsigned, hsigns⟩ := exists_labels_of_strict hs hp
    obtain ⟨plains', hplain', hsigned', hsigns'⟩ := exists_labels_of_strict hs' hp'
    refine ⟨plains, plains', _, _, hplain, hsigned, hplain', hsigned', ?_, ?_, ?_⟩
    · rw [List.length_map]
    · rw [List.length_map]
    intro i j a a' ha ha' hsame
    rw [List.getElem?_map, List.getElem?_map, ha, ha'] at hsame
    exact pretty_inj (hsigns a (List.mem_of_getElem? ha)) (hsigns' a' (List.mem_of_getElem? ha'))
      (Option.some.inj hsame)

theorem labels_unicode_nested :
    let p : Program :=
      { tokens := [.var 4, .sign "~", .var (-2), .sign ">", .sign "~", .sign "~"]
        numbering := .ofPairs ["rain", "(wind"] [("rain", 4), ("(wind", -2)] }
    let q : Program := .ofFormula "~~p>q" (.binary .implies (.not (.not (.var 'p'))) (.var 'q'))
    let r : Program := .ofFormula "q&~p" (.binary .and (.var 'q') (.not (.var 'p')))
    p.IsPlain ∧ p.labels .unicode = (p.labels .ascii).map (List.map PropTable.pretty) ∧
      ofText { strict := true } "~~p>q" = .ok q ∧ ofText { strict := true } "q&~p" = .ok r ∧
      ∃ plains plains' signeds signeds',
        q.labels .ascii = .ok plains ∧ q.labels .unicode = .ok signeds ∧
        r.labels .ascii = .ok plains' ∧ r.labels .unicode = .ok signeds' ∧
        plains.length = signeds.length ∧ plains'.length = signeds'.length ∧
        ∀ (i j : Nat) (a a' : String), plains[i]? = some a → plains'[j]? = some a' →
          signeds[i]? = signeds'[j]? → a = a' := by
  intro p q r
  have hp : p.IsPlain := isPlain_of_all (by decide)
  have hq : ofText { strict := true } "~~p>q" = .ok q := rfl
  have hr : ofText { strict := true } "q&~p" = .ok r := rfl
  exact ⟨hp, (labels_unicode.1 p hp).1, hq, hr, labels_unicode.2 _ _ _ _ q r rfl rfl hq hr⟩

end Program

end PropTable

import PropTable.Proofs.Postfix
import PropTable.Proofs.Printing

/-!
# Labels are the programs they stand for

The postorder of a subformula stands in the postorder of a formula as one block, which ends
with the connective of the subformula (`Formula.exists_isBlock`).  The plain
label of a connective is compiled to that block again, also for a program put together by hand
(`Program.ofText_labels`), so a program can be read back from its last label.
-/

namespace PropTable

/-! ## Blocks -/

/-- Tokens that stand in a list after others, end with its connective number `i`, counted from
zero, and hold the operands of that connective. -/
structure Token.IsBlock (ts : List Token) (i : Nat) (before block : List Token) : Prop where
  begins : before ++ block <+: ts
  countP_isSign : (before ++ block).countP isSign = i + 1
  endsInSign : ∃ s, block.getLast? = some (.sign s)
  isPostorder : ∃ g : Formula Int, block = g.tokens

namespace Token

variable {ts before before' block block' : List Token} {i : Nat}

theorem IsBlock.append_right (h : IsBlock ts i before block) (more : List Token) :
    IsBlock (ts ++ more) i before block where
  begins := h.begins.trans (List.prefix_append ts more)
  countP_isSign := h.countP_isSign
  endsInSign := h.endsInSign
  isPostorder := h.isPostorder

theorem IsBlock.append_left (h : IsBlock ts i before block) (less : List Token) :
    IsBlock (less ++ ts) (less.countP isSign + i) (less ++ before) block where
  begins := by
    rw [List.append_assoc]
    exact (List.prefix_append_right_inj less).mpr h.begins
  countP_isSign := by
    rw [List.append_assoc, List.countP_append, h.countP_isSign]
    omega
  endsInSign := h.endsInSign
  isPostorder := h.isPostorder

/-- A list that ends with a connective has more connectives than what it begins with. -/
theorem countP_isSign_lt_of_prefix {xs ys : List Token} (h : xs <+: ys) (hne : xs ≠ ys)
    (hend : ∃ s, ys.getLast? = some (.sign s)) : xs.countP isSign < ys.countP isSign := by
  obtain ⟨rest, rfl⟩ := h
  have hrest : rest ≠ [] := by
    intro hnil
    subst hnil
    exact hne (List.append_nil xs).symm
  obtain ⟨s, hs⟩ := hend
  rw [List.getLast?_append_of_ne_nil _ hrest] at hs
  have hmem : Token.sign s ∈ rest := List.mem_of_getLast? hs
  have hpos : 0 < rest.countP isSign := List.countP_pos_iff.mpr ⟨_, hmem, rfl⟩
  rw [List.countP_append]
  omega

theorem IsBlock.getLast?_append (h : IsBlock ts i before block) :
    ∃ s, (before ++ block).getLast? = some (.sign s) := by
  obtain ⟨s, hs⟩ := h.endsInSign
  exact ⟨s, by rw [List.getLast?_append, hs, Option.some_or]⟩

/-- Both blocks end with the same connective, so they end in one place. -/
theorem IsBlock.append_eq (h : IsBlock ts i before block) (h' : IsBlock ts i before' block') :
    before ++ block = before' ++ block' := by
  have hcount := h.countP_isSign
  have hcount' := h'.countP_isSign
  by_contra hne
  rcases List.prefix_or_prefix_of_prefix h.begins h'.begins with hle | hle
  · have hlt := countP_isSign_lt_of_prefix hle hne h'.getLast?_append
    omega
  · have hlt := countP_isSign_lt_of_prefix hle (Ne.symm hne) h.getLast?_append
    omega

theorem Faultless.of_prefix {idFault? : Int → Option Fault} {xs ys : List Token}
    (h : Faultless idFault? ys) (hle : xs <+: ys) : Faultless idFault? xs := by
  obtain ⟨rest, rfl⟩ := hle
  intro before t after hxs
  exact h before t (after ++ rest) (by rw [hxs, List.append_assoc, List.cons_append])

/-- The postorder of a formula at the end of tokens is found by a replay: the formula is what
it leaves on top. -/
theorem Faultless.eq_of_append_tokens {f g : Formula Int}
    (h : Faultless (fun _ => none) before) (h' : Faultless (fun _ => none) before')
    (heq : before ++ f.tokens = before' ++ g.tokens) : f = g := by
  have hreplay (xs : List Token) (hxs : Faultless (fun _ => none) xs) (f : Formula Int) :
      ∃ steps stack,
        Replay.run (Formula.algebra fun _ => none) (xs ++ f.tokens) [] =
          .ok (steps, f :: stack) := by
    obtain ⟨steps, stack, hrun, -⟩ :=
      Replay.run_of_faultless (Formula.idFault?_algebra fun _ => none) hxs
    obtain ⟨later, hlater⟩ := f.run_tokens_algebra stack
    refine ⟨steps ++ later, stack, ?_⟩
    rw [Replay.run_append, hrun]
    simp only [bind, Except.bind, hlater, pure, Except.pure]
  obtain ⟨steps, stack, hf⟩ := hreplay before h f
  obtain ⟨steps', stack', hg⟩ := hreplay before' h' g
  rw [heq, hg] at hf
  have hstack : g :: stack' = f :: stack := (Prod.mk.inj (Except.ok.inj hf)).2
  exact (List.cons.inj hstack).1.symm

/-- A connective in the postorder of a formula has one block only. -/
theorem IsBlock.unique {f : Formula Int} (h : IsBlock f.tokens i before block)
    (h' : IsBlock f.tokens i before' block') : before = before' ∧ block = block' := by
  have hf : Faultless (fun _ => none) f.tokens :=
    (faultless_and_height_iff.mpr ⟨f, rfl, fun _ _ => rfl⟩).1
  have heq := h.append_eq h'
  obtain ⟨g, rfl⟩ := h.isPostorder
  obtain ⟨g', rfl⟩ := h'.isPostorder
  have hbefore := hf.of_prefix ((List.prefix_append before _).trans h.begins)
  have hbefore' := hf.of_prefix ((List.prefix_append before' _).trans h'.begins)
  obtain rfl := hbefore.eq_of_append_tokens hbefore' heq
  exact ⟨List.append_cancel_right heq, rfl⟩

end Token

namespace Formula

theorem countP_isSign_tokens (f : Formula Int) :
    f.tokens.countP Token.isSign = f.composites.length := by
  induction f with
  | var id => rfl
  | not f ih =>
    rw [tokens_not, List.countP_append, ih, composites, List.length_append]
    rfl
  | binary op f g ihf ihg =>
    rw [tokens_binary, List.countP_append, List.countP_append, ihf, ihg, composites,
      List.length_append, List.length_append]
    rfl

theorem isBlock_self {f : Formula Int} {i : Nat} (hi : f.composites.length = i + 1) :
    Token.IsBlock f.tokens i [] f.tokens where
  begins := List.prefix_refl _
  countP_isSign := by rw [List.nil_append, countP_isSign_tokens, hi]
  endsInSign := by
    cases f with
    | var id => cases hi
    | not f => exact ⟨_, by rw [tokens_not, List.getLast?_concat]; rfl⟩
    | binary op f g => exact ⟨_, by rw [tokens_binary, List.getLast?_concat]; rfl⟩
  isPostorder := ⟨f, rfl⟩

theorem exists_isBlock_of_last {f g : Formula Int} {others : List (Formula Int)} {i : Nat}
    (hf : f.composites = others ++ [f]) (hi : others.length ≤ i)
    (h : [f][i - others.length]? = some g) :
    ∃ before, Token.IsBlock f.tokens i before g.tokens := by
  obtain ⟨hlt, rfl⟩ := List.getElem?_eq_some_iff.mp h
  rw [List.length_singleton] at hlt
  have hlength : f.composites.length = i + 1 := by
    rw [hf, List.length_append, List.length_singleton]
    omega
  rw [List.getElem_singleton]
  exact ⟨[], isBlock_self hlength⟩

/-- The subformula that is completed by a connective stands in the postorder as the block of
that connective. -/
theorem exists_isBlock {f g : Formula Int} {i : Nat} (h : f.composites[i]? = some g) :
    ∃ before, Token.IsBlock f.tokens i before g.tokens := by
  induction f generalizing i with
  | var id => cases h
  | not f ih =>
    rw [composites, List.getElem?_append] at h
    split at h
    · obtain ⟨before, hblock⟩ := ih h
      exact ⟨before, hblock.append_right _⟩
    · rename_i hge
      exact exists_isBlock_of_last rfl (Nat.not_lt.mp hge) h
  | binary op l r ihl ihr =>
    rw [composites, List.getElem?_append] at h
    split at h
    · rw [List.getElem?_append] at h
      split at h
      · obtain ⟨before, hblock⟩ := ihl h
        rw [tokens_binary, List.append_assoc]
        exact ⟨before, hblock.append_right _⟩
      · rename_i hlt hge
        obtain ⟨before, hblock⟩ := ihr h
        have hplace : l.tokens.countP Token.isSign + (i - l.composites.length) = i := by
          rw [countP_isSign_tokens]
          omega
        have hright := (hblock.append_left l.tokens).append_right [(Connective.binary op).token]
        rw [hplace] at hright
        exact ⟨_, hright⟩
    · rename_i hge
      exact exists_isBlock_of_last rfl (Nat.not_lt.mp hge) h

theorem getLast?_composites {f : Formula Int} (h : f.composites ≠ []) :
    f.composites.getLast? = some f := by
  cases f with
  | var id => exact absurd rfl h
  | not f => exact List.getLast?_concat
  | binary op f g => exact List.getLast?_concat

end Formula

/-! ## Labels of programs put together by hand -/

theorem Algebra.value_map {α β γ : Type} (alg : Algebra α) (v : γ → α) (m : β → γ)
    (f : Formula β) : alg.value v (f.map m) = alg.value (v ∘ m) f := by
  induction f with
  | var b => rfl
  | not f ih => rw [Formula.map, value, value, ih]
  | binary op f g ihf ihg => rw [Formula.map, value, value, ihf, ihg]

/-- A token in symbols, its variables named by single characters. -/
def Token.spelled (letter : Int → Char) : Token → String
  | .var id => (letter id).toString
  | .sign symbol => symbol

theorem Formula.map_spelled_tokens (letter : Int → Char) (f : Formula Int) :
    f.tokens.map (Token.spelled letter) =
      (f.map letter).postorder Char.toString Connective.symbol := by
  induction f with
  | var id => rfl
  | not f ih =>
    rw [tokens_not, List.map_append, ih]
    rfl
  | binary op f g ihf ihg =>
    rw [tokens_binary, List.map_append, List.map_append, ihf, ihg]
    rfl

namespace Program

/-- The tokens are the postorder of a formula with a connective, and the numbers in it stand
for characters that may be variables and are no blanks. -/
structure IsLettered (p : Program) : Prop where
  postorder : ∃ f : Formula Int, p.tokens = f.tokens
  connective : ∃ s, .sign s ∈ p.tokens
  letter : ∀ id : Int, .var id ∈ p.tokens → ∃ c : Char,
    p.numbering.symbolOf? id = some c.toString ∧ Phrase.IsVariable false c ∧
      Text.isBlank c = false

/-- The formula of the tokens, and the characters that its numbers stand for. -/
structure Spells (p : Program) (f : Formula Int) (letter : Int → Char) : Prop where
  tokens : p.tokens = f.tokens
  composites : f.composites ≠ []
  symbolOf? : ∀ id ∈ f.leaves, p.numbering.symbolOf? id = some (letter id).toString
  isVariable : ∀ id ∈ f.leaves, Phrase.IsVariable false (letter id)
  not_blank : ∀ id ∈ f.leaves, Text.isBlank (letter id) = false

variable {p : Program} {f g : Formula Int} {letter : Int → Char}

theorem IsLettered.exists_spells (hp : p.IsLettered) : ∃ f letter, p.Spells f letter := by
  obtain ⟨f, hf⟩ := hp.postorder
  have hletter (id : Int) : ∃ c : Char, id ∈ f.leaves →
      p.numbering.symbolOf? id = some c.toString ∧ Phrase.IsVariable false c ∧
        Text.isBlank c = false := by
    by_cases hid : id ∈ f.leaves
    · obtain ⟨c, hc⟩ := hp.letter id (hf ▸ Token.var_mem_tokens_iff.mpr hid)
      exact ⟨c, fun _ => hc⟩
    · exact ⟨' ', fun h => absurd h hid⟩
  obtain ⟨letter, hletter⟩ := Classical.skolem.mp hletter
  refine ⟨f, letter, hf, ?_, fun id hid => (hletter id hid).1,
    fun id hid => (hletter id hid).2.1, fun id hid => (hletter id hid).2.2⟩
  obtain ⟨s, hs⟩ := hp.connective
  rw [hf] at hs
  have hpos : 0 < f.tokens.countP Token.isSign := List.countP_pos_iff.mpr ⟨_, hs, rfl⟩
  rw [Formula.countP_isSign_tokens] at hpos
  exact List.ne_nil_of_length_pos hpos

theorem Spells.listing (h : p.Spells f letter) :
    p.listing = .ok (p.tokens.map (Token.spelled letter)) := by
  refine mapM_eq_pure fun t ht => ?_
  cases t with
  | var id =>
    rw [h.tokens] at ht
    simp only [symbolOf, h.symbolOf? id (Token.var_mem_tokens_iff.mp ht)]
    rfl
  | sign symbol => rfl

theorem Spells.labels (h : p.Spells f letter) (style : Style) :
    p.labels style = .ok (f.composites.map fun g => ((g.map letter).label style).text) := by
  have hleaf : ∀ id ∈ f.leaves, (Label.algebra style p.numbering).leaf id =
      .ok { text := (letter id).toString, composite := false } := by
    intro id hid
    simp only [Label.algebra, h.symbolOf? id hid]
  rw [labels_eq_map, h.tokens, Replay.run_tokens, Algebra.evaluate_of_leaves hleaf]
  simp only [Except.map, List.map_map]
  refine congrArg Except.ok (List.map_congr_left fun g _ => ?_)
  rw [← Formula.value_labelAlgebra style p.numbering, Algebra.value_map]
  rfl

/-- The plain label of a subformula is compiled to the tokens of the subformula. -/
theorem Spells.ofText_label (h : p.Spells f letter) (hg : g ∈ f.composites) :
    ∃ q, ofText {} ((g.map letter).label .ascii).text = .ok q ∧
      q.listing = .ok (g.tokens.map (Token.spelled letter)) := by
  have hsub := Formula.leaves_subset_of_mem_composites hg
  have hvariable : ∀ c ∈ (g.map letter).leaves, Phrase.IsVariable false c := by
    rw [Formula.leaves_map]
    exact List.forall_mem_map.mpr fun id hid => h.isVariable id (hsub hid)
  have hblank : ∀ c ∈ (g.map letter).leaves, Text.isBlank c = false := by
    rw [Formula.leaves_map]
    exact List.forall_mem_map.mpr fun id hid => h.not_blank id (hsub hid)
  refine ⟨_, Formula.ofText_label hvariable hblank, ?_⟩
  rw [listing_ofFormula, Formula.map_spelled_tokens]

/-- The last label is that of the whole formula. -/
theorem Spells.ofText_last_label (h : p.Spells f letter) {headers : List String}
    (hheaders : p.labels .ascii = .ok headers) :
    ∃ header q, headers.getLast? = some header ∧ ofText {} header = .ok q ∧
      q.listing = p.listing := by
  rw [h.labels] at hheaders
  obtain rfl := Except.ok.inj hheaders
  have hlast := Formula.getLast?_composites h.composites
  obtain ⟨q, hq, hlisting⟩ := h.ofText_label (List.mem_of_getLast? hlast)
  refine ⟨_, q, ?_, hq, ?_⟩
  · rw [List.getLast?_map, hlast, Option.map_some]
  · rw [hlisting, h.listing, h.tokens]

/-- Each plain label of a program compiles to the block of its connective, whose symbols stand
in those of the program where the block stands in its tokens.  The last label compiles to the
whole, so programs with the same last label have the same symbols. -/
theorem ofText_labels (hp : p.IsLettered) :
    ∃ headers, p.labels .ascii = .ok headers ∧
      headers.length = p.tokens.countP Token.isSign ∧
      (∀ (i : Nat) (header : String), headers[i]? = some header →
        ∃ q symbols, ofText {} header = .ok q ∧ q.listing = .ok symbols ∧
          (∃ before block, Token.IsBlock p.tokens i before block) ∧
          ∀ before block, Token.IsBlock p.tokens i before block →
            ∃ left right, p.listing = .ok (left ++ symbols ++ right) ∧
              left.length = before.length ∧ symbols.length = block.length) ∧
      (∃ header q symbols, headers.getLast? = some header ∧ ofText {} header = .ok q ∧
        q.listing = .ok symbols ∧ p.listing = .ok symbols) ∧
      ∀ p' : Program, p'.IsLettered → ∀ headers', p'.labels .ascii = .ok headers' →
        headers'.getLast? = headers.getLast? → p'.listing = p.listing := by
  obtain ⟨f, letter, h⟩ := hp.exists_spells
  obtain ⟨header, q, hlast, hq, hlisting⟩ := h.ofText_last_label (h.labels .ascii)
  refine ⟨_, h.labels .ascii, ?_, ?_, ?_, ?_⟩
  · rw [List.length_map, h.tokens, Formula.countP_isSign_tokens]
  · intro i header hheader
    rw [List.getElem?_map] at hheader
    obtain ⟨g, hg, rfl⟩ := Option.map_eq_some_iff.mp hheader
    obtain ⟨q, hq, hlisting⟩ := h.ofText_label (List.mem_of_getElem? hg)
    obtain ⟨before, hblock⟩ := Formula.exists_isBlock hg
    rw [h.listing, h.tokens]
    refine ⟨q, _, hq, hlisting, ⟨before, _, hblock⟩, fun before' block hblock' => ?_⟩
    obtain ⟨rfl, rfl⟩ := hblock.unique hblock'
    obtain ⟨after, hafter⟩ := hblock.begins
    refine ⟨before.map (Token.spelled letter), after.map (Token.spelled letter), ?_,
      List.length_map _, List.length_map _⟩
    rw [← hafter, List.map_append, List.map_append]
  · exact ⟨header, q, _, hlast, hq, hlisting.trans h.listing, h.listing⟩
  · intro p' hp' headers' hheaders' hsame
    obtain ⟨f', letter', h'⟩ := hp'.exists_spells
    obtain ⟨header', q', hlast', hq', hlisting'⟩ := h'.ofText_last_label hheaders'
    rw [hlast, hlast'] at hsame
    obtain rfl := Option.some.inj hsame
    rw [hq] at hq'
    obtain rfl := Except.ok.inj hq'
    exact hlisting'.symm.trans hlisting

/-- The inner conjunction is a left operand, which would be grouped to the right without its
parentheses. -/
theorem ofText_labels_nested :
    let p : Program :=
      { tokens := [.var 7, .var (-3), .sign "&", .var 7, .sign "&", .sign "~"]
        numbering := .ofPairs [] [("x", 7), ("y", -3)] }
    p.IsLettered ∧ p.labels .ascii = .ok ["x&y", "(x&y)&x", "~((x&y)&x)"] ∧
      ∃ q, ofText {} "~((x&y)&x)" = .ok q ∧ q.listing = p.listing := by
  intro p
  have hletter : ∀ id : Int, .var id ∈ p.tokens → ∃ c : Char,
      p.numbering.symbolOf? id = some c.toString ∧ Phrase.IsVariable false c ∧
        Text.isBlank c = false := by
    intro id hid
    have hid : id = 7 ∨ id = -3 ∨ id = 7 := by simpa [p] using hid
    rcases hid with rfl | rfl | rfl
    · exact ⟨'x', rfl, by decide, rfl⟩
    · exact ⟨'y', rfl, by decide, rfl⟩
    · exact ⟨'x', rfl, by decide, rfl⟩
  have hp : p.IsLettered :=
    { postorder :=
        ⟨.not (.binary .and (.binary .and (.var 7) (.var (-3))) (.var 7)), rfl⟩
      connective := ⟨"~", by simp [p]⟩
      letter := hletter }
  have hlabels : p.labels .ascii = .ok ["x&y", "(x&y)&x", "~((x&y)&x)"] := rfl
  obtain ⟨headers, hheaders, -, -, ⟨header, q, symbols, hlast, hq, hsymbols, hlisting⟩, -⟩ :=
    ofText_labels hp
  obtain rfl := Except.ok.inj (hlabels.symm.trans hheaders)
  obtain rfl := Option.some.inj hlast
  exact ⟨hp, hlabels, q, hq, hsymbols.trans hlisting.symm⟩

end Program
end PropTable

import PropTable.Proofs.Blanks
import PropTable.Proofs.Interning

/-!
# Texts inside texts

A variable of a text is a hole in a context, which a phrase in parentheses fills as well.  In
the text the context stands around the phrase, and in the program it stands around what the
phrase emits, so a text in parentheses may take the place of a variable
(`Program.ofText_graft`).
-/

namespace PropTable

/-! ## Contexts -/

/-- A phrase with a hole, where another phrase may stand. -/
inductive Phrase.Context where
  | hole
  | paren (k : Context)
  | not (k : Context)
  | left (op : Binary) (k : Context) (right : Phrase)
  | right (op : Binary) (left : Phrase) (k : Context)

namespace Phrase.Context

def plug : Context → Phrase → Phrase
  | hole, f => f
  | paren k, f => .paren (k.plug f)
  | not k, f => .not (k.plug f)
  | left op k g, f => .binary op (k.plug f) g
  | right op g k, f => .binary op g (k.plug f)

/-- The text before the hole. -/
def before : Context → List Char
  | hole => []
  | paren k => '(' :: k.before
  | not k => Connective.not.sign :: k.before
  | left _ k _ => k.before
  | right op g k => g.text ++ op.sign :: k.before

/-- The text after the hole. -/
def after : Context → List Char
  | hole => []
  | paren k => k.after ++ [')']
  | not k => k.after
  | left op k g => k.after ++ op.sign :: g.text
  | right _ _ k => k.after

variable {β : Type} (leaf : Char → β) (sign : Connective → β)

/-- The nodes that come before the hole in postorder. -/
def leading : Context → List β
  | hole => []
  | paren k | not k | left _ k _ => k.leading
  | right _ g k => g.formula.postorder leaf sign ++ k.leading

/-- The nodes that come after the hole in postorder. -/
def trailing : Context → List β
  | hole => []
  | paren k => k.trailing
  | not k => k.trailing ++ [sign .not]
  | left op k g => k.trailing ++ g.formula.postorder leaf sign ++ [sign (.binary op)]
  | right op _ k => k.trailing ++ [sign (.binary op)]

theorem text_plug (k : Context) (f : Phrase) : (k.plug f).text = k.before ++ f.text ++ k.after := by
  induction k with
  | hole => exact (List.append_nil _).symm
  | paren k ih | not k ih | left op k g ih | right op g k ih =>
    simp only [plug, text, before, after, ih, List.append_assoc, List.cons_append]

theorem postorder_plug (k : Context) (f : Phrase) :
    (k.plug f).formula.postorder leaf sign =
      k.leading leaf sign ++ f.formula.postorder leaf sign ++ k.trailing leaf sign := by
  induction k with
  | hole => exact (List.append_nil _).symm
  | paren k ih => exact ih
  | not k ih | left op k g ih | right op g k ih =>
    simp only [plug, formula, Formula.postorder, leading, trailing, ih, List.append_assoc]

theorem fits_plug {strict : Bool} {level : Nat} {k : Context} {f g : Phrase}
    (hfg : ∀ level, Fits strict level f → Fits strict level g)
    (h : Fits strict level (k.plug f)) : Fits strict level (k.plug g) := by
  induction k generalizing level with
  | hole => exact hfg level h
  | paren k ih =>
    have hin : Fits strict 1 (k.plug f) := h
    exact ih hin
  | not k ih => exact ⟨h.1, ih h.2⟩
  | left op k r ih => exact ⟨h.1, ih h.2.1, h.2.2⟩
  | right op l k ih => exact ⟨h.1, h.2.1, ih h.2.2⟩

theorem formula_plug_congr {f g : Phrase} (h : f.formula = g.formula) (k : Context) :
    (k.plug f).formula = (k.plug g).formula := by
  induction k with
  | hole => exact h
  | paren k ih => exact ih
  | not k ih | left op k r ih | right op l k ih => simp only [plug, formula, ih]

theorem exists_fits_of_plug {strict : Bool} {level : Nat} {k : Context} {f : Phrase}
    (h : Fits strict level (k.plug f)) : ∃ level, Fits strict level f := by
  induction k generalizing level with
  | hole => exact ⟨level, h⟩
  | paren k ih =>
    have hin : Fits strict 1 (k.plug f) := h
    exact ih hin
  | not k ih => exact ih h.2
  | left op k r ih => exact ih h.2.1
  | right op l k ih => exact ih h.2.2

end Phrase.Context

theorem append_eq_append_cons_cases {α : Type} {xs ys before after : List α} {a : α}
    (h : xs ++ ys = before ++ a :: after) :
    (∃ middle, xs = before ++ a :: middle ∧ after = middle ++ ys) ∨
      ∃ middle, before = xs ++ middle ∧ ys = middle ++ a :: after := by
  rcases List.append_eq_append_iff.mp h with ⟨middle, hbefore, hys⟩ | ⟨middle, hxs, hafter⟩
  · exact .inr ⟨middle, hbefore, hys⟩
  · cases middle with
    | nil => exact .inr ⟨[], by simpa using hxs.symm, by simpa using hafter.symm⟩
    | cons b middle =>
      obtain ⟨rfl, rfl⟩ := List.cons.inj hafter
      exact .inl ⟨middle, hxs, rfl⟩

namespace Phrase

/-- Each variable in the text of a phrase stands in a context. -/
theorem exists_plug_eq {f : Phrase} {before after : List Char} {c : Char}
    (hc : IsVariable false c) (h : f.text = before ++ c :: after) :
    ∃ k : Context, f = k.plug (.var c) ∧ k.before = before ∧ k.after = after := by
  have hsign (op : Connective) : op.sign ≠ c := by
    rintro rfl
    exact not_isVariable_sign op hc
  induction f generalizing before after with
  | var d =>
    cases before with
    | nil =>
      obtain ⟨rfl, rfl⟩ := List.cons.inj h
      exact ⟨.hole, rfl, rfl, rfl⟩
    | cons b before => simp [text] at h
  | paren f ih =>
    cases before with
    | nil => exact absurd (List.cons.inj h).1.symm hc.1
    | cons b before =>
      obtain ⟨rfl, hin⟩ := List.cons.inj h
      rcases append_eq_append_cons_cases hin with ⟨middle, hf, rfl⟩ | ⟨middle, -, hlast⟩
      · obtain ⟨k, rfl, rfl, rfl⟩ := ih hf
        exact ⟨.paren k, rfl, rfl, rfl⟩
      · cases middle with
        | nil => exact absurd (List.cons.inj hlast).1.symm hc.2.1
        | cons b middle => simp at hlast
  | not f ih =>
    cases before with
    | nil => exact absurd (List.cons.inj h).1 (hsign .not)
    | cons b before =>
      obtain ⟨rfl, hin⟩ := List.cons.inj h
      obtain ⟨k, rfl, rfl, rfl⟩ := ih hin
      exact ⟨.not k, rfl, rfl, rfl⟩
  | binary op f g ihf ihg =>
    rcases append_eq_append_cons_cases h with ⟨middle, hf, rfl⟩ | ⟨middle, rfl, hright⟩
    · obtain ⟨k, rfl, rfl, rfl⟩ := ihf hf
      exact ⟨.left op k g, rfl, rfl, rfl⟩
    · cases middle with
      | nil => exact absurd (List.cons.inj hright).1 (hsign (.binary op))
      | cons b middle =>
        obtain ⟨rfl, hg⟩ := List.cons.inj hright
        obtain ⟨k, rfl, rfl, rfl⟩ := ihg hg
        exact ⟨.right op f k, rfl, rfl, rfl⟩

end Phrase

/-! ## The operands before the hole -/

theorem Formula.postorder_map {α β γ : Type} (m : α → β) (leaf : β → γ) (sign : Connective → γ)
    (f : Formula α) : (f.map m).postorder leaf sign = f.postorder (leaf ∘ m) sign := by
  induction f with
  | var a => rfl
  | not f ih => simp only [map, postorder, ih]
  | binary op f g ihf ihg => simp only [map, postorder, ihf, ihg]

theorem Formula.length_postorder {α β γ : Type} (leaf : α → β) (sign : Connective → β)
    (leaf' : α → γ) (sign' : Connective → γ) (f : Formula α) :
    (f.postorder leaf sign).length = (f.postorder leaf' sign').length := by
  induction f with
  | var a => rfl
  | not f ih => simp only [postorder, List.length_append, ih, List.length_singleton]
  | binary op f g ihf ihg =>
    simp only [postorder, List.length_append, ihf, ihg, List.length_singleton]

namespace Phrase

namespace Context

theorem length_leading {β γ : Type} (leaf : Char → β) (sign : Connective → β)
    (leaf' : Char → γ) (sign' : Connective → γ) (k : Context) :
    (k.leading leaf sign).length = (k.leading leaf' sign').length := by
  induction k with
  | hole => rfl
  | paren k ih | not k ih | left op k g ih => exact ih
  | right op g k ih =>
    simp only [leading, List.length_append, ih, g.formula.length_postorder leaf sign leaf' sign']

/-- The operands before the hole are the variables in the text before it. -/
theorem filterMap_id?_leading {strict : Bool} {level : Nat} {k : Context} {f : Phrase}
    (h : Fits strict level (k.plug f)) (number : Char → Int) :
    (k.leading (fun c => .var (number c)) Connective.token).filterMap Token.id? =
      (occurrences k.before).map number := by
  induction k generalizing level with
  | hole => rfl
  | paren k ih =>
    have hin : Fits strict 1 (k.plug f) := h
    rw [before, occurrences_cons_of_not (by decide)]
    exact ih hin
  | not k ih =>
    rw [before, occurrences_cons_of_not (not_isVariable_sign .not)]
    exact ih h.2
  | left op k g ih => exact ih h.2.1
  | right op g k ih =>
    have hleft : (g.formula.postorder (fun c => .var (number c)) Connective.token).filterMap
        Token.id? = g.formula.leaves.map number := by
      rw [← Formula.leaves_map, ← Formula.filterMap_id?_tokens, Formula.tokens,
        Formula.postorder_map]
      rfl
    have hsign : ¬IsVariable false op.sign := not_isVariable_sign (.binary op)
    rw [leading, before, List.filterMap_append, hleft, ih h.2.2, occurrences_append,
      occurrences_text h.2.1, occurrences_cons_of_not hsign, List.map_append]

end Context
end Phrase

/-! ## Texts in parentheses -/

/-- A text in parentheses between two other texts. -/
def Text.enclosed (before inner after : List Char) : List Char :=
  before ++ '(' :: inner ++ ')' :: after

theorem Text.trim_enclosed {before after : List Char} {c : Char}
    (h : trim (before ++ c :: after) = before ++ c :: after) (inner : List Char) :
    trim (enclosed before inner after) = enclosed before inner after := by
  rw [enclosed]
  rw [trim_eq_self_iff, List.getLast?_append_of_ne_nil _ (List.cons_ne_nil _ _)] at h ⊢
  constructor
  · cases before with
    | nil =>
      intro d hd
      obtain rfl := Option.some.inj hd
      rfl
    | cons b before => exact h.1
  · cases after with
    | nil =>
      intro d hd
      obtain rfl := Option.some.inj hd
      rfl
    | cons a after =>
      rw [List.getLast?_cons_cons] at h ⊢
      exact h.2

namespace Program

open Phrase

variable {settings : Settings}

theorem tokens_ofFormula (source : String) (f : Formula Char) : (ofFormula source f).tokens =
    f.postorder (fun c => .var (Numbering.numberIn (f.leaves.map Char.toString) c.toString))
      Connective.token :=
  Formula.postorder_map ..

/-- A phrase in parentheses is read wherever a variable is. -/
theorem ofText_plug {k : Context} {c : Char} (f : Phrase)
    (hk : Reads settings.strict (k.before ++ c :: k.after) (k.plug (.var c)))
    (htrim : Text.trim (k.before ++ c :: k.after) = k.before ++ c :: k.after)
    (hf : Fits settings.strict 1 f) :
    ofText settings (String.ofList (Text.enclosed k.before f.text k.after)) =
      .ok (ofFormula (String.ofList (Text.enclosed k.before f.text k.after))
        (k.plug (.paren f)).formula) := by
  refine ofText_ofList (Text.trim_enclosed htrim f.text) ⟨?_, ?_⟩
  · exact Context.fits_plug (fun _ _ => hf) hk.1
  · rw [Context.text_plug, Text.enclosed, text, List.append_assoc, List.append_assoc,
      List.append_assoc]
    rfl

/-- A text that is read as a formula may stand in parentheses where another text has a variable:
its program stands where the operand stood that was the variable.  Parentheses around the whole
text, or around the variable, change nothing. -/
theorem ofText_graft {text inner : String} {p q : Program} {before after : List Char} {c : Char}
    (htext : Text.trimmed text = text) (hsplit : text.toList = before ++ c :: after)
    (hc : IsVariable false c) (hp : ofText settings text = .ok p)
    (hinner : Text.trimmed inner = inner) (hq : ofText settings inner = .ok q) :
    (∃ (left right : List Token) (id : Int) (leading trailing symbols : List String)
        (r : Program),
      p.tokens = left ++ .var id :: right ∧
      (left.filterMap Token.id?).length = (occurrences before).length ∧
      p.listing = .ok (leading ++ c.toString :: trailing) ∧ leading.length = left.length ∧
      q.listing = .ok symbols ∧
      ofText settings (String.ofList (Text.enclosed before inner.toList after)) = .ok r ∧
      r.listing = .ok (leading ++ symbols ++ trailing)) ∧
    (∃ r, ofText settings (String.ofList (Text.enclosed [] text.toList [])) = .ok r ∧
      r.tokens = p.tokens ∧ r.listing = p.listing) ∧
    ∃ r, ofText settings (String.ofList (Text.enclosed before [c] after)) = .ok r ∧
      r.tokens = p.tokens ∧ r.listing = p.listing := by
  obtain ⟨f, hf, rfl⟩ := ofText_eq_ok_iff_reads.mp hp
  obtain ⟨g, hg, rfl⟩ := ofText_eq_ok_iff_reads.mp hq
  have htrim := Text.trim_toList htext
  rw [htrim] at hf
  rw [Text.trim_toList hinner] at hg
  rw [hsplit] at hf htrim
  obtain ⟨k, rfl, rfl, rfl⟩ := exists_plug_eq hc hf.2
  have hgraft := ofText_plug g hf htrim hg.1
  rw [hg.2] at hgraft
  let number (d : Char) : Int :=
    Numbering.numberIn ((k.plug (.var c)).formula.leaves.map Char.toString) d.toString
  refine ⟨?_, ?_, ?_⟩
  · refine ⟨k.leading (fun d => .var (number d)) Connective.token,
      k.trailing (fun d => .var (number d)) Connective.token, number c,
      k.leading Char.toString Connective.symbol, k.trailing Char.toString Connective.symbol,
      _, _, ?_, ?_, ?_, ?_, listing_ofFormula _ _, hgraft, ?_⟩
    · rw [tokens_ofFormula, Context.postorder_plug, List.append_assoc]
      rfl
    · rw [Context.filterMap_id?_leading hf.1, List.length_map]
    · rw [listing_ofFormula, Context.postorder_plug, List.append_assoc]
      rfl
    · exact Context.length_leading ..
    · rw [listing_ofFormula, Context.postorder_plug]
      rfl
  · -- The whole text stands where a text of one letter is nothing but a hole.
    have hletter : Reads settings.strict ['p'] (.var 'p') :=
      ⟨⟨by decide, by decide, by decide, fun _ => by decide⟩, rfl⟩
    have hwhole := ofText_plug (k := .hole) (k.plug (.var c)) hletter rfl hf.1
    rw [hf.2, ← hsplit] at hwhole
    refine ⟨_, hwhole, rfl, ?_⟩
    rw [listing_ofFormula, listing_ofFormula]
    rfl
  · obtain ⟨level, hvariable⟩ := Context.exists_fits_of_plug hf.1
    have hsame : (k.plug (.paren (.var c))).formula = (k.plug (.var c)).formula :=
      Context.formula_plug_congr (f := .paren (.var c)) (g := .var c) rfl k
    have hgraft := ofText_plug (.var c) hf htrim hvariable
    rw [hsame] at hgraft
    refine ⟨_, hgraft, rfl, ?_⟩
    rw [listing_ofFormula, listing_ofFormula]

/-- An implication takes the place of a blank that is negated. -/
theorem ofText_graft_blank :
    Text.trimmed "p&~ |q" = "p&~ |q" ∧ IsVariable false ' ' ∧ Text.trimmed "q>p" = "q>p" ∧
      ∃ p q r, ofText {} "p&~ |q" = .ok p ∧ ofText {} "q>p" = .ok q ∧
        p.listing = .ok ["p", " ", "~", "&", "q", "|"] ∧ ofText {} "p&~(q>p)|q" = .ok r ∧
        r.listing = .ok ["p", "q", "p", ">", "~", "&", "q", "|"] := by
  have htext : Text.trimmed "p&~ |q" = "p&~ |q" := rfl
  have hsplit : "p&~ |q".toList = ['p', '&', '~'] ++ ' ' :: ['|', 'q'] := rfl
  have hblank : IsVariable false ' ' := by decide
  have hinner : Text.trimmed "q>p" = "q>p" := rfl
  let p : Program := .ofFormula "p&~ |q"
    (.binary .or (.binary .and (.var 'p') (.not (.var ' '))) (.var 'q'))
  let q : Program := .ofFormula "q>p" (.binary .implies (.var 'q') (.var 'p'))
  have hp : ofText {} "p&~ |q" = .ok p := rfl
  have hq : ofText {} "q>p" = .ok q := rfl
  have hlisting : p.listing = .ok ["p", " ", "~", "&", "q", "|"] := rfl
  obtain ⟨left, right, id, leading, trailing, symbols, r, -, -, hleading, -, hsymbols, hr,
      hgraft⟩ := (ofText_graft htext hsplit hblank hp hinner hq).1
  obtain rfl : ["q", "p", ">"] = symbols := Except.ok.inj hsymbols
  obtain ⟨rfl, rfl⟩ : leading = ["p"] ∧ trailing = ["~", "&", "q", "|"] := by
    have hplace := Except.ok.inj (hlisting.symm.trans hleading)
    have hname : ' '.toString = " " := rfl
    simpa [List.cons_eq_append_iff, hname] using hplace
  exact ⟨htext, hblank, hinner, p, q, r, hp, hq, hlisting, hr, hgraft⟩

end Program
end PropTable

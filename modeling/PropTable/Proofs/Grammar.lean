import PropTable.Phrase

/-!
# The grammar of formulas and its derivation trees

The grammar has one category for each precedence.  A binary connective takes a tighter left
operand and a right operand of its own category, so chains group to the right:

    iff     := implies | implies '<' iff
    implies := or | or '>' implies
    or      := and | and '|' or | and '^' or
    and     := unary | unary '&' and
    unary   := atom | '~' unary
    atom    := variable | '(' iff ')'

A derivation tree is a phrase with the unit productions written out
(`Derivation.exists_phrase_eq`, `Derivation.eq_of_phrase_eq`).  The grammar is unambiguous
because a phrase is determined by its text, which is `Phrase.Reads.unique`.
-/

namespace PropTable

namespace Binary

theorem sign_injective {op op' : Binary} (h : op.sign = op'.sign) : op = op' := by
  have hc := congrArg Connective.ofChar? h
  simpa using (Connective.ofChar?_sign (.binary op)).symm.trans
    (hc.trans (Connective.ofChar?_sign (.binary op')))

theorem precedence_pos (op : Binary) : 1 ≤ op.precedence := by cases op <;> decide

theorem precedence_lt_not (op : Binary) : op.precedence < Connective.not.precedence := by
  cases op <;> decide

end Binary

namespace Phrase

/-! ## A phrase is determined by its text -/

/-- A text that does not continue a phrase of the given level: no connective at its start
binds as strongly as that. -/
def Stops (level : Nat) (cs : List Char) : Prop :=
  ∀ (op : Binary) (rest : List Char), cs = op.sign :: rest → op.precedence < level

theorem Stops.mono {low high : Nat} (h : low ≤ high) {cs : List Char} (hs : Stops low cs) :
    Stops high cs :=
  fun op rest e => Nat.lt_of_lt_of_le (hs op rest e) h

theorem stops_nil (level : Nat) : Stops level [] := by
  intro op rest h
  cases h

theorem stops_close (level : Nat) (cs : List Char) : Stops level (')' :: cs) := by
  intro op rest h
  cases op <;> simp [Binary.sign] at h

theorem stops_sign (op : Binary) (cs : List Char) :
    Stops (op.precedence + 1) (op.sign :: cs) := by
  intro op' rest h
  obtain rfl := Binary.sign_injective (List.cons.inj h).1
  exact Nat.lt_succ_self _

theorem stops_not (cs : List Char) : Stops Connective.not.precedence cs :=
  fun op _ _ => op.precedence_lt_not

theorem IsVariable.ne_not {strict : Bool} {c : Char} (h : IsVariable strict c) :
    c ≠ Connective.not.sign := by
  rintro rfl
  have := h.2.2.1
  simp at this

/-- How strongly a phrase binds.  Variables and phrases in parentheses bind most. -/
def strength : Phrase → Nat
  | var _ | paren _ => Connective.not.precedence + 1
  | not _ => Connective.not.precedence
  | binary op _ _ => op.precedence

theorem Fits.of_le_strength {strict : Bool} {level high : Nat} {f : Phrase}
    (hf : Fits strict level f) (h : high ≤ f.strength) : Fits strict high f := by
  cases f with
  | var c => exact hf
  | paren f => exact hf
  | not f => exact ⟨h, hf.2⟩
  | binary op l r => exact ⟨h, hf.2⟩

/-- Phrases shorter than `n` in sum are determined by their texts: two phrases of one level
are equal if one text begins with both and nothing that follows continues them. -/
def DeterminedBelow (strict : Bool) (n : Nat) : Prop :=
  ∀ {level : Nat} {f g : Phrase} {rest rest' : List Char},
    f.text.length + g.text.length < n → Fits strict level f → Fits strict level g →
    Stops level rest → Stops level rest' → f.text ++ rest = g.text ++ rest' →
    f = g ∧ rest = rest'

/-- A joined phrase is not read where a phrase that binds more strongly is read: this one
would be the left operand, and the connective would continue it. -/
theorem DeterminedBelow.not_stronger {strict : Bool} {n level : Nat}
    (ih : DeterminedBelow strict n) {op : Binary} {l r g : Phrase} {rest rest' : List Char}
    (hlen : (binary op l r).text.length + g.text.length ≤ n)
    (hf : Fits strict level (binary op l r)) (hg : Fits strict level g)
    (hstrong : op.precedence < g.strength) (hrest' : Stops level rest') :
    (binary op l r).text ++ rest ≠ g.text ++ rest' := by
  intro h
  simp only [text, List.append_assoc, List.cons_append] at h hlen
  simp only [List.length_append, List.length_cons] at hlen
  obtain ⟨-, he⟩ := ih (by omega) hf.2.1 (hg.of_le_strength hstrong) (stops_sign op _)
    (hrest'.mono (Nat.le_succ_of_le hf.1)) h
  exact Nat.lt_irrefl _ (Nat.lt_of_lt_of_le (hrest' op _ he.symm) hf.1)

/-- Joined phrases that bind alike have the same left operand, connective and right
operand. -/
theorem DeterminedBelow.joined {strict : Bool} {n level : Nat}
    (ih : DeterminedBelow strict n) {op op' : Binary} {l r l' r' : Phrase}
    {rest rest' : List Char}
    (hlen : (binary op l r).text.length + (binary op' l' r').text.length ≤ n)
    (hf : Fits strict level (binary op l r)) (hg : Fits strict level (binary op' l' r'))
    (halike : op.precedence = op'.precedence) (hrest : Stops level rest)
    (hrest' : Stops level rest')
    (h : (binary op l r).text ++ rest = (binary op' l' r').text ++ rest') :
    binary op l r = binary op' l' r' ∧ rest = rest' := by
  simp only [text, List.append_assoc, List.cons_append] at h hlen
  simp only [List.length_append, List.length_cons] at hlen
  obtain ⟨rfl, he⟩ := ih (by omega) hf.2.1 (halike ▸ hg.2.1) (stops_sign op _)
    (halike ▸ stops_sign op' _) h
  obtain ⟨hop, hright⟩ := List.cons.inj he
  obtain rfl := Binary.sign_injective hop
  obtain ⟨rfl, hafter⟩ :=
    ih (by omega) hf.2.2 hg.2.2 (hrest.mono hf.1) (hrest'.mono hf.1) hright
  exact ⟨rfl, hafter⟩

theorem DeterminedBelow.operands {strict : Bool} {n level : Nat}
    (ih : DeterminedBelow strict n) {f g : Phrase} {rest rest' : List Char}
    (hlen : f.text.length + g.text.length ≤ n)
    (hf : Fits strict level f) (hg : Fits strict level g)
    (hsf : Connective.not.precedence ≤ f.strength) (hsg : Connective.not.precedence ≤ g.strength)
    (h : f.text ++ rest = g.text ++ rest') : f = g ∧ rest = rest' := by
  have hjoined : ∀ op : Binary, ¬Connective.not.precedence ≤ op.precedence := fun op =>
    Nat.not_le_of_lt op.precedence_lt_not
  cases f with
  | binary op l r => exact absurd hsf (hjoined op)
  | var c =>
    cases g with
    | binary op l r => exact absurd hsg (hjoined op)
    | var d =>
      obtain ⟨rfl, he⟩ := List.cons.inj h
      exact ⟨rfl, he⟩
    | paren g => exact absurd (List.cons.inj h).1 hf.1
    | not g => exact absurd (List.cons.inj h).1 hf.ne_not
  | paren f =>
    cases g with
    | binary op l r => exact absurd hsg (hjoined op)
    | var d => exact absurd (List.cons.inj h).1.symm hg.1
    | paren g =>
      simp only [text, List.length_append, List.length_cons] at hlen
      simp only [text, List.cons_append, List.append_assoc, List.cons.injEq, true_and] at h
      have hfin : Fits strict 1 f := hf
      have hgin : Fits strict 1 g := hg
      obtain ⟨rfl, he⟩ := ih (by omega) hfin hgin (stops_close 1 _) (stops_close 1 _) h
      exact ⟨rfl, (List.cons.inj he).2⟩
    | not g => exact absurd (List.cons.inj h).1 (by decide)
  | not f =>
    cases g with
    | binary op l r => exact absurd hsg (hjoined op)
    | var d => exact absurd (List.cons.inj h).1.symm hg.ne_not
    | paren g => exact absurd (List.cons.inj h).1 (by decide)
    | not g =>
      simp only [text, List.length_cons] at hlen
      simp only [text, List.cons_append, List.cons.injEq, true_and] at h
      obtain ⟨rfl, he⟩ := ih (by omega) hf.2 hg.2 (stops_not _) (stops_not _) h
      exact ⟨rfl, he⟩

theorem strength_cases (f : Phrase) :
    Connective.not.precedence ≤ f.strength ∨ ∃ op l r, f = binary op l r := by
  cases f with
  | var c => exact .inl (Nat.le_succ _)
  | paren f => exact .inl (Nat.le_succ _)
  | not f => exact .inl (Nat.le_refl _)
  | binary op l r => exact .inr ⟨op, l, r, rfl⟩

/-- All phrases are determined by their texts.  Of two phrases the one that binds less
strongly is joined, so it cannot be read where the other is. -/
theorem determinedBelow (strict : Bool) (n : Nat) : DeterminedBelow strict n := by
  -- The bound is on both texts together: the operands of either phrase make it smaller.
  induction n with
  | zero => exact fun hlen => absurd hlen (Nat.not_lt_zero _)
  | succ n ih =>
    intro level f g rest rest' hlen hf hg hrest hrest' h
    have hlen := Nat.le_of_lt_succ hlen
    rcases strength_cases f with hsf | ⟨op, l, r, rfl⟩
    · rcases strength_cases g with hsg | ⟨op', l', r', rfl⟩
      · exact ih.operands hlen hf hg hsf hsg h
      · have hstrong := Nat.lt_of_lt_of_le op'.precedence_lt_not hsf
        exact absurd h.symm (ih.not_stronger (by omega) hg hf hstrong hrest)
    · rcases Nat.lt_trichotomy op.precedence g.strength with hlt | heq | hgt
      · exact absurd h (ih.not_stronger hlen hf hg hlt hrest')
      · rcases strength_cases g with hsg | ⟨op', l', r', rfl⟩
        · exact absurd (heq ▸ hsg) (Nat.not_le_of_lt op.precedence_lt_not)
        · exact ih.joined hlen hf hg heq hrest hrest' h
      · rcases strength_cases g with hsg | ⟨op', l', r', rfl⟩
        · exact absurd (Nat.lt_of_le_of_lt hsg hgt) (Nat.lt_asymm op.precedence_lt_not)
        · exact absurd h.symm (ih.not_stronger (by omega) hg hf hgt hrest)

theorem Reads.unique {strict : Bool} {cs : List Char} {f g : Phrase}
    (hf : Reads strict cs f) (hg : Reads strict cs g) : f = g :=
  (determinedBelow strict _ (Nat.lt_succ_self _) hf.1 hg.1 (stops_nil 1) (stops_nil 1)
    (by rw [hf.2, hg.2])).1

end Phrase

/-! ## Derivation trees -/

inductive Category where
  | iff
  | implies
  | or
  | and
  | unary
  | atom
deriving DecidableEq, Repr

def Category.level : Category → Nat
  | iff => 1
  | implies => 2
  | or => 3
  | and => 4
  | unary => 5
  | atom => 6

theorem Category.level_le (k : Category) : k.level ≤ 6 := by cases k <;> decide

theorem Category.level_injective {k k' : Category} (h : k.level = k'.level) : k = k' := by
  revert h
  cases k <;> cases k' <;> decide

/-- The category to which the unit production of a category leads. -/
def Category.tighter : Category → Category
  | iff => implies
  | implies => or
  | or => and
  | and => unary
  | unary | atom => atom

theorem Category.level_tighter {k : Category} (h : k.level < 6) :
    k.tighter.level = k.level + 1 := by
  revert h
  cases k <;> decide

def Binary.category : Binary → Category
  | .and => .and
  | .or | .xor => .or
  | .implies => .implies
  | .iff => .iff

/-- The derivation trees of a category, with one constructor for each alternative of the
grammar.  The ones named after a category only pass from it to the next tighter one. -/
inductive Derivation (strict : Bool) : Category → Type where
  | ofImplies (d : Derivation strict .implies) : Derivation strict .iff
  | iff (left : Derivation strict .implies) (right : Derivation strict .iff) :
      Derivation strict .iff
  | ofOr (d : Derivation strict .or) : Derivation strict .implies
  | implies (left : Derivation strict .or) (right : Derivation strict .implies) :
      Derivation strict .implies
  | ofAnd (d : Derivation strict .and) : Derivation strict .or
  | or (left : Derivation strict .and) (right : Derivation strict .or) : Derivation strict .or
  | xor (left : Derivation strict .and) (right : Derivation strict .or) : Derivation strict .or
  | ofUnary (d : Derivation strict .unary) : Derivation strict .and
  | and (left : Derivation strict .unary) (right : Derivation strict .and) :
      Derivation strict .and
  | ofAtom (d : Derivation strict .atom) : Derivation strict .unary
  | not (d : Derivation strict .unary) : Derivation strict .unary
  | var (c : Char) (h : Phrase.IsVariable strict c) : Derivation strict .atom
  | paren (d : Derivation strict .iff) : Derivation strict .atom

namespace Derivation

variable {strict : Bool}

def text : {k : Category} → Derivation strict k → List Char
  | _, ofImplies d | _, ofOr d | _, ofAnd d | _, ofUnary d | _, ofAtom d => d.text
  | _, iff l r => l.text ++ '<' :: r.text
  | _, implies l r => l.text ++ '>' :: r.text
  | _, or l r => l.text ++ '|' :: r.text
  | _, xor l r => l.text ++ '^' :: r.text
  | _, and l r => l.text ++ '&' :: r.text
  | _, not d => '~' :: d.text
  | _, var c _ => [c]
  | _, paren d => '(' :: d.text ++ [')']

/-- The formula that a tree stands for: unit productions and parentheses leave no trace. -/
def formula : {k : Category} → Derivation strict k → Formula Char
  | _, ofImplies d | _, ofOr d | _, ofAnd d | _, ofUnary d | _, ofAtom d => d.formula
  | _, iff l r => .binary .iff l.formula r.formula
  | _, implies l r => .binary .implies l.formula r.formula
  | _, or l r => .binary .or l.formula r.formula
  | _, xor l r => .binary .xor l.formula r.formula
  | _, and l r => .binary .and l.formula r.formula
  | _, not d => .not d.formula
  | _, var c _ => .var c
  | _, paren d => d.formula

/-- The phrase of a tree, which keeps the parentheses. -/
def phrase : {k : Category} → Derivation strict k → Phrase
  | _, ofImplies d | _, ofOr d | _, ofAnd d | _, ofUnary d | _, ofAtom d => d.phrase
  | _, iff l r => .binary .iff l.phrase r.phrase
  | _, implies l r => .binary .implies l.phrase r.phrase
  | _, or l r => .binary .or l.phrase r.phrase
  | _, xor l r => .binary .xor l.phrase r.phrase
  | _, and l r => .binary .and l.phrase r.phrase
  | _, not d => .not d.phrase
  | _, var c _ => .var c
  | _, paren d => .paren d.phrase

theorem phrase_text {k : Category} (d : Derivation strict k) : d.phrase.text = d.text := by
  induction d with
  | ofImplies d ih | ofOr d ih | ofAnd d ih | ofUnary d ih | ofAtom d ih => exact ih
  | iff l r ihl ihr | implies l r ihl ihr | or l r ihl ihr | xor l r ihl ihr
  | and l r ihl ihr => simp only [phrase, Phrase.text, text, ihl, ihr, Binary.sign]
  | not d ih => simp only [phrase, Phrase.text, text, ih, Connective.sign]
  | var c h => rfl
  | paren d ih => simp only [phrase, Phrase.text, text, ih]

theorem phrase_formula {k : Category} (d : Derivation strict k) :
    d.phrase.formula = d.formula := by
  induction d with
  | ofImplies d ih | ofOr d ih | ofAnd d ih | ofUnary d ih | ofAtom d ih => exact ih
  | iff l r ihl ihr | implies l r ihl ihr | or l r ihl ihr | xor l r ihl ihr
  | and l r ihl ihr => simp only [phrase, Phrase.formula, formula, ihl, ihr]
  | not d ih => simp only [phrase, Phrase.formula, formula, ih]
  | var c h => rfl
  | paren d ih => exact ih

theorem phrase_fits {k : Category} (d : Derivation strict k) :
    Phrase.Fits strict k.level d.phrase := by
  induction d with
  | ofImplies d ih | ofOr d ih | ofAnd d ih | ofUnary d ih | ofAtom d ih =>
    exact ih.mono (by decide)
  | iff l r ihl ihr | implies l r ihl ihr | or l r ihl ihr | xor l r ihl ihr
  | and l r ihl ihr => exact ⟨by decide, ihl, ihr⟩
  | not d ih => exact ⟨by decide, ih⟩
  | var c h => exact h
  | paren d ih => exact ih

/-- A tree does not derive a phrase joined by a connective that binds less strongly than its
category. -/
theorem phrase_ne_binary {k : Category} (d : Derivation strict k) {op : Binary}
    (h : op.precedence < k.level) (f g : Phrase) : d.phrase ≠ .binary op f g := by
  intro he
  have hfits := he ▸ d.phrase_fits
  exact Nat.not_le_of_lt h hfits.1

theorem phrase_ne_not (d : Derivation strict .atom) (f : Phrase) : d.phrase ≠ .not f := by
  intro he
  have hfits := he ▸ d.phrase_fits
  exact absurd hfits.1 (by decide)

/-- The unit productions of a tree are determined by its category and its phrase. -/
theorem eq_of_phrase_eq {k : Category} {d e : Derivation strict k}
    (h : d.phrase = e.phrase) : d = e := by
  induction d with
  | ofImplies d ih =>
    cases e with
    | ofImplies e => rw [ih h]
    | iff l r => exact absurd h (d.phrase_ne_binary (by decide) _ _)
  | iff l r ihl ihr =>
    cases e with
    | ofImplies e => exact absurd h.symm (e.phrase_ne_binary (by decide) _ _)
    | iff l' r' =>
      simp only [phrase, Phrase.binary.injEq, true_and] at h
      rw [ihl h.1, ihr h.2]
  | ofOr d ih =>
    cases e with
    | ofOr e => rw [ih h]
    | implies l r => exact absurd h (d.phrase_ne_binary (by decide) _ _)
  | implies l r ihl ihr =>
    cases e with
    | ofOr e => exact absurd h.symm (e.phrase_ne_binary (by decide) _ _)
    | implies l' r' =>
      simp only [phrase, Phrase.binary.injEq, true_and] at h
      rw [ihl h.1, ihr h.2]
  | ofAnd d ih =>
    cases e with
    | ofAnd e => rw [ih h]
    | or l r | xor l r => exact absurd h (d.phrase_ne_binary (by decide) _ _)
  | or l r ihl ihr =>
    cases e with
    | ofAnd e => exact absurd h.symm (e.phrase_ne_binary (by decide) _ _)
    | or l' r' =>
      simp only [phrase, Phrase.binary.injEq, true_and] at h
      rw [ihl h.1, ihr h.2]
    | xor l' r' => simp [phrase] at h
  | xor l r ihl ihr =>
    cases e with
    | ofAnd e => exact absurd h.symm (e.phrase_ne_binary (by decide) _ _)
    | or l' r' => simp [phrase] at h
    | xor l' r' =>
      simp only [phrase, Phrase.binary.injEq, true_and] at h
      rw [ihl h.1, ihr h.2]
  | ofUnary d ih =>
    cases e with
    | ofUnary e => rw [ih h]
    | and l r => exact absurd h (d.phrase_ne_binary (by decide) _ _)
  | and l r ihl ihr =>
    cases e with
    | ofUnary e => exact absurd h.symm (e.phrase_ne_binary (by decide) _ _)
    | and l' r' =>
      simp only [phrase, Phrase.binary.injEq, true_and] at h
      rw [ihl h.1, ihr h.2]
  | ofAtom d ih =>
    cases e with
    | ofAtom e => rw [ih h]
    | not e => exact absurd h (d.phrase_ne_not _)
  | not d ih =>
    cases e with
    | ofAtom e => exact absurd h.symm (e.phrase_ne_not _)
    | not e => rw [ih (Phrase.not.inj h)]
  | var c hc =>
    cases e with
    | var c' hc' =>
      obtain rfl := Phrase.var.inj h
      rfl
    | paren e => cases h
  | paren d ih =>
    cases e with
    | var c hc => cases h
    | paren e => rw [ih (Phrase.paren.inj h)]

def pass : (k : Category) → Derivation strict k.tighter → Derivation strict k
  | .iff, d => ofImplies d
  | .implies, d => ofOr d
  | .or, d => ofAnd d
  | .and, d => ofUnary d
  | .unary, d => ofAtom d
  | .atom, d => d

theorem pass_phrase (k : Category) (d : Derivation strict k.tighter) :
    (pass k d).phrase = d.phrase := by
  cases k <;> rfl

def join : (op : Binary) → Derivation strict op.category.tighter →
    Derivation strict op.category → Derivation strict op.category
  | .and, l, r => and l r
  | .or, l, r => or l r
  | .xor, l, r => xor l r
  | .implies, l, r => implies l r
  | .iff, l, r => iff l r

theorem join_phrase (op : Binary) (l : Derivation strict op.category.tighter)
    (r : Derivation strict op.category) :
    (join op l r).phrase = .binary op l.phrase r.phrase := by
  cases op <;> rfl

theorem exists_phrase_eq_of_le {k tight : Category} (h : k.level ≤ tight.level) {f : Phrase}
    (hf : ∃ d : Derivation strict tight, d.phrase = f) :
    ∃ d : Derivation strict k, d.phrase = f := by
  induction n : tight.level - k.level generalizing k with
  | zero =>
    obtain rfl := Category.level_injective (Nat.le_antisymm h (by omega))
    exact hf
  | succ n ih =>
    have hle := tight.level_le
    have hlevel := Category.level_tighter (k := k) (by omega)
    obtain ⟨d, hd⟩ := ih (k := k.tighter) (by omega) (by omega)
    exact ⟨pass k d, by rw [pass_phrase, hd]⟩

/-- Every phrase that fits the level of a category is derived from it. -/
theorem exists_phrase_eq {k : Category} {f : Phrase} (hf : Phrase.Fits strict k.level f) :
    ∃ d : Derivation strict k, d.phrase = f := by
  induction f generalizing k with
  | var c =>
    exact exists_phrase_eq_of_le (by cases k <;> decide) ⟨var c hf, rfl⟩
  | paren f ih =>
    obtain ⟨d, hd⟩ := ih (k := .iff) hf
    exact exists_phrase_eq_of_le (by cases k <;> decide) ⟨paren d, by rw [phrase, hd]⟩
  | not f ih =>
    obtain ⟨d, hd⟩ := ih (k := .unary) hf.2
    exact exists_phrase_eq_of_le hf.1 ⟨not d, by rw [phrase, hd]⟩
  | binary op f g ihf ihg =>
    have hlevel : op.category.level = op.precedence := by cases op <;> rfl
    have htighter : op.category.tighter.level = op.precedence + 1 := by cases op <;> rfl
    obtain ⟨l, hl⟩ := ihf (htighter ▸ hf.2.1)
    obtain ⟨r, hr⟩ := ihg (hlevel ▸ hf.2.2)
    exact exists_phrase_eq_of_le (hlevel ▸ hf.1) ⟨join op l r, by rw [join_phrase, hl, hr]⟩

theorem eq_of_text_eq {d e : Derivation strict .iff} (h : d.text = e.text) : d = e :=
  eq_of_phrase_eq (Phrase.Reads.unique ⟨d.phrase_fits, d.phrase_text⟩
    ⟨e.phrase_fits, e.phrase_text.trans h.symm⟩)

end Derivation
end PropTable

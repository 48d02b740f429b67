import Mathlib.Logic.Function.Defs
import PropTable.Proofs.Blanks
import PropTable.Proofs.Safety

/-!
# Renaming the variables of a text

A renaming takes variables to variables, no two of them to the same one, and leaves parentheses
and connectives alone.  The scan of a renamed text makes the steps of the scan of the text,
with the names changed on the way (`Scan.run_rename`).  So the program has the same tokens and
a table the same rows, and a text that is refused is refused at the same place
(`Program.ofText_rename`).
-/

namespace PropTable

/-- A change of variables: no two go to the same one. -/
structure Renaming where
  toFun : Char → Char
  isVariable : ∀ {c}, Phrase.IsVariable false c → Phrase.IsVariable false (toFun c)
  injective : ∀ {c d}, Phrase.IsVariable false c → Phrase.IsVariable false d →
    toFun c = toFun d → c = d

namespace Renaming

open Phrase (IsVariable)

/-- The renaming that exchanges two variables. -/
def exchange (a b : Char) (ha : IsVariable false a) (hb : IsVariable false b) : Renaming where
  toFun c := if c = a then b else if c = b then a else c
  isVariable := by
    intro c hc
    split
    · exact hb
    · split
      · exact ha
      · exact hc
  injective := by
    intro c d _ _ h
    grind

variable (σ : Renaming)

/-- A character of a renamed text. -/
def char (c : Char) : Char := if IsVariable false c then σ.toFun c else c

def chars (cs : List Char) : List Char := cs.map σ.char

def text (s : String) : String := String.ofList (σ.chars s.toList)

variable {c : Char}

theorem char_of_isVariable (hc : IsVariable false c) : σ.char c = σ.toFun c := if_pos hc

theorem char_of_not_isVariable (hc : ¬IsVariable false c) : σ.char c = c := if_neg hc

theorem isVariable_char (hc : IsVariable false c) : IsVariable false (σ.char c) := by
  rw [σ.char_of_isVariable hc]
  exact σ.isVariable hc

@[simp] theorem char_open : σ.char '(' = '(' := σ.char_of_not_isVariable (by decide)

@[simp] theorem char_close : σ.char ')' = ')' := σ.char_of_not_isVariable (by decide)

@[simp] theorem char_sign (op : Connective) : σ.char op.sign = op.sign :=
  σ.char_of_not_isVariable fun h => by simpa using h.2.2.1

/-- A character that is no variable is not the name of one either. -/
theorem char_injective : Function.Injective σ.char := by
  intro c d h
  by_cases hc : IsVariable false c
  · by_cases hd : IsVariable false d
    · rw [σ.char_of_isVariable hc, σ.char_of_isVariable hd] at h
      exact σ.injective hc hd h
    · rw [σ.char_of_not_isVariable hd] at h
      exact absurd (h ▸ σ.isVariable_char hc) hd
  · by_cases hd : IsVariable false d
    · rw [σ.char_of_not_isVariable hc] at h
      exact absurd (h ▸ σ.isVariable_char hd) hc
    · rwa [σ.char_of_not_isVariable hc, σ.char_of_not_isVariable hd] at h

theorem text_injective : Function.Injective σ.text := by
  intro s t h
  have hchars : σ.chars s.toList = σ.chars t.toList := String.ofList_injective h
  exact String.toList_inj.mp
    ((List.map_inj_right fun _ _ h => σ.char_injective h).mp hchars)

@[simp] theorem text_ofList (cs : List Char) :
    σ.text (String.ofList cs) = .ofList (σ.chars cs) := by
  rw [text, String.toList_ofList]

@[simp] theorem text_toString (c : Char) : σ.text c.toString = (σ.char c).toString := by
  simp [text, chars]

end Renaming

/-! ## Renamed states -/

/-- Entering a pair into renamed pairs. -/
theorem enter_map {α β α' β' : Type} [BEq α] [LawfulBEq α] [BEq α'] [LawfulBEq α'] {f : α → α'}
    (hf : Function.Injective f) (g : β → β') (a : α) (b : β) (pairs : List (α × β)) :
    enter (f a) (g b) (pairs.map (Prod.map f g)) = (enter a b pairs).map (Prod.map f g) := by
  induction pairs with
  | nil => rfl
  | cons p rest ih =>
    obtain ⟨k, v⟩ := p
    simp only [List.map_cons, Prod.map, enter, hf.beq_eq]
    split
    · rfl
    · exact congrArg _ ih

theorem lookup_map {α β α' β' : Type} [BEq α] [LawfulBEq α] [BEq α'] [LawfulBEq α'] {f : α → α'}
    (hf : Function.Injective f) (g : β → β') (a : α) (pairs : List (α × β)) :
    (pairs.map (Prod.map f g)).lookup (f a) = (pairs.lookup a).map g := by
  induction pairs with
  | nil => rfl
  | cons p rest ih =>
    obtain ⟨k, v⟩ := p
    simp only [List.map_cons, Prod.map, List.lookup_cons, hf.beq_eq]
    split
    · rfl
    · exact ih

def Numbering.rename (σ : Renaming) (m : Numbering) : Numbering :=
  { names := m.names.map σ.text
    ids := m.ids.map (Prod.map σ.text id)
    symbols := m.symbols.map (Prod.map id σ.text) }

def Program.rename (σ : Renaming) (p : Program) : Program :=
  { p with source := σ.text p.source, numbering := p.numbering.rename σ }

def Scan.rename (σ : Renaming) (s : Scan) : Scan := { s with program := s.program.rename σ }

def Flaw.rename (σ : Renaming) : Flaw → Flaw
  | unknownSymbol c k => unknownSymbol (σ.char c) k
  | operatorMissing c k => operatorMissing (σ.char c) k
  | f => f

def Fault.rename (σ : Renaming) : Fault → Fault
  | flaw f => flaw (f.rename σ)
  | e => e

/-- A result after a renaming. -/
def Renaming.result {α : Type} (σ : Renaming) (rename : α → α) (r : Except Fault α) :
    Except Fault α :=
  (r.map rename).mapError (Fault.rename σ)

variable {σ : Renaming}

theorem Flaw.kind_rename (f : Flaw) : (f.rename σ).kind = f.kind := by
  cases f <;> rfl

theorem Flaw.position?_rename (f : Flaw) : (f.rename σ).position? = f.position? := by
  cases f <;> rfl

theorem Numbering.intern_rename (m : Numbering) (s : String) :
    (m.rename σ).intern (σ.text s) = ((m.intern s).1.rename σ, (m.intern s).2) := by
  have hid : (m.rename σ).idOf? (σ.text s) = m.idOf? s :=
    (lookup_map σ.text_injective id s m.ids).trans (congrFun Option.map_id_fun' _)
  rw [intern, intern, hid]
  cases m.idOf? s with
  | some n => rfl
  | none =>
    let n : Int := (m.names.length + 1 : Nat)
    have hids : enter (σ.text s) n (m.ids.map (Prod.map σ.text id)) =
        (enter s n m.ids).map (Prod.map σ.text id) :=
      enter_map σ.text_injective id s n m.ids
    have hsymbols : enter n (σ.text s) (m.symbols.map (Prod.map id σ.text)) =
        (enter n s m.symbols).map (Prod.map id σ.text) :=
      enter_map Function.injective_id σ.text n s m.symbols
    simp only [rename, List.length_map, List.map_append, List.map_cons, List.map_nil, hids,
      hsymbols, n]

theorem Program.mention_rename (p : Program) (s : String) :
    ((p.rename σ).mention (σ.text s)).1 = (p.mention s).1.rename σ := by
  have hintern := p.numbering.intern_rename (σ := σ) s
  simp only [mention, declare, rename, hintern]
  rfl

theorem Program.variableCount_rename (p : Program) :
    (p.rename σ).variableCount = p.variableCount :=
  List.length_map _

/-! ## The scan of a renamed text -/

namespace Scan

variable {g : Grouping} {position : Nat}

theorem openLevel_rename (s : Scan) :
    (s.rename σ).openLevel position = σ.result (rename σ) (s.openLevel position) := by
  obtain ⟨program, pending, expectsOperand, opens⟩ := s
  cases expectsOperand <;> rfl

theorem closeLevel_rename (s : Scan) :
    (s.rename σ).closeLevel position = σ.result (rename σ) (s.closeLevel position) := by
  obtain ⟨program, pending, expectsOperand, opens⟩ := s
  cases opens with
  | nil => rfl
  | cons k outer =>
    cases expectsOperand with
    | true => rfl
    | false =>
      simp only [closeLevel, rename, Pending.leave, Pending.drain]
      cases pending.current? <;> rfl

theorem pushConnective_rename (c : Connective) (s : Scan) :
    (s.rename σ).pushConnective g c = σ.result (rename σ) (s.pushConnective g c) := by
  simp only [pushConnective, rename, Pending.place]
  cases s.pending.current? <;> rfl

theorem readConnective_rename (c : Connective) (s : Scan) :
    (s.rename σ).readConnective g position c =
      σ.result (rename σ) (s.readConnective g position c) := by
  have hpush := pushConnective_rename (σ := σ) (g := g) c s
  obtain ⟨program, pending, expectsOperand, opens⟩ := s
  cases c with
  | not =>
    cases expectsOperand with
    | true => exact hpush
    | false => rfl
  | binary op =>
    cases expectsOperand with
    | true => rfl
    | false => exact hpush

theorem readVariable_rename (c : Char) (s : Scan) :
    (s.rename σ).readVariable false position (σ.char c) =
      σ.result (rename σ) (s.readVariable false position c) := by
  have hmention := s.program.mention_rename (σ := σ) c.toString
  rw [σ.text_toString] at hmention
  obtain ⟨program, pending, expectsOperand, opens⟩ := s
  cases expectsOperand with
  | true =>
    simpa [readVariable, rename, Renaming.result, Except.map, Except.mapError] using hmention
  | false => rfl

/-- A step reads a character only to tell variables from the rest and one variable from
another. -/
theorem step_rename (c : Char) (s : Scan) :
    (s.rename σ).step g false position (σ.char c) =
      σ.result (rename σ) (s.step g false position c) := by
  by_cases hopen : c = '('
  · subst hopen
    rw [σ.char_open, step_open, step_open, openLevel_rename]
  by_cases hclose : c = ')'
  · subst hclose
    rw [σ.char_close, step_close, step_close, closeLevel_rename]
  cases hsign : Connective.ofChar? c with
  | some op =>
    obtain rfl := Connective.ofChar?_eq_some_iff.mp hsign
    rw [σ.char_sign, step_sign, step_sign, readConnective_rename]
  | none =>
    obtain ⟨hopen', hclose', hsign', -⟩ := σ.isVariable_char ⟨hopen, hclose, hsign, nofun⟩
    rw [step_other hopen' hclose' hsign', step_other hopen hclose hsign, readVariable_rename]

theorem run_rename (cs : List Char) (s : Scan) :
    (s.rename σ).run g false position (σ.chars cs) =
      σ.result (rename σ) (s.run g false position cs) := by
  induction cs generalizing position s with
  | nil => rfl
  | cons c cs ih =>
    rw [Renaming.chars, List.map_cons, run_cons, run_cons, step_rename]
    cases s.step g false position c with
    | ok s' => exact ih s'
    | error e => rfl

theorem finish_rename (length : Nat) (s : Scan) :
    (s.rename σ).finish length = σ.result (Program.rename σ) (s.finish length) := by
  obtain ⟨program, pending, expectsOperand, opens⟩ := s
  cases opens with
  | cons k outer => rfl
  | nil =>
    cases expectsOperand with
    | true => rfl
    | false =>
      simp only [finish, rename, Pending.drain]
      cases pending.current? <;> rfl

end Scan

namespace Program

theorem ofChars_rename (g : Grouping) (cs : List Char) :
    ofChars g false (σ.chars cs) = σ.result (rename σ) (ofChars g false cs) := by
  by_cases hcs : cs = []
  · subst hcs
    rfl
  have hchars : σ.chars cs ≠ [] := by
    rw [Renaming.chars, Ne, List.map_eq_nil_iff]
    exact hcs
  have hstart : Scan.start (String.ofList (σ.chars cs)) =
      (Scan.start (String.ofList cs)).rename σ := by
    rw [← σ.text_ofList]
    rfl
  have hlength : (σ.chars cs).length = cs.length := List.length_map _
  rw [ofChars_eq hcs, ofChars_eq hchars, hstart, hlength, Scan.run_rename]
  cases (Scan.start (String.ofList cs)).run g false 0 cs with
  | ok t => exact Scan.finish_rename cs.length t
  | error e => rfl

/-- If neither text has blanks at its ends, the renamed one ends as the other does. -/
theorem ofText_eq_result {settings : Settings} {text : String} (hlax : settings.strict = false)
    (htext : Text.trimmed text = text) (hrenamed : Text.trimmed (σ.text text) = σ.text text) :
    ofText settings (σ.text text) = σ.result (rename σ) (ofText settings text) := by
  have hchars : (σ.text text).toList = σ.chars text.toList := String.toList_ofList
  rw [ofText, ofText, ofTextGrouped, ofTextGrouped, Text.trim_toList htext,
    Text.trim_toList hrenamed, hchars, hlax,
    ofChars_rename]

/-! ## Tables of renamed programs -/

/-- Two programs have tables with the same rows and the same verdict, or both are refused in the
same way for the number of their variables, which is told if it can be. -/
def TabulatesLike (settings : Settings) (p q : Program) : Prop :=
  (∃ n ≤ Table.maxTold, ∃ h,
    Table.build settings p = .error (.flaw (.tooManyVariables n settings.maxVariables h)) ∧
    Table.build settings q = .error (.flaw (.tooManyVariables n settings.maxVariables h))) ∨
  (Table.maxTold < p.variableCount ∧ Table.build settings p = .error .longNumeral ∧
    Table.build settings q = .error .longNumeral) ∨
  ∃ t u, Table.build settings p = .ok t ∧ Table.build settings q = .ok u ∧ u.rows = t.rows ∧
    u.verdict = t.verdict

theorem rows_of_build {settings : Settings} {p : Program} {t : Table}
    (h : Table.build settings p = .ok t) :
    (assignments p.variableCount).mapM p.row = .ok t.rows := by
  rw [Table.build] at h
  split at h
  · cases h
  · simp only [bind, Except.bind, pure, Except.pure] at h
    split at h
    · cases h
    · split at h
      · cases h
      · next hrows =>
        obtain rfl := Except.ok.inj h
        exact hrows

/-- The rows of a table depend on the tokens and the number of variables alone. -/
theorem IsSafe.tabulatesLike {p q : Program} (hp : p.IsSafe) (hq : q.IsSafe)
    (htokens : q.tokens = p.tokens) (hcount : q.variableCount = p.variableCount)
    (settings : Settings) : TabulatesLike settings p q := by
  by_cases hmany : settings.maxVariables < p.variableCount
  · by_cases htold : p.variableCount ≤ Table.maxTold
    · obtain ⟨h, hbuild⟩ := hp.table_refused settings hmany htold
      refine .inl ⟨p.variableCount, htold, h, hbuild, ?_⟩
      obtain ⟨h', hbuild'⟩ := hq.table_refused settings (hcount ▸ hmany) (hcount ▸ htold)
      simpa only [hcount] using hbuild'
    · have huntold := Nat.not_le.mp htold
      exact .inr (.inl ⟨huntold, hp.table_untold settings hmany huntold,
        hq.table_untold settings (hcount ▸ hmany) (hcount ▸ huntold)⟩)
  · have hfew := Nat.not_lt.mp hmany
    obtain ⟨t, ht, -⟩ := hp.table_built settings hfew
    obtain ⟨u, hu, -⟩ := hq.table_built settings (hcount ▸ hfew)
    have hrow : q.row = p.row := by
      funext a
      simp only [row, run, htokens]
    have hrows : u.rows = t.rows := by
      have hrows := rows_of_build hu
      rw [hrow, hcount, rows_of_build ht] at hrows
      exact (Except.ok.inj hrows).symm
    refine .inr (.inr ⟨t, u, ht, hu, hrows, ?_⟩)
    rw [Table.verdict, hrows]
    rfl

/-- The names of the variables do not matter.  A text that is read leniently has a program
exactly if a renamed one has; the programs have the same tokens, the same variables up to the
renaming, and the same tables up to the headers.  If they have none, both texts are refused for
flaws of one kind at one place. -/
theorem ofText_rename (σ : Renaming) {settings : Settings} {text : String}
    (hlax : settings.strict = false) (htext : Text.trimmed text = text)
    (hrenamed : Text.trimmed (σ.text text) = σ.text text) :
    ((∃ q, ofText settings (σ.text text) = .ok q) ↔ ∃ p, ofText settings text = .ok p) ∧
    (∀ p, ofText settings text = .ok p → ∃ q, ofText settings (σ.text text) = .ok q ∧
      q.tokens = p.tokens ∧ q.variableNames = p.variableNames.map σ.text ∧
      ∀ settings', TabulatesLike settings' p q) ∧
    ∀ e, ofText settings text = .error e → ∃ f f' : Flaw, e = .flaw f ∧
      ofText settings (σ.text text) = .error (.flaw f') ∧ f'.kind = f.kind ∧
      f'.position? = f.position? := by
  have hresult := ofText_eq_result hlax htext hrenamed
  cases hp : ofText settings text with
  | ok p =>
    rw [hp] at hresult
    refine ⟨iff_of_true ⟨_, hresult⟩ ⟨p, rfl⟩, fun p' hp' => ?_, fun e he => ?_⟩
    · obtain rfl := Except.ok.inj hp'
      exact ⟨_, hresult, rfl, rfl, fun settings' => (ofText_isSafe hp).tabulatesLike
        (ofText_isSafe hresult) rfl p.variableCount_rename settings'⟩
    · cases he
  | error e =>
    rw [hp] at hresult
    obtain ⟨f, rfl, -⟩ := ofText_eq_error hp
    refine ⟨iff_of_false ?_ ?_, fun p hp => ?_, fun e' he' => ?_⟩
    · rintro ⟨q, hq⟩
      rw [hresult] at hq
      cases hq
    · rintro ⟨p, hp⟩
      cases hp
    · cases hp
    · obtain rfl := Except.error.inj he'
      exact ⟨f, f.rename σ, rfl, hresult, f.kind_rename, f.position?_rename⟩

/-- A letter and the blank are exchanged, which is a variable inside a text. -/
theorem ofText_rename_blank :
    let σ := Renaming.exchange 'p' ' ' (by decide) (by decide)
    Text.trimmed "q>( &p)|q" = "q>( &p)|q" ∧ σ.text "q>( &p)|q" = "q>(p& )|q" ∧
      Text.trimmed "q>(p& )|q" = "q>(p& )|q" ∧
      ∃ p q, ofText {} "q>( &p)|q" = .ok p ∧ ofText {} "q>(p& )|q" = .ok q ∧
        q.tokens = p.tokens ∧ q.variableNames = ["q", "p", " "] ∧ TabulatesLike {} p q := by
  intro σ
  have hlax : ({} : Settings).strict = false := rfl
  have htext : Text.trimmed "q>( &p)|q" = "q>( &p)|q" := rfl
  have hchars : σ.text "q>( &p)|q" = "q>(p& )|q" := by decide
  have hrenamed : Text.trimmed "q>(p& )|q" = "q>(p& )|q" := rfl
  let p : Program := .ofFormula "q>( &p)|q" (.binary .implies (.var 'q')
    (.binary .or (.binary .and (.var ' ') (.var 'p')) (.var 'q')))
  have hp : ofText {} "q>( &p)|q" = .ok p := rfl
  obtain ⟨q, hq, htokens, hnames, htables⟩ :=
    (ofText_rename σ hlax htext (hchars ▸ hrenamed)).2.1 p hp
  refine ⟨htext, hchars, hrenamed, p, q, hp, hchars ▸ hq, htokens, ?_, htables {}⟩
  rw [hnames]
  decide

/-- A text of one variable more than can be told: however it is renamed, neither program is
refused a table with a flaw. -/
theorem ofText_rename_untold :
    let text := manyText Table.maxTold
    Text.trimmed text = text ∧
      ∃ p, ofText {} text = .ok p ∧ ({} : Settings).maxVariables < p.variableCount ∧
        Table.build {} p = .error .longNumeral ∧
        ∀ σ : Renaming, Text.trimmed (σ.text text) = σ.text text →
          ∃ q, ofText {} (σ.text text) = .ok q ∧ Table.build {} q = .error .longNumeral := by
  intro text
  have htext : Text.trimmed text = text := trimmed_many (by decide)
  have hlax : ({} : Settings).strict = false := rfl
  obtain ⟨p, hp, hmax, huntold⟩ := exists_ofText_untold hlax (by decide)
  refine ⟨htext, p, hp, hmax, Table.build_of_maxTold_lt hmax huntold, fun σ hrenamed => ?_⟩
  have hq : ofText {} (σ.text text) = .ok (p.rename σ) := by
    rw [ofText_eq_result hlax htext hrenamed, hp]
    rfl
  have hsame : (p.rename σ).variableCount = p.variableCount := p.variableCount_rename
  exact ⟨_, hq, Table.build_of_maxTold_lt (hsame ▸ hmax) (hsame ▸ huntold)⟩

end Program

end PropTable

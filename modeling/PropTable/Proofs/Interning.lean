import PropTable.Proofs.Compilation
import PropTable.Proofs.Postorder
import PropTable.Session

/-!
# Variables are numbered by first mention

Whatever is done to a program by hand, its numbering is that of the symbols mentioned so far
(`Program.numbering_edits`), so it is a bijection that later edits only extend.  In the
program of a text the symbols mentioned are the variables of the text, and the operands come
in the order in which the text has them.
-/

namespace PropTable

namespace Numbering

/-- The names have the numbers from 1 on, in their order, and nothing else has a number or is
one. -/
structure IsBijection (m : Numbering) : Prop where
  nodup_names : m.names.Nodup
  idOf?_eq_some_iff : ∀ s id, m.idOf? s = some id ↔ m.symbolOf? id = some s
  isSome_idOf?_iff : ∀ s, (m.idOf? s).isSome ↔ s ∈ m.names
  isSome_symbolOf?_iff : ∀ id, (m.symbolOf? id).isSome ↔ 1 ≤ id ∧ id ≤ m.names.length
  idOf?_of_getElem? : ∀ (i : Nat) s, m.names[i]? = some s → m.idOf? s = some (i + 1)

theorem symbolOf?_ofNames_eq_some_iff {names : List String} {id : Int} {s : String} :
    (ofNames names).symbolOf? id = some s ↔ ∃ i : Nat, id = i + 1 ∧ names[i]? = some s := by
  by_cases hlt : id < 1
  · rw [symbolOf?_ofNames_of_lt names hlt]
    refine iff_of_false (by simp) ?_
    rintro ⟨i, rfl, -⟩
    omega
  · obtain ⟨i, rfl⟩ : ∃ i : Nat, id = ((i + 1 : Nat) : Int) := ⟨(id - 1).toNat, by omega⟩
    rw [symbolOf?_ofNames]
    constructor
    · exact fun h => ⟨i, by omega, h⟩
    · rintro ⟨j, hj, h⟩
      obtain rfl : i = j := by omega
      exact h

theorem idOf?_ofNames_eq_some_iff {names : List String} (hnodup : names.Nodup) {s : String}
    {id : Int} :
    (ofNames names).idOf? s = some id ↔ ∃ i : Nat, id = i + 1 ∧ names[i]? = some s := by
  rw [idOf?_ofNames]
  constructor
  · intro h
    split at h
    · have hlt := List.idxOf_lt_length_iff.mpr ‹s ∈ names›
      refine ⟨names.idxOf s, by simpa using (Option.some.inj h).symm, ?_⟩
      rw [List.getElem?_eq_getElem hlt, List.getElem_idxOf]
    · cases h
  · rintro ⟨i, rfl, hget⟩
    obtain ⟨hlt, rfl⟩ := List.getElem?_eq_some_iff.mp hget
    -- A name stands in one place only.
    rw [if_pos (List.getElem_mem hlt), hnodup.idxOf_getElem i hlt]
    rfl

theorem isBijection_ofNames {names : List String} (h : names.Nodup) :
    (ofNames names).IsBijection where
  nodup_names := h
  idOf?_eq_some_iff s id := by
    rw [idOf?_ofNames_eq_some_iff h, symbolOf?_ofNames_eq_some_iff]
  isSome_idOf?_iff s := by
    rw [idOf?_ofNames]
    by_cases hs : s ∈ names
    · simp [hs, ofNames]
    · simp [hs, ofNames]
  isSome_symbolOf?_iff id := by
    rw [Option.isSome_iff_exists]
    constructor
    · rintro ⟨s, hs⟩
      obtain ⟨i, rfl, hget⟩ := symbolOf?_ofNames_eq_some_iff.mp hs
      have hlt : i < names.length := (List.getElem?_eq_some_iff.mp hget).1
      show (1 : Int) ≤ i + 1 ∧ (i + 1 : Int) ≤ names.length
      omega
    · rintro ⟨hone, hle⟩
      have hle : id ≤ names.length := hle
      have hlt : (id - 1).toNat < names.length := by omega
      exact ⟨_, symbolOf?_ofNames_eq_some_iff.mpr
        ⟨(id - 1).toNat, by omega, List.getElem?_eq_getElem hlt⟩⟩
  idOf?_of_getElem? i s hget := (idOf?_ofNames_eq_some_iff h).mpr ⟨i, rfl, hget⟩

theorem isBijection_ofMentions (mentions : List String) : (ofMentions mentions).IsBijection :=
  isBijection_ofNames (nodup_eraseDups mentions)

/-- Further mentions leave the numbers that were given as they are. -/
theorem idOf?_ofMentions_append {mentions : List String} {s : String} {id : Int}
    (h : (ofMentions mentions).idOf? s = some id) (further : List String) :
    (ofMentions (mentions ++ further)).idOf? s = some id := by
  have hname : s ∈ mentions.eraseDups :=
    ((isBijection_ofMentions mentions).isSome_idOf?_iff s).mp (by rw [h]; rfl)
  have hs : s ∈ mentions := List.mem_eraseDups.mp hname
  rw [idOf?_ofMentions hs] at h
  rw [idOf?_ofMentions (List.mem_append_left _ hs),
    numberIn_of_prefix (List.prefix_append _ _) hs, h]

end Numbering

/-! ## Edits by hand -/

def Edit.symbol? : Edit → Option String
  | .variable symbol | .declare symbol => some symbol
  | .token _ | .pop => none

namespace Program

theorem numbering_edit {p : Program} {mentions : List String}
    (hp : p.numbering = .ofMentions mentions) (e : Edit) :
    (p.edit e).1.numbering = .ofMentions (mentions ++ e.symbol?.toList) := by
  have hsame : p.numbering = .ofMentions (mentions ++ []) := by rw [hp, List.append_nil]
  match e with
  | .variable symbol | .declare symbol =>
    show (p.numbering.intern symbol).1 = _
    rw [hp, Numbering.intern_ofMentions]
    rfl
  | .token t => exact hsame
  | .pop =>
    have hkept : (p.edit .pop).1.numbering = p.numbering := by
      simp only [edit]
      split <;> rfl
    exact hkept.trans hsame

/-- The numbering of an edited program is that of all symbols mentioned, in their order. -/
theorem numbering_edits {p : Program} {mentions : List String}
    (hp : p.numbering = .ofMentions mentions) (edits : List Edit) :
    (p.edits edits).numbering = .ofMentions (mentions ++ edits.filterMap Edit.symbol?) := by
  induction edits generalizing p mentions with
  | nil => exact hp.trans (congrArg _ (List.append_nil mentions).symm)
  | cons e rest ih =>
    have hrest := ih (numbering_edit hp e)
    have hmentions : mentions ++ (e :: rest).filterMap Edit.symbol? =
        mentions ++ e.symbol?.toList ++ rest.filterMap Edit.symbol? := by
      cases h : e.symbol? <;> simp [h]
    rw [hmentions]
    exact hrest

theorem numbering_edits_empty (source : String) (edits : List Edit) :
    (({ source } : Program).edits edits).numbering =
      .ofMentions (edits.filterMap Edit.symbol?) := by
  have hnew : ({ source } : Program).numbering = .ofMentions [] := rfl
  exact numbering_edits hnew edits

/-- An edit that names a symbol gives back the number that the symbol has from then on. -/
theorem edit_symbol {p : Program} {mentions : List String}
    (hp : p.numbering = .ofMentions mentions) {e : Edit} {s : String} (he : e.symbol? = some s) :
    ∃ id, (p.edit e).2 = .ok (.id id) ∧ (p.edit e).1.numbering.idOf? s = some id := by
  have hs : s ∈ mentions ++ [s] := List.mem_append_right _ (List.mem_singleton.mpr rfl)
  have hid : (p.numbering.intern s).2 = Numbering.numberIn (mentions ++ [s]) s := by
    rw [hp, Numbering.intern_ofMentions]
  refine ⟨(p.numbering.intern s).2, ?_, ?_⟩
  · cases e <;> cases he <;> rfl
  · rw [numbering_edit hp e, he, hid]
    exact Numbering.idOf?_ofMentions hs

/-- The numbering is a bijection, also after any further edits, and these leave the numbers
that were given as they are. -/
structure IsNumbered (p : Program) : Prop where
  bijection : ∀ later, (p.edits later).numbering.IsBijection
  kept : ∀ later s id, p.numbering.idOf? s = some id →
    (p.edits later).numbering.idOf? s = some id

theorem isNumbered_of_mentions {p : Program} {mentions : List String}
    (hp : p.numbering = .ofMentions mentions) : p.IsNumbered where
  bijection later := by
    rw [numbering_edits hp]
    exact Numbering.isBijection_ofMentions _
  kept later s id h := by
    rw [hp] at h
    rw [numbering_edits hp]
    exact Numbering.idOf?_ofMentions_append h _

end Program

/-! ## Programs of texts -/

namespace Phrase

/-- The occurrences of variables in a text: all that is no parenthesis and no connective. -/
def occurrences (cs : List Char) : List Char := cs.filter (IsVariable false ·)

theorem IsVariable.lax {strict : Bool} {c : Char} (h : IsVariable strict c) :
    IsVariable false c :=
  ⟨h.1, h.2.1, h.2.2.1, nofun⟩

theorem not_isVariable_sign (op : Connective) : ¬IsVariable false op.sign := by
  rintro ⟨-, -, hsign, -⟩
  rw [Connective.ofChar?_sign] at hsign
  cases hsign

theorem occurrences_append (cs ds : List Char) :
    occurrences (cs ++ ds) = occurrences cs ++ occurrences ds :=
  List.filter_append ..

theorem occurrences_cons_of_not {c : Char} (h : ¬IsVariable false c) (cs : List Char) :
    occurrences (c :: cs) = occurrences cs :=
  List.filter_cons_of_neg (by simpa using h)

theorem occurrences_text {strict : Bool} {level : Nat} {f : Phrase} (hf : Fits strict level f) :
    occurrences f.text = f.formula.leaves := by
  induction f generalizing level with
  | var c => simp [occurrences, text, formula, Formula.leaves, IsVariable.lax hf]
  | paren f ih =>
    have hin : Fits strict 1 f := hf
    have hend : occurrences [')'] = [] := rfl
    rw [text, List.cons_append, occurrences_cons_of_not (by decide), occurrences_append, hend,
      List.append_nil, ih hin, formula]
  | not f ih =>
    rw [text, occurrences_cons_of_not (not_isVariable_sign .not), ih hf.2]
    rfl
  | binary op f g ihf ihg =>
    have hsign : ¬IsVariable false op.sign := not_isVariable_sign (.binary op)
    rw [text, occurrences_append, occurrences_cons_of_not hsign, ihf hf.2.1, ihg hf.2.2]
    rfl

end Phrase

theorem Derivation.occurrences_text {strict : Bool} {k : Category} (d : Derivation strict k) :
    Phrase.occurrences d.text = d.formula.leaves := by
  rw [← d.phrase_text, Phrase.occurrences_text d.phrase_fits, d.phrase_formula]

def Token.id? : Token → Option Int
  | .var id => some id
  | .sign _ => none

/-- Connectives come between the operands and after them, but the operands keep their
order. -/
theorem Formula.filterMap_id?_tokens (f : Formula Int) :
    f.tokens.filterMap Token.id? = f.leaves := by
  induction f with
  | var id => rfl
  | not f ih =>
    rw [Formula.tokens_not, List.filterMap_append, ih]
    exact List.append_nil _
  | binary op f g ihf ihg =>
    rw [Formula.tokens_binary, List.filterMap_append, List.filterMap_append, ihf, ihg]
    exact List.append_nil _

namespace Program

theorem ids_ofFormula (source : String) (f : Formula Char) :
    ((ofFormula source f).tokens.filterMap Token.id?).map some =
      f.leaves.map fun c => (ofFormula source f).numbering.idOf? c.toString := by
  have htokens : (ofFormula source f).tokens =
      (f.map fun c => Numbering.numberIn (f.leaves.map Char.toString) c.toString).tokens := rfl
  rw [htokens, Formula.filterMap_id?_tokens, Formula.leaves_map, List.map_map]
  refine List.map_congr_left fun c hc => ?_
  have hmention : c.toString ∈ f.leaves.map Char.toString := List.mem_map_of_mem hc
  exact (Numbering.idOf?_ofMentions hmention).symm

/-- The names of a program of a text are the variables of the text. -/
theorem mem_variableNames_iff {settings : Settings} {text : String} {p : Program}
    (hp : ofText settings text = .ok p) {s : String} : s ∈ p.variableNames ↔
      ∃ c ∈ Text.trim text.toList, Phrase.IsVariable false c ∧ c.toString = s := by
  obtain ⟨d, hd, rfl⟩ := ofText_eq_ok_iff.mp hp
  have hnames : (ofFormula (Text.trimmed text) d.formula).variableNames =
      (d.formula.leaves.map Char.toString).eraseDups := rfl
  rw [hnames, List.mem_eraseDups, List.mem_map, ← d.occurrences_text, hd]
  simp [Phrase.occurrences, and_assoc]

/-- The variables of a program are numbered from 1 on by their first mention and keep their
numbers, whether the program was edited by hand or comes from a text.  For edits these are
the symbols that they name, each of which gives back the number of its symbol.  For a text
they are its own variables, and the operands of the program are their occurrences in order. -/
theorem numbering_isBijection :
    (∀ (source : String) (edits : List Edit),
      (({ source } : Program).edits edits).IsNumbered ∧
      (({ source } : Program).edits edits).variableNames =
        (edits.filterMap Edit.symbol?).eraseDups ∧
      ∀ (e : Edit) (s : String), e.symbol? = some s →
        ∃ id, ((({ source } : Program).edits edits).edit e).2 = .ok (.id id) ∧
          ((({ source } : Program).edits edits).edit e).1.numbering.idOf? s = some id) ∧
    ∀ (settings : Settings) (text : String) (p : Program), ofText settings text = .ok p →
      p.IsNumbered ∧
      p.variableNames =
        ((Phrase.occurrences (Text.trim text.toList)).map Char.toString).eraseDups ∧
      (p.tokens.filterMap Token.id?).map some =
        (Phrase.occurrences (Text.trim text.toList)).map
          fun c => p.numbering.idOf? c.toString := by
  constructor
  · intro source edits
    have hp := numbering_edits_empty source edits
    exact ⟨isNumbered_of_mentions hp, congrArg Numbering.names hp, fun _ _ => edit_symbol hp⟩
  · intro settings text p hp
    obtain ⟨d, hd, rfl⟩ := ofText_eq_ok_iff.mp hp
    have hleaves : Phrase.occurrences (Text.trim text.toList) = d.formula.leaves := by
      rw [← hd, d.occurrences_text]
    rw [hleaves]
    exact ⟨isNumbered_of_mentions rfl, rfl, ids_ofFormula _ _⟩

/-- A symbol keeps its number when its token is taken back, and when it comes again in a text. -/
theorem numbering_isBijection_repeated :
    (∃ p : Program,
      ({} : Program).edits [.declare "q", .variable "pq", .pop, .token (.var 7)] = p ∧
      p.IsNumbered ∧ p.variableNames = ["q", "pq"] ∧
      (p.edit (.variable "pq")).2 = .ok (.id 2) ∧ (p.edit (.declare "r")).2 = .ok (.id 3)) ∧
    ∃ p, ofText {} "q>(p&q)" = .ok p ∧ p.IsNumbered ∧ p.variableNames = ["q", "p"] ∧
      p.tokens.filterMap Token.id? = [1, 2, 1] := by
  constructor
  · have hedits := numbering_isBijection.1 "" [.declare "q", .variable "pq", .pop, .token (.var 7)]
    exact ⟨_, rfl, hedits.1, hedits.2.1, rfl, rfl⟩
  · let p : Program := .ofFormula "q>(p&q)"
      (.binary .implies (.var 'q') (.binary .and (.var 'p') (.var 'q')))
    have hp : ofText {} "q>(p&q)" = .ok p := rfl
    exact ⟨p, hp, (numbering_isBijection.2 {} _ p hp).1, rfl, rfl⟩

end Program
end PropTable

import PropTable.Proofs.Chains
import PropTable.Proofs.Numbering
import PropTable.Proofs.Readable

/-!
# From a text to the program of its formula

Scanning the text of a phrase emits a part of its postorder and leaves the rest waiting on
the current stack, from where it leaves in the right order (`run_text`).  This holds however
chains are grouped, if the formula of the phrase is grouped alike.  With what is known about the
texts that are read to the end, the program of a text is that of its formula, or there is none
(`ofText_eq_ok_iff`).
-/

namespace PropTable

def Phrase.mentions (f : Phrase) : List String := f.formula.leaves.map Char.toString

/-- The formula over the numbers that its variables have among the mentioned symbols. -/
def Formula.numbered (mentions : List String) (f : Formula Char) : Formula Int :=
  f.map fun c => Numbering.numberIn mentions c.toString

/-- The program of a formula: its nodes in postorder, its variables numbered by their first
occurrences. -/
def Program.ofFormula (source : String) (f : Formula Char) : Program :=
  let mentions := f.leaves.map Char.toString
  { source, tokens := (f.numbered mentions).tokens, numbering := .ofMentions mentions }

theorem Phrase.text_ne_nil (f : Phrase) : f.text ≠ [] := by cases f <;> simp [text]

namespace Phrase.Lead

/-- What has been emitted of a lead. -/
def tokens (later : List String) (lead : Lead) : List Token :=
  lead.elim [] fun l => (l.1.numbered later).tokens

@[simp] theorem tokens_none (later : List String) : tokens later none = [] := rfl

@[simp] theorem tokens_some (later : List String) (l : Formula Char × Binary) :
    tokens later (some l) = (l.1.numbered later).tokens := rfl

/-- The connective of a lead comes after the phrase that it joins to the rest. -/
theorem tokens_joined (later : List String) (f : Formula Char) (lead : Lead) :
    ((f.joined lead).numbered later).tokens =
      lead.tokens later ++ (f.numbered later).tokens ++ lead.waiting.map (·.token) := by
  cases lead with
  | none => exact (List.append_nil _).symm
  | some l => rfl

end Phrase.Lead

namespace Scan

open Phrase

/-- Connectives that stay on a stack whatever is read of a level. -/
def Stay (g : Grouping) (level : Nat) (cs : List Connective) : Prop :=
  ∀ c ∈ cs, ∀ op : Binary, level ≤ op.precedence → g.releases c (.binary op) = false

/-- A part of a postorder that is emitted, and the connectives that wait to complete it, the
first to leave first.  None of them binds less strongly than the level. -/
structure Emits (level : Nat) (f : Formula Int) (emitted : List Token)
    (waiting : List Connective) : Prop where
  postorder : emitted ++ waiting.map (·.token) = f.tokens
  strong : ∀ c ∈ waiting, level ≤ c.precedence

namespace Emits

variable {level high : Nat} {f : Formula Int} {emitted : List Token} {waiting : List Connective}

theorem mono (h : Emits high f emitted waiting) (hlevel : level ≤ high) :
    Emits level f emitted waiting where
  postorder := h.postorder
  strong c hc := Nat.le_trans hlevel (h.strong c hc)

theorem var (level : Nat) (id : Int) : Emits level (.var id) [.var id] [] where
  postorder := rfl
  strong := by simp

/-- A closing parenthesis emits all that waits inside. -/
theorem closed {inner : Nat} (h : Emits inner f emitted waiting) :
    Emits level f (emitted ++ waiting.map (·.token)) [] where
  postorder := by rw [List.map_nil, List.append_nil, h.postorder]
  strong := by simp

theorem not (h : Emits Connective.not.precedence f emitted waiting) :
    Emits Connective.not.precedence (.not f) emitted (waiting ++ [.not]) where
  postorder := by
    rw [List.map_append, ← List.append_assoc, h.postorder]
    rfl
  strong c hc := by
    rcases List.mem_append.mp hc with hc | hc
    · exact h.strong c hc
    · obtain rfl := List.mem_singleton.mp hc
      exact Nat.le_refl _

/-- The connective of a lead waits below all that completes its right operand. -/
theorem joined {later : List String} {f : Formula Char} {lead : Lead}
    (h : Emits level (f.numbered later) emitted waiting) (hlead : lead.IsAt level) :
    Emits level ((f.joined lead).numbered later) (lead.tokens later ++ emitted)
      (waiting ++ lead.waiting) where
  postorder := by
    rw [Lead.tokens_joined, ← h.postorder, List.map_append]
    simp only [List.append_assoc]
  strong c hc := by
    rcases List.mem_append.mp hc with hc | hc
    · exact h.strong c hc
    · exact Nat.le_of_eq (hlead c hc).symm

end Emits

/-- A connective releases the first connectives of a stack and waits above the others. -/
theorem releases_append {g : Grouping} {waiting current : List Connective} {c : Connective}
    (hw : ∀ x ∈ waiting, g.releases x c = true) (hc : ∀ x ∈ current, g.releases x c = false) :
    (waiting ++ current).takeWhile (g.releases · c) = waiting ∧
      (waiting ++ current).dropWhile (g.releases · c) = current := by
  rw [List.takeWhile_append_of_pos hw, List.dropWhile_append_of_pos hw]
  cases current with
  | nil => exact ⟨List.append_nil _, rfl⟩
  | cons x rest => simp [hc x List.mem_cons_self]

theorem run_move {g : Grouping} {strict : Bool} {position : Nat} {c : Char} {s s' : Scan}
    (h : Move g strict position c s s') (cs : List Char) :
    run g strict position (c :: cs) s = run g strict (position + 1) cs s' := by
  rw [run_cons, h.step_eq]
  rfl

def reached (source : String) (mentions : List String) (tokens : List Token)
    (current : List Connective) (around : List (List Connective)) (spare : Nat)
    (expectsOperand : Bool) (opens : List Nat) : Scan :=
  { program := { source, tokens, numbering := .ofMentions mentions }
    pending := .ofLevels current around spare, expectsOperand, opens }

section

variable {strict : Bool} {source : String} {mentions : List String} {tokens : List Token}
  {current : List Connective} {around : List (List Connective)} {spare position : Nat}
  {opens : List Nat}

theorem reached_mention {g : Grouping} {c : Char} (hc : IsVariable strict c) :
    Move g strict position c (reached source mentions tokens current around spare true opens)
      (reached source (mentions ++ [c.toString])
        (tokens ++ [.var (Numbering.numberIn (mentions ++ [c.toString]) c.toString)])
        current around spare false opens) := by
  have h : Move g strict position c _ _ := .mention c hc
    ⟨source, tokens, .ofMentions mentions⟩ (.ofLevels current around spare) opens
  simp only [Program.mention, Program.declare, Numbering.intern_ofMentions, Program.emit] at h
  exact h

theorem reached_opening {g : Grouping} :
    Move g strict position '(' (reached source mentions tokens current around spare true opens)
      (reached source mentions tokens [] (current :: around) (spare - 1) true
        (position :: opens)) :=
  .opening ..

theorem reached_closing {g : Grouping} {inner : List Connective} {k : Nat} :
    Move g strict position ')'
      (reached source mentions tokens inner (current :: around) spare false (k :: opens))
      (reached source mentions (tokens ++ inner.map (·.token)) current around (spare + 1) false
        opens) :=
  .closing ..

theorem reached_negation {g : Grouping} :
    Move g strict position Connective.not.sign
      (reached source mentions tokens current around spare true opens)
      (reached source mentions tokens (.not :: current) around spare true opens) := by
  have h : Move g strict position Connective.not.sign _ _ := .negation
    ⟨source, tokens, .ofMentions mentions⟩ current around spare opens
  have hnone : ∀ x ∈ ([] : List Connective), g.releases x .not = true := by simp
  obtain ⟨htake, hdrop⟩ := releases_append hnone fun x (_ : x ∈ current) => g.releases_not x
  rw [List.nil_append] at htake hdrop
  rw [htake, hdrop, List.map_nil, Program.emit, List.append_nil] at h
  exact h

theorem reached_joining {g : Grouping} {op : Binary} {waiting : List Connective}
    (hw : ∀ x ∈ waiting, g.releases x (.binary op) = true)
    (hc : ∀ x ∈ current, g.releases x (.binary op) = false) :
    Move g strict position op.sign
      (reached source mentions tokens (waiting ++ current) around spare false opens)
      (reached source mentions (tokens ++ waiting.map (·.token)) (.binary op :: current) around
        spare true opens) := by
  have h : Move g strict position op.sign _ _ := .joining op
    ⟨source, tokens, .ofMentions mentions⟩ (waiting ++ current) around spare opens
  obtain ⟨htake, hdrop⟩ := releases_append hw hc
  rw [htake, hdrop] at h
  exact h

end

theorem finish_reached (source : String) (mentions : List String) (tokens : List Token)
    (current : List Connective) (spare length : Nat) :
    finish length (reached source mentions tokens current [] spare false []) =
      .ok ⟨source, tokens ++ current.map (·.token), .ofMentions mentions⟩ := by
  simp [finish, reached, Pending.drain_ofLevels, Program.emit, bind, Except.bind, pure,
    Except.pure]

/-- The end of a text that is accepted: nothing is open and no operand is missing. -/
theorem finish_cases {s : Scan} (hs : s.Aligned) (length : Nat) :
    (∃ k outer, s.opens = k :: outer ∧ s.finish length = .error (.flaw (.unclosed k))) ∨
      (s.opens = [] ∧ s.finish length = .error (.flaw (.operandMissingAtEnd length))) ∨
      s.opens = [] ∧ s.expectsOperand = false ∧ ∃ p, s.finish length = .ok p := by
  obtain ⟨program, pending, expectsOperand, opens⟩ := s
  obtain ⟨current, around, spare, hp, -⟩ := hs
  simp only at hp
  subst hp
  cases opens with
  | cons k outer => exact .inl ⟨k, outer, rfl, rfl⟩
  | nil =>
    cases expectsOperand with
    | true => exact .inr (.inl ⟨rfl, rfl⟩)
    | false =>
      refine .inr (.inr ⟨rfl, rfl, ?_⟩)
      simp [finish, Pending.drain_ofLevels, bind, Except.bind, pure, Except.pure]

theorem Stay.mono {g : Grouping} {level high : Nat} {cs : List Connective} (h : Stay g level cs)
    (hlevel : level ≤ high) : Stay g high cs :=
  fun c hc op hop => h c hc op (Nat.le_trans hlevel hop)

theorem Stay.append {g : Grouping} {level : Nat} {cs ds : List Connective} (hcs : Stay g level cs)
    (hds : Stay g level ds) : Stay g level (cs ++ ds) :=
  fun c hc => (List.mem_append.mp hc).elim (hcs c) (hds c)

theorem stay_waiting {g : Grouping} {level high : Nat} {lead : Lead} (hlead : lead.IsAt level)
    (hlevel : level < high) : Stay g high lead.waiting := by
  intro c hc op hop
  have hlt : c.precedence < op.precedence := by
    rw [hlead c hc]
    exact Nat.lt_of_lt_of_le hlevel hop
  exact g.releases_eq_false_of_lt hlt

/-- What reading a text after a lead does, whatever else has been emitted and waits below: what is
emitted and what waits of the lead become the given tokens and connectives.  The levels around and
the open parentheses are as before. -/
def Passes (g : Grouping) (strict : Bool) (source : String) (later : List String) (level : Nat)
    (lead : Lead) (text : List Char) (mentions mentions' : List String) (emitted : List Token)
    (waiting : List Connective) : Prop :=
  ∀ (tokens : List Token) (current : List Connective) (around : List (List Connective))
    (spare : Nat) (opens : List Nat) (position : Nat), Stay g level current →
    ∃ spare', ∀ rest,
      run g strict position (text ++ rest)
          (reached source mentions (tokens ++ lead.tokens later) (lead.waiting ++ current) around
            spare true opens) =
        run g strict (position + text.length) rest
          (reached source mentions' (tokens ++ emitted) (waiting ++ current) around spare' false
            opens)

section

variable {g : Grouping} {strict : Bool} {source : String} {later mentions mentions' : List String}
  {level : Nat} {lead : Lead} {text : List Char} {emitted : List Token}
  {waiting : List Connective}

theorem passes_var {c : Char} (hc : IsVariable strict c)
    (hlater : mentions ++ [c.toString] <+: later) :
    Passes g strict source later level lead [c] mentions (mentions ++ [c.toString])
      (lead.tokens later ++ [.var (Numbering.numberIn later c.toString)]) lead.waiting := by
  have hnumber : Numbering.numberIn later c.toString =
      Numbering.numberIn (mentions ++ [c.toString]) c.toString :=
    Numbering.numberIn_of_prefix hlater (List.mem_append_right _ List.mem_cons_self)
  intro tokens current around spare opens position _
  refine ⟨spare, fun rest => ?_⟩
  rw [hnumber, ← List.append_assoc]
  exact run_move (reached_mention hc) rest

/-- The level inside parentheses starts empty, so nothing of the levels around is released. -/
theorem Passes.closed
    (h : Passes g strict source later 1 none text mentions mentions' emitted waiting) :
    Passes g strict source later level lead ('(' :: text ++ [')']) mentions mentions'
      (lead.tokens later ++ (emitted ++ waiting.map (·.token))) lead.waiting := by
  intro tokens current around spare opens position _
  obtain ⟨spare', hrun⟩ := h (tokens ++ lead.tokens later) []
    ((lead.waiting ++ current) :: around) (spare - 1) (position :: opens) (position + 1)
    (by simp [Stay])
  refine ⟨spare' + 1, fun rest => ?_⟩
  have htext : '(' :: text ++ [')'] ++ rest = '(' :: (text ++ ')' :: rest) := by simp
  have hlength : position + ('(' :: text ++ [')']).length = position + 1 + text.length + 1 := by
    simp
    omega
  have hrun := hrun (')' :: rest)
  rw [Lead.tokens_none, Lead.waiting_none, List.append_nil, List.append_nil] at hrun
  rw [htext, hlength, run_move reached_opening, hrun, List.append_nil,
    run_move reached_closing, List.append_assoc, List.append_assoc]

theorem Passes.negated
    (h : Passes g strict source later Connective.not.precedence none text mentions mentions'
      emitted waiting) :
    Passes g strict source later level lead (Connective.not.sign :: text) mentions mentions'
      (lead.tokens later ++ emitted) (waiting ++ .not :: lead.waiting) := by
  intro tokens current around spare opens position _
  have hstay : Stay g Connective.not.precedence (.not :: (lead.waiting ++ current)) :=
    fun _ _ op hop => absurd op.precedence_lt_not (Nat.not_lt_of_le hop)
  obtain ⟨spare', hrun⟩ := h (tokens ++ lead.tokens later) (.not :: (lead.waiting ++ current))
    around spare opens (position + 1) hstay
  refine ⟨spare', fun rest => ?_⟩
  have hlength : position + (Connective.not.sign :: text).length =
      position + 1 + text.length := by
    simp
    omega
  have hrun := hrun rest
  rw [Lead.tokens_none, Lead.waiting_none, List.append_nil, List.nil_append] at hrun
  rw [List.cons_append, hlength, run_move reached_negation, hrun]
  simp only [List.append_assoc, List.cons_append]

/-- The connective after a left operand completes it.  What it releases of the lead comes to the
operand, what it leaves waits below. -/
theorem Passes.joined {op : Binary} {f : Formula Int} {a : Formula Char} {left right : List Char}
    {between : List String} {emitted' kept : List Token} {waiting' gone below : List Connective}
    (hlevel : level ≤ op.precedence) (hlead : lead.IsAt level)
    (hleft : Passes g strict source later (op.precedence + 1) none left mentions between emitted
      waiting)
    (hemits : Emits (op.precedence + 1) f emitted waiting)
    (hright : Passes g strict source later op.precedence (some (a, op)) right between mentions'
      emitted' waiting')
    (hwaiting : lead.waiting = gone ++ below)
    (hgone : ∀ x ∈ gone, g.releases x (.binary op) = true)
    (hbelow : ∀ x ∈ below, g.releases x (.binary op) = false)
    (htokens : lead.tokens later ++ f.tokens ++ gone.map (·.token) =
      kept ++ (a.numbered later).tokens) :
    Passes g strict source later level lead (left ++ op.sign :: right) mentions mentions'
      (kept ++ emitted') (waiting' ++ below) := by
  intro tokens current around spare opens position hcurrent
  have hstay : Stay g op.precedence (below ++ current) :=
    Stay.append (fun x hx _ hop => g.releases_eq_false_mono (hbelow x hx) hop)
      (hcurrent.mono hlevel)
  obtain ⟨spare', hleft⟩ := hleft (tokens ++ lead.tokens later) (lead.waiting ++ current) around
    spare opens position ((stay_waiting hlead (Nat.lt_succ_of_le hlevel)).append
      (hcurrent.mono (Nat.le_succ_of_le hlevel)))
  obtain ⟨spare'', hright⟩ := hright (tokens ++ kept) (below ++ current) around spare' opens
    (position + left.length + 1) hstay
  refine ⟨spare'', fun rest => ?_⟩
  have hreleased : ∀ x ∈ waiting ++ gone, g.releases x (.binary op) = true := by
    intro x hx
    rcases List.mem_append.mp hx with hx | hx
    · exact g.releases_of_lt (hemits.strong x hx)
    · exact hgone x hx
  have hsplit : waiting ++ (lead.waiting ++ current) = waiting ++ gone ++ (below ++ current) := by
    simp only [hwaiting, List.append_assoc]
  have hemitted : tokens ++ lead.tokens later ++ emitted ++ (waiting ++ gone).map (·.token) =
      tokens ++ kept ++ (a.numbered later).tokens := by
    rw [List.append_assoc tokens kept, ← htokens, ← hemits.postorder]
    simp only [List.map_append, List.append_assoc]
  have hlength : position + (left ++ op.sign :: right).length =
      position + left.length + 1 + right.length := by
    simp
    omega
  have hleft := hleft (op.sign :: (right ++ rest))
  have hright := hright rest
  rw [Lead.tokens_none, Lead.waiting_none, List.append_nil, List.nil_append, hsplit] at hleft
  rw [Lead.tokens_some, Lead.waiting_some, List.singleton_append] at hright
  rw [List.append_assoc left, List.cons_append, hlength, hleft,
    run_move (reached_joining hreleased fun x hx => hstay x hx op (Nat.le_refl _)), hemitted,
    hright]
  simp only [List.append_assoc]

end

/-- Reading the text of a phrase of a level emits a part of the postorder; the rest waits on the
current stack. -/
theorem run_text (g : Grouping) (source : String) {strict : Bool} {level : Nat} {f : Phrase}
    (hf : Fits strict level f) {lead : Lead} (hlead : lead.IsAt level)
    {mentions later : List String} (hlater : mentions ++ f.mentions <+: later) :
    ∃ emitted waiting, Emits level ((f.grouped g lead).numbered later) emitted waiting ∧
      Passes g strict source later level lead f.text mentions (mentions ++ f.mentions) emitted
        waiting := by
  induction f generalizing level mentions lead with
  | var c => exact ⟨_, _, (Emits.var level _).joined hlead, passes_var hf hlater⟩
  | paren f ih =>
    obtain ⟨emitted, waiting, hemits, hpasses⟩ :=
      ih (show Fits strict 1 f from hf) (Lead.isAt_none 1) hlater
    have hclosed : Emits level _ _ [] := hemits.closed
    exact ⟨_, _, hclosed.joined hlead, hpasses.closed⟩
  | not f ih =>
    obtain ⟨emitted, waiting, hemits, hpasses⟩ := ih hf.2 (Lead.isAt_none _) hlater
    refine ⟨_, _, (hemits.not.mono hf.1).joined hlead, ?_⟩
    rw [List.append_assoc, List.singleton_append]
    exact hpasses.negated
  | binary op f h ihf ihh =>
    have hmentions : (binary op f h).mentions = f.mentions ++ h.mentions := by
      simp [Phrase.mentions, formula, Formula.leaves]
    rw [hmentions, ← List.append_assoc] at hlater ⊢
    obtain ⟨emitted, waiting, hemits, hleft⟩ :=
      ihf hf.2.1 (Lead.isAt_none _) ((List.prefix_append _ _).trans hlater)
    rw [grouped]
    split
    next hjoins =>
      -- The lead is complete with the left operand, and is a part of it from now on.
      have hgone : ∀ x ∈ lead.waiting, g.releases x (.binary op) = true := by
        cases lead with
        | none => simp
        | some l => simpa using hjoins
      obtain ⟨emitted', waiting', hemits', hright⟩ := ihh hf.2.2
        (Lead.isAt_some ((f.grouped g none).joined lead) op) hlater
      refine ⟨emitted', waiting', hemits'.mono hf.1, ?_⟩
      have hpasses : Passes g strict source later level lead _ mentions _ ([] ++ emitted')
          (waiting' ++ []) :=
        hleft.joined hf.1 hlead hemits hright (List.append_nil _).symm hgone
          (List.forall_mem_nil _) (Lead.tokens_joined ..).symm
      rwa [List.append_nil] at hpasses
    next hstays =>
      -- The lead waits below the connective and what follows it.
      have hkept : ∀ x ∈ lead.waiting, g.releases x (.binary op) = false := by
        cases lead with
        | none => simp
        | some l => simpa using hstays
      obtain ⟨emitted', waiting', hemits', hright⟩ := ihh hf.2.2
        (Lead.isAt_some (f.grouped g none) op) hlater
      exact ⟨_, _, (hemits'.mono hf.1).joined hlead, hleft.joined hf.1 hlead hemits hright rfl
        (List.forall_mem_nil _) hkept (List.append_nil _)⟩

end Scan

namespace Program

open Phrase

theorem ofChars_eq {cs : List Char} (h : cs ≠ []) (g : Grouping) (strict : Bool) :
    ofChars g strict cs =
      ((Scan.start (String.ofList cs)).run g strict 0 cs).bind (·.finish cs.length) := by
  have hempty : cs.isEmpty = false := by simpa using h
  simp only [ofChars, hempty, Bool.false_eq_true, if_false]
  rfl

/-- The program of a phrase, its chains being grouped as said. -/
theorem ofChars_grouped (g : Grouping) {strict : Bool} {cs : List Char} {f : Phrase}
    (h : Reads strict cs f) :
    ofChars g strict cs = .ok (ofFormula (String.ofList cs) (f.grouped g none)) := by
  obtain ⟨hf, rfl⟩ := h
  have hprefix : [] ++ f.mentions <+: f.mentions := List.prefix_refl _
  obtain ⟨emitted, waiting, hemits, hrun⟩ :=
    Scan.run_text g (String.ofList f.text) hf (Lead.isAt_none 1) hprefix
  obtain ⟨spare, hrun⟩ := hrun [] [] [] 0 [] 0 (by simp [Scan.Stay])
  have hend := hrun []
  simp only [Lead.tokens_none, Lead.waiting_none, List.append_nil] at hend
  have hmentions : (f.grouped g none).leaves.map Char.toString = f.mentions := by
    rw [leaves_grouped, mentions]
    rfl
  rw [ofChars_eq (text_ne_nil f), show Scan.start (String.ofList f.text) =
    Scan.reached (String.ofList f.text) [] [] [] [] 0 true [] from rfl, hend]
  simp only [Scan.run, Except.bind, Scan.finish_reached, List.nil_append, hemits.postorder,
    ofFormula, hmentions]

/-- A text is readable and has a program, or it is refused for a flaw of its own.  This holds
however chains are grouped. -/
theorem ofChars_cases (g : Grouping) (strict : Bool) (cs : List Char) :
    (Scan.Readable strict true 0 cs ∧ ∃ p, ofChars g strict cs = .ok p) ∨
      ∃ f : Flaw, ofChars g strict cs = .error (.flaw f) ∧ f.IsOfText := by
  by_cases hcs : cs = []
  · subst hcs
    exact .inr ⟨.blank, rfl, .inl rfl⟩
  rw [ofChars_eq hcs]
  have hstart := Scan.start_aligned (String.ofList cs)
  rcases Scan.run_aligned g strict 0 cs hstart with ⟨t, ht, hal⟩ | ⟨f, he, hf⟩
  · rw [ht]
    rcases Scan.finish_cases hal cs.length with
      ⟨k, outer, -, he⟩ | ⟨-, he⟩ | ⟨hopens, hexpects, hp⟩
    · exact .inr ⟨.unclosed k, he, .inl rfl⟩
    · exact .inr ⟨.operandMissingAtEnd cs.length, he, .inl rfl⟩
    · exact .inl ⟨Scan.readable_of_run hstart ht hopens hexpects, hp⟩
  · rw [he]
    exact .inr ⟨f, rfl, hf⟩

theorem mapM_symbolOf_tokens {p : Program} {mentions : List String}
    (hp : p.numbering = .ofMentions mentions) {f : Formula Char}
    (hf : ∀ c ∈ f.leaves, c.toString ∈ mentions) :
    (f.numbered mentions).tokens.mapM p.symbolOf =
      .ok (f.postorder Char.toString Connective.symbol) := by
  induction f with
  | var c =>
    have hc := Numbering.symbolOf?_ofMentions (hf c List.mem_cons_self)
    simp only [Formula.numbered, Formula.map, Formula.tokens, Formula.postorder, List.mapM_cons,
      List.mapM_nil, symbolOf, hp, hc]
    rfl
  | not f ih =>
    have htokens : ((Formula.not f).numbered mentions).tokens =
        (f.numbered mentions).tokens ++ [Connective.not.token] := rfl
    rw [htokens, List.mapM_append, ih hf]
    rfl
  | binary op f g ihf ihg =>
    have htokens : ((Formula.binary op f g).numbered mentions).tokens =
        (f.numbered mentions).tokens ++ (g.numbered mentions).tokens ++
          [(Connective.binary op).token] := rfl
    rw [htokens, List.mapM_append, List.mapM_append,
      ihf fun c hc => hf c (List.mem_append_left _ hc),
      ihg fun c hc => hf c (List.mem_append_right _ hc)]
    rfl

theorem listing_ofFormula (source : String) (f : Formula Char) :
    (ofFormula source f).listing = .ok (f.postorder Char.toString Connective.symbol) :=
  mapM_symbolOf_tokens rfl fun _ hc => List.mem_map_of_mem hc

/-- A text has a program exactly if it is read as a phrase, and then that of its formula.  Which
texts are read does not depend on the grouping. -/
theorem ofTextGrouped_eq_ok_iff {g : Grouping} {settings : Settings} {text : String}
    {p : Program} :
    ofTextGrouped g settings text = .ok p ↔ ∃ f,
      Reads settings.strict (Text.trim text.toList) f ∧
        p = ofFormula (Text.trimmed text) (f.grouped g none) := by
  constructor
  · intro h
    have h : ofChars g settings.strict (Text.trim text.toList) = .ok p := h
    rcases ofChars_cases g settings.strict (Text.trim text.toList) with
      ⟨hreadable, -⟩ | ⟨f, he, -⟩
    · obtain ⟨f, hf⟩ := hreadable.exists_reads
      exact ⟨f, hf, Except.ok.inj (h.symm.trans (ofChars_grouped g hf))⟩
    · rw [h] at he
      cases he
  · rintro ⟨f, hf, rfl⟩
    exact ofChars_grouped g hf

theorem ofText_eq_ok_iff_reads {settings : Settings} {text : String} {p : Program} :
    ofText settings text = .ok p ↔ ∃ f, Reads settings.strict (Text.trim text.toList) f ∧
      p = ofFormula (Text.trimmed text) f.formula := by
  rw [ofText, ofTextGrouped_eq_ok_iff]
  refine exists_congr fun f => and_congr_right fun hf => ?_
  rw [grouped_right hf.1 (Lead.isAt_none 1)]
  rfl

theorem ofText_eq_ok_iff {settings : Settings} {text : String} {p : Program} :
    ofText settings text = .ok p ↔ ∃ d : Derivation settings.strict .iff,
      d.text = Text.trim text.toList ∧ p = ofFormula (Text.trimmed text) d.formula := by
  rw [ofText_eq_ok_iff_reads]
  constructor
  · rintro ⟨f, ⟨hf, htext⟩, rfl⟩
    obtain ⟨d, rfl⟩ := Derivation.exists_phrase_eq (k := .iff) hf
    exact ⟨d, d.phrase_text.symm.trans htext, by rw [d.phrase_formula]⟩
  · rintro ⟨d, hd, rfl⟩
    exact ⟨d.phrase, ⟨d.phrase_fits, d.phrase_text.trans hd⟩, by rw [d.phrase_formula]⟩

theorem ofText_ofList {settings : Settings} {cs : List Char} {f : Phrase}
    (htrim : Text.trim cs = cs) (hf : Reads settings.strict cs f) :
    ofText settings (String.ofList cs) = .ok (ofFormula (String.ofList cs) f.formula) := by
  refine ofText_eq_ok_iff_reads.mpr ⟨f, ?_, ?_⟩
  · rwa [String.toList_ofList, htrim]
  · rw [Text.trimmed, String.toList_ofList, htrim]

theorem ofText_eq_error {settings : Settings} {text : String} {e : Fault}
    (h : ofText settings text = .error e) : ∃ f : Flaw, e = .flaw f ∧ f.IsOfText := by
  have h : ofChars .right settings.strict (Text.trim text.toList) = .error e := h
  rcases ofChars_cases .right settings.strict (Text.trim text.toList) with
    ⟨-, p, hp⟩ | ⟨f, he, hf⟩
  · rw [h] at hp
    cases hp
  · rw [h] at he
    exact ⟨f, Except.error.inj he, hf⟩

/-- A text has a program exactly if the grammar derives it, then by one tree only, and the
program in symbols is the postorder of that tree.  Every other text is refused as malformed
or for an unknown symbol. -/
theorem ofText_iff_derivation (settings : Settings) (text : String) :
    ((∃ p, ofText settings text = .ok p) ↔
      ∃ d : Derivation settings.strict .iff, d.text = Text.trim text.toList) ∧
    (∀ d e : Derivation settings.strict .iff,
      d.text = Text.trim text.toList → e.text = Text.trim text.toList → d = e) ∧
    (∀ (p : Program) (d : Derivation settings.strict .iff),
      ofText settings text = .ok p → d.text = Text.trim text.toList →
        p.listing = .ok (d.formula.postorder Char.toString Connective.symbol)) ∧
    ((¬∃ d : Derivation settings.strict .iff, d.text = Text.trim text.toList) →
      ∃ f : Flaw, ofText settings text = .error (.flaw f) ∧
        (f.kind = .malformed ∨ f.kind = .unknownToken)) := by
  refine ⟨⟨?_, ?_⟩, ?_, ?_, ?_⟩
  · rintro ⟨p, hp⟩
    obtain ⟨d, hd, -⟩ := ofText_eq_ok_iff.mp hp
    exact ⟨d, hd⟩
  · rintro ⟨d, hd⟩
    exact ⟨_, ofText_eq_ok_iff.mpr ⟨d, hd, rfl⟩⟩
  · intro d e hd he
    exact Derivation.eq_of_text_eq (hd.trans he.symm)
  · intro p d hp hd
    obtain ⟨e, he, rfl⟩ := ofText_eq_ok_iff.mp hp
    obtain rfl := Derivation.eq_of_text_eq (hd.trans he.symm)
    exact listing_ofFormula _ _
  · intro hnone
    cases h : ofText settings text with
    | ok p =>
      obtain ⟨d, hd, -⟩ := ofText_eq_ok_iff.mp h
      exact absurd ⟨d, hd⟩ hnone
    | error e =>
      obtain ⟨f, rfl, hf⟩ := ofText_eq_error h
      exact ⟨f, rfl, hf⟩

end Program
end PropTable

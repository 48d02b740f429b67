import PropTable.Journal
import PropTable.Proofs.Faults
import PropTable.Proofs.Stacks
import PropTable.Proofs.Unclosed

/-!
# The state of a scan

Before each character, the state of a scan is told by the text that has been read
(`Scan.mirrors_of_run`).  The level and the open parentheses are followed elsewhere; here the
tokens and the pending connectives are taken together.  A move is an operation on the pending
connectives or mentions a variable (`Scan.Move.performs`), and an operation releases only what
was pending, so that each connective of the text is emitted or waits
(`Scan.Move.connectives`).

An operand has been read for each connective of the text that joins two, and one more unless an
operand is expected.  What is emitted therefore leaves one value for each such connective that waits
(`Scan.Accounts.variables_eq`), and those that are released find their operands
(`Scan.Accounts.faultless_of_move`).
-/

namespace PropTable

/-! ## Connectives among the tokens -/

def Connective.isBinary : Connective → Bool
  | not => false
  | binary _ => true

/-- The connective that a token stands for. -/
def Token.connective? : Token → Option Connective
  | .var _ => none
  | .sign symbol => Connective.ofSymbol? symbol

namespace Token

variable {idFault? : Int → Option Fault} {ts : List Token}

@[simp] theorem connective?_token (c : Connective) : c.token.connective? = some c := by
  simp [Connective.token, connective?, Connective.symbol]

theorem isBinary_token (c : Connective) : c.token.isBinary = c.isBinary := by
  have hc : Connective.ofSymbol? c.symbol = some c := connective?_token c
  rw [Connective.token, isBinary, hc]
  cases c <;> rfl

theorem filterMap_connective?_map (cs : List Connective) :
    (cs.map (·.token)).filterMap connective? = cs := by
  rw [List.filterMap_map]
  exact (List.filterMap_congr fun c _ => connective?_token c).trans List.filterMap_some

theorem countP_isBinary (ts : List Token) :
    ts.countP isBinary = (ts.filterMap connective?).countP Connective.isBinary := by
  rw [List.countP_filterMap]
  refine List.countP_congr fun t _ => ?_
  cases t with
  | var id => simp [isBinary, connective?]
  | sign symbol =>
    rw [isBinary, connective?]
    cases Connective.ofSymbol? symbol with
    | none => simp
    | some c => cases c <;> simp [Connective.isBinary]

theorem countP_isVariable_map (cs : List Connective) :
    (cs.map (·.token)).countP isVariable = 0 := by
  rw [List.countP_eq_zero]
  intro t ht
  obtain ⟨c, -, rfl⟩ := List.mem_map.mp ht
  exact Bool.false_ne_true

/-- What is wrong with the variables matters for those that occur. -/
theorem Faultless.of_variables {idFault?' : Int → Option Fault} (h : Faultless idFault? ts)
    (hvariables : ∀ id, .var id ∈ ts → idFault?' id = none) : Faultless idFault?' ts := by
  intro before t after hts
  cases t with
  | var id => exact hvariables id (by simp [hts])
  | sign symbol => exact h before (.sign symbol) after hts

/-- Connectives find their operands as long as one value is left below those that join two. -/
theorem Faultless.append_map {cs : List Connective} (h : Faultless idFault? ts)
    (hroom : ts.countP isBinary + cs.countP Connective.isBinary < ts.countP isVariable) :
    Faultless idFault? (ts ++ cs.map (·.token)) := by
  induction cs generalizing ts with
  | nil => simpa using h
  | cons c cs ih =>
    rw [List.map_cons, List.append_cons]
    have hc : Connective.ofSymbol? c.symbol = some c := connective?_token c
    have hcount : ts.countP isBinary + [c].countP Connective.isBinary +
        cs.countP Connective.isBinary < ts.countP isVariable := by
      rw [Nat.add_assoc, ← List.countP_append]
      exact hroom
    refine ih (faultless_concat.mpr ⟨h, ?_⟩) ?_
    · have harity : c.arity ≤ height ts := by
        rw [height]
        cases c with
        | not => simp [Connective.arity] at hcount ⊢; omega
        | binary op => simp [Connective.arity, Connective.isBinary] at hcount ⊢; omega
      simp [Connective.token, fault?, hc, harity]
    · have hsign : [c.token].countP isBinary = [c].countP Connective.isBinary := by
        rw [List.countP_singleton, List.countP_singleton, isBinary_token]
      rw [List.countP_append, List.countP_append, hsign]
      omega

end Token

/-! ## What a move keeps -/

theorem Pending.Effect.released_sublist {g : Grouping} {p p' : Pending} {op : Operation}
    {cs : List Connective} {result : Except Fault (List Connective)}
    (h : Effect g p op result p') (hcs : result = .ok cs) : cs.Sublist p.waiting.flatten := by
  cases h with
  | deepened =>
    obtain rfl := Except.ok.inj hcs
    exact List.nil_sublist _
  | placed hslot hstack hc =>
    obtain rfl := Except.ok.inj hcs
    have hmem := List.mem_of_getElem? hstack
    exact (List.takeWhile_sublist _).trans (List.sublist_flatten_of_mem hmem)
  | drained hslot hstack | left hslot hstack =>
    obtain rfl := Except.ok.inj hcs
    exact List.sublist_flatten_of_mem (List.mem_of_getElem? hstack)
  | unknown hslot hc | lost hop hslot => cases hcs

namespace Scan

open Token (isVariable)

variable {g : Grouping} {strict : Bool} {position : Nat} {c : Char} {s s' : Scan}

/-- A move either is an operation on the pending connectives, which releases connectives to the
program, or mentions a variable. -/
theorem Move.performs (h : Move g strict position c s s') :
    (∃ op cs, s.pending.perform g op = (.ok cs, s'.pending) ∧
        s'.program = s.program.emit (cs.map (·.token)) ∧
        Pending.pushed (op, .ok cs) = (Connective.ofChar? c).toList ∧
        (cs = [] ∨ s.expectsOperand = false)) ∨
      (∃ symbol, s'.program = (s.program.mention symbol).1) ∧ s'.pending = s.pending ∧
        Connective.ofChar? c = none := by
  have hpush (c : Connective) (current : List Connective) (around : List (List Connective))
      (spare : Nat) : (Pending.ofLevels current around spare).perform g (.push c.symbol) =
        (.ok (current.takeWhile (g.releases · c)),
          .ofLevels (c :: current.dropWhile (g.releases · c)) around spare) := by
    have hc : Connective.ofSymbol? c.symbol = some c := Token.connective?_token c
    simp [Pending.perform, Pending.push, hc, Pending.place_ofLevels]
  have hpushed (c : Connective) (cs : List Connective) :
      Pending.pushed (.push c.symbol, .ok cs) = (Connective.ofChar? c.sign).toList := by
    rw [Pending.pushed, Connective.ofChar?_sign]
    exact congrArg Option.toList (Token.connective?_token c)
  cases h with
  | opening p current around spare opens =>
    refine .inl ⟨.deepen, [], ?_, by simp [Program.emit], rfl, .inl rfl⟩
    simp only [Pending.perform, Pending.deepen_ofLevels]
  | closing p current outer around spare k opens =>
    refine .inl ⟨.leave, current, ?_, rfl, rfl, .inr rfl⟩
    simp only [Pending.perform, Pending.leave_ofLevels]
  | negation p current around spare opens =>
    have hnone : current.takeWhile (g.releases · .not) = [] := by
      cases current with
      | nil => rfl
      | cons a rest => simp [Grouping.releases_not]
    exact .inl ⟨_, _, hpush .not current around spare, rfl, hpushed .not _, .inl hnone⟩
  | joining op p current around spare opens =>
    have hperform := hpush (.binary op) current around spare
    exact .inl ⟨_, _, hperform, rfl, hpushed (.binary op) _, .inr rfl⟩
  | mention c hc p pending opens => exact .inr ⟨⟨_, rfl⟩, rfl, hc.2.2.1⟩

/-- The connectives that have gone to the program. -/
def emitted (s : Scan) : List Connective := s.program.tokens.filterMap Token.connective?

/-- The connectives that wait, at all levels. -/
def held (s : Scan) : List Connective := s.pending.waiting.flatten

/-- The connectives of a text. -/
def signs (cs : List Char) : List Connective := cs.filterMap Connective.ofChar?

/-- A scan accounts for the text that it has read: no parenthesis, connective or operand of it is
lost, and none is made. -/
structure Accounts (read : List Char) (s : Scan) : Prop where
  parentheses : read.count '(' = read.count ')' + s.opens.length
  orderly : s.pending.IsOrderly
  connectives : (s.emitted ++ s.held).Perm (signs read)
  operands : s.program.tokens.countP isVariable =
    (signs read).countP Connective.isBinary + if s.expectsOperand then 0 else 1
  faultless : Token.Faultless (fun _ => none) s.program.tokens

theorem start_accounts (source : String) : Accounts [] (start source) where
  parentheses := rfl
  orderly := Pending.isOrderly_initial
  connectives := List.Perm.nil
  operands := rfl
  faultless := Token.faultless_nil

variable {read : List Char}

theorem signs_concat (read : List Char) (c : Char) :
    signs (read ++ [c]) = signs read ++ (Connective.ofChar? c).toList := by
  rw [signs, List.filterMap_append, signs]
  cases h : Connective.ofChar? c <;> simp [h]

theorem tokens_mention (p : Program) (symbol : String) :
    ∃ id, (p.mention symbol).1.tokens = p.tokens ++ [.var id] := ⟨_, rfl⟩

theorem Move.parentheses (h : Move g strict position c s s')
    (hs : read.count '(' = read.count ')' + s.opens.length) :
    (read ++ [c]).count '(' = (read ++ [c]).count ')' + s'.opens.length := by
  have hother (hopen : c ≠ '(') (hclose : c ≠ ')') :
      (read ++ [c]).count '(' = (read ++ [c]).count ')' + s.opens.length := by
    simp [List.count_append, hopen, hclose, hs]
  cases h with
  | opening p current around spare opens =>
    simp [List.count_append, hs]
    omega
  | closing p current outer around spare k opens =>
    simp [List.count_append, hs]
    omega
  | negation p current around spare opens => exact hother (by decide) (by decide)
  | joining op p current around spare opens =>
    exact hother (Connective.binary op).sign_ne_open (Connective.binary op).sign_ne_close
  | mention c hc p pending opens => exact hother hc.1 hc.2.1

theorem Move.orderly (h : Move g strict position c s s') (hs : s.pending.IsOrderly) :
    s'.pending.IsOrderly := by
  rcases h.performs with ⟨op, cs, hperform, -⟩ | ⟨-, hpending, -⟩
  · have heffect := (Pending.perform_effect g s.pending op).isOrderly hs
    rwa [hperform] at heffect
  · rwa [hpending]

theorem Move.connectives (h : Move g strict position c s s')
    (hs : (s.emitted ++ s.held).Perm (signs read)) :
    (s'.emitted ++ s'.held).Perm (signs (read ++ [c])) := by
  rw [signs_concat]
  rcases h.performs with
    ⟨op, cs, hperform, hprogram, hpushed, -⟩ | ⟨⟨symbol, hprogram⟩, hpending, hc⟩
  · have hbalance := (Pending.perform_effect g s.pending op).balance
    rw [hperform, hpushed] at hbalance
    have hemitted : s'.emitted = s.emitted ++ cs := by
      rw [emitted, hprogram, Program.emit, List.filterMap_append, Token.filterMap_connective?_map,
        emitted]
    rw [hemitted, List.append_assoc]
    calc s.emitted ++ (cs ++ s'.held)
      _ |>.Perm (s.emitted ++ ((Connective.ofChar? c).toList ++ s.held)) :=
        hbalance.symm.append_left s.emitted
      _ |>.Perm ((Connective.ofChar? c).toList ++ (s.emitted ++ s.held)) :=
        List.perm_append_comm_assoc ..
      _ |>.Perm ((Connective.ofChar? c).toList ++ signs read) := hs.append_left _
      _ |>.Perm (signs read ++ (Connective.ofChar? c).toList) := List.perm_append_comm
  · obtain ⟨id, htokens⟩ := tokens_mention s.program symbol
    have hemitted : s'.emitted = s.emitted := by
      rw [emitted, hprogram, htokens, List.filterMap_append]
      exact List.append_nil _
    rw [hemitted, held, hpending, hc, Option.toList_none, List.append_nil]
    exact hs

theorem Move.operands (h : Move g strict position c s s')
    (hs : s.program.tokens.countP isVariable =
      (signs read).countP Connective.isBinary + if s.expectsOperand then 0 else 1) :
    s'.program.tokens.countP isVariable =
      (signs (read ++ [c])).countP Connective.isBinary + if s'.expectsOperand then 0 else 1 := by
  have hemit (p : Program) (cs : List Connective) :
      (p.emit (cs.map (·.token))).tokens.countP isVariable = p.tokens.countP isVariable := by
    rw [Program.emit, List.countP_append, Token.countP_isVariable_map, Nat.add_zero]
  rw [signs_concat, List.countP_append]
  cases h with
  | opening p current around spare opens => exact hs
  | closing p current outer around spare k opens =>
    rw [hemit]
    exact hs
  | negation p current around spare opens =>
    rw [hemit, Connective.ofChar?_sign]
    exact hs
  | joining op p current around spare opens =>
    rw [hemit, show op.sign = (Connective.binary op).sign from rfl, Connective.ofChar?_sign]
    exact hs
  | mention c hc p pending opens =>
    obtain ⟨id, htokens⟩ := tokens_mention p c.toString
    rw [htokens, List.countP_append, hc.2.2.1, hs]
    rfl

/-- The variables that are emitted suffice for the connectives that are, and leave a value for
each one that joins two and waits. -/
theorem Accounts.variables_eq (hs : Accounts read s) :
    s.program.tokens.countP isVariable = s.program.tokens.countP Token.isBinary +
      s.held.countP Connective.isBinary + if s.expectsOperand then 0 else 1 := by
  have hsplit := hs.connectives.countP_eq Connective.isBinary
  rw [List.countP_append] at hsplit
  rw [hs.operands, ← hsplit, Token.countP_isBinary, emitted]

/-- What a move releases finds its operands: below them there is one value more than connectives
that join two. -/
theorem Accounts.faultless_of_move (hs : Accounts read s) (h : Move g strict position c s s') :
    Token.Faultless (fun _ => none) s'.program.tokens := by
  rcases h.performs with ⟨op, cs, hperform, hprogram, -, hcs⟩ | ⟨⟨symbol, hprogram⟩, -⟩
  · rw [hprogram]
    rcases hcs with rfl | hexpects
    · simpa [Program.emit] using hs.faultless
    · refine hs.faultless.append_map ?_
      have heffect := Pending.perform_effect g s.pending op
      have hreleased : cs.countP Connective.isBinary ≤ s.held.countP Connective.isBinary :=
        (heffect.released_sublist (congrArg Prod.fst hperform)).countP_le
      rw [hs.variables_eq, hexpects, if_neg Bool.false_ne_true]
      omega
  · rw [hprogram]
    exact Token.faultless_concat.mpr ⟨hs.faultless, rfl⟩

theorem Move.accounts (h : Move g strict position c s s') (hs : Accounts read s) :
    Accounts (read ++ [c]) s' where
  parentheses := h.parentheses hs.parentheses
  orderly := h.orderly hs.orderly
  connectives := h.connectives hs.connectives
  operands := h.operands hs.operands
  faultless := hs.faultless_of_move h

/-! ## Before each character -/

/-- What a scan holds before a character, told by the text that it has read: its level and its
open parentheses, the last one first, the stacks of its levels and those above, where each
connective of the text is, and the values that its tokens leave. -/
structure Mirrors (read : List Char) (s : Scan) : Prop where
  level_eq : s.pending.level = s.opens.length
  mem_opens_iff : ∀ k, k ∈ s.opens ↔ Text.Unclosed read k
  opens_descend : s.opens.Pairwise (· > ·)
  parentheses : read.count '(' = read.count ')' + s.opens.length
  eq_nil_of_lt : ∀ (i : Nat) stack, s.pending.level < i → s.pending.waiting[i]? = some stack →
    stack = []
  descends : ∀ stack ∈ s.pending.waiting, Descends stack
  connectives : (s.emitted ++ s.held).Perm (signs read)
  replays : ∀ {α : Type} (alg : Algebra α),
    (∀ id, .var id ∈ s.program.tokens → ∃ a, alg.leaf id = .ok a) →
    ∃ steps stack, Replay.run alg s.program.tokens [] = .ok (steps, stack) ∧
      stack.length = s.held.countP Connective.isBinary + if s.expectsOperand then 0 else 1

theorem Accounts.replays {α : Type} (hs : Accounts read s) (alg : Algebra α)
    (hleaf : ∀ id, .var id ∈ s.program.tokens → ∃ a, alg.leaf id = .ok a) :
    ∃ steps stack, Replay.run alg s.program.tokens [] = .ok (steps, stack) ∧
      stack.length = s.held.countP Connective.isBinary + if s.expectsOperand then 0 else 1 := by
  have hfaultless : Token.Faultless alg.idFault? s.program.tokens :=
    hs.faultless.of_variables fun id hid => by
      obtain ⟨a, ha⟩ := hleaf id hid
      rw [Algebra.idFault?, ha]
  obtain ⟨steps, stack, hrun, hstack⟩ := Replay.run_of_faultless rfl hfaultless
  refine ⟨steps, stack, hrun, ?_⟩
  rw [Replay.Holds, hs.variables_eq] at hstack
  omega

theorem mirrors_of_accounts (haligned : s.Aligned) (htracks : Tracks read s.opens)
    (haccounts : Accounts read s) : Mirrors read s where
  level_eq := Pending.AtDepth.level_eq haligned
  mem_opens_iff := htracks.mem_iff
  opens_descend := htracks.descending
  parentheses := haccounts.parentheses
  eq_nil_of_lt i stack hi h := by
    have hlevel : s.pending.level = s.opens.length := Pending.AtDepth.level_eq haligned
    exact Pending.AtDepth.eq_nil_of_lt haligned (by omega) h
  descends := haccounts.orderly.descends
  connectives := haccounts.connectives
  replays alg hleaf := haccounts.replays alg hleaf

theorem getElem?_visits {before : List Char} (after : List Char)
    (h : run g strict position before s = .ok s') :
    (visits g strict position (before ++ c :: after) s)[before.length]? =
      some (position + before.length, c, s') := by
  induction before generalizing position s with
  | nil =>
    obtain rfl := Except.ok.inj h
    rfl
  | cons a before ih =>
    rw [run_cons] at h
    rw [List.cons_append, visits, List.length_cons, List.getElem?_cons_succ]
    cases hstep : s.step g strict position a with
    | error e =>
      rw [hstep] at h
      cases h
    | ok s₁ =>
      rw [hstep] at h
      rw [← Nat.add_assoc, Nat.add_right_comm]
      exact ih h

end Scan

namespace Pending

theorem getElem?_stacksText (k : Nat) (levels : List (List Connective)) (i : Nat) :
    (stacksText k levels)[i]? = levels[i]?.map fun stack =>
      toString (k + i) ++ ": " ++ Text.quotedList (stackSymbols stack) := by
  induction levels generalizing k i with
  | nil => rfl
  | cons stack rest ih =>
    cases i with
    | zero => rfl
    | succ i =>
      rw [stacksText, List.getElem?_cons_succ, List.getElem?_cons_succ, ih, Nat.add_right_comm]
      rfl

theorem length_stacksText (k : Nat) (levels : List (List Connective)) :
    (stacksText k levels).length = levels.length := by
  induction levels generalizing k with
  | nil => rfl
  | cons stack rest ih => rw [stacksText, List.length_cons, ih, List.length_cons]

/-- As many stacks are shown as there are levels, the outermost one and those around counted. -/
theorem AtDepth.length_shown {p : Pending} {depth : Nat} (hp : p.AtDepth depth) :
    (p.waiting.take p.shownCount).length = depth + 1 := by
  obtain ⟨current, around, spare, rfl, rfl⟩ := hp
  have hcount : (ofLevels current around spare).shownCount = around.length + 1 := rfl
  rw [hcount, List.length_take]
  simp [ofLevels]

end Pending

namespace Scan

/-- Before each character that is scanned, the scan mirrors the text before it, and the line of
the journal for the character shows one stack more than parentheses are open. -/
theorem mirrors_of_run (settings : Settings) {text : String} {before after : List Char} {c : Char}
    {s : Scan} (htext : Text.trim text.toList = before ++ c :: after)
    (hrun : (start (Text.trimmed text)).run .right settings.strict 0 before = .ok s) :
    Mirrors before s ∧ ∃ shown : List String,
      (Journal.scanLines settings text)[before.length]? =
        some ("Procesando token " ++ Text.quoted c.toString ++ " (pos " ++
          toString before.length ++ ") pendientes=[" ++ " ".intercalate shown ++ "]") ∧
      shown.length = s.opens.length + 1 ∧
      ∀ (i : Nat) entry, shown[i]? = some entry →
        ∃ stack, s.pending.waiting[i]? = some stack ∧
          entry = toString i ++ ": " ++ Text.quotedList (Pending.stackSymbols stack) := by
  have hstart := start_aligned (Text.trimmed text)
  have haligned : s.Aligned := hstart.of_run hrun
  have htracks : Tracks ([] ++ before) s.opens := run_tracks hstart Tracks.nil hrun
  have haccounts : Accounts ([] ++ before) s :=
    run_induction (fun hmove => hmove.accounts) hstart (start_accounts _) hrun
  refine ⟨mirrors_of_accounts haligned htracks haccounts,
    Pending.stacksText 0 (s.pending.waiting.take s.pending.shownCount), ?_, ?_, ?_⟩
  · have hvisit := getElem?_visits (c := c) after hrun
    rw [Nat.zero_add, ← htext] at hvisit
    rw [Journal.scanLines, List.getElem?_map]
    exact (congrArg (Option.map Journal.scanLine) hvisit).trans rfl
  · rw [Pending.length_stacksText]
    exact Pending.AtDepth.length_shown haligned
  · intro i entry h
    rw [Pending.getElem?_stacksText, Option.map_eq_some_iff] at h
    obtain ⟨stack, hstack, rfl⟩ := h
    rw [List.getElem?_take] at hstack
    split at hstack
    · exact ⟨stack, hstack, by rw [Nat.zero_add]⟩
    · cases hstack

/-- Before the parenthesis that closes the first level: two values for one connective that waits
for its right operand, and two stacks for one open parenthesis. -/
theorem mirrors_of_run_nested :
    let text := " ~(p&~q)|r"
    let before := "~(p&~q".toList
    let s : Scan :=
      { program :=
          { source := Text.trimmed text, tokens := [.var 1, .var 2]
            numbering :=
              { names := ["p", "q"], ids := [("p", 1), ("q", 2)]
                symbols := [(1, "p"), (2, "q")] } }
        pending := { waiting := [[.not], [.not, .binary .and]], level := 1 }
        expectsOperand := false, opens := [1] }
    Text.trim text.toList = before ++ ')' :: "|r".toList ∧
      (start (Text.trimmed text)).run .right ({} : Settings).strict 0 before = .ok s ∧
      Mirrors before s ∧
      ∃ shown : List String, shown.length = 2 ∧
        (Journal.scanLines {} text)[6]? =
          some ("Procesando token ')' (pos 6) pendientes=[" ++ " ".intercalate shown ++ "]") := by
  intro text before s
  have htext : Text.trim text.toList = before ++ ')' :: "|r".toList := by decide
  have hrun : (start (Text.trimmed text)).run .right ({} : Settings).strict 0 before = .ok s := by
    decide
  have hhead : "Procesando token " ++ Text.quoted ')'.toString ++ " (pos " ++
      toString before.length ++ ") pendientes=[" =
        "Procesando token ')' (pos 6) pendientes=[" := by decide
  obtain ⟨hmirrors, shown, hline, hlength, -⟩ := mirrors_of_run {} htext hrun
  rw [hhead] at hline
  exact ⟨htext, hrun, hmirrors, shown, hlength, hline⟩

end Scan
end PropTable

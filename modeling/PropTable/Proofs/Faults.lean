import Mathlib.Data.List.Induction
import PropTable.Proofs.Interning

/-!
# The first token at fault

A replay goes on until a token is at fault, and whether one is depends on the tokens before it
only through the number of values that they leave, `Token.height`.  So all replays of a program
fail at one place, if they agree on which variable numbers are at fault.

Formulas are values too: on a stack of formulas a replay keeps the tokens that it has read
(`Replay.flatMap_tokens_of_run`), from which the lists without a fault and with one value left
are the postorders of formulas (`Token.faultless_and_height_iff`).
-/

namespace PropTable

namespace Token

def isVariable : Token → Bool
  | .var _ => true
  | .sign _ => false

def isBinary : Token → Bool
  | .var _ => false
  | .sign symbol => match Connective.ofSymbol? symbol with
    | some (.binary _) => true
    | _ => false

/-- How many values tokens leave on a stack: each variable puts one there, and each binary
connective makes one of two. -/
def height (ts : List Token) : Nat := ts.countP isVariable - ts.countP isBinary

/-- What is wrong with a token after others, given what is wrong with the variable numbers.  A
symbol has to be a connective, and a connective needs its operands. -/
def fault? (idFault? : Int → Option Fault) (before : List Token) : Token → Option Fault
  | .var id => idFault? id
  | .sign symbol => match Connective.ofSymbol? symbol with
    | none => some (.unknownSymbol symbol)
    | some c =>
      if c.arity ≤ height before then none else some (.flaw (.operandsMissing symbol))

def Faultless (idFault? : Int → Option Fault) (ts : List Token) : Prop :=
  ∀ before t after, ts = before ++ t :: after → t.fault? idFault? before = none

/-- The fault of the first token that is at fault. -/
def FirstFault (idFault? : Int → Option Fault) (ts : List Token) (e : Fault) : Prop :=
  ∃ before t after, ts = before ++ t :: after ∧ Faultless idFault? before ∧
    t.fault? idFault? before = some e

variable {idFault? : Int → Option Fault} {ts : List Token} {t : Token} {e : Fault}

theorem faultless_nil : Faultless idFault? [] := by
  intro before t after h
  simp at h

theorem faultless_concat :
    Faultless idFault? (ts ++ [t]) ↔ Faultless idFault? ts ∧ t.fault? idFault? ts = none := by
  constructor
  · intro h
    refine ⟨fun before t' after hts => ?_, h ts t [] rfl⟩
    exact h before t' (after ++ [t]) (by rw [hts, List.append_assoc, List.cons_append])
  · rintro ⟨hts, ht⟩ before t' after h
    rcases List.eq_nil_or_concat after with rfl | ⟨after, x, rfl⟩
    · obtain ⟨rfl, hlast⟩ := List.append_inj' h rfl
      obtain rfl := (List.cons.inj hlast).1
      exact ht
    · rw [List.concat_eq_append, ← List.cons_append, ← List.append_assoc] at h
      exact hts before t' after (List.append_inj' h rfl).1

theorem faultless_or_firstFault (idFault? : Int → Option Fault) (ts : List Token) :
    Faultless idFault? ts ∨ ∃ e, FirstFault idFault? ts e := by
  induction ts using List.reverseRecOn with
  | nil => exact .inl faultless_nil
  | append_singleton ts t ih =>
    rcases ih with hts | ⟨e, before, t', after, rfl, hbefore, he⟩
    · cases ht : t.fault? idFault? ts with
      | none => exact .inl (faultless_concat.mpr ⟨hts, ht⟩)
      | some e => exact .inr ⟨e, ts, t, [], rfl, hts, ht⟩
    · exact .inr ⟨e, before, t', after ++ [t], by simp, hbefore, he⟩

theorem Faultless.idFault?_eq_none (h : Faultless idFault? ts) {id : Int}
    (hid : .var id ∈ ts) : idFault? id = none := by
  obtain ⟨before, after, rfl⟩ := List.append_of_mem hid
  exact h before (.var id) after rfl

theorem Faultless.mono {idFault?' : Int → Option Fault} (h : Faultless idFault? ts)
    (hle : ∀ id, idFault? id = none → idFault?' id = none) : Faultless idFault?' ts := by
  intro before t after hts
  have ht := h before t after hts
  cases t with
  | var id => exact hle id ht
  | sign symbol => exact ht

end Token

/-- What is wrong with a variable number in a replay. -/
def Algebra.idFault? {α : Type} (alg : Algebra α) (id : Int) : Option Fault :=
  match alg.leaf id with
  | .ok _ => none
  | .error e => some e

namespace Replay

open Token

variable {α : Type} {alg : Algebra α} {ts before : List Token} {t : Token} {e : Fault}

/-- The stack has the values that the tokens leave.  Written as a sum, so that nothing is cut
off at zero. -/
def Holds (stack : List α) (ts : List Token) : Prop :=
  stack.length + ts.countP isBinary = ts.countP isVariable

theorem Holds.length_eq {stack : List α} (h : Holds stack ts) : stack.length = height ts := by
  unfold Holds at h
  rw [height]
  omega

theorem run_concat (ts : List Token) (t : Token) (stack : List α) :
    run alg (ts ++ [t]) stack =
      (run alg ts stack).bind fun r => (step alg r.2 t).map fun s => (r.1 ++ s.1, s.2) := by
  rw [run_append]
  cases run alg ts stack with
  | error e => rfl
  | ok r =>
    simp only [run, bind, Except.bind, pure, Except.pure]
    cases step alg r.2 t with
    | error e => rfl
    | ok s => simp [Except.map]

/-- A connective fails exactly if the stack has fewer values than it takes. -/
theorem combine_cases (alg : Algebra α) (c : Connective) (stack : List α) :
    (stack.length < c.arity ∧ combine alg c stack = none) ∨
      ∃ value rest, combine alg c stack = some (value, rest) ∧
        rest.length + c.arity = stack.length := by
  cases c with
  | not =>
    cases stack with
    | nil => exact .inl ⟨Nat.zero_lt_one, rfl⟩
    | cons a rest => exact .inr ⟨_, rest, rfl, rfl⟩
  | binary op =>
    cases stack with
    | nil => exact .inl ⟨Nat.zero_lt_two, rfl⟩
    | cons b lower =>
      cases lower with
      | nil => exact .inl ⟨Nat.one_lt_two, rfl⟩
      | cons a rest => exact .inr ⟨_, rest, rfl, rfl⟩

theorem step_of_fault?_eq_none {stack : List α} (hstack : Holds stack before)
    (h : t.fault? alg.idFault? before = none) :
    ∃ now stack', step alg stack t = .ok (now, stack') ∧ Holds stack' (before ++ [t]) := by
  have hlength := hstack.length_eq
  unfold Holds at hstack
  cases t with
  | var id =>
    simp only [fault?, Algebra.idFault?] at h
    cases hleaf : alg.leaf id with
    | error e => simp [hleaf] at h
    | ok a =>
      refine ⟨[], a :: stack, by simp [step, hleaf, bind, Except.bind, pure, Except.pure], ?_⟩
      simp [Holds, isVariable, isBinary]
      omega
  | sign symbol =>
    simp only [fault?] at h
    cases hsymbol : Connective.ofSymbol? symbol with
    | none => simp [hsymbol] at h
    | some c =>
      have harity : c.arity ≤ stack.length := by
        rw [hlength]
        simpa [hsymbol] using h
      rcases combine_cases alg c stack with ⟨hfew, -⟩ | ⟨value, rest, hcombine, hrest⟩
      · omega
      · refine ⟨[value], value :: rest, by simp [step, hsymbol, hcombine], ?_⟩
        cases c with
        | not =>
          simp [Holds, isVariable, isBinary, hsymbol, Connective.arity] at hrest ⊢
          omega
        | binary op =>
          simp [Holds, isVariable, isBinary, hsymbol, Connective.arity] at hrest ⊢
          omega

theorem step_of_fault?_eq_some {stack : List α} (hstack : Holds stack before)
    (h : t.fault? alg.idFault? before = some e) : step alg stack t = .error e := by
  have hlength := hstack.length_eq
  cases t with
  | var id =>
    simp only [fault?, Algebra.idFault?] at h
    cases hleaf : alg.leaf id with
    | ok a => simp [hleaf] at h
    | error e' =>
      obtain rfl : e' = e := by simpa [hleaf] using h
      simp [step, hleaf, bind, Except.bind]
  | sign symbol =>
    simp only [fault?] at h
    cases hsymbol : Connective.ofSymbol? symbol with
    | none =>
      obtain rfl : Fault.unknownSymbol symbol = e := by simpa [hsymbol] using h
      simp [step, hsymbol]
    | some c =>
      simp only [hsymbol, ← hlength] at h
      split at h
      · cases h
      · rename_i hfew
        obtain rfl := Option.some.inj h
        rcases combine_cases alg c stack with ⟨-, hnone⟩ | ⟨value, rest, -, hrest⟩
        · simp [step, hsymbol, hnone]
        · omega

theorem run_of_faultless {idFault? : Int → Option Fault} (halg : alg.idFault? = idFault?)
    (h : Faultless idFault? ts) :
    ∃ steps stack, run alg ts [] = .ok (steps, stack) ∧ Holds stack ts := by
  subst halg
  induction ts using List.reverseRecOn with
  | nil => exact ⟨[], [], rfl, rfl⟩
  | append_singleton ts t ih =>
    obtain ⟨hts, ht⟩ := faultless_concat.mp h
    obtain ⟨steps, stack, hrun, hstack⟩ := ih hts
    obtain ⟨now, stack', hstep, hstack'⟩ := step_of_fault?_eq_none hstack ht
    refine ⟨steps ++ now, stack', ?_, hstack'⟩
    rw [run_concat, hrun]
    simp [Except.bind, Except.map, hstep]

/-- The first token at fault decides the fault of the replay. -/
theorem run_of_firstFault {idFault? : Int → Option Fault} (halg : alg.idFault? = idFault?)
    (h : FirstFault idFault? ts e) : run alg ts [] = .error e := by
  subst halg
  obtain ⟨before, t, after, rfl, hbefore, he⟩ := h
  obtain ⟨steps, stack, hrun, hstack⟩ := run_of_faultless rfl hbefore
  have hstep := step_of_fault?_eq_some hstack he
  rw [run_append, hrun]
  simp [run, hstep, bind, Except.bind]

end Replay

/-! ## Stacks of formulas -/

theorem Connective.eq_symbol_of_ofSymbol? {s : String} {c : Connective}
    (h : ofSymbol? s = some c) : s = c.symbol := by
  unfold ofSymbol? at h
  split at h
  · rename_i x hs
    obtain rfl := ofChar?_eq_some_iff.mp h
    rw [← String.ofList_toList (s := s), hs]
    rfl
  · cases h

namespace Formula

/-- Formulas as values, so that a replay builds the tree of what it reads. -/
def algebra (idFault? : Int → Option Fault) : Algebra (Formula Int) where
  leaf id := match idFault? id with
    | none => .ok (.var id)
    | some e => .error e
  not := .not
  binary := .binary

theorem idFault?_algebra (idFault? : Int → Option Fault) :
    (algebra idFault?).idFault? = idFault? := by
  funext id
  simp only [Algebra.idFault?, algebra]
  cases idFault? id <;> rfl

end Formula

namespace Replay

open Token

variable {idFault? : Int → Option Fault} {ts : List Token} {t : Token}
  {stack stack' steps : List (Formula Int)}

theorem flatMap_tokens_of_combine {c : Connective} {f : Formula Int} {rest : List (Formula Int)}
    (h : combine (Formula.algebra idFault?) c stack = some (f, rest)) :
    (f :: rest).reverse.flatMap Formula.tokens =
      stack.reverse.flatMap Formula.tokens ++ [c.token] := by
  cases c with
  | not =>
    cases stack with
    | nil => cases h
    | cons g lower =>
      obtain ⟨rfl, rfl⟩ := Prod.mk.inj (Option.some.inj h)
      simp [Formula.tokens, Formula.postorder, Formula.algebra]
  | binary op =>
    cases stack with
    | nil => cases h
    | cons g lower =>
      cases lower with
      | nil => cases h
      | cons g' lower =>
        obtain ⟨rfl, rfl⟩ := Prod.mk.inj (Option.some.inj h)
        simp [Formula.tokens, Formula.postorder, Formula.algebra]

theorem flatMap_tokens_of_step {now : List (Formula Int)}
    (h : step (Formula.algebra idFault?) stack t = .ok (now, stack')) :
    stack'.reverse.flatMap Formula.tokens = stack.reverse.flatMap Formula.tokens ++ [t] := by
  cases t with
  | var id =>
    simp only [step, Formula.algebra, bind, Except.bind, pure, Except.pure] at h
    cases hid : idFault? id with
    | some e => simp [hid] at h
    | none =>
      obtain ⟨-, rfl⟩ : now = [] ∧ stack' = .var id :: stack := by
        simpa [hid, eq_comm] using h
      simp [Formula.tokens, Formula.postorder]
  | sign symbol =>
    simp only [step] at h
    cases hsymbol : Connective.ofSymbol? symbol with
    | none => simp [hsymbol] at h
    | some c =>
      obtain rfl := Connective.eq_symbol_of_ofSymbol? hsymbol
      cases hcombine : combine (Formula.algebra idFault?) c stack with
      | none => simp [hsymbol, hcombine] at h
      | some r =>
        obtain ⟨f, rest⟩ := r
        obtain ⟨-, rfl⟩ : now = [f] ∧ stack' = f :: rest := by
          simpa [hsymbol, hcombine, eq_comm] using h
        exact flatMap_tokens_of_combine hcombine

/-- The formulas on the stack, written out from the first one on, are the tokens that were
read. -/
theorem flatMap_tokens_of_run
    (h : run (Formula.algebra idFault?) ts stack = .ok (steps, stack')) :
    stack'.reverse.flatMap Formula.tokens = stack.reverse.flatMap Formula.tokens ++ ts := by
  induction ts generalizing stack steps with
  | nil =>
    simp only [run, Except.ok.injEq, Prod.mk.injEq] at h
    rw [h.2, List.append_nil]
  | cons t rest ih =>
    simp only [run, bind, Except.bind, pure, Except.pure] at h
    cases hstep : step (Formula.algebra idFault?) stack t with
    | error e => simp [hstep] at h
    | ok r =>
      obtain ⟨now, middle⟩ := r
      cases hrun : run (Formula.algebra idFault?) rest middle with
      | error e => simp [hstep, hrun] at h
      | ok s =>
        obtain ⟨later, last⟩ := s
        obtain ⟨-, rfl⟩ : now ++ later = steps ∧ last = stack' := by
          simpa [hstep, hrun] using h
        rw [ih hrun, flatMap_tokens_of_step hstep, List.append_assoc, List.singleton_append]

end Replay

namespace Token

variable {idFault? : Int → Option Fault} {ts : List Token}

theorem var_mem_tokens_iff {f : Formula Int} {id : Int} :
    .var id ∈ f.tokens ↔ id ∈ f.leaves := by
  rw [← Formula.filterMap_id?_tokens, List.mem_filterMap]
  constructor
  · exact fun h => ⟨.var id, h, rfl⟩
  · rintro ⟨t, ht, hid⟩
    cases t with
    | var id' =>
      obtain rfl := Option.some.inj hid
      exact ht
    | sign symbol => cases hid

/-- Tokens are the postorder of a formula exactly if none is at fault and one value is left. -/
theorem faultless_and_height_iff :
    (Faultless idFault? ts ∧ height ts = 1) ↔
      ∃ f : Formula Int, ts = f.tokens ∧ ∀ id ∈ f.leaves, idFault? id = none := by
  constructor
  · rintro ⟨hts, hone⟩
    obtain ⟨steps, stack, hrun, hstack⟩ :=
      Replay.run_of_faultless (Formula.idFault?_algebra idFault?) hts
    have hlength : stack.length = 1 := hstack.length_eq.trans hone
    obtain ⟨f, rfl⟩ := List.length_eq_one_iff.mp hlength
    have htokens : ts = f.tokens := by simpa using (Replay.flatMap_tokens_of_run hrun).symm
    refine ⟨f, htokens, fun id hid => hts.idFault?_eq_none ?_⟩
    rw [htokens]
    exact var_mem_tokens_iff.mpr hid
  · rintro ⟨f, rfl, hleaves⟩
    have hrun := Replay.run_tokens (Formula.algebra idFault?) f []
    have hvalue : ∀ id ∈ f.leaves, ∃ g, (Formula.algebra idFault?).leaf id = .ok g :=
      fun id hid => ⟨.var id, by simp [Formula.algebra, hleaves id hid]⟩
    rcases (Formula.algebra idFault?).evaluate_cases f with
      ⟨⟨r, hr⟩, -⟩ | ⟨id, hid, e, hleaf, -⟩
    · rw [hr] at hrun
      rcases faultless_or_firstFault idFault? f.tokens with h | ⟨e, h⟩
      · refine ⟨h, ?_⟩
        obtain ⟨steps, stack, hrun', hstack⟩ :=
          Replay.run_of_faultless (Formula.idFault?_algebra idFault?) h
        obtain ⟨-, rfl⟩ : r.1 = steps ∧ [r.2] = stack := by
          simpa [Except.map] using hrun.symm.trans hrun'
        exact hstack.length_eq.symm
      · have he := Replay.run_of_firstFault (Formula.idFault?_algebra idFault?) h
        rw [hrun] at he
        cases he
    · obtain ⟨g, hg⟩ := hvalue id hid
      rw [hg] at hleaf
      cases hleaf

end Token
end PropTable

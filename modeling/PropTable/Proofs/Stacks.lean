import Mathlib.Data.List.Infix
import Mathlib.Data.List.TakeWhile
import PropTable.Proofs.Chains
import PropTable.Proofs.Levels

/-!
# Pending connectives under any operations

A level may be left that was never entered; the level then counts from the last stack, and
goes on down until no stack stands for it.  `Effect` lists what an operation can do in any
state.  From it come, by cases, the order of each stack, the bounds of the level and the
balance of the connectives that go in and come out, and by induction the same for a whole
history (`isOrderly_after`).  A history that never leaves more levels than it enters stays
among the states of the form `ofLevels`.
-/

namespace PropTable

/-- The precedences do not rise from the first connective to the last.  A stack is listed from
its top. -/
def Descends (cs : List Connective) : Prop := cs.Pairwise fun a b => b.precedence ≤ a.precedence

theorem Descends.cons_dropWhile {g : Grouping} {stack : List Connective} (h : Descends stack)
    (c : Connective) : Descends (c :: stack.dropWhile (g.releases · c)) := by
  induction stack with
  | nil => exact List.pairwise_singleton _ c
  | cons a rest ih =>
    rw [List.dropWhile_cons]
    split
    · exact ih (List.pairwise_cons.mp h).2
    · -- What stays is below its top, which does not bind more strongly than the new one.
      have ha := Grouping.precedence_le_of_not_releases ‹_›
      refine List.pairwise_cons.mpr ⟨fun b hb => ?_, h⟩
      rcases List.mem_cons.mp hb with rfl | hb
      · exact ha
      · exact Nat.le_trans ((List.pairwise_cons.mp h).1 b hb) ha

theorem flatten_set_perm {α : Type} {lists : List (List α)} {k : Nat} {old : List α}
    (h : lists[k]? = some old) (new : List α) :
    (old ++ (lists.set k new).flatten).Perm (new ++ lists.flatten) := by
  induction lists generalizing k with
  | nil => simp at h
  | cons first rest ih =>
    cases k with
    | zero =>
      obtain rfl : first = old := by simpa using h
      exact List.perm_append_comm_assoc ..
    | succ k =>
      have hrest : rest[k]? = some old := by simpa using h
      calc old ++ (first ++ (rest.set k new).flatten)
        _ |>.Perm (first ++ (old ++ (rest.set k new).flatten)) := List.perm_append_comm_assoc ..
        _ |>.Perm (first ++ (new ++ rest.flatten)) := (ih hrest).append_left first
        _ |>.Perm (new ++ (first ++ rest.flatten)) := List.perm_append_comm_assoc ..

namespace Pending

variable {g : Grouping} {p p' : Pending} {op : Operation}
  {result : Except Fault (List Connective)}

/-! ## What an operation can do -/

inductive Effect (g : Grouping) (p : Pending) :
    Operation → Except Fault (List Connective) → Pending → Prop where
  | deepened : Effect g p .deepen (.ok []) p.deepen
  | placed {symbol : String} {c : Connective} {k : Nat} {stack : List Connective}
      (hslot : p.slot? = some k) (hstack : p.waiting[k]? = some stack)
      (hc : Connective.ofSymbol? symbol = some c) :
      Effect g p (.push symbol) (.ok (stack.takeWhile (g.releases · c)))
        { p with waiting := p.waiting.set k (c :: stack.dropWhile (g.releases · c)) }
  | unknown {symbol : String} {k : Nat} (hslot : p.slot? = some k)
      (hc : Connective.ofSymbol? symbol = none) :
      Effect g p (.push symbol) (.error (.unknownSymbol symbol)) p
  | drained {k : Nat} {stack : List Connective} (hslot : p.slot? = some k)
      (hstack : p.waiting[k]? = some stack) :
      Effect g p .drain (.ok stack) { p with waiting := p.waiting.set k [] }
  | left {k : Nat} {stack : List Connective} (hslot : p.slot? = some k)
      (hstack : p.waiting[k]? = some stack) :
      Effect g p .leave (.ok stack) { waiting := p.waiting.set k [], level := p.level - 1 }
  | lost {op : Operation} (hop : op ≠ .deepen) (hslot : p.slot? = none) :
      Effect g p op (.error .noStack) p

/-- The level stands for a stack from either end, or for none. -/
theorem slot?_cases (p : Pending) :
    (p.slot? = none ∧
      (p.level < -(p.waiting.length : Int) ∨ (p.waiting.length : Int) ≤ p.level)) ∨
    ∃ k, p.slot? = some k ∧ k < p.waiting.length ∧
      (p.level = k ∨ p.level = k - (p.waiting.length : Int)) := by
  unfold slot?
  split
  · split
    · exact .inr ⟨_, rfl, by omega, by omega⟩
    · exact .inl ⟨rfl, by omega⟩
  · split
    · exact .inr ⟨_, rfl, by omega, by omega⟩
    · exact .inl ⟨rfl, by omega⟩

/-- Without a stack only `deepen` does anything. -/
theorem perform_of_slot?_eq_none (hop : op ≠ .deepen) (hslot : p.slot? = none) :
    p.perform g op = (.error .noStack, p) := by
  have hcurrent : p.current? = none := by simp [current?, hslot]
  cases op with
  | deepen => exact absurd rfl hop
  | push symbol => simp [perform, push, hcurrent]
  | drain => simp [perform, drain, hcurrent]
  | leave => simp [perform, leave, drain, hcurrent]

theorem perform_effect (g : Grouping) (p : Pending) (op : Operation) :
    Effect g p op (p.perform g op).1 (p.perform g op).2 := by
  rcases p.slot?_cases with ⟨hslot, -⟩ | ⟨k, hslot, hk, -⟩
  · by_cases hop : op = .deepen
    · subst hop
      exact .deepened
    · rw [perform_of_slot?_eq_none hop hslot]
      exact .lost hop hslot
  · obtain ⟨stack, hstack⟩ : ∃ stack, p.waiting[k]? = some stack :=
      ⟨_, List.getElem?_eq_getElem hk⟩
    have hcurrent : p.current? = some stack := by simp [current?, hslot, hstack]
    have hreplace (new) : p.replaceCurrent new = { p with waiting := p.waiting.set k new } := by
      simp [replaceCurrent, hslot]
    cases op with
    | deepen => exact .deepened
    | push symbol =>
      cases hc : Connective.ofSymbol? symbol with
      | none =>
        have h : p.perform g (.push symbol) = (.error (.unknownSymbol symbol), p) := by
          simp [perform, push, hcurrent, hc]
        rw [h]
        exact .unknown hslot hc
      | some c =>
        have h : p.perform g (.push symbol) = (.ok (stack.takeWhile (g.releases · c)),
            { p with waiting := p.waiting.set k (c :: stack.dropWhile (g.releases · c)) }) := by
          simp [perform, push, place, hcurrent, hc, hreplace]
        rw [h]
        exact .placed hslot hstack hc
    | drain =>
      have h : p.perform g .drain =
          (.ok stack, { p with waiting := p.waiting.set k [] }) := by
        simp [perform, drain, hcurrent, hreplace]
      rw [h]
      exact .drained hslot hstack
    | leave =>
      have h : p.perform g .leave =
          (.ok stack, { waiting := p.waiting.set k [], level := p.level - 1 }) := by
        simp [perform, leave, drain, hcurrent, hreplace]
      rw [h]
      exact .left hslot hstack

/-! ## What every operation keeps -/

/-- The stacks descend, and the level is at most one below those that have a stack. -/
structure IsOrderly (p : Pending) : Prop where
  descends : ∀ stack ∈ p.waiting, Descends stack
  level_ge : -(p.waiting.length : Int) - 1 ≤ p.level
  level_le : p.level ≤ p.waiting.length - 1

theorem isOrderly_initial : IsOrderly {} where
  descends stack h := by
    rw [List.mem_singleton.mp h]
    exact List.Pairwise.nil
  level_ge := by decide
  level_le := by decide

theorem IsOrderly.slot?_eq_none_iff (hp : p.IsOrderly) :
    p.slot? = none ↔ p.level = -(p.waiting.length : Int) - 1 := by
  have hge := hp.level_ge
  have hle := hp.level_le
  rcases p.slot?_cases with ⟨hslot, hlevel⟩ | ⟨k, hslot, hk, hlevel⟩
  · exact iff_of_true hslot (by omega)
  · exact iff_of_false (by simp [hslot]) (by omega)

theorem IsOrderly.descends_of_getElem? (hp : p.IsOrderly) {k : Nat} {stack : List Connective}
    (h : p.waiting[k]? = some stack) : Descends stack :=
  hp.descends stack (List.mem_of_getElem? h)

/-- A stack may be replaced by one that descends. -/
theorem IsOrderly.set (hp : p.IsOrderly) {k : Nat} {new : List Connective}
    (hnew : Descends new) : IsOrderly { p with waiting := p.waiting.set k new } where
  descends stack h := by
    rcases List.mem_or_eq_of_mem_set h with h | rfl
    · exact hp.descends stack h
    · exact hnew
  level_ge := by
    rw [List.length_set]
    exact hp.level_ge
  level_le := by
    rw [List.length_set]
    exact hp.level_le

theorem IsOrderly.deepen (hp : p.IsOrderly) : p.deepen.IsOrderly := by
  have hge := hp.level_ge
  have hle := hp.level_le
  by_cases hnew : (p.waiting.length : Int) = p.level + 1
  · rw [Pending.deepen, if_pos hnew]
    refine ⟨fun stack h => ?_, ?_, ?_⟩
    · rcases List.mem_append.mp h with h | h
      · exact hp.descends stack h
      · rw [List.mem_singleton.mp h]
        exact List.Pairwise.nil
    · simp only [List.length_append, List.length_singleton]
      omega
    · simp only [List.length_append, List.length_singleton]
      omega
  · rw [Pending.deepen, if_neg hnew]
    refine ⟨hp.descends, ?_, ?_⟩
    · simp only
      omega
    · simp only
      omega

theorem Effect.isOrderly (h : Effect g p op result p') (hp : p.IsOrderly) : p'.IsOrderly := by
  cases h with
  | deepened => exact hp.deepen
  | placed hslot hstack hc => exact hp.set ((hp.descends_of_getElem? hstack).cons_dropWhile _)
  | unknown hslot hc => exact hp
  | drained hslot hstack => exact hp.set List.Pairwise.nil
  | @left k stack hslot hstack =>
    have hset : IsOrderly { p with waiting := p.waiting.set k [] } := hp.set List.Pairwise.nil
    -- The level that is left had a stack, so it is not yet the lowest one.
    have hfloor : ¬p.level = -(p.waiting.length : Int) - 1 := by
      rw [← hp.slot?_eq_none_iff, hslot]
      simp
    have hge := hp.level_ge
    have hle := hset.level_le
    refine ⟨hset.descends, ?_, ?_⟩
    · simp only [List.length_set]
      omega
    · simp only at hle ⊢
      omega
  | lost hop hslot => exact hp

/-- What an operation does in a state, also where it fails. -/
structure Responds (p : Pending) : Prop where
  unchanged : ∀ op e, (p.perform .right op).1 = .error e → (p.perform .right op).2 = p
  descends : ∀ op cs, (p.perform .right op).1 = .ok cs → Descends cs
  stronger : ∀ symbol c cs, Connective.ofSymbol? symbol = some c →
    (p.perform .right (.push symbol)).1 = .ok cs → ∀ x ∈ cs, c.precedence < x.precedence
  noStack_iff : ∀ op, (p.perform .right op).1 = .error .noStack ↔
    op ≠ .deepen ∧ p.level = -(p.waiting.length : Int) - 1
  unknownSymbol_iff : ∀ symbol,
    (p.perform .right (.push symbol)).1 = .error (.unknownSymbol symbol) ↔
      Connective.ofSymbol? symbol = none ∧ -(p.waiting.length : Int) - 1 < p.level

theorem Effect.unchanged {e : Fault} (h : Effect g p op result p') (he : result = .error e) :
    p' = p := by
  cases h with
  | unknown hslot hc => rfl
  | lost hop hslot => rfl
  | deepened | placed hslot hstack hc | drained hslot hstack | left hslot hstack => cases he

theorem Effect.descends {cs : List Connective} (h : Effect g p op result p')
    (hp : p.IsOrderly) (hcs : result = .ok cs) : Descends cs := by
  cases h with
  | deepened =>
    obtain rfl := Except.ok.inj hcs
    exact List.Pairwise.nil
  | placed hslot hstack hc =>
    obtain rfl := Except.ok.inj hcs
    exact (hp.descends_of_getElem? hstack).sublist (List.takeWhile_sublist _)
  | drained hslot hstack | left hslot hstack =>
    obtain rfl := Except.ok.inj hcs
    exact hp.descends_of_getElem? hstack
  | unknown hslot hc | lost hop hslot => cases hcs

theorem Effect.stronger {symbol : String} {c : Connective} {cs : List Connective}
    (h : Effect .right p (.push symbol) result p') (hc : Connective.ofSymbol? symbol = some c)
    (hcs : result = .ok cs) : ∀ x ∈ cs, c.precedence < x.precedence := by
  cases h with
  | placed hslot hstack hc' =>
    obtain rfl := Option.some.inj (hc.symm.trans hc')
    obtain rfl := Except.ok.inj hcs
    intro x hx
    simpa [Grouping.releases] using List.mem_takeWhile_imp hx
  | unknown hslot hc' | lost hop hslot => cases hcs

theorem Effect.noStack_iff (h : Effect g p op result p') :
    result = .error .noStack ↔ op ≠ .deepen ∧ p.slot? = none := by
  cases h with
  | deepened => simp
  | placed hslot hstack hc | unknown hslot hc | drained hslot hstack | left hslot hstack =>
    simp [hslot]
  | lost hop hslot => simp [hop, hslot]

theorem Effect.unknownSymbol_iff {symbol : String} (h : Effect g p (.push symbol) result p') :
    result = .error (.unknownSymbol symbol) ↔
      Connective.ofSymbol? symbol = none ∧ p.slot? ≠ none := by
  cases h with
  | placed hslot hstack hc => simp [hc]
  | unknown hslot hc => simp [hslot, hc]
  | lost hop hslot => simp [hslot]

theorem IsOrderly.responds (hp : p.IsOrderly) : p.Responds where
  unchanged op e he := (perform_effect .right p op).unchanged he
  descends op cs hcs := (perform_effect .right p op).descends hp hcs
  stronger symbol c cs hc hcs := (perform_effect .right p (.push symbol)).stronger hc hcs
  noStack_iff op := by
    rw [(perform_effect .right p op).noStack_iff, hp.slot?_eq_none_iff]
  unknownSymbol_iff symbol := by
    have hge := hp.level_ge
    rw [(perform_effect .right p (.push symbol)).unknownSymbol_iff, ne_eq,
      hp.slot?_eq_none_iff]
    exact and_congr_right fun _ => ⟨fun h => by omega, fun h => by omega⟩

/-! ## Histories -/

/-- The state after operations, performed in turn. -/
def after (g : Grouping) (p : Pending) (ops : List Operation) : Pending :=
  ops.foldl (fun p op => (p.perform g op).2) p

/-- Operations, performed in turn, with what each of them yields. -/
def history (g : Grouping) : Pending → List Operation →
    List (Operation × Except Fault (List Connective))
  | _, [] => []
  | p, op :: rest => (op, (p.perform g op).1) :: history g (p.perform g op).2 rest

/-- The connective that an operation puts on a stack, if it does. -/
def pushed : Operation × Except Fault (List Connective) → List Connective
  | (.push symbol, .ok _) => (Connective.ofSymbol? symbol).toList
  | _ => []

/-- The connectives that an operation takes from the stacks. -/
def released : Operation × Except Fault (List Connective) → List Connective
  | (_, .ok cs) => cs
  | (_, .error _) => []

theorem isOrderly_after (hp : p.IsOrderly) (ops : List Operation) :
    (after g p ops).IsOrderly := by
  induction ops generalizing p with
  | nil => exact hp
  | cons op rest ih => exact ih ((perform_effect g p op).isOrderly hp)

theorem flatten_deepen (p : Pending) : p.deepen.waiting.flatten = p.waiting.flatten := by
  simp only [Pending.deepen]
  split <;> simp

/-- No operation loses a connective or makes one. -/
theorem Effect.balance (h : Effect g p op result p') :
    (pushed (op, result) ++ p.waiting.flatten).Perm
      (released (op, result) ++ p'.waiting.flatten) := by
  cases h with
  | deepened =>
    show p.waiting.flatten.Perm p.deepen.waiting.flatten
    rw [flatten_deepen]
  | @placed symbol c k stack hslot hstack hc =>
    -- What stays is on the old stack and on the new one, so it counts on both sides.
    let stays := stack.dropWhile (g.releases · c)
    let goes := stack.takeWhile (g.releases · c)
    refine List.perm_iff_count.mpr fun x => ?_
    have hset := (flatten_set_perm hstack (c :: stays)).count_eq x
    have hsplit : stack.count x = goes.count x + stays.count x := by
      rw [← List.count_append, List.takeWhile_append_dropWhile]
    have hpushed : pushed (.push symbol, .ok goes) = [c] := by simp [pushed, hc]
    show (pushed (.push symbol, .ok goes) ++ _).count x =
      (goes ++ (p.waiting.set k (c :: stays)).flatten).count x
    rw [hpushed]
    simp only [List.count_append, List.count_cons, List.count_nil] at hset ⊢
    omega
  | unknown hslot hc | lost hop hslot => simp [pushed, released]
  | drained hslot hstack | left hslot hstack => exact (flatten_set_perm hstack []).symm

theorem balance_after (g : Grouping) (p : Pending) (ops : List Operation) :
    ((history g p ops).flatMap pushed ++ p.waiting.flatten).Perm
      ((history g p ops).flatMap released ++ (after g p ops).waiting.flatten) := by
  induction ops generalizing p with
  | nil => exact List.Perm.refl _
  | cons op rest ih =>
    refine List.perm_iff_count.mpr fun x => ?_
    have hstep := (perform_effect g p op).balance.count_eq x
    have hrest := (ih (p.perform g op).2).count_eq x
    show ((history g p (op :: rest)).flatMap pushed ++ p.waiting.flatten).count x =
      ((history g p (op :: rest)).flatMap released ++
        (after g (p.perform g op).2 rest).waiting.flatten).count x
    simp only [history, List.flatMap_cons, List.count_append] at hstep hrest ⊢
    omega

/-! ## Histories that leave no more levels than they enter -/

/-- No start of the history leaves more levels than it enters. -/
def Nested (ops : List Operation) : Prop :=
  ∀ start, start <+: ops → start.count .leave ≤ start.count .deepen

/-- The state has the given number of levels around the current one. -/
def AtDepth (p : Pending) (depth : Nat) : Prop :=
  ∃ current around spare, p = ofLevels current around spare ∧ around.length = depth

theorem atDepth_initial : AtDepth {} 0 := ⟨[], [], 0, initial_eq_ofLevels, rfl⟩

theorem AtDepth.perform {depth : Nat} (hp : p.AtDepth depth)
    (hop : [op].count .leave ≤ depth + [op].count .deepen) :
    (p.perform g op).2.AtDepth (depth + [op].count .deepen - [op].count .leave) ∧
      (p.perform g op).1 ≠ .error .noStack := by
  obtain ⟨current, around, spare, rfl, hdepth⟩ := hp
  cases op with
  | push symbol =>
    cases hc : Connective.ofSymbol? symbol with
    | none =>
      have h : (ofLevels current around spare).perform g (.push symbol) =
          (.error (.unknownSymbol symbol), ofLevels current around spare) := by
        simp [Pending.perform, push, hc]
      rw [h]
      exact ⟨⟨current, around, spare, rfl, hdepth⟩, by simp⟩
    | some c =>
      have h : (ofLevels current around spare).perform g (.push symbol) =
          (.ok (current.takeWhile (g.releases · c)),
            ofLevels (c :: current.dropWhile (g.releases · c)) around spare) := by
        simp [Pending.perform, push, hc, place_ofLevels]
      rw [h]
      exact ⟨⟨_, around, spare, rfl, hdepth⟩, by simp⟩
  | deepen =>
    have h : (ofLevels current around spare).perform g .deepen =
        (.ok [], ofLevels [] (current :: around) (spare - 1)) := by
      simp [Pending.perform, deepen_ofLevels]
    rw [h]
    exact ⟨⟨[], current :: around, spare - 1, rfl, by simp [hdepth]⟩, by simp⟩
  | leave =>
    cases around with
    | nil => simp [← hdepth] at hop
    | cons outer around =>
      have h : (ofLevels current (outer :: around) spare).perform g .leave =
          (.ok current, ofLevels outer around (spare + 1)) := by
        simp [Pending.perform, leave_ofLevels]
      rw [h]
      exact ⟨⟨outer, around, spare + 1, rfl, by simp [← hdepth]⟩, by simp⟩
  | drain =>
    have h : (ofLevels current around spare).perform g .drain =
        (.ok current, ofLevels [] around spare) := by
      simp [Pending.perform, drain_ofLevels]
    rw [h]
    exact ⟨⟨[], around, spare, rfl, hdepth⟩, by simp⟩

theorem AtDepth.after {depth : Nat} {ops : List Operation} (hp : p.AtDepth depth)
    (hops : ∀ start, start <+: ops → start.count .leave ≤ depth + start.count .deepen) :
    (after g p ops).AtDepth (depth + ops.count .deepen - ops.count .leave) ∧
      ∀ entry ∈ history g p ops, entry.2 ≠ .error .noStack := by
  induction ops generalizing p depth with
  | nil => exact ⟨hp, by simp [history]⟩
  | cons op rest ih =>
    have hcount (c : Operation) (later : List Operation) :
        (op :: later).count c = [op].count c + later.count c := by
      rw [← List.count_append, List.singleton_append]
    have hop := hops [op] (List.prefix_append [op] rest)
    obtain ⟨hnext, hresult⟩ := hp.perform (g := g) hop
    obtain ⟨hlast, hresults⟩ := ih hnext fun start hstart => by
      have h := hops (op :: start) ((List.prefix_cons_inj op).mpr hstart)
      rw [hcount .leave start, hcount .deepen start] at h
      omega
    refine ⟨?_, List.forall_mem_cons.mpr ⟨hresult, hresults⟩⟩
    have hdepth : depth + (op :: rest).count .deepen - (op :: rest).count .leave =
        depth + [op].count .deepen - [op].count .leave + rest.count .deepen -
          rest.count .leave := by
      rw [hcount .leave rest, hcount .deepen rest]
      omega
    rw [hdepth]
    exact hlast

theorem AtDepth.level_eq {depth : Nat} (hp : p.AtDepth depth) : p.level = depth := by
  obtain ⟨current, around, spare, rfl, rfl⟩ := hp
  rfl

theorem AtDepth.eq_nil_of_lt {depth : Nat} (hp : p.AtDepth depth) {i : Nat}
    {stack : List Connective} (hi : depth < i) (h : p.waiting[i]? = some stack) :
    stack = [] := by
  obtain ⟨current, around, spare, rfl, rfl⟩ := hp
  -- Above the current stack there are only spare ones.
  obtain ⟨k, rfl⟩ := Nat.exists_eq_add_of_lt hi
  rw [ofLevels, List.getElem?_append_right (by simp; omega)] at h
  have hk : around.length + k + 1 - around.reverse.length = k + 1 := by simp; omega
  rw [hk, List.getElem?_cons_succ] at h
  exact List.eq_of_mem_replicate (List.mem_of_getElem? h)

theorem AtDepth.current?_deepen {depth : Nat} (hp : p.AtDepth depth) :
    p.deepen.current? = some [] := by
  obtain ⟨current, around, spare, rfl, -⟩ := hp
  rw [deepen_ofLevels, current?_ofLevels]

/-- Whatever is done to new stacks, they stay in order, no connective is lost or made, and an
operation that fails leaves them as they are.  If no start of the history leaves more levels
than it enters, the level counts those that were entered and not left, and a level that is
entered again starts empty. -/
theorem stacks_after (ops : List Operation) :
    let p := after .right {} ops
    let entries := history .right {} ops
    p.IsOrderly ∧ p.Responds ∧
    (entries.flatMap pushed).Perm (entries.flatMap released ++ p.waiting.flatten) ∧
    (Nested ops →
      p.level = ops.count .deepen - ops.count .leave ∧
      (∀ entry ∈ entries, entry.2 ≠ .error .noStack) ∧
      (∀ (i : Nat) stack, p.level < i → p.waiting[i]? = some stack → stack = []) ∧
      p.deepen.current? = some []) := by
  intro p entries
  have hp : p.IsOrderly := isOrderly_after isOrderly_initial ops
  refine ⟨hp, hp.responds, ?_, fun hnested => ?_⟩
  · have hbalance := balance_after .right {} ops
    rwa [List.flatten_singleton, List.append_nil] at hbalance
  · have hcount := hnested ops (List.prefix_refl ops)
    have hentered : ∀ start, start <+: ops → start.count .leave ≤ 0 + start.count .deepen :=
      fun start h => (hnested start h).trans_eq (Nat.zero_add _).symm
    obtain ⟨hdepth, hresults⟩ := atDepth_initial.after (g := .right) hentered
    have hlevel : p.level = _ := hdepth.level_eq
    refine ⟨by omega, hresults, fun i stack hi h => ?_, hdepth.current?_deepen⟩
    exact hdepth.eq_nil_of_lt (by omega) h

theorem stacks_after_nested :
    Nested [.push ">", .deepen, .push "&", .leave] ∧
      (after .right {} [.push ">", .deepen, .push "&", .leave]).level = 0 ∧
      (after .right {} [.push ">", .deepen, .push "&", .leave]).deepen.current? = some [] := by
  have hnested : Nested [.push ">", .deepen, .push "&", .leave] := by
    intro start hstart
    rw [← List.mem_inits] at hstart
    revert start
    decide
  obtain ⟨hlevel, -, -, hopened⟩ := (stacks_after _).2.2.2 hnested
  exact ⟨hnested, hlevel, hopened⟩

end Pending
end PropTable

import PropTable.Program

/-!
# Numbering by first mention

Interning symbols one after another numbers the distinct ones from 1 on, in the order in
which they are first mentioned.  `ofMentions` says this in closed form, and
`intern_ofMentions` is the one step from which every numbering that a scan or an edit
builds is computed.
-/

namespace PropTable

theorem nodup_eraseDups {α : Type} [BEq α] [LawfulBEq α] (xs : List α) :
    xs.eraseDups.Nodup := by
  -- `eraseDups` recurses on a filtered tail, so the induction is on the length.
  induction h : xs.length using Nat.strongRecOn generalizing xs with
  | ind n ih =>
    cases xs with
    | nil => simp
    | cons x rest =>
      have hshort : (rest.filter fun y => !y == x).length < n := by
        have := List.length_filter_le (fun y => !y == x) rest
        simp only [List.length_cons] at h
        omega
      rw [List.eraseDups_cons, List.nodup_cons]
      exact ⟨by simp, ih _ hshort _ rfl⟩

theorem eraseDups_concat {α : Type} [BEq α] [LawfulBEq α] (xs : List α) (x : α) :
    (xs ++ [x]).eraseDups = if x ∈ xs then xs.eraseDups else xs.eraseDups ++ [x] := by
  rw [List.eraseDups_append]
  by_cases h : x ∈ xs <;> simp [List.removeAll, h, List.eraseDups_cons]

theorem enter_of_lookup_eq_none {α β : Type} [BEq α] [LawfulBEq α] {a : α} {b : β}
    {pairs : List (α × β)} (h : pairs.lookup a = none) : enter a b pairs = pairs ++ [(a, b)] := by
  induction pairs with
  | nil => rfl
  | cons p rest ih =>
    obtain ⟨k, v⟩ := p
    rw [List.lookup_cons] at h
    cases hk : a == k with
    | true => simp [hk] at h
    | false =>
      simp only [hk] at h
      simp only [enter, hk, Bool.false_eq_true, if_false, ih h, List.cons_append]

namespace Numbering

/-- The numbering of distinct symbols in their order, from 1 on. -/
def ofNames (names : List String) : Numbering :=
  { names
    ids := names.zipIdx.map fun p => (p.1, ((p.2 + 1 : Nat) : Int))
    symbols := names.zipIdx.map fun p => (((p.2 + 1 : Nat) : Int), p.1) }

theorem lookup_zipIdx (names : List String) (s : String) (k : Nat) :
    ((names.zipIdx k).map fun p => (p.1, ((p.2 + 1 : Nat) : Int))).lookup s =
      if s ∈ names then some ((names.idxOf s + k + 1 : Nat) : Int) else none := by
  induction names generalizing k with
  | nil => rfl
  | cons x rest ih =>
    rw [List.zipIdx_cons, List.map_cons, List.lookup_cons, List.idxOf_cons, ih]
    by_cases h : s = x
    · subst h; simp
    · have hx : (x == s) = false := by simpa using fun e : x = s => h e.symm
      have hs : (s == x) = false := by simpa using h
      have hk : rest.idxOf s + (k + 1) + 1 = rest.idxOf s + 1 + k + 1 := by omega
      simp only [hx, hs, cond_false, List.mem_cons, h, false_or, hk]

theorem idOf?_ofNames (names : List String) (s : String) :
    (ofNames names).idOf? s =
      if s ∈ names then some ((names.idxOf s + 1 : Nat) : Int) else none :=
  lookup_zipIdx names s 0

theorem lookup_zipIdx_swap (names : List String) (k i : Nat) :
    ((names.zipIdx k).map fun p => (((p.2 + 1 : Nat) : Int), p.1)).lookup
      ((i + k + 1 : Nat) : Int) = names[i]? := by
  induction names generalizing k i with
  | nil => rfl
  | cons x rest ih =>
    rw [List.zipIdx_cons, List.map_cons, List.lookup_cons]
    cases i with
    | zero => simp
    | succ i =>
      have hne : (((i + 1 + k + 1 : Nat) : Int) == ((k + 1 : Nat) : Int)) = false := by
        simp only [beq_eq_false_iff_ne]; omega
      have hshift : ((i + 1 + k + 1 : Nat) : Int) = ((i + (k + 1) + 1 : Nat) : Int) := by omega
      simp only [hne]
      rw [hshift, ih]
      simp

theorem symbolOf?_ofNames (names : List String) (i : Nat) :
    (ofNames names).symbolOf? ((i + 1 : Nat) : Int) = names[i]? :=
  lookup_zipIdx_swap names 0 i

theorem symbolOf?_ofNames_of_lt (names : List String) {id : Int} (h : id < 1) :
    (ofNames names).symbolOf? id = none := by
  simp only [symbolOf?, ofNames, List.lookup_eq_none_iff, List.mem_map]
  rintro _ ⟨p, -, rfl⟩
  have hne : id ≠ ((p.2 + 1 : Nat) : Int) := by omega
  simpa using hne

/-- Interning a known symbol changes nothing; a new one gets the next number. -/
theorem intern_ofNames (names : List String) (s : String) :
    (ofNames names).intern s =
      if s ∈ names then (ofNames names, ((names.idxOf s + 1 : Nat) : Int))
      else (ofNames (names ++ [s]), ((names.length + 1 : Nat) : Int)) := by
  by_cases h : s ∈ names
  · simp only [intern, idOf?_ofNames, if_pos h]
  · have hids : (ofNames names).ids.lookup s = none := by
      have := idOf?_ofNames names s
      rwa [if_neg h] at this
    have hsymbols : (ofNames names).symbols.lookup ((names.length + 1 : Nat) : Int) = none := by
      have := symbolOf?_ofNames names names.length
      rwa [List.getElem?_eq_none (Nat.le_refl _)] at this
    simp only [intern, idOf?_ofNames, if_neg h]
    rw [enter_of_lookup_eq_none hids,
      show (ofNames names).names = names from rfl, enter_of_lookup_eq_none hsymbols]
    simp [ofNames, List.zipIdx_append]

/-- The numbering of the symbols that are mentioned, each at its first mention. -/
def ofMentions (mentions : List String) : Numbering := ofNames mentions.eraseDups

/-- The number of a symbol that is mentioned. -/
def numberIn (mentions : List String) (s : String) : Int :=
  ((mentions.eraseDups.idxOf s + 1 : Nat) : Int)

theorem intern_ofMentions (mentions : List String) (s : String) :
    (ofMentions mentions).intern s =
      (ofMentions (mentions ++ [s]), numberIn (mentions ++ [s]) s) := by
  rw [ofMentions, intern_ofNames, ofMentions, numberIn, eraseDups_concat]
  by_cases h : s ∈ mentions
  · simp [h]
  · have hnew : s ∉ mentions.eraseDups := by simpa using h
    simp [h, List.idxOf_append]

theorem numberIn_of_prefix {mentions later : List String} (h : mentions <+: later)
    {s : String} (hs : s ∈ mentions) : numberIn later s = numberIn mentions s := by
  obtain ⟨rest, rfl⟩ := h
  have hmem : s ∈ mentions.eraseDups := List.mem_eraseDups.mpr hs
  rw [numberIn, numberIn, List.eraseDups_append, List.idxOf_append, if_pos hmem]

theorem idOf?_ofMentions {mentions : List String} {s : String} (hs : s ∈ mentions) :
    (ofMentions mentions).idOf? s = some (numberIn mentions s) := by
  rw [ofMentions, idOf?_ofNames, if_pos (List.mem_eraseDups.mpr hs), numberIn]

theorem symbolOf?_ofMentions {mentions : List String} {s : String} (hs : s ∈ mentions) :
    (ofMentions mentions).symbolOf? (numberIn mentions s) = some s := by
  have hmem : s ∈ mentions.eraseDups := List.mem_eraseDups.mpr hs
  rw [ofMentions, numberIn, symbolOf?_ofNames,
    List.getElem?_eq_getElem (List.idxOf_lt_length_iff.mpr hmem), List.getElem_idxOf]

end Numbering
end PropTable

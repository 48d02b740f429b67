import PropTable.Proofs.Presentations
import PropTable.Proofs.Spellings

/-!
# Settings merged from a configuration and overrides

The value of a field comes from the overrides, the configuration or the defaults, in this
order, and what is made of it depends on the field alone.  `Options.IsMerge` says which settings
that gives, and they are the result exactly if they are valid and every override names a field
(`Options.ofMapping_eq_ok_iff`).  Settings that are written to a configuration are read back
(`Options.IsMerge.of_standsFor`).
-/

namespace PropTable
namespace Options

variable {config overrides : List (String × Json.Value)} {o : Options} {field : Field}
  {v : Json.Value}

/-! ## Where a value comes from -/

/-- The value of a field is an override that is not null, or else what the configuration has
under the key of the field, which may be null, or else the default. -/
inductive Chosen (config overrides : List (String × Json.Value)) (field : Field) :
    Json.Value → Prop where
  | override {v : Json.Value} (h : overrides.lookup field.name = some v) (hv : v ≠ .null) :
      Chosen config overrides field v
  | configured {v : Json.Value} (hnone : ∀ w, overrides.lookup field.name = some w → w = .null)
      (h : config.lookup field.key = some v) : Chosen config overrides field v
  | unset (hnone : ∀ w, overrides.lookup field.name = some w → w = .null)
      (h : config.lookup field.key = none) : Chosen config overrides field (defaultValue field)

/-- The key of a field is its name in capitals after a prefix. -/
theorem Field.key_eq (field : Field) :
    field.key.toList = "TRUTHTABLE_".toList ++ field.name.toList.map Char.toUpper := by
  cases field <;> decide

theorem given?_of_silent (h : ∀ w, overrides.lookup field.name = some w → w = .null) :
    given? config overrides field = config.lookup field.key := by
  rw [given?]
  cases hlookup : overrides.lookup field.name with
  | none => rfl
  | some w =>
    obtain rfl := h w hlookup
    rfl

theorem given?_of_override (h : overrides.lookup field.name = some v) (hv : v ≠ .null) :
    given? config overrides field = some v := by
  rw [given?, h]
  cases v with
  | null => exact absurd rfl hv
  | _ => rfl

theorem chosen_iff :
    Chosen config overrides field v ↔
      (given? config overrides field).getD (defaultValue field) = v := by
  constructor
  · intro h
    cases h with
    | override h hv => rw [given?_of_override h hv, Option.getD_some]
    | configured hnone h => rw [given?_of_silent hnone, h, Option.getD_some]
    | unset hnone h => rw [given?_of_silent hnone, h, Option.getD_none]
  · rintro rfl
    by_cases hnone : ∀ w, overrides.lookup field.name = some w → w = .null
    · rw [given?_of_silent hnone]
      cases h : config.lookup field.key with
      | none => exact .unset hnone h
      | some v => exact .configured hnone h
    · obtain ⟨w, hw⟩ := not_forall.mp hnone
      obtain ⟨h, hw⟩ := Classical.not_imp.mp hw
      rw [given?_of_override h hw]
      exact .override h hw

/-- Strictness as it is read from a value.  A text is true if it is one of four words, in any
case, and else false; a value of another sort stays as it is.  Only plain letters have letters
of these words as their small forms. -/
inductive ReadsStrict : Json.Value → Json.Value → Prop where
  | text (s : String) (b : Bool) (h : b = true ↔
      ∃ word ∈ ["1", "true", "yes", "on"], Text.InAnyCase word.toList s.toList) :
      ReadsStrict (.str s) (.bool b)
  | other (v : Json.Value) (h : ∀ s, v ≠ .str s) : ReadsStrict v v

theorem strictOf_text_iff (s : String) :
    (["1", "true", "yes", "on"].contains (String.ofList (lowered s.toList))) = true ↔
      ∃ word ∈ ["1", "true", "yes", "on"], Text.InAnyCase word.toList s.toList := by
  have hsmall : ∀ word ∈ ["1", "true", "yes", "on"], lowered word.toList = word.toList := by
    decide
  rw [List.contains_iff_mem]
  constructor
  · intro h
    refine ⟨_, h, ?_⟩
    rw [← lowered_eq_iff (hsmall _ h), String.toList_ofList]
  · rintro ⟨word, hword, hs⟩
    rwa [(lowered_eq_iff (hsmall word hword)).mpr hs, String.ofList_toList]

theorem readsStrict_iff {strict : Json.Value} : ReadsStrict v strict ↔ strictOf v = strict := by
  constructor
  · intro h
    cases h with
    | text s b h =>
      rw [strictOf]
      exact congrArg Json.Value.bool (Bool.eq_iff_iff.mpr ((strictOf_text_iff s).trans h.symm))
    | other v h =>
      cases v with
      | str s => exact absurd rfl (h s)
      | _ => rfl
  · rintro rfl
    cases v with
    | str s => exact .text s _ (strictOf_text_iff s)
    | _ => exact .other _ nofun

/-! ## The settings of a mapping -/

/-- The settings that a configuration and overrides give. -/
structure IsMerge (config overrides : List (String × Json.Value)) (o : Options) : Prop where
  one_le : 1 ≤ o.maxVariables
  maxVariables : ∃ v, Chosen config overrides .maxVariables v ∧ integerOf v = .ok o.maxVariables
  strict : ∃ v, Chosen config overrides .strict v ∧ ReadsStrict v o.strict
  style : Chosen config overrides .style (.str o.style.name)
  trueGlyph : Chosen config overrides .trueGlyph o.trueGlyph
  falseGlyph : Chosen config overrides .falseGlyph o.falseGlyph

/-- An override names a field, unless it is null.  Two names cannot be overridden at all. -/
def IsOverride (p : String × Json.Value) : Prop :=
  p.1 ≠ "cls" ∧ p.1 ≠ "config" ∧ (p.2 ≠ .null → ∃ field : Field, p.1 = field.name)

theorem bind_eq_ok_iff {α β : Type} {x : Except Misfit α} {f : α → Except Misfit β} {b : β} :
    (x >>= f) = .ok b ↔ ∃ a, x = .ok a ∧ f a = .ok b := by
  cases x with
  | ok a => simp [bind, Except.bind]
  | error m => simp [bind, Except.bind]

theorem Field.mem_names_iff {name : String} :
    name ∈ Field.all.map Field.name ↔ ∃ field : Field, name = field.name := by
  constructor
  · intro h
    obtain ⟨field, -, hname⟩ := List.mem_map.mp h
    exact ⟨field, hname.symm⟩
  · rintro ⟨field, rfl⟩
    exact List.mem_map_of_mem (by cases field <;> decide)

theorem checkNames_eq_ok_iff {given : List (String × Json.Value)} :
    checkNames given = .ok () ↔ ∀ p ∈ given, ∃ field : Field, p.1 = field.name := by
  have hnone : checkNames given = .ok () ↔ (given.map (·.1)).find? (fun name =>
      !(Field.all.map Field.name).contains name) = none := by
    rw [checkNames]
    split
    · next name h =>
      rw [h]
      simp
    · next h => exact iff_of_true rfl h
  rw [hnone, List.find?_eq_none]
  simp only [List.forall_mem_map, Bool.not_eq_true', Bool.not_eq_false, List.contains_iff_mem,
    Field.mem_names_iff]

theorem checkOverrideNames_eq_ok_iff :
    checkOverrideNames overrides = .ok () ↔ ∀ p ∈ overrides, p.1 ≠ "cls" ∧ p.1 ≠ "config" := by
  have hnone : checkOverrideNames overrides = .ok () ↔
      (overrides.map (·.1)).find? ["cls", "config"].contains = none := by
    rw [checkOverrideNames]
    split
    · next name h =>
      rw [h]
      simp
    · next h => exact iff_of_true rfl h
  rw [hnone, List.find?_eq_none]
  simp

theorem forall_isOverride_iff :
    (∀ p ∈ overrides, IsOverride p) ↔
      checkOverrideNames overrides = .ok () ∧
        checkNames (overrides.filter fun p => !p.2.isNull) = .ok () := by
  have hnull (v : Json.Value) : (!v.isNull) = true ↔ v ≠ .null := by
    cases v <;> simp [Json.Value.isNull]
  rw [checkOverrideNames_eq_ok_iff, checkNames_eq_ok_iff]
  simp only [List.mem_filter, hnull, IsOverride]
  constructor
  · intro h
    exact ⟨fun p hp => ⟨(h p hp).1, (h p hp).2.1⟩, fun p hp => (h p hp.1).2.2 hp.2⟩
  · rintro ⟨htaken, hnames⟩ p hp
    exact ⟨(htaken p hp).1, (htaken p hp).2, fun hv => hnames p ⟨hp, hv⟩⟩

theorem check_eq_ok_iff {bound : Int} {strict style trueGlyph falseGlyph : Json.Value} :
    check (.ok bound) strict style trueGlyph falseGlyph = .ok o ↔
      style = .str o.style.name ∧ bound = o.maxVariables ∧ 1 ≤ o.maxVariables ∧
        strict = o.strict ∧ trueGlyph = o.trueGlyph ∧ falseGlyph = o.falseGlyph := by
  rw [check, bind_eq_ok_iff]
  simp only [styleOf_eq_ok_iff]
  constructor
  · rintro ⟨known, rfl, h⟩
    simp only [bind, Except.bind] at h
    split at h
    · cases h
    · next hbound =>
      obtain rfl := Except.ok.inj h
      refine ⟨rfl, ?_, ?_, rfl, rfl, rfl⟩
      · simp only
        omega
      · simp only
        omega
  · rintro ⟨rfl, rfl, hone, rfl, rfl, rfl⟩
    refine ⟨o.style, rfl, ?_⟩
    have hbound : ¬((o.maxVariables : Int) < 1) := by omega
    simp only [bind, Except.bind, if_neg hbound, Int.toNat_natCast]
    rfl

/-- The merge is what a mapping gives, if it gives anything. -/
theorem ofMapping_eq_ok_iff :
    ofMapping config overrides = .ok o ↔
      (∀ p ∈ overrides, IsOverride p) ∧ IsMerge config overrides o := by
  rw [ofMapping]
  simp only [bind_eq_ok_iff, check_eq_ok_iff]
  constructor
  · rintro ⟨⟨⟩, htaken, bound, hbound, ⟨⟩, hnames, hstyle, rfl, hone, hstrict, htrue, hfalse⟩
    refine ⟨forall_isOverride_iff.mpr ⟨htaken, hnames⟩, ?_⟩
    exact ⟨hone, ⟨_, chosen_iff.mpr rfl, hbound⟩,
      ⟨_, chosen_iff.mpr rfl, readsStrict_iff.mpr hstrict⟩, chosen_iff.mpr hstyle,
      chosen_iff.mpr htrue, chosen_iff.mpr hfalse⟩
  · rintro ⟨hoverrides, hone, ⟨v, hv, hbound⟩, ⟨w, hw, hstrict⟩, hstyle, htrue, hfalse⟩
    obtain ⟨htaken, hnames⟩ := forall_isOverride_iff.mp hoverrides
    obtain rfl := chosen_iff.mp hv
    obtain rfl := chosen_iff.mp hw
    exact ⟨(), htaken, o.maxVariables, hbound, (), hnames, chosen_iff.mp hstyle, rfl, hone,
      readsStrict_iff.mp hstrict, chosen_iff.mp htrue, chosen_iff.mp hfalse⟩

/-- Nothing in a configuration counts but what it has under the keys of the fields. -/
theorem ofMapping_congr {other : List (String × Json.Value)}
    (h : ∀ field : Field, other.lookup field.key = config.lookup field.key) :
    ofMapping other overrides = ofMapping config overrides := by
  have hgiven (field : Field) : given? other overrides field = given? config overrides field := by
    rw [given?, given?, h field]
  simp only [ofMapping, hgiven]

/-! ## Settings that are written and read back -/

/-- A value that a field of settings may be written as: its own value, for the bound also its
decimal text, if that has not too many digits to be read, and for strictness also the word for a
truth value in any case. -/
inductive StandsFor (o : Options) : Field → Json.Value → Prop where
  | value (field : Field) : StandsFor o field (o.value field)
  | numeral (h : (Nat.toDigits 10 o.maxVariables).length ≤ Text.maxDigits) :
      StandsFor o .maxVariables (.str (toString o.maxVariables))
  | word {b : Bool} {s : String} (hb : o.strict = .bool b)
      (hs : Text.InAnyCase (if b then "true" else "false").toList s.toList) :
      StandsFor o .strict (.str s)

theorem StandsFor.integerOf_eq (h : StandsFor o .maxVariables v) :
    integerOf v = .ok o.maxVariables := by
  cases h with
  | value => rfl
  | numeral h =>
    have htext : (toString o.maxVariables).toList = Nat.toDigits 10 o.maxVariables := by
      rw [Nat.toString_eq_ofList_toDigits, String.toList_ofList]
    rw [integerOf, htext, Text.readInt_toDigits h]

theorem StandsFor.readsStrict {b : Bool} (h : StandsFor o .strict v) (hb : o.strict = .bool b) :
    ReadsStrict v o.strict := by
  cases h with
  | value =>
    refine .other _ fun s hs => ?_
    cases hb.symm.trans hs
  | @word b' s hb' hs =>
    have hlower := (lowered_eq_iff (by cases b' <;> decide)).mpr hs
    rw [readsStrict_iff, strictOf, hlower, String.ofList_toList, hb']
    cases b' <;> rfl

theorem StandsFor.eq_value (h : StandsFor o field v) (hbound : field ≠ .maxVariables)
    (hstrict : field ≠ .strict) : v = o.value field := by
  cases h with
  | value => rfl
  | numeral => exact absurd rfl hbound
  | word => exact absurd rfl hstrict

theorem IsMerge.of_standsFor {b : Bool} (hone : 1 ≤ o.maxVariables) (hb : o.strict = .bool b)
    (h : ∀ field : Field, ∃ v, config.lookup field.key = some v ∧ StandsFor o field v) :
    IsMerge config [] o := by
  have hchosen {field : Field} {v : Json.Value} (hv : config.lookup field.key = some v) :
      Chosen config [] field v := .configured nofun hv
  have hvalue (field : Field) (hbound : field ≠ .maxVariables) (hstrict : field ≠ .strict) :
      Chosen config [] field (o.value field) := by
    obtain ⟨v, hv, hstands⟩ := h field
    rw [← hstands.eq_value hbound hstrict]
    exact hchosen hv
  obtain ⟨v, hv, hbound⟩ := h .maxVariables
  obtain ⟨w, hw, hstrict⟩ := h .strict
  exact {
    one_le := hone
    maxVariables := ⟨v, hchosen hv, hbound.integerOf_eq⟩
    strict := ⟨w, hchosen hw, hstrict.readsStrict hb⟩
    style := hvalue .style (by decide) (by decide)
    trueGlyph := hvalue .trueGlyph (by decide) (by decide)
    falseGlyph := hvalue .falseGlyph (by decide) (by decide) }

/-- Settings are made of a configuration and overrides field by field, the key of a field being
its name in capitals after a prefix.  Other keys do not count, and valid settings that are
written to a configuration are read back, whether the bound and strictness are written as values
or as texts. -/
theorem ofMapping_isFaithful (config overrides : List (String × Json.Value)) :
    (∀ field : Field,
      field.key.toList = "TRUTHTABLE_".toList ++ field.name.toList.map Char.toUpper) ∧
    (∀ o, ofMapping config overrides = .ok o ↔
      (∀ p ∈ overrides, IsOverride p) ∧ IsMerge config overrides o) ∧
    (∀ other : List (String × Json.Value),
      (∀ field : Field, other.lookup field.key = config.lookup field.key) →
        ofMapping other overrides = ofMapping config overrides) ∧
    ∀ (o : Options) (b : Bool), 1 ≤ o.maxVariables → o.strict = .bool b →
      (∀ field : Field, ∃ v, config.lookup field.key = some v ∧ StandsFor o field v) →
        ofMapping config [] = .ok o := by
  refine ⟨Field.key_eq, fun o => ofMapping_eq_ok_iff, fun other h => ofMapping_congr h, ?_⟩
  intro o b hone hb h
  exact ofMapping_eq_ok_iff.mpr ⟨List.forall_mem_nil _, .of_standsFor hone hb h⟩

/-- The bound and strictness written as texts, beside a key that is none of a field. -/
theorem ofMapping_isFaithful_texts :
    let o : Options :=
      { maxVariables := 20, strict := .bool true, style := .ascii, trueGlyph := .str "V"
        falseGlyph := .null }
    let config : List (String × Json.Value) :=
      [("TRUTHTABLE_MAX_VARIABLES", .str "20"), ("TRUTHTABLE_STRICT", .str "TrUe"),
        ("TRUTHTABLE_STYLE", .str "ascii"), ("TRUTHTABLE_TRUE_SYMBOL", .str "V"),
        ("TRUTHTABLE_FALSE_SYMBOL", .null)]
    let other : List (String × Json.Value) := ("DEBUG", .bool true) :: config
    let overrides : List (String × Json.Value) := [("style", .str "latex"), ("strict", .null)]
    1 ≤ o.maxVariables ∧ o.strict = .bool true ∧
      (∀ field : Field, ∃ v, config.lookup field.key = some v ∧ StandsFor o field v) ∧
      (∀ field : Field, other.lookup field.key = config.lookup field.key) ∧
      ofMapping config [] = .ok o ∧
      ofMapping other overrides = ofMapping config overrides ∧
      ofMapping config overrides = .ok { o with style := .latex } := by
  intro o config other overrides
  have hone : 1 ≤ o.maxVariables := by decide
  have hdigits : (Nat.toDigits 10 o.maxVariables).length ≤ Text.maxDigits := by decide
  have htext : toString o.maxVariables = "20" := by decide
  have hstands (field : Field) :
      ∃ v, config.lookup field.key = some v ∧ StandsFor o field v := by
    cases field with
    | maxVariables => exact ⟨_, rfl, htext ▸ .numeral hdigits⟩
    | strict => exact ⟨_, rfl, .word rfl ((lowered_eq_iff (by decide)).mp rfl)⟩
    | style => exact ⟨_, rfl, .value .style⟩
    | trueGlyph => exact ⟨_, rfl, .value .trueGlyph⟩
    | falseGlyph => exact ⟨_, rfl, .value .falseGlyph⟩
  have hother (field : Field) : other.lookup field.key = config.lookup field.key := by
    cases field <;> rfl
  obtain ⟨-, -, hframe, hread⟩ := ofMapping_isFaithful config overrides
  exact ⟨hone, rfl, hstands, hother, hread o true hone rfl hstands, hframe other hother, rfl⟩

end Options
end PropTable

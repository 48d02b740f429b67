import PropTable.Settings.Options
import PropTable.Table

/-!
Tables whose glyphs may be values of any sort.  Such a table has its rows, but it is written
only if each glyph that its rows show is a text.
-/

namespace PropTable
namespace Options

/-- The first place whose glyph is no text, with that glyph. -/
def firstGap? (o : Options) (values : List Bool) : Option (Nat × Json.Value) :=
  values.zipIdx.findSome? fun (value, place) =>
    match o.glyph value with
    | .str _ => none
    | given => some (place, given)

/-- Whether a row can be written: first the cell that the variables share, then the cells of
the connectives. -/
def checkRow (o : Options) (row : Row) : Except Misfit Unit :=
  match o.firstGap? row.assignment with
  | some (place, given) => .error (.unjoinable place given)
  | none => match o.firstGap? row.values with
    | some (_, given) => .error (.unwritable given)
    | none => .ok ()

/-- Whether the rows can be written, up to the first that cannot. -/
def checkRows (o : Options) (rows : List Row) : Except Misfit Unit := forM rows o.checkRow

/-- The markdown of a table, if it can be written. -/
def markdown (o : Options) (t : Table) : Except Misfit String := do
  o.checkRows t.rows
  return t.markdown

theorem firstGap?_eq_none {o : Options} (h : ∀ value, ∃ s, o.glyph value = .str s)
    (values : List Bool) : o.firstGap? values = none := by
  rw [firstGap?, List.findSome?_eq_none_iff]
  rintro ⟨value, place⟩ -
  obtain ⟨s, hs⟩ := h value
  simp only [hs]

/-- Glyphs that are texts can be written in every row. -/
theorem checkRows_eq_ok {o : Options} (h : ∀ value, ∃ s, o.glyph value = .str s)
    (rows : List Row) : o.checkRows rows = .ok () := by
  induction rows with
  | nil => rfl
  | cons row rest ih =>
    have hrow : o.checkRow row = .ok () := by
      simp only [checkRow, firstGap?_eq_none h]
    rw [checkRows, List.forM_cons, hrow]
    exact ih

theorem checkRows_ofSettings (s : Settings) (rows : List Row) :
    (ofSettings s).checkRows rows = .ok () :=
  checkRows_eq_ok (Bool.rec ⟨s.falseGlyph, rfl⟩ ⟨s.trueGlyph, rfl⟩) rows

end Options
end PropTable

import PropTable.Proofs.Skeleton

/-!
# The elements of a page

An element of a page is read off between two marks, such as an opening and a closing tag.  A
mark is clear of a text if it neither stands in it nor begins at its end, and then it can be
looked for in what follows.  Escaped texts are clear of every mark that begins with a bracket,
so a reader finds exactly the texts that the page was written with.
-/

namespace PropTable
namespace Page

/-! ## Texts between marks -/

/-- What stands before the first occurrence of a mark. -/
def upTo (stop : List Char) : List Char → List Char
  | [] => []
  | c :: cs => if stop <+: c :: cs then [] else c :: upTo stop cs

/-- What stands behind each occurrence of a mark and before the next one of another. -/
def between (start stop : List Char) : List Char → List (List Char)
  | [] => []
  | c :: cs =>
    if start <+: c :: cs then
      upTo stop ((c :: cs).drop start.length) :: between start stop cs
    else between start stop cs

/-- No occurrence of a mark begins in a text, whatever follows the text.  A mark that begins at
the end of the text is excluded as well, since what follows may complete it. -/
inductive Clear (mark : List Char) : List Char → Prop
  | nil : Clear mark []
  | cons {c : Char} {cs : List Char} (whole : ¬mark <+: c :: cs) (part : ¬c :: cs <+: mark)
    (rest : Clear mark cs) : Clear mark (c :: cs)

section

variable {mark start stop xs ys : List Char}

theorem clear_cons_iff {c : Char} :
    Clear mark (c :: xs) ↔ ¬mark <+: c :: xs ∧ ¬c :: xs <+: mark ∧ Clear mark xs := by
  constructor
  · rintro (_ | ⟨whole, part, rest⟩)
    exact ⟨whole, part, rest⟩
  · exact fun h => .cons h.1 h.2.1 h.2.2

/-- Whether a mark is clear of a text. -/
def isClear (mark : List Char) : List Char → Bool
  | [] => true
  | c :: cs => !mark.isPrefixOf (c :: cs) && !(c :: cs).isPrefixOf mark && isClear mark cs

theorem isClear_eq_true_iff : isClear mark xs = true ↔ Clear mark xs := by
  induction xs with
  | nil => exact iff_of_true rfl .nil
  | cons c xs ih => simp [isClear, clear_cons_iff, ih, ← List.isPrefixOf_iff_prefix, and_assoc]

instance (mark cs : List Char) : Decidable (Clear mark cs) :=
  decidable_of_iff _ isClear_eq_true_iff

theorem Clear.not_prefix {c : Char} (h : Clear mark (c :: xs)) (ys : List Char) :
    ¬mark <+: c :: (xs ++ ys) := by
  obtain ⟨whole, part, -⟩ := clear_cons_iff.mp h
  intro hmark
  rcases List.prefix_or_prefix_of_prefix hmark (List.prefix_append (c :: xs) ys) with hp | hp
  · exact whole hp
  · exact part hp

theorem Clear.append (hx : Clear mark xs) (hy : Clear mark ys) : Clear mark (xs ++ ys) := by
  induction hx with
  | nil => exact hy
  | @cons c xs whole part rest ih =>
    have hx : Clear mark (c :: xs) := .cons whole part rest
    exact .cons (hx.not_prefix ys) (fun hp => part ((List.prefix_append (c :: xs) ys).trans hp)) ih

theorem Clear.flatMap {α : Type} {f : α → List Char} {l : List α} (h : ∀ a ∈ l, Clear mark (f a)) :
    Clear mark (l.flatMap f) := by
  induction l with
  | nil => exact .nil
  | cons a l ih =>
    rw [List.flatMap_cons]
    exact (h a List.mem_cons_self).append (ih fun b hb => h b (List.mem_cons_of_mem a hb))

theorem clear_of_not_mem {c : Char} (h : c ∉ xs) : Clear (c :: mark) xs := by
  induction xs with
  | nil => exact .nil
  | cons d xs ih =>
    have hne : c ≠ d := fun he => h (he ▸ List.mem_cons_self)
    exact .cons (fun hp => hne (List.cons_prefix_cons.mp hp).1)
      (fun hp => hne (List.cons_prefix_cons.mp hp).1.symm)
      (ih fun hm => h (List.mem_cons_of_mem d hm))

/-- The characters of a literal are at hand, so that it need not be decoded. -/
theorem clear_ofList (h : Clear mark xs) : Clear mark (String.ofList xs).toList := by
  rwa [String.toList_ofList]

theorem upTo_append (h : Clear stop xs) (ys : List Char) : upTo stop (xs ++ (stop ++ ys)) = xs := by
  induction xs with
  | nil =>
    cases hs : stop ++ ys with
    | nil => rfl
    | cons c cs =>
      rw [List.nil_append, upTo, if_pos]
      rw [← hs]
      exact List.prefix_append stop ys
  | cons c xs ih =>
    rw [List.cons_append, upTo, if_neg (h.not_prefix (stop ++ ys)), ih (clear_cons_iff.mp h).2.2]

theorem between_append (h : Clear start xs) (ys : List Char) :
    between start stop (xs ++ ys) = between start stop ys := by
  induction xs with
  | nil => rfl
  | cons c xs ih =>
    rw [List.cons_append, between, if_neg (h.not_prefix ys), ih (clear_cons_iff.mp h).2.2]

end

/-! ## Elements -/

/-- An element of a page, by what follows the brackets of the marks before and behind it, with
pieces of markup that it is not made with. -/
structure Element where
  opening : List Char
  closing : List Char
  others : List String
  opening_clear : Clear ('<' :: opening) opening := by decide
  closing_clear : Clear ('<' :: opening) ('<' :: closing) := by decide
  others_clear : ∀ text ∈ others, Clear ('<' :: opening) text.toList := by
    repeat refine List.forall_mem_cons.mpr ⟨clear_ofList (by decide), ?_⟩
    exact List.forall_mem_nil _

namespace Element

def start (e : Element) : List Char := '<' :: e.opening

def stop (e : Element) : List Char := '<' :: e.closing

theorem clear_opening (e : Element) : Clear e.start e.opening := e.opening_clear

theorem clear_stop (e : Element) : Clear e.start e.stop := e.closing_clear

theorem clear_others (e : Element) : ∀ text ∈ e.others, Clear e.start text.toList := e.others_clear

/-- The contents of the elements of a page. -/
def texts (e : Element) (page : List Char) : List (List Char) := between e.start e.stop page

/-- A part of a page has elements with these contents.  It has them whatever follows it, so that
the parts of a page can be read one after the other. -/
def Reads (e : Element) (part : List Char) (contents : List (List Char)) : Prop :=
  ∀ rest, e.texts (part ++ rest) = contents ++ e.texts rest

/-- Neither mark of an element begins in a text. -/
def IsClear (e : Element) (cs : List Char) : Prop := Clear e.start cs ∧ Clear e.stop cs

instance (e : Element) (cs : List Char) : Decidable (e.IsClear cs) :=
  inferInstanceAs (Decidable (_ ∧ _))

variable {e : Element} {part part' inner : List Char} {contents contents' : List (List Char)}

theorem isClear_ofList (h : e.IsClear part) : e.IsClear (String.ofList part).toList :=
  ⟨clear_ofList h.1, clear_ofList h.2⟩

theorem IsClear.append (h : e.IsClear part) (h' : e.IsClear part') : e.IsClear (part ++ part') :=
  ⟨h.1.append h'.1, h.2.append h'.2⟩

theorem Reads.texts_eq (h : e.Reads part contents) : e.texts part = contents := by
  have hnil := h []
  rwa [List.append_nil, texts, texts, between, List.append_nil] at hnil

theorem reads_of_clear (h : Clear e.start part) : e.Reads part [] :=
  fun rest => between_append h rest

theorem reads_element (h : e.IsClear inner) :
    e.Reads (e.start ++ (inner ++ e.stop)) [inner] := by
  intro rest
  have hbegins : e.start <+: '<' :: (e.opening ++ (inner ++ (e.stop ++ rest))) :=
    List.prefix_append e.start _
  have hdrop : List.drop e.start.length ('<' :: (e.opening ++ (inner ++ (e.stop ++ rest)))) =
      inner ++ (e.stop ++ rest) := List.drop_left
  have hrest : between e.start e.stop (e.opening ++ (inner ++ (e.stop ++ rest))) =
      between e.start e.stop rest := by
    rw [between_append e.clear_opening, between_append h.1, between_append e.clear_stop]
  have hpart : e.start ++ (inner ++ e.stop) ++ rest =
      '<' :: (e.opening ++ (inner ++ (e.stop ++ rest))) := by
    simp only [start, List.cons_append, List.append_assoc]
  rw [texts, hpart, between, if_pos hbegins, hdrop, upTo_append h.2, hrest]
  rfl

theorem Reads.append (h : e.Reads part contents) (h' : e.Reads part' contents') :
    e.Reads (part ++ part') (contents ++ contents') := by
  intro rest
  rw [List.append_assoc, h, h', List.append_assoc]

theorem Reads.flatMap {α : Type} {f : α → List Char} {g : α → List (List Char)} {l : List α}
    (h : ∀ a ∈ l, e.Reads (f a) (g a)) : e.Reads (l.flatMap f) (l.flatMap g) := by
  induction l with
  | nil => exact fun rest => rfl
  | cons a l ih =>
    rw [List.flatMap_cons, List.flatMap_cons]
    exact (h a List.mem_cons_self).append (ih fun b hb => h b (List.mem_cons_of_mem a hb))

end Element

/-! ## Elements of pieces -/

/-- The markup of pieces. -/
def markups (ps : List Piece) : List String := ps.filterMap Piece.markup?

/-- What pieces are written as. -/
def written (ps : List Piece) : List Char := ps.flatMap fun p => p.written.toList

def escaped (text : String) : List Char := (escape text).toList

theorem markups_append (ps qs : List Piece) : markups (ps ++ qs) = markups ps ++ markups qs :=
  List.filterMap_append

theorem markups_flatMap {α : Type} (f : α → List Piece) (xs : List α) :
    markups (xs.flatMap f) = xs.flatMap fun x => markups (f x) := List.filterMap_flatMap

theorem forall_markups_framed {P : String → Prop} {before after : String} (hbefore : P before)
    (hafter : P after) (texts : List String) :
    ∀ text ∈ markups (texts.flatMap (framed before · after)), P text := by
  rw [markups_flatMap]
  refine List.forall_mem_flatMap.mpr fun _ _ => ?_
  exact List.forall_mem_cons.mpr ⟨hbefore, List.forall_mem_singleton.mpr hafter⟩

theorem written_append (ps qs : List Piece) : written (ps ++ qs) = written ps ++ written qs :=
  List.flatMap_append

theorem written_flatMap {α : Type} (f : α → List Piece) (xs : List α) :
    written (xs.flatMap f) = xs.flatMap fun x => written (f x) := List.flatMap_assoc

theorem clear_escaped (tag : List Char) (text : String) : Clear ('<' :: tag) (escaped text) := by
  have hinert : IsInert (escaped text) := isInert_escape text
  exact clear_of_not_mem (hinert.markup '<' (by decide))

/-- A mark that is clear of the markup is clear of what is written. -/
theorem clear_written {tag : List Char} {ps : List Piece}
    (h : ∀ text ∈ markups ps, Clear ('<' :: tag) text.toList) :
    Clear ('<' :: tag) (written ps) := by
  refine Clear.flatMap fun p hp => ?_
  cases p with
  | markup text => exact h text (List.mem_filterMap.mpr ⟨_, hp, rfl⟩)
  | slot text => exact clear_escaped tag text

namespace Element

variable {e : Element} {before after : String} {a b c d : List Char} {ps : List Piece}

theorem isClear_escaped (text : String) : e.IsClear (escaped text) :=
  ⟨clear_escaped e.opening text, clear_escaped e.closing text⟩

theorem isClear_written (h : ∀ text ∈ markups ps, e.IsClear text.toList) :
    e.IsClear (written ps) :=
  ⟨clear_written fun text htext => (h text htext).1,
    clear_written fun text htext => (h text htext).2⟩

/-- An element may begin and end within pieces of markup. -/
theorem reads_block (hbefore : before.toList = a ++ (e.start ++ b))
    (hafter : after.toList = c ++ (e.stop ++ d)) (ha : Clear e.start a)
    (hinner : e.IsClear (b ++ (written ps ++ c))) (hd : Clear e.start d) :
    e.Reads (written (.markup before :: (ps ++ [.markup after]))) [b ++ (written ps ++ c)] := by
  have hwritten : written (.markup before :: (ps ++ [.markup after])) =
      a ++ (e.start ++ (b ++ (written ps ++ c) ++ e.stop) ++ d) := by
    have hcons : written (.markup before :: (ps ++ [.markup after])) =
        before.toList ++ (written ps ++ after.toList) := by
      rw [written, List.flatMap_cons, ← written, written_append, written, written,
        List.flatMap_singleton]
      rfl
    rw [hcons, hbefore, hafter]
    simp only [List.append_assoc]
  rw [hwritten]
  exact (reads_of_clear ha).append ((reads_element hinner).append (reads_of_clear hd))

theorem reads_of_markups (h : ∀ text ∈ markups ps, Clear e.start text.toList) :
    e.Reads (written ps) [] := reads_of_clear (clear_written h)

/-- Markup in which no element begins adds nothing to what is read. -/
theorem Reads.within {contents : List (List Char)} (h : e.Reads (written ps) contents)
    (front back : List Piece) (hfront : ∀ text ∈ markups front, Clear e.start text.toList)
    (hback : ∀ text ∈ markups back, Clear e.start text.toList) :
    e.Reads (written (front ++ (ps ++ back))) contents := by
  have hall := (reads_of_markups hfront).append (h.append (reads_of_markups hback))
  rwa [← written_append, ← written_append, List.nil_append, List.append_nil] at hall

/-- A slot between the marks of an element. -/
theorem reads_framed (text : String) (hbefore : before.toList = a ++ e.start)
    (hafter : after.toList = e.stop ++ d) (ha : Clear e.start a) (hd : Clear e.start d) :
    e.Reads (written (framed before text after)) [escaped text] := by
  have hslot : written [.slot text] = escaped text := List.flatMap_singleton ..
  have hinner : e.IsClear ([] ++ (written [.slot text] ++ [])) := by
    rw [hslot, List.nil_append, List.append_nil]
    exact isClear_escaped text
  have hblock := reads_block (by rw [hbefore, List.append_nil]) hafter ha hinner hd
  rwa [List.nil_append, List.append_nil, hslot] at hblock

theorem reads_framed_flatMap (texts : List String)
    (h : ∀ text, e.Reads (written (framed before text after)) [escaped text]) :
    e.Reads (written (texts.flatMap (framed before · after))) (texts.map escaped) := by
  rw [written_flatMap, List.map_eq_flatMap]
  exact Reads.flatMap fun text _ => h text

end Element

end Page
end PropTable

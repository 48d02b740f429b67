import Mathlib.Data.List.Infix
import PropTable.Page

/-!
# Escaped texts

An escaped text has no character that markup is made of, every ampersand in it begins a
character reference, and resolving the references gives the text back
(`Page.unescaped_escape`).
-/

namespace PropTable
namespace Page

/-- The characters that markup is made of, or that end a quoted attribute. -/
def markupChars : List Char := ['<', '>', '"', '\x27']

/-- What stands for the characters that are not written as they are. -/
def references : List (List Char) :=
  ["&amp;".toList, "&lt;".toList, "&gt;".toList, "&#34;".toList, "&#39;".toList]

/-- A text that can stand between pieces of markup and within quotation marks. -/
structure IsInert (cs : List Char) : Prop where
  markup : ∀ c ∈ markupChars, c ∉ cs
  ampersand : ∀ after, '&' :: after <:+ cs → ∃ r ∈ references, r <+: '&' :: after

/-- Resolves the character references. -/
def unescape : List Char → List Char
  | [] => []
  | '&' :: 'a' :: 'm' :: 'p' :: ';' :: rest => '&' :: unescape rest
  | '&' :: 'l' :: 't' :: ';' :: rest => '<' :: unescape rest
  | '&' :: 'g' :: 't' :: ';' :: rest => '>' :: unescape rest
  | '&' :: '#' :: '3' :: '4' :: ';' :: rest => '"' :: unescape rest
  | '&' :: '#' :: '3' :: '9' :: ';' :: rest => '\x27' :: unescape rest
  | c :: rest => c :: unescape rest

def unescaped (s : String) : String := String.ofList (unescape s.toList)

/-- A character is written as it is or by a reference of its own. -/
theorem escapeChar_cases (c : Char) :
    (escapeChar c ∈ references ∧ ∀ rest, unescape (escapeChar c ++ rest) = c :: unescape rest) ∨
      escapeChar c = [c] ∧ c ≠ '&' ∧ c ∉ markupChars := by
  unfold escapeChar
  split
  case h_6 h₁ h₂ h₃ h₄ h₅ =>
    exact .inr ⟨rfl, h₁, by simpa [markupChars] using ⟨h₂, h₃, h₄, h₅⟩⟩
  all_goals exact .inl ⟨by decide, fun rest => rfl⟩

theorem unescape_cons {c : Char} (h : c ≠ '&') (rest : List Char) :
    unescape (c :: rest) = c :: unescape rest := by
  rw [unescape] <;> simp [h]

theorem toList_escape (s : String) : (escape s).toList = s.toList.flatMap escapeChar := by
  rw [escape, String.toList_ofList]

theorem unescape_flatMap (cs : List Char) : unescape (cs.flatMap escapeChar) = cs := by
  induction cs with
  | nil => rfl
  | cons c rest ih =>
    rw [List.flatMap_cons]
    rcases escapeChar_cases c with ⟨-, hc⟩ | ⟨hc, hne, -⟩
    · rw [hc, ih]
    · rw [hc, List.singleton_append, unescape_cons hne, ih]

theorem unescaped_escape (s : String) : unescaped (escape s) = s := by
  rw [unescaped, toList_escape, unescape_flatMap, String.ofList_toList]

/-! ## Nothing in an escaped text is markup -/

theorem suffix_append_cases {s xs ys : List Char} (h : s <:+ xs ++ ys) :
    s <:+ ys ∨ ∃ s', s' <:+ xs ∧ s' ≠ [] ∧ s = s' ++ ys := by
  obtain ⟨t, ht⟩ := h
  rcases List.append_eq_append_iff.mp ht with ⟨s', hxs, hs⟩ | ⟨t', -, hys⟩
  · by_cases hnil : s' = []
    · subst hnil
      exact .inl (by rw [hs]; exact List.suffix_rfl)
    · exact .inr ⟨s', ⟨t, hxs.symm⟩, hnil, hs⟩
  · exact .inl ⟨t', hys.symm⟩

theorem isInert_nil : IsInert [] where
  markup _ _ := List.not_mem_nil
  ampersand after h := by cases List.suffix_nil.mp h

theorem IsInert.append {cs ds : List Char} (hcs : IsInert cs) (hds : IsInert ds) :
    IsInert (cs ++ ds) where
  markup c hc hmem := (List.mem_append.mp hmem).elim (hcs.markup c hc) (hds.markup c hc)
  ampersand after h := by
    rcases suffix_append_cases h with h | ⟨s, hs, hne, heq⟩
    · exact hds.ampersand after h
    · obtain ⟨c, rest, rfl⟩ := List.exists_cons_of_ne_nil hne
      obtain ⟨rfl, rfl⟩ := List.cons.inj heq
      obtain ⟨r, hr, hbegins⟩ := hcs.ampersand rest hs
      exact ⟨r, hr, hbegins.trans (List.prefix_append _ ds)⟩

/-- A reference has its ampersand in front and no other. -/
theorem isInert_reference {r : List Char} (hr : r ∈ references) : IsInert r where
  markup c hc hmem := by
    have hnone : ∀ r ∈ references, r.all (· ∉ markupChars) = true := by decide +kernel
    exact of_decide_eq_true (List.all_eq_true.mp (hnone r hr) c hmem) hc
  ampersand after h := by
    have hshape : ∀ r ∈ references, r = '&' :: r.tail ∧ '&' ∉ r.tail := by decide +kernel
    obtain ⟨hcons, hnone⟩ := hshape r hr
    rw [hcons, List.suffix_cons_iff] at h
    rcases h with h | h
    · exact ⟨r, hr, by rw [h, ← hcons]⟩
    · exact absurd (h.subset List.mem_cons_self) hnone

theorem isInert_escapeChar (c : Char) : IsInert (escapeChar c) := by
  rcases escapeChar_cases c with ⟨hc, -⟩ | ⟨hc, hne, hmarkup⟩
  · exact isInert_reference hc
  rw [hc]
  refine ⟨fun d hd hmem => ?_, fun after h => ?_⟩
  · rw [List.mem_singleton.mp hmem] at hd
    exact hmarkup hd
  · exact absurd (List.mem_singleton.mp (h.subset List.mem_cons_self)) (Ne.symm hne)

theorem isInert_escape (s : String) : IsInert (escape s).toList := by
  rw [toList_escape]
  induction s.toList with
  | nil => exact isInert_nil
  | cons c rest ih => exact (isInert_escapeChar c).append ih

end Page
end PropTable

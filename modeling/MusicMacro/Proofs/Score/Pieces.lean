import Mathlib.Data.List.Basic

/-!
# Texts cut at a separator

* `Separated sep text pieces` : the pieces are what the separators of the text leave, none of them with a separator;
* `separated_iff` : every text has such pieces, and they are what `List.splitOn` gives.
-/

namespace MusicMacro

/-- `Separated sep text pieces` : the separators in a text leave these pieces. -/
inductive Separated (sep : Char) : List Char → List (List Char) → Prop where
  | last {piece : List Char} (h : sep ∉ piece) : Separated sep piece [piece]
  | next {piece text : List Char} {pieces : List (List Char)} (h : sep ∉ piece) (later : Separated sep text pieces) :
      Separated sep (piece ++ sep :: text) (piece :: pieces)

variable {sep : Char} {text : List Char} {pieces : List (List Char)}

theorem Separated.splitOn_eq (h : Separated sep text pieces) : text.splitOn sep = pieces := by
  induction h with
  | last h => exact List.splitOn_eq_singleton h
  | next h _ ih => rw [List.splitOn_append_cons_self_of_not_mem h, ih]

theorem exists_separated (sep : Char) (text : List Char) : ∃ pieces, Separated sep text pieces := by
  induction text using WellFounded.induction (r := fun x y : List Char => x.length < y.length) with
  | hwf => exact (measure List.length).wf
  | h text ih =>
    by_cases hsep : sep ∈ text
    · obtain ⟨piece, rest, rfl, hpiece⟩ := List.eq_append_cons_of_mem hsep
      obtain ⟨pieces, hpieces⟩ := ih rest (by simp; omega)
      exact ⟨_, .next hpiece hpieces⟩
    · exact ⟨_, .last hsep⟩

theorem separated_iff : Separated sep text pieces ↔ text.splitOn sep = pieces := by
  constructor
  · exact Separated.splitOn_eq
  · rintro rfl
    obtain ⟨pieces, h⟩ := exists_separated sep text
    rwa [h.splitOn_eq]

end MusicMacro

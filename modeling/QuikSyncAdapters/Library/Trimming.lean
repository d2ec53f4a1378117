import Mathlib.Data.List.DropRight

/-! Trimming a list at both ends, and the fields that a separator divides a list into. -/

namespace Trimming

variable {α : Type} (p : α → Bool)

def trim (l : List α) : List α := ((l.dropWhile p).reverse.dropWhile p).reverse

theorem trim_eq_rdropWhile (l : List α) : trim p l = (l.dropWhile p).rdropWhile p := rfl

theorem dropWhile_trim (l : List α) : (trim p l).dropWhile p = trim p l := by
  by_cases hnil : trim p l = []
  · rw [hnil, List.dropWhile_nil]
  · apply (List.dropWhile_eq_self_iff).mpr
    intro hlength
    have hright : trim p l <+: l.dropWhile p := List.rdropWhile_prefix p _
    have hdrop : 0 < (l.dropWhile p).length := hlength.trans_le hright.length_le
    have hfirst : (trim p l)[0] = (l.dropWhile p)[0] := hright.getElem hlength
    rw [hfirst]
    exact List.dropWhile_get_zero_not p l hdrop

theorem trim_trim (l : List α) : trim p (trim p l) = trim p l := by
  rw [trim_eq_rdropWhile p (trim p l), dropWhile_trim, trim_eq_rdropWhile p l,
    List.rdropWhile_idempotent]

variable [BEq α] (sep : α)

def fields (l : List α) : List (List α) :=
  ((l.splitOn sep).map (trim p)).filter fun part => !part.isEmpty

theorem fields_intercalate [LawfulBEq α] {rows : List (List α)} (hsep : ∀ row ∈ rows, sep ∉ row)
    (hblank : ∀ row ∈ rows, trim p row ≠ []) :
    fields p sep ([sep].intercalate rows) = rows.map (trim p) := by
  by_cases hrows : rows = []
  · subst hrows
    simp [fields, trim]
  · unfold fields
    rw [List.splitOn_intercalate sep hsep hrows, List.filter_eq_self]
    intro part hpart
    obtain ⟨row, hrow, rfl⟩ := List.mem_map.mp hpart
    simpa using hblank row hrow

end Trimming

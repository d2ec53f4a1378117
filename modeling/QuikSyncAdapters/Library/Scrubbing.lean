import Mathlib.Data.List.Basic

/-! Replacing a secret in a text that was cut off. The text echoes the secret between given
pieces; a cut through an echo leaves a part of it that is no occurrence any more. -/

namespace Scrubbing

variable {α : Type*}

def OccursAt (secret text : List α) (i : ℕ) : Prop := secret <+: text.drop i

/-- `f` replaces the occurrences of a secret, which it takes from the left. -/
structure Replaces (secret replacement : List α) (f : List α → List α) : Prop where
  clean : ∀ text, (∀ i, ¬ OccursAt secret text i) → f text = text
  first : ∀ before after, (∀ i < before.length, ¬ OccursAt secret (before ++ secret ++ after) i) →
    f (before ++ secret ++ after) = before ++ replacement ++ f after

def gaps (width : ℕ) : List (List α) → List ℕ
  | piece :: next :: rest =>
    piece.length :: (gaps width (next :: rest)).map (· + (piece.length + width))
  | _ => []

/-- The text assembled with the secret in every gap has it nowhere else. -/
def OnlyInGaps (secret : List α) (pieces : List (List α)) : Prop :=
  ∀ i, OccursAt secret (secret.intercalate pieces) i → i ∈ gaps secret.length pieces

/-- How much of an echo a limit on the length leaves standing, 0 when it cuts none. -/
def remnant (width : ℕ) : ℕ → List (List α) → ℕ
  | limit, piece :: next :: rest =>
    if limit < piece.length + width then limit - piece.length
    else remnant width (limit - (piece.length + width)) (next :: rest)
  | _, _ => 0

def scrubbed (replacement : List α) (width : ℕ) : ℕ → List (List α) → List α
  | limit, piece :: next :: rest =>
    if limit < piece.length + width then piece.take limit
    else piece ++ replacement ++
      scrubbed replacement width (limit - (piece.length + width)) (next :: rest)
  | limit, [piece] => piece.take limit
  | _, [] => []

variable {secret replacement : List α} {f : List α → List α} {piece next : List α}
  {rest : List (List α)}

theorem not_occursAt_nil (hsecret : secret ≠ []) (i : ℕ) : ¬ OccursAt secret [] i := by
  intro h
  rw [OccursAt, List.drop_nil, List.prefix_nil] at h
  exact hsecret h

instance [DecidableEq α] (secret text : List α) (i : ℕ) : Decidable (OccursAt secret text i) :=
  inferInstanceAs (Decidable (secret <+: text.drop i))

theorem onlyInGaps_of_lt {pieces : List (List α)} (hsecret : secret ≠ [])
    (h : ∀ i < (secret.intercalate pieces).length,
      OccursAt secret (secret.intercalate pieces) i → i ∈ gaps secret.length pieces) :
    OnlyInGaps secret pieces := by
  intro i hi
  by_cases hlt : i < (secret.intercalate pieces).length
  · exact h i hlt hi
  · rw [OccursAt, List.drop_eq_nil_of_le (Nat.le_of_not_lt hlt)] at hi
    exact absurd (List.prefix_nil.mp hi) hsecret

theorem onlyInGaps_of_padding {c d : α} (hne : d ≠ c) (tail : List α) (n : ℕ) :
    OnlyInGaps (c :: tail) [List.replicate n d, []] := by
  intro i hi
  rw [OccursAt, List.intercalate_cons_cons, List.intercalate_singleton, List.append_nil] at hi
  have hlength := hi.length_le
  rw [List.length_drop, List.length_append, List.length_replicate, List.length_cons] at hlength
  have hle : i ≤ n := by omega
  rcases Nat.lt_or_eq_of_le hle with hlt | rfl
  · obtain ⟨k, rfl⟩ := Nat.exists_eq_add_of_lt hlt
    rw [List.drop_append_of_le_length (by simp; omega), List.drop_replicate,
      show i + k + 1 - i = k + 1 by omega, List.replicate_succ, List.cons_append] at hi
    exact absurd (List.cons_prefix_cons.mp hi).1.symm hne
  · simp [gaps]

theorem occursAt_of_take {text : List α} {n i : ℕ} (hsecret : secret ≠ [])
    (h : OccursAt secret (text.take n) i) : OccursAt secret text i ∧ i + secret.length ≤ n := by
  rw [OccursAt, List.drop_take] at h
  have hlength := h.length_le
  have hpos : 0 < secret.length := List.length_pos_iff.mpr hsecret
  rw [List.length_take] at hlength
  exact ⟨h.trans (List.take_prefix _ _), by omega⟩

theorem gaps_bound {width i : ℕ} (h : i ∈ gaps width (piece :: next :: rest)) :
    i = piece.length ∨ piece.length + width ≤ i := by
  rcases List.mem_cons.mp h with h | h
  · exact Or.inl h
  · obtain ⟨j, -, rfl⟩ := List.mem_map.mp h
    exact Or.inr (Nat.le_add_left _ _)

theorem OnlyInGaps.tail (hsecret : secret ≠ [])
    (h : OnlyInGaps secret (piece :: next :: rest)) : OnlyInGaps secret (next :: rest) := by
  intro i hi
  have hlength : (piece ++ secret).length = piece.length + secret.length := List.length_append
  have hoccurs : OccursAt secret (secret.intercalate (piece :: next :: rest))
      (i + (piece.length + secret.length)) := by
    rw [OccursAt, List.intercalate_cons_cons, ← hlength, Nat.add_comm, ← List.drop_drop,
      List.drop_left]
    exact hi
  have hpos : 0 < secret.length := List.length_pos_iff.mpr hsecret
  rcases List.mem_cons.mp (h _ hoccurs) with hgap | hgap
  · omega
  · obtain ⟨j, hj, heq⟩ := List.mem_map.mp hgap
    obtain rfl : j = i := Nat.add_right_cancel heq
    exact hj

theorem take_cut {limit : ℕ} (hcut : limit < piece.length + secret.length) :
    (secret.intercalate (piece :: next :: rest)).take limit =
      piece.take limit ++ secret.take (limit - piece.length) := by
  have hle : limit - piece.length ≤ secret.length := by omega
  rw [List.intercalate_cons_cons, List.append_assoc, List.take_append,
    List.take_append_of_le_length hle]

theorem take_whole {limit : ℕ} (hcut : ¬ limit < piece.length + secret.length) :
    (secret.intercalate (piece :: next :: rest)).take limit = piece ++ secret ++
      (secret.intercalate (next :: rest)).take (limit - (piece.length + secret.length)) := by
  have hle : (piece ++ secret).length ≤ limit := by
    rw [List.length_append]
    exact Nat.le_of_not_lt hcut
  rw [List.intercalate_cons_cons, List.take_append, List.take_of_length_le hle, List.length_append]

/-- A text cut off at a limit is scrubbed up to the part of an echo that the limit leaves. -/
theorem Replaces.take_echoes (hf : Replaces secret replacement f) (hsecret : secret ≠ [])
    (limit : ℕ) {pieces : List (List α)} (honly : OnlyInGaps secret pieces) :
    f ((secret.intercalate pieces).take limit) =
      scrubbed replacement secret.length limit pieces ++
        secret.take (remnant secret.length limit pieces) := by
  induction pieces generalizing limit with
  | nil =>
    have hclean := hf.clean [] (not_occursAt_nil hsecret)
    simpa [scrubbed, remnant] using hclean
  | cons piece pieces ih =>
    cases pieces with
    | nil =>
      have hclean : ∀ i, ¬ OccursAt secret (piece.take limit) i := by
        intro i hi
        have hgap := honly i (by simpa using (occursAt_of_take hsecret hi).1)
        exact absurd hgap List.not_mem_nil
      simpa [scrubbed, remnant] using hf.clean _ hclean
    | cons next rest =>
      by_cases hcut : limit < piece.length + secret.length
      · -- no echo is whole before the cut
        have hclean : ∀ i, ¬ OccursAt secret
            ((secret.intercalate (piece :: next :: rest)).take limit) i := by
          intro i hi
          obtain ⟨hoccurs, hends⟩ := occursAt_of_take hsecret hi
          rcases gaps_bound (honly i hoccurs) with h | h
          · omega
          · omega
        rw [hf.clean _ hclean, take_cut hcut, scrubbed, if_pos hcut, remnant, if_pos hcut]
      · have hfirst : ∀ i < piece.length, ¬ OccursAt secret (piece ++ secret ++
            (secret.intercalate (next :: rest)).take (limit - (piece.length + secret.length))) i := by
          intro i hlt hi
          rw [← take_whole hcut] at hi
          rcases gaps_bound (honly i (occursAt_of_take hsecret hi).1) with h | h
          · omega
          · omega
        rw [take_whole hcut, hf.first _ _ hfirst, ih _ (honly.tail hsecret), scrubbed,
          if_neg hcut, remnant, if_neg hcut, List.append_assoc (piece ++ replacement)]

end Scrubbing

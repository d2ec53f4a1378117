import Mathlib.Data.List.Basic

/-! Bounded retrying: a numbered try either gives a verdict, which ends the retrying, or
leaves a state for the next try. What a run does is read off its first verdict. -/

/-- One try: the state it leaves, its record and its verdict, if it gives one. -/
structure Try (σ α ρ : Type*) where
  state : σ
  record : α
  verdict : Option ρ

structure RetryRun (σ α ρ : Type*) where
  state : σ
  records : List α
  result : ρ

namespace Retry

variable {σ α ρ : Type*}

def run (attempt : ℕ → σ → Try σ α ρ) (exhausted : ρ) : ℕ → ℕ → σ → RetryRun σ α ρ
  | 0, _, q => ⟨q, [], exhausted⟩
  | more + 1, k, q =>
    match (attempt k q).verdict with
    | some r => ⟨(attempt k q).state, [(attempt k q).record], r⟩
    | none =>
      let rest := run attempt exhausted more (k + 1) (attempt k q).state
      ⟨rest.state, (attempt k q).record :: rest.records, rest.result⟩

variable (attempt : ℕ → σ → Try σ α ρ)

def stateAt (q : σ) : ℕ → σ
  | 0 => q
  | k + 1 => (attempt k (stateAt q k)).state

def tryAt (q : σ) (k : ℕ) : Try σ α ρ := attempt k (stateAt attempt q k)

def Reaches (q : σ) (k : ℕ) : Prop := ∀ b < k, (tryAt attempt q b).verdict = none

def recordsBefore (q : σ) (k : ℕ) : List α :=
  (List.range k).map fun b => (tryAt attempt q b).record

variable {attempt} {exhausted : ρ} {q : σ}

theorem recordsBefore_succ (k : ℕ) :
    recordsBefore attempt q (k + 1) = recordsBefore attempt q k ++ [(tryAt attempt q k).record] := by
  simp [recordsBefore, List.range_succ]

@[simp] theorem length_recordsBefore (k : ℕ) : (recordsBefore attempt q k).length = k := by
  simp [recordsBefore]

theorem Reaches.mono {k m : ℕ} (h : Reaches attempt q m) (hk : k ≤ m) : Reaches attempt q k :=
  fun b hb => h b (Nat.lt_of_lt_of_le hb hk)

theorem run_of_reaches {k : ℕ} (h : Reaches attempt q k) (more : ℕ) :
    run attempt exhausted (more + k) 0 q =
      let rest := run attempt exhausted more k (stateAt attempt q k)
      ⟨rest.state, recordsBefore attempt q k ++ rest.records, rest.result⟩ := by
  induction k generalizing more with
  | zero => rfl
  | succ k ih =>
    have hk : (attempt k (stateAt attempt q k)).verdict = none := h k (Nat.lt_succ_self k)
    have hprefix := ih (h.mono (Nat.le_succ k)) (more + 1)
    rw [show more + (k + 1) = more + 1 + k by omega, hprefix]
    simp only [run, hk, stateAt]
    rw [recordsBefore_succ, List.append_assoc]
    rfl

theorem run_of_verdict {n i : ℕ} {r : ρ} (h : Reaches attempt q i)
    (hr : (tryAt attempt q i).verdict = some r) (hi : i < n) :
    run attempt exhausted n 0 q =
      ⟨(tryAt attempt q i).state, recordsBefore attempt q (i + 1), r⟩ := by
  obtain ⟨more, rfl⟩ : ∃ more, n = (more + 1) + i := ⟨n - i - 1, by omega⟩
  have hverdict : (attempt i (stateAt attempt q i)).verdict = some r := hr
  rw [run_of_reaches h]
  simp only [run, hverdict]
  rw [recordsBefore_succ]
  rfl

theorem run_of_exhausted {n : ℕ} (h : Reaches attempt q n) :
    run attempt exhausted n 0 q =
      ⟨stateAt attempt q n, recordsBefore attempt q n, exhausted⟩ := by
  have hrun : run attempt exhausted (0 + n) 0 q = _ := run_of_reaches h 0
  rw [Nat.zero_add] at hrun
  rw [hrun]
  simp only [run, List.append_nil]

theorem first_verdict_or_exhausted (attempt : ℕ → σ → Try σ α ρ) (q : σ) (n : ℕ) :
    (∃ i < n, Reaches attempt q i ∧ ∃ r, (tryAt attempt q i).verdict = some r) ∨
      Reaches attempt q n := by
  induction n with
  | zero => exact Or.inr fun b hb => absurd hb (Nat.not_lt_zero b)
  | succ n ih =>
    rcases ih with ⟨i, hi, hfirst⟩ | hall
    · exact Or.inl ⟨i, Nat.lt_succ_of_lt hi, hfirst⟩
    · cases hv : (tryAt attempt q n).verdict with
      | some r => exact Or.inl ⟨n, Nat.lt_succ_self n, hall, r, hv⟩
      | none =>
        refine Or.inr fun b hb => ?_
        rcases Nat.lt_succ_iff_lt_or_eq.mp hb with hlt | rfl
        · exact hall b hlt
        · exact hv

/-- The tries of a run are the first ones, of which only the last may give a verdict, and it stops
where they lead. -/
theorem run_stops (attempt : ℕ → σ → Try σ α ρ) (exhausted : ρ) (q : σ) (n : ℕ) :
    ∃ k, (run attempt exhausted n 0 q).records = recordsBefore attempt q k ∧
      (run attempt exhausted n 0 q).state = stateAt attempt q k ∧
      ∀ b, b + 1 < k → (tryAt attempt q b).verdict = none := by
  obtain ⟨i, hi, hreach, r, hr⟩ | hall := first_verdict_or_exhausted attempt q n
  · rw [run_of_verdict hreach hr hi]
    exact ⟨i + 1, rfl, rfl, fun b hb => hreach b (Nat.lt_of_succ_lt_succ hb)⟩
  · rw [run_of_exhausted hall]
    exact ⟨n, rfl, rfl, fun b hb => hall b (Nat.lt_of_succ_lt hb)⟩

end Retry

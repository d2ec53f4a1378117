import Mathlib.Data.Prod.Lex
import QuikSyncAdapters.Library.Machine

/-! Runs of a machine under an endless schedule of inputs: what holds all along, and what comes
to hold because a measure goes down at the inputs that a fair schedule always returns to. Which
kind of input that is may depend on the state. -/

namespace Machine

variable {σ ι ο : Type*}

def path (M : Machine σ ι ο) (q : σ) (is : ℕ → ι) : ℕ → σ
  | 0 => q
  | n + 1 => (M.step (M.path q is n) (is n)).1

/-- The schedule returns to the inputs of every kind over and over. -/
def Fair {κ : Type*} (F : κ → ι → Prop) (is : ℕ → ι) : Prop := ∀ k n, ∃ m, n ≤ m ∧ F k (is m)

variable {M : Machine σ ι ο} {q : σ} {is : ℕ → ι} {P G : σ → Prop} {A : σ → ι → Prop}

theorem path_succ (n : ℕ) : M.path q is (n + 1) = (M.step (M.path q is n) (is n)).1 := rfl

theorem path_keeps (hstep : ∀ q i, A q i → P q → P (M.step q i).1)
    (his : ∀ n, A (M.path q is n) (is n)) {n : ℕ} (hn : P (M.path q is n)) {m : ℕ} (h : n ≤ m) :
    P (M.path q is m) := by
  induction h with
  | refl => exact hn
  | @step m _ ih => exact hstep _ _ (his m) ih

theorem exists_first_offence (hstep : ∀ q i, A q i → P q → P (M.step q i).1) (hq : P q) {n : ℕ}
    (hn : ¬ A (M.path q is n) (is n)) : ∃ m, P (M.path q is m) ∧ ¬ A (M.path q is m) (is m) := by
  have hsearch (n : ℕ) :
      P (M.path q is n) ∨ ∃ m, P (M.path q is m) ∧ ¬ A (M.path q is m) (is m) := by
    induction n with
    | zero => exact Or.inl hq
    | succ n ih =>
      obtain hkept | hfound := ih
      · by_cases hallowed : A (M.path q is n) (is n)
        · exact Or.inl (hstep _ _ hallowed hkept)
        · exact Or.inr ⟨n, hkept, hallowed⟩
      · exact Or.inr hfound
  obtain hkept | hfound := hsearch n
  · exact ⟨n, hkept, hn⟩
  · exact hfound

section Measures

variable {κ α : Type*} [Preorder α] {F : κ → ι → Prop} {helper : σ → κ} {μ : σ → α}

/-- What an input does on the way to the goal `G`: it reaches it, lowers the measure, or leaves it
to the inputs that help in this state, of which it is none. -/
inductive Nears (M : Machine σ ι ο) (F : κ → ι → Prop) (helper : σ → κ) (μ : σ → α)
    (P G : σ → Prop) (q : σ) (i : ι) : Prop
  | reaches (h : G (M.step q i).1)
  | lowers (hkept : P (M.step q i).1) (h : μ (M.step q i).1 < μ q)
  | leaves (hkept : P (M.step q i).1) (hle : μ (M.step q i).1 ≤ μ q)
      (hhelper : helper (M.step q i).1 = helper q) (hnot : ¬ F (helper q) i)

theorem nears_of_same {i : ι} (hsame : (M.step q i).1 = q) (hq : P q) (hnot : ¬ F (helper q) i) :
    Nears M F helper μ P G q i := by
  apply Nears.leaves
  · rw [hsame]
    exact hq
  · rw [hsame]
  · rw [hsame]
  · exact hnot

theorem nears_next (h : ∀ q i, A q i → P q → Nears M F helper μ P G q i)
    (his : ∀ n, A (M.path q is n) (is n)) {m : ℕ} (d n : ℕ) (hd : n + d = m)
    (hm : F (helper (M.path q is n)) (is m)) (hn : P (M.path q is n)) :
    (∃ k, n ≤ k ∧ G (M.path q is k)) ∨
      ∃ k, n ≤ k ∧ P (M.path q is k) ∧ μ (M.path q is k) < μ (M.path q is n) := by
  induction d generalizing n with
  | zero =>
    obtain rfl : n = m := hd
    cases h _ _ (his n) hn with
    | reaches hgoal => exact Or.inl ⟨n + 1, Nat.le_succ n, hgoal⟩
    | lowers hkept hlower => exact Or.inr ⟨n + 1, Nat.le_succ n, hkept, hlower⟩
    | leaves _ _ _ hnot => exact absurd hm hnot
  | succ d ih =>
    cases h _ _ (his n) hn with
    | reaches hgoal => exact Or.inl ⟨n + 1, Nat.le_succ n, hgoal⟩
    | lowers hkept hlower => exact Or.inr ⟨n + 1, Nat.le_succ n, hkept, hlower⟩
    | leaves hkept hle hhelper =>
      have hd' : n + 1 + d = m := by omega
      have hm' : F (helper (M.path q is (n + 1))) (is m) := by
        rw [path_succ, hhelper]
        exact hm
      obtain ⟨k, hk, hgoal⟩ | ⟨k, hk, hkept', hlower⟩ := ih (n + 1) hd' hm' hkept
      · exact Or.inl ⟨k, Nat.le_of_succ_le hk, hgoal⟩
      · exact Or.inr ⟨k, Nat.le_of_succ_le hk, hkept', hlower.trans_le hle⟩

/-- Under a fair schedule whose inputs all near the goal, it is reached. -/
theorem eventually_of_nears [WellFoundedLT α]
    (h : ∀ q i, A q i → P q → Nears M F helper μ P G q i)
    (his : ∀ n, A (M.path q is n) (is n)) (hfair : Fair F is) {n : ℕ}
    (hn : P (M.path q is n)) : ∃ k, n ≤ k ∧ G (M.path q is k) := by
  generalize ha : μ (M.path q is n) = a
  induction a using WellFoundedLT.induction generalizing n with
  | ind a ih =>
    obtain ⟨m, hnm, hm⟩ := hfair (helper (M.path q is n)) n
    obtain ⟨d, hd⟩ := Nat.exists_eq_add_of_le hnm
    obtain hgoal | ⟨k, hk, hkept, hlower⟩ := nears_next h his d n hd.symm hm hn
    · exact hgoal
    · rw [ha] at hlower
      obtain ⟨k', hk', hgoal⟩ := ih _ hlower hkept rfl
      exact ⟨k', hk.trans hk', hgoal⟩

end Measures

end Machine

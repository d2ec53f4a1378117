import QuikSyncAdapters.Library.Machine
import Mathlib.Algebra.BigOperators.Group.List.Basic
import Mathlib.Algebra.Ring.Nat

/-! The cost of a run, paid for by what its steps bring in and by a potential that the state
holds; and the stretch of a run in which given items were produced. -/

namespace Machine

variable {σ ι ο β : Type*} {M : Machine σ ι ο} {A : σ → ι → Prop}

def total (f : ι × ο → ℕ) (log : List (ι × ο)) : ℕ := (log.map f).sum

@[simp] theorem total_nil (f : ι × ο → ℕ) : total f [] = 0 := rfl

@[simp] theorem total_cons (f : ι × ο → ℕ) (e : ι × ο) (log : List (ι × ο)) :
    total f (e :: log) = f e + total f log := List.sum_cons

theorem total_add (f g : ι × ο → ℕ) (log : List (ι × ο)) :
    total (fun e => f e + g e) log = total f log + total g log := List.sum_map_add

theorem total_mul (n : ℕ) (f : ι × ο → ℕ) (log : List (ι × ο)) :
    total (fun e => n * f e) log = n * total f log := by
  induction log with
  | nil => rfl
  | cons e log ih => rw [total_cons, total_cons, ih, Nat.mul_add]

theorem length_flatMap_eq_total {β : Type*} (f : ι × ο → List β) (log : List (ι × ο)) :
    (log.flatMap f).length = total (fun e => (f e).length) log := List.length_flatMap

/-- If every step is paid for, so is the run. -/
theorem total_le {Φ : σ → ℕ} {cost gain : ι × ο → ℕ}
    (hstep : ∀ q i, A q i →
      cost (i, (M.step q i).2) + Φ (M.step q i).1 ≤ Φ q + gain (i, (M.step q i).2))
    {q : σ} {is : List ι} (h : M.Guarded A q is) :
    total cost (M.log q is) + Φ (M.after q is) ≤ Φ q + total gain (M.log q is) := by
  induction is generalizing q with
  | nil => simp
  | cons i is ih =>
    have hfirst := hstep q i h.1
    have hrest := ih h.2
    rw [log_cons, total_cons, total_cons, after_cons]
    omega

theorem Guarded.suffix {q : σ} {is : List ι} (h : M.Guarded A q is) {pre post : List (ι × ο)}
    (hlog : M.log q is = pre ++ post) :
    ∃ r js, post = M.log r js ∧ M.Guarded A r js := by
  induction pre generalizing q is with
  | nil => exact ⟨q, is, hlog.symm, h⟩
  | cons e pre ih =>
    cases is with
    | nil => exact absurd hlog (by simp)
    | cons i is =>
      rw [log_cons, List.cons_append] at hlog
      exact ih h.2 (List.cons.inj hlog).2

theorem Guarded.initial {q : σ} {is : List ι} (h : M.Guarded A q is) {pre post : List (ι × ο)}
    (hlog : M.log q is = pre ++ post) : ∃ js, pre = M.log q js ∧ M.Guarded A q js := by
  induction pre generalizing q is with
  | nil => exact ⟨[], rfl, trivial⟩
  | cons e pre ih =>
    cases is with
    | nil => exact absurd hlog (by simp)
    | cons i is =>
      rw [log_cons, List.cons_append] at hlog
      obtain ⟨rfl, hrest⟩ := List.cons.inj hlog
      obtain ⟨js, rfl, hjs⟩ := ih h.2 hrest
      exact ⟨i :: js, rfl, h.1, hjs⟩

open List in
theorem exists_stretch {f : ι × ο → List β} {b : β} {bs : List β} {log : List (ι × ο)}
    (h : b :: bs <+ log.flatMap f) :
    ∃ older first rest, log = older ++ first :: rest ∧ b ∈ f first ∧
      (b :: bs).length ≤ ((first :: rest).flatMap f).length := by
  induction log with
  | nil => exact absurd h.length_le (by simp)
  | cons e log ih =>
    by_cases hb : b ∈ f e
    · exact ⟨[], e, log, rfl, hb, h.length_le⟩
    · rw [List.flatMap_cons] at h
      obtain ⟨taken, left, heq, htaken, hleft⟩ := List.sublist_append_iff.mp h
      cases taken with
      | nil =>
        rw [List.nil_append] at heq
        obtain ⟨older, first, rest, rfl, hfirst, hlength⟩ := ih (heq ▸ hleft)
        exact ⟨e :: older, first, rest, rfl, hfirst, hlength⟩
      | cons b' taken =>
        obtain ⟨rfl, -⟩ := List.cons.inj heq
        exact absurd (htaken.subset List.mem_cons_self) hb

end Machine

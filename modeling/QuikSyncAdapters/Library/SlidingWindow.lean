import Mathlib.Algebra.Order.Group.Defs
import Mathlib.Data.List.Induction

/-! A log of instants that drops, whenever it records one, those that are too old by then. -/

namespace SlidingWindow

variable {α : Type*} [AddCommGroup α] [LinearOrder α] [IsOrderedAddMonoid α]

def recent (w : α) (ts : List α) (now : α) : List α := ts.filter fun t => decide (now - t < w)

def record (w : α) (ts : List α) (now : α) : List α := recent w ts now ++ [now]

def recorded (w : α) (ts : List α) : List α := ts.foldl (record w) []

omit [IsOrderedAddMonoid α] in
theorem recorded_append (w : α) (ts : List α) (now : α) :
    recorded w (ts ++ [now]) = record w (recorded w ts) now := by
  unfold recorded
  rw [List.foldl_append, List.foldl_cons, List.foldl_nil]

open List in
omit [IsOrderedAddMonoid α] in
theorem recorded_sublist (w : α) (ts : List α) : recorded w ts <+ ts := by
  induction ts using List.reverseRecOn with
  | nil => exact List.Sublist.slnil
  | append_singleton ts t ih =>
    rw [recorded_append]
    exact (List.filter_sublist.trans ih).append_right [t]

omit [IsOrderedAddMonoid α] in
theorem exists_oldest (w : α) (ts : List α) (now : α) :
    ∃ oldest newer, recorded w (ts ++ [now]) = oldest :: newer ∧
      (oldest = now ∨ now - oldest < w) := by
  rw [recorded_append, record]
  cases hrecent : recent w (recorded w ts) now with
  | nil => exact ⟨now, [], rfl, Or.inl rfl⟩
  | cons t older =>
    have ht : t ∈ recent w (recorded w ts) now := hrecent ▸ List.mem_cons_self
    exact ⟨t, _, rfl, Or.inr (of_decide_eq_true (List.mem_filter.mp ht).2)⟩

theorem recent_recent (w : α) (ts : List α) {earlier now : α} (h : earlier ≤ now) :
    recent w (recent w ts earlier) now = recent w ts now := by
  unfold recent
  rw [List.filter_filter]
  apply List.filter_congr
  intro t _
  by_cases hnow : now - t < w
  · have hearlier : earlier - t < w := (sub_le_sub_right h t).trans_lt hnow
    simp [hnow, hearlier]
  · simp [hnow]

theorem recent_recorded (w : α) {ts : List α} {now : α} (hsorted : (ts ++ [now]).Pairwise (· ≤ ·)) :
    recent w (recorded w ts) now = recent w ts now := by
  induction ts using List.reverseRecOn generalizing now with
  | nil => rfl
  | append_singleton ts t ih =>
    obtain ⟨hts, -, hle⟩ := List.pairwise_append.mp hsorted
    have htnow : t ≤ now :=
      hle t (List.mem_append_right _ List.mem_cons_self) now List.mem_cons_self
    rw [recorded_append, record, ih hts]
    unfold recent at *
    rw [List.filter_append, List.filter_append]
    exact congrArg (· ++ _) (recent_recent w ts htnow)

/-- Along sorted instants the log is the window that ends at the last one. -/
theorem recorded_eq_record (w : α) {ts : List α} {now : α}
    (hsorted : (ts ++ [now]).Pairwise (· ≤ ·)) :
    recorded w (ts ++ [now]) = record w ts now := by
  rw [recorded_append, record, recent_recorded w hsorted, record]

end SlidingWindow

import Mathlib.Data.List.Basic
import Mathlib.Data.Prod.Lex

/-! Event loops that run callbacks in rounds: a round runs what was queued when it began, what
is queued meanwhile waits for the next one, and a loop asked to stop leaves after its round. -/

/-- `round` has the callbacks of the current round still to run and is `none` between two
rounds, `later` has the callbacks queued for the next one. -/
structure EventLoop (κ : Type*) where
  round : Option (List κ)
  later : List κ
  stopping : Bool
  running : Bool
  closed : Bool
deriving DecidableEq

namespace EventLoop

variable {κ : Type*}

def new : EventLoop κ := ⟨none, [], false, false, false⟩

def callSoon (l : EventLoop κ) (ks : List κ) : EventLoop κ := { l with later := l.later ++ ks }

def stop (l : EventLoop κ) : EventLoop κ := { l with stopping := true }

def enter (l : EventLoop κ) : EventLoop κ := { l with running := true }

def beginRound (l : EventLoop κ) (polled : List κ) : EventLoop κ :=
  { l with round := some (l.later ++ polled), later := [] }

def next (l : EventLoop κ) (rest : List κ) : EventLoop κ := { l with round := some rest }

def again (l : EventLoop κ) : EventLoop κ := { l with round := none }

def leave (l : EventLoop κ) : EventLoop κ :=
  { l with round := none, stopping := false, running := false }

def close (l : EventLoop κ) : EventLoop κ := { l with later := [], closed := true }

def ready (l : EventLoop κ) : List κ := l.round.getD [] ++ l.later

theorem ready_append {l l' : EventLoop κ} {ks : List κ} (hround : l'.round = l.round)
    (hlater : l'.later = l.later ++ ks) : l'.ready = l.ready ++ ks := by
  rw [ready, ready, hround, hlater, List.append_assoc]

theorem ready_callSoon (l : EventLoop κ) (ks : List κ) : (l.callSoon ks).ready = l.ready ++ ks :=
  ready_append rfl rfl

theorem ready_beginRound {l : EventLoop κ} (hround : l.round = none) (polled : List κ) :
    (l.beginRound polled).ready = l.ready ++ polled := by
  have hready : l.ready = l.later := by rw [ready, hround, Option.getD_none, List.nil_append]
  rw [hready]
  exact List.append_nil _

theorem ready_eq_cons {l : EventLoop κ} {k : κ} {rest : List κ}
    (hround : l.round = some (k :: rest)) : l.ready = k :: (l.next rest).ready := by
  rw [ready, hround]
  rfl

theorem ready_again {l : EventLoop κ} (hround : l.round = some []) : l.again.ready = l.ready := by
  rw [ready, ready, hround]
  rfl

theorem ready_leave {l : EventLoop κ} (hround : l.round = some []) : l.leave.ready = l.ready := by
  rw [ready, ready, hround]
  rfl

/-- With this flag and these callbacks to run, the loop will stop. -/
def Due (ends : κ → Prop) (stopping : Bool) (l : List κ) : Prop :=
  stopping = true ∨ ∃ k ∈ l, ends k

instance (ends : κ → Prop) [DecidablePred ends] (stopping : Bool) (l : List κ) :
    Decidable (Due ends stopping l) := inferInstanceAs (Decidable (_ ∨ _))

variable {ends ends' : κ → Prop} {stopping : Bool} {l : List κ}

theorem due_of_mem {k : κ} (hk : k ∈ l) (hends : ends k) : Due ends stopping l :=
  Or.inr ⟨k, hk, hends⟩

theorem due_nil_iff : Due ends stopping [] ↔ stopping = true := by
  rw [Due]
  exact or_iff_left (fun ⟨_, hk, _⟩ => List.not_mem_nil hk)

theorem Due.mono (h : Due ends stopping l) (hends : ∀ k, ends k → ends' k) :
    Due ends' stopping l := by
  obtain hstopping | ⟨k, hk, hkends⟩ := h
  · exact Or.inl hstopping
  · exact due_of_mem hk (hends k hkends)

theorem Due.append (h : Due ends stopping l) (ks : List κ) : Due ends stopping (l ++ ks) := by
  obtain hstopping | ⟨k, hk, hkends⟩ := h
  · exact Or.inl hstopping
  · exact due_of_mem (List.mem_append_left _ hk) hkends

theorem Due.behind (h : Due ends false l) (stopping : Bool) (ks : List κ) :
    Due ends stopping (ks ++ l) := by
  obtain hfalse | ⟨k, hk, hkends⟩ := h
  · cases hfalse
  · exact due_of_mem (List.mem_append_right _ hk) hkends

theorem Due.run {k : κ} {stops : Bool} (h : Due ends stopping (k :: l))
    (hk : ends k → stops = true) : Due ends (stopping || stops) l := by
  obtain hstopping | ⟨k', hk', hends⟩ := h
  · exact Or.inl (Bool.or_eq_true_iff.mpr (Or.inl hstopping))
  · obtain rfl | hrest := List.mem_cons.mp hk'
    · exact Or.inl (Bool.or_eq_true_iff.mpr (Or.inr (hk hends)))
    · exact due_of_mem hrest hends

/-- Decreases with every step of a loop that is due to stop: the round that stops it comes after
the one that is going on, and the wait between them. -/
def delay (ends : κ → Prop) [DecidablePred ends] (l : EventLoop κ) : ℕ ×ₗ ℕ :=
  match l.round with
  | none => toLex (1, 0)
  | some round => toLex (if Due ends l.stopping round then 0 else 2, round.length)

section Delays

variable [DecidablePred ends] {l l' : EventLoop κ}

theorem delay_of_none (hround : l.round = none) : l.delay ends = toLex (1, 0) := by
  rw [delay, hround]

theorem delay_of_some {round : List κ} (hround : l.round = some round) :
    l.delay ends = toLex (if Due ends l.stopping round then 0 else 2, round.length) := by
  rw [delay, hround]

theorem delay_beginRound_lt (hround : l.round = none) (h : Due ends l.stopping l.ready)
    (polled : List κ) : (l.beginRound polled).delay ends < l.delay ends := by
  have hready : l.ready = l.later := by rw [ready, hround, Option.getD_none, List.nil_append]
  have hdue : Due ends l.stopping (l.later ++ polled) := (hready ▸ h).append polled
  have hsome : (l.beginRound polled).round = some (l.later ++ polled) := rfl
  have hstopping : (l.beginRound polled).stopping = l.stopping := rfl
  rw [delay_of_none hround, delay_of_some hsome, hstopping, if_pos hdue]
  exact Prod.Lex.toLex_lt_toLex.mpr (Or.inl Nat.zero_lt_one)

theorem delay_again_lt (hround : l.round = some []) (hstopping : l.stopping = false) :
    l.again.delay ends < l.delay ends := by
  have hnot : ¬ Due ends l.stopping [] := by
    rw [due_nil_iff, hstopping]
    exact Bool.false_ne_true
  have hnone : l.again.round = none := rfl
  rw [delay_of_none hnone, delay_of_some hround, if_neg hnot]
  exact Prod.Lex.toLex_lt_toLex.mpr (Or.inl Nat.one_lt_two)

theorem delay_run_lt {k : κ} {rest : List κ} {stops : Bool} (hround : l.round = some (k :: rest))
    (hround' : l'.round = some rest) (hstopping : l'.stopping = (l.stopping || stops))
    (hk : ends k → stops = true) : l'.delay ends < l.delay ends := by
  have hlength : rest.length < (k :: rest).length := Nat.lt_succ_self _
  rw [delay_of_some hround, delay_of_some hround', hstopping]
  apply Prod.Lex.toLex_lt_toLex.mpr
  by_cases hdue : Due ends l.stopping (k :: rest)
  · have hrest := hdue.run hk
    rw [if_pos hdue, if_pos hrest]
    exact Or.inr ⟨rfl, hlength⟩
  · rw [if_neg hdue]
    split_ifs
    · exact Or.inl Nat.zero_lt_two
    · exact Or.inr ⟨rfl, hlength⟩

end Delays

end EventLoop

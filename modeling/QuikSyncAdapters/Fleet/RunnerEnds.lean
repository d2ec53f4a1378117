import QuikSyncAdapters.Fleet.StopRequests
import QuikSyncAdapters.Library.Schedules

/-! Whether the thread of the state pump ever ends. When neither thread is starved it does, its
loop closed, if the request to stop was timely; otherwise it stays in `run_forever`. -/

namespace QuikSync.Fleet

open EventLoop

def RunnerStage.togo : RunnerStage → ℕ
  | new => 11
  | created => 10
  | published => 9
  | built => 8
  | queued => 7
  | starting => 6
  | between => 5
  | forever => 4
  | finalising => 3
  | closing => 2
  | left => 1
  | closed => 0

def RequestStage.togo : RequestStage → ℕ
  | idle => 3
  | loaded => 2
  | checked => 1
  | _ => 0

inductive Thread where
  | runner
  | main

def ThreadStep.thread : ThreadStep → Thread
  | runner _ => .runner
  | main => .main

namespace PumpThreads

def Ended (q : PumpThreads) : Prop := q.stage = .closed ∧ q.loop.closed = true

instance : DecidablePred Ended := fun _ => inferInstanceAs (Decidable (_ ∧ _))

theorem run_main (q : PumpThreads) (n : ℕ) : (q.run n).main = q.main := by
  have hturn (next : RunnerStage) : (q.turn n next).main = q.main := by
    unfold turn
    split
    · rfl
    · rw [execute_eq]
    · split_ifs
      · rfl
      · rfl
  unfold run
  split
  case h_6 => exact hturn _
  case h_8 => exact hturn _
  case h_9 =>
    split_ifs
    · rfl
    · rfl
  all_goals rfl

theorem requestStop_togo_lt {q : PumpThreads} (hm : q.main.isOpen = true) :
    q.requestStop.main.togo < q.main.togo := by
  obtain ⟨stage, published, loop, started, main⟩ := q
  cases main with
  | idle =>
    cases published with
    | false => exact Nat.succ_pos 2
    | true => exact Nat.lt_succ_self 2
  | loaded =>
    show (if loop.running then RequestStage.checked else .returned).togo < RequestStage.loaded.togo
    split_ifs
    · exact Nat.lt_succ_self 1
    · exact Nat.succ_pos 1
  | checked =>
    show (if loop.closed then _ else _ : PumpThreads).main.togo < _
    split_ifs
    · exact Nat.succ_pos 0
    · exact Nat.succ_pos 0
  | returned => cases hm
  | raised => cases hm

theorem requestStop_of_over {q : PumpThreads} (hm : q.main.isOpen = false) :
    q.requestStop = q := by
  obtain ⟨stage, published, loop, started, main⟩ := q
  cases main with
  | returned => rfl
  | raised => rfl
  | _ => cases hm

/-! ### The runner leaves its loop -/

theorem Carries.due_stops {s : RunnerStage} {m : RequestStage} {stopping : Bool}
    {l : List Callback} (h : Carries s.Ends m stopping l) (hm : m.isOpen = false) :
    Due (·.stops = true) stopping l := by
  cases h with
  | untouched hopen => exact absurd hopen (ne_true_of_eq_false hm)
  | asked h => exact h.mono fun _ => RunnerStage.Ends.stops

theorem Kept.due_stops {q : PumpThreads} (h : Kept q) (hm : q.main.isOpen = false)
    (hstage : q.stage = .starting ∨ q.stage = .forever) :
    Due (·.stops = true) q.loop.stopping q.loop.ready := by
  cases h with
  | unpublished hs => cases hm
  | published hs hm' =>
    obtain rfl | rfl := hm'
    · cases hm
    · cases hm
  | queued hm' =>
    obtain rfl | rfl := hm'
    · cases hm
    · cases hm
  | waiting h => exact (h.due_stops hm).behind false [.start]
  | first h => exact ((h.due_stops hm).behind false [.start]).append []
  | ending h => exact (h.due_stops hm).append _
  | pausing hopen => exact absurd hopen (ne_true_of_eq_false hm)
  | finishing _ _ h => exact (h.due_stops hm).behind _ _
  | between h =>
    obtain hstage | hstage := hstage
    · cases hstage
    · cases hstage
  | forever h => exact h.due_stops hm
  | past _ hpast =>
    obtain hstage | hstage := hstage
    · rw [hstage] at hpast
      cases hpast
    · rw [hstage] at hpast
      cases hpast

/-- What is left of the runner: its stages, and in each the time its loop still takes. -/
def remaining (q : PumpThreads) : ℕ ×ₗ ℕ ×ₗ ℕ :=
  toLex (q.stage.togo, q.loop.delay (·.stops = true))

theorem remaining_lt_of_stage {q q' : PumpThreads} (h : q'.stage.togo < q.stage.togo) :
    q'.remaining < q.remaining := Prod.Lex.toLex_lt_toLex.mpr (Or.inl h)

theorem remaining_lt_of_delay {q q' : PumpThreads} (hstage : q'.stage = q.stage)
    (h : q'.loop.delay (·.stops = true) < q.loop.delay (·.stops = true)) :
    q'.remaining < q.remaining :=
  Prod.Lex.toLex_lt_toLex.mpr (Or.inr ⟨congrArg RunnerStage.togo hstage, h⟩)

theorem remaining_turn_lt {q : PumpThreads} (h : Due (·.stops = true) q.loop.stopping q.loop.ready)
    (n : ℕ) {next : RunnerStage} (hnext : next.togo < q.stage.togo) :
    (q.turn n next).remaining < q.remaining := by
  unfold turn
  split
  next hround => exact remaining_lt_of_delay rfl (delay_beginRound_lt hround h _)
  next k rest hround =>
    rw [execute_eq]
    exact remaining_lt_of_delay rfl (delay_run_lt hround rfl rfl id)
  next hround =>
    split_ifs with hstopping
    · exact remaining_lt_of_stage hnext
    · exact remaining_lt_of_delay rfl (delay_again_lt hround (eq_false_of_ne_true hstopping))

theorem remaining_run_lt {q : PumpThreads} (h : Kept q) (hm : q.main.isOpen = false) (n : ℕ)
    (hclosed : q.stage ≠ .closed) : (q.run n).remaining < q.remaining := by
  have hdue := h.due_stops hm
  clear h
  obtain ⟨stage, published, loop, started, main⟩ := q
  cases stage with
  | starting =>
    have hnext : (if started then RunnerStage.between else .finalising).togo <
        RunnerStage.starting.togo := by
      cases started with
      | false => decide
      | true => decide
    exact remaining_turn_lt (hdue (Or.inl rfl)) n hnext
  | forever => exact remaining_turn_lt (hdue (Or.inr rfl)) n (Nat.lt_succ_self _)
  | finalising =>
    show (if loop.closed then _ else _ : PumpThreads).remaining < _
    split_ifs
    · exact remaining_lt_of_stage (Nat.lt_succ_of_lt (Nat.lt_succ_self _))
    · exact remaining_lt_of_stage (Nat.lt_succ_self _)
  | closed => exact absurd rfl hclosed
  | _ => exact remaining_lt_of_stage (Nat.lt_succ_self _)

theorem turn_stage (q : PumpThreads) (n : ℕ) (next : RunnerStage) :
    (q.turn n next).stage = q.stage ∨ (q.turn n next).stage = next := by
  unfold turn
  split
  · exact Or.inl rfl
  · rw [execute_eq]
    exact Or.inl rfl
  · split_ifs
    · exact Or.inr rfl
    · exact Or.inl rfl

def Tidy (q : PumpThreads) : Prop := q.stage = .closed → q.loop.closed = true

theorem tidy_of_ne {q : PumpThreads} (h : q.stage ≠ .closed) : Tidy q := fun hq => absurd hq h

theorem tidy_turn {q : PumpThreads} (hq : q.stage ≠ .closed) (n : ℕ) {next : RunnerStage}
    (hnext : next ≠ .closed) : Tidy (q.turn n next) := by
  apply tidy_of_ne
  obtain hstage | hstage := q.turn_stage n next
  · rw [hstage]
    exact hq
  · rw [hstage]
    exact hnext

theorem tidy_run {q : PumpThreads} (h : Tidy q) (n : ℕ) : Tidy (q.run n) := by
  obtain ⟨stage, published, loop, started, main⟩ := q
  cases stage with
  | starting =>
    have hnext : (if started then RunnerStage.between else .finalising) ≠ .closed := by
      cases started with
      | false => decide
      | true => decide
    have hstage : RunnerStage.starting ≠ .closed := by decide
    exact tidy_turn hstage n hnext
  | forever =>
    have hstage : RunnerStage.forever ≠ .closed := by decide
    exact tidy_turn hstage n (by decide)
  | finalising =>
    show Tidy (if loop.closed then _ else _)
    split_ifs
    · exact tidy_of_ne RunnerStage.noConfusion
    · exact tidy_of_ne RunnerStage.noConfusion
  | left =>
    intro _
    show (if loop.closed then loop else loop.close).closed = true
    split_ifs with hclosed
    · exact hclosed
    · rfl
  | closed => exact h
  | _ => exact tidy_of_ne RunnerStage.noConfusion

theorem requestStop_closed (q : PumpThreads) :
    q.requestStop.loop.closed = q.loop.closed := by
  unfold requestStop
  split
  case h_3 =>
    split_ifs
    · rfl
    · rfl
  all_goals rfl

theorem tidy_step (q : PumpThreads) (a : ThreadStep) (h : Tidy q) : Tidy (q.step a) := by
  cases a with
  | runner n => exact tidy_run h n
  | main =>
    intro hclosed
    have hstage : q.stage = .closed := (requestStop_stage q).1.symm.trans hclosed
    exact (requestStop_closed q).trans (h hstage)

def helper (q : PumpThreads) : Thread := if q.main.isOpen then .main else .runner

/-- The calls of the request, and once it is made what is left of the runner. -/
def outstanding (q : PumpThreads) : ℕ ×ₗ ℕ ×ₗ ℕ ×ₗ ℕ :=
  toLex (q.main.togo, if q.main.isOpen then toLex (0, toLex (0, 0)) else q.remaining)

theorem nears_end (q : PumpThreads) (a : ThreadStep) (ha : q.Timely a) (hq : Kept q ∧ Tidy q) :
    machine.Nears (fun t a => a.thread = t) helper outstanding (fun q => Kept q ∧ Tidy q) Ended
      q a := by
  have hq' := And.intro (kept_step q a ha hq.1) (tidy_step q a hq.2)
  cases hm : q.main.isOpen with
  | true =>
    have hhelper : q.helper = .main := by rw [helper, if_pos hm]
    cases a with
    | runner n =>
      have hmain : (q.step (.runner n)).main = q.main := run_main q n
      have hsame : (q.step (.runner n)).outstanding = q.outstanding := by
        rw [outstanding, outstanding, hmain, if_pos hm, if_pos hm]
      have hhelper' : (q.step (.runner n)).helper = q.helper := by rw [helper, helper, hmain]
      apply Machine.Nears.leaves hq' hsame.le hhelper'
      rw [hhelper]
      exact Thread.noConfusion
    | main =>
      exact Machine.Nears.lowers hq'
        (Prod.Lex.toLex_lt_toLex.mpr (Or.inl (requestStop_togo_lt hm)))
  | false =>
    have hhelper : q.helper = .runner := by rw [helper, if_neg (ne_true_of_eq_false hm)]
    cases a with
    | runner n =>
      by_cases hclosed : q.stage = .closed
      · have hstage : (q.run n).stage = .closed := by
          rw [run, hclosed]
          exact hclosed
        exact Machine.Nears.reaches ⟨hstage, hq'.2 hstage⟩
      · have hmain : (q.step (.runner n)).main = q.main := run_main q n
        have hlower : (q.step (.runner n)).outstanding < q.outstanding := by
          rw [outstanding, outstanding, hmain, if_neg (ne_true_of_eq_false hm),
            if_neg (ne_true_of_eq_false hm)]
          exact Prod.Lex.toLex_lt_toLex.mpr
            (Or.inr ⟨rfl, remaining_run_lt hq.1 hm n hclosed⟩)
        exact Machine.Nears.lowers hq' hlower
    | main =>
      refine Machine.nears_of_same (requestStop_of_over hm) hq ?_
      rw [hhelper]
      exact Thread.noConfusion

/-! ### A request that was too early -/

def Forsaken (q : PumpThreads) : Prop := Doomed q ∨ Stranded q

theorem Forsaken.ahead {q : PumpThreads} (h : Forsaken q) : q.stage.ahead = true := by
  obtain h | h := h
  · cases h with
    | _ => rfl
  · exact h.ahead

theorem Forsaken.main_eq {q : PumpThreads} (h : Forsaken q) : q.main = .returned := by
  obtain h | h := h
  · cases h with
    | _ => rfl
  · exact h.lost.1

theorem forsaken_of_stranded {q : PumpThreads} (h : Stranded q) (n : ℕ) : Forsaken (q.run n) := by
  have hothers : ∀ k ∈ others n, k = .other := Callback.queues_other n
  cases h with
  | unpublished hs =>
    obtain rfl | rfl := hs
    · exact Or.inr (Stranded.unpublished (Or.inr rfl))
    · exact Or.inr (Stranded.published (Or.inl rfl))
  | published hs =>
    obtain rfl | rfl := hs
    · exact Or.inr (Stranded.published (Or.inr rfl))
    · exact Or.inr Stranded.queued
  | queued => exact Or.inr Stranded.waiting
  | waiting => exact Or.inl (Doomed.first hothers (List.forall_mem_nil _))
  | between hl => exact Or.inr (Stranded.forever hl)
  | @forever round later hl =>
    cases round with
    | none =>
      have hqueued := List.forall_mem_append.mpr ⟨hl, hothers⟩
      rw [← ready_beginRound rfl] at hqueued
      exact Or.inr (Stranded.forever hqueued)
    | some round =>
      cases round with
      | nil =>
        rw [← ready_again rfl] at hl
        exact Or.inr (Stranded.forever hl)
      | cons k rest =>
        rw [ready_eq_cons rfl] at hl
        obtain ⟨rfl, hrest⟩ := List.forall_mem_cons.mp hl
        have hqueued := List.forall_mem_append.mpr ⟨hrest, hothers⟩
        rw [← ready_callSoon] at hqueued
        exact Or.inr (Stranded.forever hqueued)

theorem forsaken_step (q : PumpThreads) (a : ThreadStep) (_ : True) (h : Forsaken q) :
    Forsaken (q.step a) := by
  cases a with
  | runner n =>
    obtain h | h := h
    · exact stranded_of_doomed h n
    · exact forsaken_of_stranded h n
  | main =>
    have hm : q.main.isOpen = false := by rw [h.main_eq]; rfl
    show Forsaken q.requestStop
    rw [requestStop_of_over hm]
    exact h

/-! ### Endless runs -/

variable {steps : ℕ → ThreadStep}

theorem forsaken_of_not_timely {n : ℕ} (hn : ¬ (machine.path initial steps n).Timely (steps n)) :
    ∃ m, Forsaken (machine.path initial steps m) := by
  obtain ⟨m, hkept, hm⟩ := Machine.exists_first_offence kept_step kept_initial hn
  refine ⟨m + 1, ?_⟩
  rw [Machine.path_succ]
  generalize steps m = a at hm ⊢
  cases a with
  | runner k => exact absurd trivial hm
  | main => exact stranded_of_not_timely hkept hm

def Past (q : PumpThreads) : Prop := q.stage.ahead = false

theorem past_step (q : PumpThreads) (a : ThreadStep) (_ : True) (h : Past q) :
    Past (q.step a) := by
  cases a with
  | runner n =>
    obtain ⟨stage, published, loop, started, main⟩ := q
    cases stage with
    | finalising =>
      show Past (if loop.closed then _ else _)
      split_ifs
      · rfl
      · rfl
    | closing => rfl
    | left => rfl
    | closed => rfl
    | _ => cases h
  | main =>
    show q.requestStop.stage.ahead = false
    rw [(requestStop_stage q).1]
    exact h

/-- When both threads keep taking steps, the runner ends, its loop closed, if and only if the
request to stop it was timely. -/
theorem ends_iff_timely (hfair : Machine.Fair (fun t a => a.thread = t) steps) :
    (∃ n, (machine.path initial steps n).Ended) ↔
      ∀ n, (machine.path initial steps n).Timely (steps n) := by
  constructor
  · rintro ⟨n, hstage, -⟩ m
    by_contra hm
    obtain ⟨k, hforsaken⟩ := forsaken_of_not_timely hm
    have hpast : Past (machine.path initial steps n) := by rw [Past, hstage]; rfl
    have hlast := Machine.path_keeps past_step (fun _ => trivial) hpast (le_max_left n k)
    have hlost := Machine.path_keeps forsaken_step (fun _ => trivial) hforsaken (le_max_right n k)
    exact Bool.false_ne_true (hlast.symm.trans hlost.ahead)
  · intro htimely
    have hinitial : Kept initial ∧ Tidy initial :=
      ⟨kept_initial, tidy_of_ne RunnerStage.noConfusion⟩
    obtain ⟨n, -, hended⟩ := Machine.eventually_of_nears nears_end htimely hfair (n := 0) hinitial
    exact ⟨n, hended⟩

/-- The two threads in turn: `_loop` is not published yet when the request reads it. -/
def inTurn (n : ℕ) : ThreadStep := if n % 2 = 0 then .runner 0 else .main

theorem inTurn_never_ends : ¬ ∃ n, (machine.path initial inTurn n).Ended := by
  have hfair : Machine.Fair (fun t a => a.thread = t) inTurn := by
    intro t n
    cases t with
    | runner =>
      refine ⟨2 * n, by omega, ?_⟩
      rw [inTurn, if_pos (by omega)]
      rfl
    | main =>
      refine ⟨2 * n + 1, by omega, ?_⟩
      rw [inTurn, if_neg (by omega)]
      rfl
  intro hended
  cases (ends_iff_timely hfair).mp hended 1

end PumpThreads

end QuikSync.Fleet

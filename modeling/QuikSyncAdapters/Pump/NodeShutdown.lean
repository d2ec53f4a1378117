import QuikSyncAdapters.Pump.NodeEnds

/-! The shutdown of a node whose pumps heed their cancellation. `_stop_all_pumps` goes through with
all of them, and `stop` closes the loop behind it without waiting out either of its limits. -/

namespace QuikSync.Pump

open EventLoop

def StopStage.awaits : StopStage → Option NodeCallback
  | unasked => none
  | submitted => some .stopAll
  | stopping _ => some .stopAll
  | waiting i _ => some (.io (.pump i))
  | returned => some .stopAll
  | resolved => none

def StopStage.togo (handles : ℕ) : StopStage → ℕ
  | unasked => 0
  | submitted => 2 * handles + 3
  | stopping rest => 2 * rest.length + 2
  | waiting _ rest => 2 * rest.length + 3
  | returned => 1
  | resolved => 0

theorem StopStage.exists_awaits {m : StopStage} (hunasked : m ≠ .unasked)
    (hunresolved : m ≠ .resolved) : ∃ k, m.awaits = some k := by
  cases m with
  | unasked => exact absurd rfl hunasked
  | resolved => exact absurd rfl hunresolved
  | _ => exact ⟨_, rfl⟩

def NodeStage.past : NodeStage → Bool
  | settled | joining | stopped => true
  | _ => false

theorem NodeStage.past_of_asked {m : NodeStage} (h : m.asked = true) : m.past = true := by
  cases m with
  | joining => rfl
  | stopped => rfl
  | _ => cases h

namespace PumpTasks

variable {handles : ℕ} {p : PumpTasks} {done : Bool} {found : List Io} {k : NodeCallback}

def Cancelled (p : PumpTasks) : Prop := ∀ i rest, p.stopper = .waiting i rest →
  p.tasks i = .cancelled

structure GoesOn (handles : ℕ) (p : PumpTasks) (r : PumpTasks × List NodeCallback) : Prop where
  togo : r.1.stopper.togo handles < p.stopper.togo handles
  asked : r.1.stopper ≠ .unasked
  queued : ∀ j, r.1.stopper.awaits = some j → j ∈ r.2
  cancelled : r.1.Cancelled

theorem stopAll_goesOn (hk : p.stopper.awaits = some .stopAll) :
    GoesOn handles p (p.stopAll handles) := by
  obtain ⟨tasks, stopper⟩ := p
  cases stopper with
  | submitted =>
    refine ⟨?_, StopStage.noConfusion, fun j hj => ?_, fun i rest hwaiting => ?_⟩
    · show 2 * (List.range handles).length + 2 < 2 * handles + 3
      rw [List.length_range]
      omega
    · cases hj
      exact List.mem_singleton_self _
    · cases hwaiting
  | stopping rest =>
    unfold stopAll
    dsimp only
    split
    next hnone =>
      refine ⟨?_, StopStage.noConfusion, fun j hj => ?_, fun i rest hwaiting => ?_⟩
      · show 1 < 2 * rest.length + 2
        omega
      · cases hj
        exact List.mem_singleton_self _
      · cases hwaiting
    next i rest' hnext =>
      refine ⟨?_, StopStage.noConfusion, fun j hj => ?_, fun j rest hwaiting => ?_⟩
      · have hlength : (i :: rest').length ≤ rest.length := by
          rw [← hnext]
          exact List.length_dropWhile_le _ _
        rw [List.length_cons] at hlength
        show 2 * rest'.length + 3 < 2 * rest.length + 2
        omega
      · cases hj
        exact List.mem_singleton_self _
      · cases hwaiting
        exact Function.update_self ..
  | returned =>
    refine ⟨Nat.zero_lt_one, StopStage.noConfusion, fun j hj => ?_, fun i rest hwaiting => ?_⟩
    · cases hj
    · cases hwaiting
  | unasked => cases hk
  | waiting => cases hk
  | resolved => cases hk

theorem call_goesOn (handles : ℕ) (found : List Io) (hk : p.stopper.awaits = some k)
    (hcancelled : p.Cancelled)
    (hheeds : ∀ i, k = .io (.pump i) → p.tasks i = .cancelled → done = true) :
    GoesOn handles p (p.call handles done found k) := by
  obtain ⟨tasks, stopper⟩ := p
  cases stopper with
  | waiting i rest =>
    cases hk
    have hcancelled' : tasks i = .cancelled := hcancelled i rest rfl
    have hlive : (tasks i).live = true := by rw [hcancelled']; rfl
    have hcall : call ⟨tasks, .waiting i rest⟩ handles done found (.io (.pump i)) =
        (⟨Function.update tasks i .done, .stopping rest⟩, [.stopAll]) := by
      rw [call_io_pump, if_pos hlive, if_pos (hheeds i rfl hcancelled'), finishTask]
      exact if_pos rfl
    rw [hcall]
    refine ⟨Nat.lt_succ_self _, StopStage.noConfusion, fun j hj => ?_,
      fun i rest hwaiting => ?_⟩
    · cases hj
      exact List.mem_singleton_self _
    · cases hwaiting
  | submitted =>
    cases hk
    exact stopAll_goesOn rfl
  | stopping =>
    cases hk
    exact stopAll_goesOn rfl
  | returned =>
    cases hk
    exact stopAll_goesOn rfl
  | unasked => cases hk
  | resolved => cases hk

theorem call_stays (handles : ℕ) (done : Bool) (found : List Io)
    (hk : p.stopper.awaits ≠ some k) (hcancelled : p.Cancelled) :
    (p.call handles done found k).1.stopper = p.stopper ∧
      (p.call handles done found k).1.Cancelled := by
  obtain ⟨tasks, stopper⟩ := p
  cases k with
  | startAll =>
    refine ⟨rfl, fun i rest hwaiting => ?_⟩
    have hcancelled' : tasks i = .cancelled := hcancelled i rest hwaiting
    show (if i < handles ∧ !(tasks i).live then PumpTask.running else tasks i) = .cancelled
    rw [hcancelled']
    exact if_neg fun hnew => Bool.false_ne_true hnew.2
  | finish => exact ⟨rfl, hcancelled⟩
  | stopAll =>
    cases stopper with
    | unasked => exact ⟨rfl, hcancelled⟩
    | waiting i rest => exact ⟨rfl, hcancelled⟩
    | resolved => exact ⟨rfl, hcancelled⟩
    | _ => exact absurd rfl hk
  | stop => exact ⟨rfl, hcancelled⟩
  | io k =>
    cases k with
    | other => exact ⟨rfl, hcancelled⟩
    | pump i =>
      rw [call_io_pump]
      split_ifs
      · cases stopper with
        | waiting j rest =>
          have hne : j ≠ i := by
            rintro rfl
            exact hk rfl
          have hfinish : finishTask ⟨tasks, .waiting j rest⟩ i =
              (⟨Function.update tasks i .done, .waiting j rest⟩, []) := by
            rw [finishTask]
            exact if_neg hne
          rw [hfinish]
          refine ⟨rfl, fun j' rest' hwaiting => ?_⟩
          cases hwaiting
          show Function.update tasks i .done j = .cancelled
          rw [Function.update_of_ne hne]
          exact hcancelled j rest rfl
        | _ => exact ⟨rfl, fun j rest hwaiting => by cases hwaiting⟩
      · exact ⟨rfl, hcancelled⟩
      · exact ⟨rfl, hcancelled⟩

end PumpTasks

namespace NodeThreads

variable {handles : ℕ} {q : NodeThreads} {done : Bool} {found : List Io}

/-- No wait of the main thread times out, it is not interrupted in `start` or `stop`, and a pump
that is cancelled ends at its next step. -/
def Obliging (q : NodeThreads) : NodeStep → Prop
  | .loop done _ => ∀ i rest, q.loop.round = some (.io (.pump i) :: rest) →
      q.pumps.tasks i = .cancelled → done = true
  | .main timedOut => timedOut = false
  | .interrupt => q.Uninterrupted .interrupt

/-- Nothing keeps `_stop_all_pumps` from going on, and the main thread has waited for it. -/
structure Heeded (q : NodeThreads) : Prop where
  asked : q.main = .pending → q.pumps.stopper ≠ .unasked
  queued : ∀ k, q.pumps.stopper.awaits = some k → k ∈ q.loop.ready
  cancelled : q.pumps.Cancelled
  patient : q.warned = false
  resolved : q.main.past = true → q.pumps.stopper = .resolved

theorem Heeded.of_ready {q' : NodeThreads} (h : Heeded q)
    (hready : ∀ k ∈ q.loop.ready, k ∈ q'.loop.ready) (hpumps : q'.pumps = q.pumps)
    (hwarned : q'.warned = q.warned) (hmain : q'.main = q.main) : Heeded q' := by
  refine ⟨?_, ?_, ?_, hwarned.trans h.patient, ?_⟩
  · rw [hpumps, hmain]
    exact h.asked
  · rw [hpumps]
    exact fun k hk => hready k (h.queued k hk)
  · rw [hpumps]
    exact h.cancelled
  · rw [hpumps, hmain]
    exact h.resolved

theorem Heeded.execute (h : Heeded q) {k : NodeCallback} {rest : List NodeCallback}
    (hround : q.loop.round = some (k :: rest)) (ha : q.Obliging (.loop done found)) :
    Heeded (q.execute handles (q.loop.next rest) done found k) := by
  have hready := execute_ready handles q (q.loop.next rest) done found k
  have hresolved (hmain : q.main.past = true) :
      (q.pumps.call handles done found k).1.stopper = .resolved :=
    PumpTasks.call_of_resolved (h.resolved hmain) k
  by_cases hk : q.pumps.stopper.awaits = some k
  · have hheeds : ∀ i, k = .io (.pump i) → q.pumps.tasks i = .cancelled → done = true := by
      rintro i rfl
      exact ha i rest hround
    have hon := PumpTasks.call_goesOn handles found hk h.cancelled hheeds
    refine ⟨fun _ => hon.asked, fun j hj => ?_, hon.cancelled, h.patient, hresolved⟩
    rw [hready]
    exact List.mem_append_right _ (hon.queued j hj)
  · obtain ⟨hstays, hcancelled⟩ := PumpTasks.call_stays handles done found hk h.cancelled
    refine ⟨fun hmain => ?_, fun j hj => ?_, hcancelled, h.patient, hresolved⟩
    · exact hstays.symm ▸ h.asked hmain
    · have hj' : q.pumps.stopper.awaits = some j := hstays ▸ hj
      have hmem := h.queued j hj'
      rw [ready_eq_cons hround] at hmem
      rw [hready]
      obtain rfl | hrest := List.mem_cons.mp hmem
      · exact absurd hj' hk
      · exact List.mem_append_left _ hrest

theorem Heeded.turn (h : Heeded q) (ha : q.Obliging (.loop done found)) (next : LoopStage) :
    Heeded (q.turn handles done found next) := by
  obtain ⟨loop', ios, heq, hready, -⟩ | ⟨k, rest, hround, heq⟩ | ⟨hround, -, heq⟩ :=
    turn_cases handles q done found next
  · rw [heq]
    refine h.of_ready (fun k hk => ?_) rfl rfl rfl
    rw [hready]
    exact List.mem_append_left _ hk
  · rw [heq]
    exact h.execute hround ha
  · rw [heq]
    refine h.of_ready (fun k hk => ?_) rfl rfl rfl
    rw [ready_leave hround]
    exact hk

theorem heeded_of_idle {q' : NodeThreads} (h : Heeded q)
    (hidle : q.pumps.stopper.awaits = none) (hpumps : q'.pumps = q.pumps)
    (hwarned : q'.warned = q.warned) (hmain : q'.main = q.main) : Heeded q' := by
  refine ⟨?_, fun k hk => ?_, ?_, hwarned.trans h.patient, ?_⟩
  · rw [hpumps, hmain]
    exact h.asked
  · rw [hpumps, hidle] at hk
    cases hk
  · rw [hpumps]
    exact h.cancelled
  · rw [hpumps, hmain]
    exact h.resolved

theorem Sound.idle_of_new (h : Sound handles q) (hstage : q.stage = .new) :
    q.pumps.stopper.awaits = none := by
  cases h with
  | booting _ _ _ _ hpumps =>
    rw [hpumps]
    rfl
  | starting _ hstage' =>
    rw [hstage] at hstage'
    obtain hstage' | hstage' := hstage'
    · cases hstage'
    · cases hstage'
  | serving hstage' =>
    rw [hstage] at hstage'
    obtain hstage' | hstage' := hstage'
    · cases hstage'
    · cases hstage'
  | settled h =>
    obtain ⟨hstage', -⟩ | ⟨hstage', -⟩ := h.stage
    · rw [hstage] at hstage'
      cases hstage'
    · rw [hstage] at hstage'
      cases hstage'
  | unborn hstage' => rw [hstage] at hstage'; cases hstage'
  | booted _ hstage' => rw [hstage] at hstage'; cases hstage'
  | finishing _ hstage' => rw [hstage] at hstage'; cases hstage'
  | completed _ hstage' => rw [hstage] at hstage'; cases hstage'

theorem heeded_runLoop (h : Heeded q) (hsound : Sound handles q)
    (ha : q.Obliging (.loop done found)) : Heeded (q.runLoop handles done found) := by
  unfold runLoop
  split
  next => exact h
  next hstage => exact heeded_of_idle h (hsound.idle_of_new hstage) rfl rfl rfl
  next => exact h.of_ready (fun k hk => hk) rfl rfl rfl
  next =>
    refine h.of_ready (fun k hk => ?_) rfl rfl rfl
    rw [ready_callSoon]
    exact List.mem_append_left _ hk
  next => exact h.of_ready (fun k hk => hk) rfl rfl rfl
  next => exact h.turn ha _
  next => exact h.of_ready (fun k hk => hk) rfl rfl rfl
  next => exact h.of_ready (fun k hk => hk) rfl rfl rfl
  next => exact h.turn ha _
  next hstage =>
    refine heeded_of_idle h ?_ rfl rfl rfl
    have hasked := (hsound.orderly.closed (Or.inl hstage)).1
    rw [h.resolved (NodeStage.past_of_asked hasked)]
    rfl
  next => exact h
  next => exact h

theorem Heeded.goOn (h : Heeded q) {q' : NodeThreads}
    (hsame : q'.loop = q.loop ∧ q'.pumps = q.pumps ∧ q'.warned = q.warned)
    (hpending : q'.main ≠ .pending)
    (hmain : q'.main.past = true → q.pumps.stopper = .resolved) : Heeded q' := by
  obtain ⟨hloop, hpumps, hwarned⟩ := hsame
  refine ⟨fun hpending' => absurd hpending' hpending, ?_, ?_, hwarned.trans h.patient, ?_⟩
  · rw [hpumps, hloop]
    exact h.queued
  · rw [hpumps]
    exact h.cancelled
  · rw [hpumps]
    exact hmain

theorem heeded_startStop (h : Heeded q) {timedOut : Bool} (hpatient : timedOut = false) :
    Heeded (q.startStop timedOut) := by
  have hearly {main : NodeStage} (hmain : main.past = false) :
      main.past = true → q.pumps.stopper = .resolved :=
    fun hpast => absurd hpast (ne_true_of_eq_false hmain)
  unfold NodeThreads.startStop
  split
  next => exact h.goOn ⟨rfl, rfl, rfl⟩ NodeStage.noConfusion (hearly rfl)
  next =>
    split_ifs
    · exact h.goOn ⟨rfl, rfl, rfl⟩ NodeStage.noConfusion (hearly rfl)
    · exact h
  next => exact h.goOn ⟨rfl, rfl, rfl⟩ NodeStage.noConfusion (hearly rfl)
  next =>
    split_ifs
    · exact h.goOn ⟨rfl, rfl, rfl⟩ NodeStage.noConfusion (hearly rfl)
    · refine ⟨fun _ => StopStage.noConfusion, fun k hk => ?_, fun i rest hwaiting => ?_,
        h.patient, ?_⟩
      · cases hk
        rw [ready_callSoon]
        exact List.mem_append_right _ (List.mem_singleton_self _)
      · cases hwaiting
      · exact fun hpast => by cases hpast
    · exact h.goOn ⟨rfl, rfl, rfl⟩ NodeStage.noConfusion (hearly rfl)
  next =>
    split_ifs with hresolved htimedOut
    · exact h.goOn ⟨rfl, rfl, rfl⟩ NodeStage.noConfusion fun _ => hresolved
    · exact absurd htimedOut (ne_true_of_eq_false hpatient)
    · exact h
  next hmain =>
    have hresolved := h.resolved (by rw [hmain]; rfl)
    split_ifs
    · exact h.goOn ⟨rfl, rfl, rfl⟩ NodeStage.noConfusion fun _ => hresolved
    · refine ⟨fun hpending => ?_, fun k hk => ?_, h.cancelled, h.patient, fun _ => hresolved⟩
      · cases hpending
      · rw [ready_callSoon]
        exact List.mem_append_left _ (h.queued k hk)
  next hmain =>
    have hresolved := h.resolved (by rw [hmain]; rfl)
    split_ifs
    · exact h.goOn ⟨rfl, rfl, rfl⟩ NodeStage.noConfusion fun _ => hresolved
    · exact h
  next => exact h
  next => exact h
  next => exact h

theorem heeded_interrupt (h : Heeded q) (ha : q.Uninterrupted .interrupt) :
    Heeded q.interrupt := by
  obtain hmain | hasked | hover := ha
  · rw [interrupt, hmain]
    exact h.goOn ⟨rfl, rfl, rfl⟩ NodeStage.noConfusion fun hpast => by cases hpast
  · have hresolved := h.resolved (NodeStage.past_of_asked hasked)
    unfold interrupt
    split
    all_goals first
      | exact h
      | exact h.goOn ⟨rfl, rfl, rfl⟩ NodeStage.noConfusion fun _ => hresolved
  · cases hmain : q.main with
    | abandoned =>
      rw [interrupt, hmain]
      exact h
    | raised =>
      rw [interrupt, hmain]
      exact h
    | _ =>
      rw [hmain] at hover
      cases hover

theorem heeded_step (q : NodeThreads) (a : NodeStep) (ha : q.Obliging a) (hsound : Sound handles q)
    (h : Heeded q) : Heeded (q.step handles a) := by
  cases a with
  | loop done found => exact heeded_runLoop h hsound ha
  | main timedOut => exact heeded_startStop h ha
  | interrupt => exact heeded_interrupt h ha

/-! ### The pumps are stopped -/

def LoopNext (q : NodeThreads) : Prop := q.Alone ∨ q.Waits

instance (q : NodeThreads) : Decidable q.LoopNext :=
  inferInstanceAs (Decidable ((_ ∨ _) ∨ (_ ∧ ¬ _) ∨ _))

def helper' (q : NodeThreads) : NodeParty := if q.LoopNext then .loop else .main

/-- What is left of `_stop_all_pumps`: its steps, and the time to the callback that it awaits. -/
def sweepLeft (handles : ℕ) (q : NodeThreads) : ℕ ×ₗ ℕ ×ₗ ℕ ×ₗ ℕ :=
  toLex (q.stage.togo, toLex (q.pumps.stopper.togo handles,
    q.loop.delay (q.pumps.stopper.awaits = some ·)))

theorem sweepLeft_lt_of_delay {q q' : NodeThreads} (hstage : q'.stage = q.stage)
    (hstopper : q'.pumps.stopper = q.pumps.stopper)
    (h : q'.loop.delay (q.pumps.stopper.awaits = some ·) <
      q.loop.delay (q.pumps.stopper.awaits = some ·)) :
    q'.sweepLeft handles < q.sweepLeft handles := by
  rw [sweepLeft, sweepLeft, hstage, hstopper]
  exact Prod.Lex.toLex_lt_toLex.mpr (Or.inr ⟨rfl, Prod.Lex.toLex_lt_toLex.mpr (Or.inr ⟨rfl, h⟩)⟩)

theorem sweepLeft_lt_of_stopper {q q' : NodeThreads} (hstage : q'.stage = q.stage)
    (h : q'.pumps.stopper.togo handles < q.pumps.stopper.togo handles) :
    q'.sweepLeft handles < q.sweepLeft handles := by
  rw [sweepLeft, sweepLeft, hstage]
  exact Prod.Lex.toLex_lt_toLex.mpr (Or.inr ⟨rfl, Prod.Lex.toLex_lt_toLex.mpr (Or.inl h)⟩)

theorem sweepLeft_execute_lt (hheeded : Heeded q) {k : NodeCallback} {rest : List NodeCallback}
    (hround : q.loop.round = some (k :: rest)) (ha : q.Obliging (.loop done found)) :
    (q.execute handles (q.loop.next rest) done found k).sweepLeft handles <
      q.sweepLeft handles := by
  by_cases hk : q.pumps.stopper.awaits = some k
  · have hheeds : ∀ i, k = .io (.pump i) → q.pumps.tasks i = .cancelled → done = true := by
      rintro i rfl
      exact ha i rest hround
    have hon := PumpTasks.call_goesOn handles found hk hheeded.cancelled hheeds
    exact sweepLeft_lt_of_stopper rfl hon.togo
  · have hstays := PumpTasks.call_stays handles done found hk hheeded.cancelled
    have hloop := execute_loop handles q (q.loop.next rest) done found k
    refine sweepLeft_lt_of_delay rfl hstays.1 ?_
    rw [hloop]
    exact delay_run_lt hround rfl rfl fun hawaits => absurd hawaits hk

theorem sweepLeft_runLoop_lt (h : Serving handles q)
    (hstage : q.stage = .between ∨ q.stage = .forever) (hheeded : Heeded q)
    (hmain : q.main = .pending) (hunresolved : q.pumps.stopper ≠ .resolved)
    (ha : q.Obliging (.loop done found)) :
    (q.runLoop handles done found).sweepLeft handles < q.sweepLeft handles := by
  obtain hstage | hstage := hstage
  · rw [runLoop, hstage]
    apply Prod.Lex.toLex_lt_toLex.mpr
    rw [hstage]
    exact Or.inl (Nat.lt_succ_self _)
  · have hdue : Due (q.pumps.stopper.awaits = some ·) q.loop.stopping q.loop.ready := by
      obtain ⟨k, hk⟩ := StopStage.exists_awaits (hheeded.asked hmain) hunresolved
      exact due_of_mem (hheeded.queued k hk) hk
    rw [runLoop, hstage]
    show (q.turn handles done found .closing).sweepLeft handles < _
    unfold turn
    split
    next hround => exact sweepLeft_lt_of_delay rfl rfl (delay_beginRound_lt hround hdue _)
    next k rest hround => exact sweepLeft_execute_lt hheeded hround ha
    next hround =>
      have hstopping : q.loop.stopping = false := h.calm (by rw [hmain]; rfl)
      rw [if_neg (ne_true_of_eq_false hstopping)]
      exact sweepLeft_lt_of_delay rfl rfl (delay_again_lt hround hstopping)

/-! ### The node shuts down -/

/-- Steps that help a thread on, with waits of any length. -/
def NodeParty.HelpsOn : NodeParty → NodeStep → Prop
  | .loop, .loop .. => True
  | .main, .main _ => True
  | _, _ => False

def workLeft (handles : ℕ) (q : NodeThreads) : ℕ ×ₗ ℕ ×ₗ ℕ ×ₗ ℕ :=
  if q.main = .pending then q.sweepLeft handles else q.left

def outstanding' (handles : ℕ) (q : NodeThreads) : ℕ ×ₗ ℕ ×ₗ ℕ ×ₗ ℕ ×ₗ ℕ :=
  toLex (q.main.togo, if q.LoopNext then q.workLeft handles else ⊥)

/-- The loop thread has ended, the main thread is through, and every pump was done before. -/
structure ShutDown (handles : ℕ) (q : NodeThreads) : Prop where
  ended : q.Ended
  stopped : q.main = .stopped
  patient : q.warned = false
  done : ∀ i < handles, q.pumps.tasks i = .done

theorem shutDown_of_closed (h : Sound handles q) (hheeded : Heeded q) (hclosed : q.stage = .closed)
    (hmain : q.main = .stopped) : ShutDown handles q := by
  refine ⟨h.ended_of_closed hclosed, hmain, hheeded.patient, ?_⟩
  obtain hwarned | hdone := (h.orderly.closed (Or.inr hclosed)).2
  · exact absurd hwarned (ne_true_of_eq_false hheeded.patient)
  · exact hdone

theorem Sound.serving_of_pending (h : Sound handles q) (hmain : q.main = .pending) :
    (q.stage = .between ∨ q.stage = .forever) ∧ Serving handles q := by
  have hbooting (h : Booting q) : False := by
    obtain hmain' | hmain' := h.main
    · rw [hmain] at hmain'
      cases hmain'
    · rw [hmain] at hmain'
      cases hmain'
  cases h with
  | serving hstage h => exact ⟨hstage, h⟩
  | unborn _ _ hmain' =>
    rw [hmain] at hmain'
    obtain hmain' | hmain' := hmain'
    · cases hmain'
    · cases hmain'
  | settled h =>
    have hasked := h.asked
    rw [hmain] at hasked
    cases hasked
  | booting h => exact (hbooting h).elim
  | booted h => exact (hbooting h).elim
  | starting h => exact (hbooting h).elim
  | finishing h => exact (hbooting h).elim
  | completed h => exact (hbooting h).elim

theorem LoopNext.working (h : q.LoopNext) (hmain : q.main ≠ .pending) : q.Working := by
  obtain (hwaiting | hstopped) | (⟨hpending, -⟩ | ⟨hjoining, -⟩) := h
  · exact Or.inl hwaiting
  · exact Or.inr (by rw [hstopped]; rfl)
  · exact absurd hpending hmain
  · exact Or.inr (by rw [hjoining]; rfl)

theorem LoopNext.stopped_of_closed (h : q.LoopNext) (hsound : Sound handles q)
    (hclosed : q.stage = .closed) : q.main = .stopped := by
  have hasked := (hsound.orderly.closed (Or.inr hclosed)).1
  obtain (⟨-, hwaiting⟩ | hstopped) | (⟨hpending, -⟩ | ⟨-, hover⟩) := h
  · rw [hwaiting] at hasked
    cases hasked
  · exact hstopped
  · rw [hpending] at hasked
    cases hasked
  · rw [hclosed] at hover
    cases hover

theorem workLeft_runLoop_lt (h : Sound handles q) (hheeded : Heeded q) (hnext : q.LoopNext)
    (ha : q.Obliging (.loop done found)) (hclosed : q.stage ≠ .closed) :
    (q.runLoop handles done found).workLeft handles < q.workLeft handles := by
  rw [workLeft, workLeft, runLoop_main]
  by_cases hmain : q.main = .pending
  · rw [if_pos hmain, if_pos hmain]
    obtain ⟨hstage, hserving⟩ := h.serving_of_pending hmain
    have hunresolved : q.pumps.stopper ≠ .resolved := by
      obtain (⟨-, hmain'⟩ | hmain') | (⟨-, hunresolved⟩ | ⟨hmain', -⟩) := hnext
      · rw [hmain] at hmain'
        cases hmain'
      · rw [hmain] at hmain'
        cases hmain'
      · exact hunresolved
      · rw [hmain] at hmain'
        cases hmain'
    exact sweepLeft_runLoop_lt hserving hstage hheeded hmain hunresolved ha
  · rw [if_neg hmain, if_neg hmain]
    exact left_runLoop_lt _ _ h (hnext.working hmain) hclosed

theorem outstanding'_runLoop_lt (h : Sound handles q) (hheeded : Heeded q) (hnext : q.LoopNext)
    (ha : q.Obliging (.loop done found)) (hclosed : q.stage ≠ .closed) :
    (q.runLoop handles done found).outstanding' handles < q.outstanding' handles := by
  have hlower := workLeft_runLoop_lt h hheeded hnext ha hclosed
  have hle : (if (q.runLoop handles done found).LoopNext then
      (q.runLoop handles done found).workLeft handles else ⊥) ≤
        (q.runLoop handles done found).workLeft handles := by
    split_ifs
    · exact le_rfl
    · exact bot_le
  rw [outstanding', outstanding', runLoop_main, if_pos hnext]
  exact Prod.Lex.toLex_lt_toLex.mpr (Or.inr ⟨rfl, hle.trans_lt hlower⟩)

theorem runLoop_resolved (h : q.pumps.stopper = .resolved) :
    (q.runLoop handles done found).pumps.stopper = .resolved := by
  have hturn (next : LoopStage) :
      (q.turn handles done found next).pumps.stopper = .resolved := by
    obtain ⟨_, _, heq, -⟩ | ⟨k, _, -, heq⟩ | ⟨-, -, heq⟩ :=
      turn_cases handles q done found next
    · rw [heq]
      exact h
    · rw [heq]
      exact PumpTasks.call_of_resolved h k
    · rw [heq]
      exact h
  unfold runLoop
  split
  case h_6 => exact hturn _
  case h_9 => exact hturn _
  all_goals exact h

theorem runLoop_of_over (h : q.stage.over = true) : q.runLoop handles done found = q := by
  cases hstage : q.stage with
  | closed => rw [runLoop, hstage]
  | crashed => rw [runLoop, hstage]
  | _ =>
    rw [hstage] at h
    cases h

theorem not_loopNext_runLoop (hnext : ¬ q.LoopNext) :
    ¬ (q.runLoop handles done found).LoopNext := by
  obtain ⟨halone, hwaits⟩ := not_or.mp hnext
  rintro (halone' | (⟨hmain, hunresolved⟩ | ⟨hmain, hover⟩))
  · exact not_alone_runLoop halone halone'
  · rw [runLoop_main] at hmain
    by_cases hresolved : q.pumps.stopper = .resolved
    · exact hunresolved (runLoop_resolved hresolved)
    · exact hwaits (Or.inl ⟨hmain, hresolved⟩)
  · rw [runLoop_main] at hmain
    by_cases hended : q.stage.over = true
    · rw [runLoop_of_over hended, hended] at hover
      cases hover
    · exact hwaits (Or.inr ⟨hmain, eq_false_of_ne_true hended⟩)

theorem startStop_of_loopNext (hnext : q.LoopNext) : q.startStop false = q := by
  obtain halone | (⟨hmain, hunresolved⟩ | ⟨hmain, hover⟩) := hnext
  · exact startStop_of_alone halone false
  · rw [startStop, hmain]
    show (if q.pumps.stopper = .resolved then _ else (if false = true then _ else q)) = q
    rw [if_neg hunresolved, if_neg Bool.false_ne_true]
  · rw [startStop, hmain]
    show (if q.stage.over ∨ false = true then _ else q) = q
    rw [if_neg (not_or.mpr ⟨ne_true_of_eq_false hover, Bool.false_ne_true⟩)]

theorem outstanding'_lt_of_main {q' : NodeThreads} (h : q'.main.togo + 1 = q.main.togo) :
    q'.outstanding' handles < q.outstanding' handles :=
  Prod.Lex.toLex_lt_toLex.mpr (Or.inl (Nat.lt_of_succ_le h.le))

/-- What holds on the way: the main thread is not through without having asked. -/
structure OnTheWay (handles : ℕ) (q : NodeThreads) : Prop where
  sound : Sound handles q
  heeded : Heeded q
  busy : 0 < q.main.togo

theorem OnTheWay.step (h : OnTheWay handles q) {a : NodeStep} (ha : q.Obliging a)
    (hbusy : 0 < (q.step handles a).main.togo) : OnTheWay handles (q.step handles a) :=
  ⟨sound_step q a h.sound, heeded_step q a ha h.sound h.heeded, hbusy⟩

theorem nears_shutDown (q : NodeThreads) (a : NodeStep) (ha : q.Obliging a)
    (hq : OnTheWay handles q) :
    (machine handles).Nears NodeParty.HelpsOn helper' (outstanding' handles) (OnTheWay handles)
      (ShutDown handles) q a := by
  cases a with
  | loop done found =>
    have hmain : (q.step handles (.loop done found)).main = q.main := runLoop_main q
    have hq' : OnTheWay handles (q.step handles (.loop done found)) := by
      apply hq.step ha
      rw [hmain]
      exact hq.busy
    by_cases hnext : q.LoopNext
    · by_cases hclosed : q.stage = .closed
      · apply Machine.Nears.reaches
        show ShutDown handles (q.runLoop handles done found)
        rw [runLoop_of_closed hclosed]
        exact shutDown_of_closed hq.sound hq.heeded hclosed
          (hnext.stopped_of_closed hq.sound hclosed)
      · exact Machine.Nears.lowers hq'
          (outstanding'_runLoop_lt hq.sound hq.heeded hnext ha hclosed)
    · have hnext' : ¬ (q.step handles (.loop done found)).LoopNext := not_loopNext_runLoop hnext
      have hsame : (q.step handles (.loop done found)).outstanding' handles =
          q.outstanding' handles := by
        rw [outstanding', outstanding', hmain, if_neg hnext, if_neg hnext']
      have hhelper : q.helper' = .main := if_neg hnext
      have hhelper' : (q.step handles (.loop done found)).helper' = .main := if_neg hnext'
      apply Machine.Nears.leaves hq' hsame.le (hhelper'.trans hhelper.symm)
      rw [hhelper]
      exact id
  | main timedOut =>
    have hobliging := ha
    obtain rfl : timedOut = false := ha
    by_cases hnext : q.LoopNext
    · refine Machine.nears_of_same (startStop_of_loopNext hnext) hq ?_
      have hhelper : q.helper' = .loop := if_pos hnext
      rw [hhelper]
      exact id
    · obtain ⟨halone, hwaits⟩ := not_or.mp hnext
      have hmainNext := mainNext_of_not_alone hq.busy halone
      obtain hlower | ⟨-, hwaits', -⟩ := hq.sound.startStop_cases hmainNext false
      · have hbusy : 0 < (q.startStop false).main.togo := by
          have hlarge := hmainNext.busy
          omega
        exact Machine.Nears.lowers (hq.step hobliging hbusy) (outstanding'_lt_of_main hlower)
      · exact absurd hwaits' hwaits
  | interrupt =>
    obtain ⟨hlower, hlarge⟩ | hsame := interrupt_cases ha
    · have hbusy : 0 < q.interrupt.main.togo := by omega
      exact Machine.Nears.lowers (hq.step ha hbusy) (outstanding'_lt_of_main hlower)
    · refine Machine.nears_of_same hsame hq ?_
      cases q.helper' with
      | loop => exact id
      | main => exact id

theorem heeded_initial : Heeded initial := by
  refine ⟨fun hpending => ?_, fun k hk => ?_, fun i rest hwaiting => ?_, rfl, fun hpast => ?_⟩
  · cases hpending
  · cases hk
  · cases hwaiting
  · cases hpast

/-- When both threads keep taking steps, pumps heed their cancellation and nobody interrupts
`start` or `stop`, the node shuts down although no wait ever times out. -/
theorem shuts_down {steps : ℕ → NodeStep} (hfair : Machine.Fair NodeParty.HelpsOn steps)
    (hobliging : ∀ n, ((machine handles).path initial steps n).Obliging (steps n)) :
    ∃ n, ShutDown handles ((machine handles).path initial steps n) := by
  have hinitial : OnTheWay handles initial := ⟨sound_initial, heeded_initial, by decide⟩
  obtain ⟨n, -, hdown⟩ :=
    Machine.eventually_of_nears nears_shutDown hobliging hfair (n := 0) hinitial
  exact ⟨n, hdown⟩

def patiently (n : ℕ) : NodeStep := if n % 2 = 0 then .loop true [] else .main false

theorem patiently_shuts_down :
    ∃ n, ShutDown 3 ((machine 3).path initial patiently n) := by
  have hfair : Machine.Fair NodeParty.HelpsOn patiently := by
    intro t n
    cases t with
    | loop =>
      refine ⟨2 * n, by omega, ?_⟩
      rw [patiently, if_pos (by omega)]
      exact trivial
    | main =>
      refine ⟨2 * n + 1, by omega, ?_⟩
      rw [patiently, if_neg (by omega)]
      exact trivial
  apply shuts_down hfair
  intro n
  unfold patiently
  split_ifs
  · exact fun _ _ _ _ => rfl
  · rfl

end NodeThreads

end QuikSync.Pump

import Mathlib.Data.List.TakeWhile
import QuikSyncAdapters.Pump.NodeThreads

/-! What holds of a node whenever its two threads are interleaved: `start` returns with every pump
started, no call reaches a closed loop, the stop that `stop` schedules is never lost, and a pump
outlives the loop only if `stop` has logged that it gave up waiting. -/

namespace QuikSync.Pump

open EventLoop

/-! ### The pumps -/

namespace PumpTasks

variable {handles : ℕ} {p : PumpTasks} {done : Bool} {found : List Io}

def Started (handles : ℕ) (p : PumpTasks) : Prop := ∀ i < handles, p.tasks i ≠ .absent

def Swept (handles : ℕ) (p : PumpTasks) : Prop :=
  match p.stopper with
  | .unasked => True
  | .submitted => True
  | .stopping rest => ∀ i < handles, i ∉ rest → p.tasks i = .done
  | .waiting i rest => ∀ j < handles, j ∉ i :: rest → p.tasks j = .done
  | .returned => ∀ i < handles, p.tasks i = .done
  | .resolved => ∀ i < handles, p.tasks i = .done

theorem done_of_not_live {t : PumpTask} (hstarted : t ≠ .absent) (hlive : t.live = false) :
    t = .done := by
  cases t with
  | absent => exact absurd rfl hstarted
  | done => rfl
  | running => cases hlive
  | cancelled => cases hlive

theorem started_startAll (p : PumpTasks) (handles : ℕ) :
    (p.startAll handles).1.Started handles := by
  intro i hi
  show (if i < handles ∧ !(p.tasks i).live then PumpTask.running else p.tasks i) ≠ .absent
  split_ifs with hnew
  · decide
  · intro habsent
    exact hnew ⟨hi, by rw [habsent]; rfl⟩

theorem done_of_dropWhile {rest : List ℕ} (rest' : List ℕ) (hstarted : p.Started handles)
    (hdone : ∀ i < handles, i ∉ rest → p.tasks i = .done)
    (hrest : rest.dropWhile (fun i => !(p.tasks i).live) = rest') :
    ∀ i < handles, i ∉ rest' → p.tasks i = .done := by
  intro i hi hnot
  by_cases hmem : i ∈ rest
  · rw [← List.takeWhile_append_dropWhile (p := fun i => !(p.tasks i).live) (l := rest), hrest]
      at hmem
    obtain htaken | hleft := List.mem_append.mp hmem
    · have hlive := List.mem_takeWhile_imp htaken
      exact done_of_not_live (hstarted i hi) (Bool.not_eq_true' _ ▸ hlive)
    · exact absurd hleft hnot
  · exact hdone i hi hmem

theorem swept_of_unasked (h : p.stopper = .unasked) : p.Swept handles := by
  rw [Swept, h]
  exact trivial

theorem swept_stopAll (hstarted : p.Started handles) (h : p.Swept handles) :
    (p.stopAll handles).1.Swept handles := by
  obtain ⟨tasks, stopper⟩ := p
  cases stopper with
  | submitted => exact fun i hi hnot => absurd (List.mem_range.mpr hi) hnot
  | stopping rest =>
    have hdone := fun rest' => done_of_dropWhile rest' hstarted h
    unfold stopAll
    dsimp only
    split
    next hnone => exact fun i hi => hdone [] hnone i hi List.not_mem_nil
    next i rest' hnext =>
      intro j hj hnot
      have hne : j ≠ i := fun heq => hnot (heq ▸ List.mem_cons_self)
      show Function.update tasks i .cancelled j = .done
      rw [Function.update_of_ne hne]
      exact hdone (i :: rest') hnext j hj hnot
  | returned => exact h
  | _ => exact h

theorem swept_finishTask (h : p.Swept handles) (i : ℕ) :
    (p.finishTask i).1.Swept handles := by
  obtain ⟨tasks, stopper⟩ := p
  have hupdate (j : ℕ) (hj : tasks j = .done) : Function.update tasks i .done j = .done := by
    by_cases heq : j = i
    · rw [heq, Function.update_self]
    · rw [Function.update_of_ne heq, hj]
  cases stopper with
  | waiting j rest =>
    unfold finishTask
    dsimp only
    split_ifs with heq
    · intro k hk hnot
      by_cases hki : k = i
      · rw [hki]
        exact Function.update_self ..
      · apply hupdate
        apply h k hk
        rw [heq]
        exact fun hmem => (List.mem_cons.mp hmem).elim hki hnot
    · exact fun k hk hnot => hupdate k (h k hk hnot)
  | stopping rest => exact fun k hk hnot => hupdate k (h k hk hnot)
  | unasked => exact trivial
  | submitted => exact trivial
  | returned => exact fun k hk => hupdate k (h k hk)
  | resolved => exact fun k hk => hupdate k (h k hk)

theorem started_update (h : p.Started handles) (i : ℕ) {t : PumpTask} (ht : t ≠ .absent)
    {stopper : StopStage} : Started handles ⟨Function.update p.tasks i t, stopper⟩ := by
  intro j hj
  show Function.update p.tasks i t j ≠ .absent
  by_cases heq : j = i
  · rw [heq, Function.update_self]
    exact ht
  · rw [Function.update_of_ne heq]
    exact h j hj

theorem started_stopAll (h : p.Started handles) : (p.stopAll handles).1.Started handles := by
  unfold stopAll
  split
  · exact h
  · split
    · exact h
    · exact started_update h _ (by decide)
  · exact h
  · exact h

theorem started_finishTask (h : p.Started handles) (i : ℕ) :
    (p.finishTask i).1.Started handles := by
  have hdone : PumpTask.done ≠ .absent := by decide
  unfold finishTask
  split
  · split_ifs
    · exact started_update h i hdone
    · exact started_update h i hdone
  · exact started_update h i hdone

theorem call_io_pump (i : ℕ) :
    p.call handles done found (.io (.pump i)) =
      if (p.tasks i).live then if done then p.finishTask i else (p, found.map .io)
      else (p, []) := rfl

theorem call_keeps (done : Bool) (found : List Io) (hstarted : p.Started handles)
    (hswept : p.Swept handles) {k : NodeCallback} (hk : k ≠ .startAll) :
    (p.call handles done found k).1.Started handles ∧
      (p.call handles done found k).1.Swept handles := by
  cases k with
  | startAll => exact absurd rfl hk
  | finish => exact ⟨hstarted, hswept⟩
  | stopAll => exact ⟨started_stopAll hstarted, swept_stopAll hstarted hswept⟩
  | stop => exact ⟨hstarted, hswept⟩
  | io k =>
    cases k with
    | other => exact ⟨hstarted, hswept⟩
    | pump i =>
      rw [call_io_pump]
      split_ifs
      · exact ⟨started_finishTask hstarted i, swept_finishTask hswept i⟩
      · exact ⟨hstarted, hswept⟩
      · exact ⟨hstarted, hswept⟩

theorem call_queues (handles : ℕ) (p : PumpTasks) (done : Bool) (found : List Io)
    {k : NodeCallback} (hk : k ≠ .startAll) :
    ∀ j ∈ (p.call handles done found k).2, j = .stopAll ∨ ∃ io, j = .io io := by
  have hfound : ∀ j ∈ found.map NodeCallback.io, j = .stopAll ∨ ∃ io, j = .io io := by
    intro j hj
    obtain ⟨io, -, rfl⟩ := List.mem_map.mp hj
    exact Or.inr ⟨io, rfl⟩
  have hnone : ∀ j ∈ ([] : List NodeCallback), j = .stopAll ∨ ∃ io, j = .io io :=
    List.forall_mem_nil _
  have hone : ∀ j ∈ [NodeCallback.stopAll], j = .stopAll ∨ ∃ io, j = .io io :=
    List.forall_mem_singleton.mpr (Or.inl rfl)
  have hpump (i : ℕ) : ∀ j ∈ [NodeCallback.io (.pump i)], j = .stopAll ∨ ∃ io, j = .io io :=
    List.forall_mem_singleton.mpr (Or.inr ⟨.pump i, rfl⟩)
  cases k with
  | startAll => exact absurd rfl hk
  | finish => exact hnone
  | stopAll =>
    unfold call stopAll
    dsimp only
    split
    · exact hone
    · split
      · exact hone
      · exact hpump _
    · exact hnone
    · exact hnone
  | stop => exact hnone
  | io k =>
    cases k with
    | other => exact hfound
    | pump i =>
      rw [call_io_pump]
      unfold finishTask
      dsimp only
      split_ifs
      · split
        · split_ifs
          · exact hone
          · exact hnone
        · exact hnone
      · exact hfound
      · exact hnone

theorem call_io_of_unasked (handles : ℕ) (done : Bool) (found : List Io)
    (h : p.stopper = .unasked) (k : Io) :
    (p.call handles done found (.io k)).1.stopper = .unasked ∧
      ∀ j ∈ (p.call handles done found (.io k)).2, ∃ io, j = .io io := by
  have hfound : ∀ j ∈ found.map NodeCallback.io, ∃ io, j = .io io := by
    intro j hj
    obtain ⟨io, -, rfl⟩ := List.mem_map.mp hj
    exact ⟨io, rfl⟩
  cases k with
  | other => exact ⟨h, hfound⟩
  | pump i =>
    rw [call_io_pump, finishTask, h]
    dsimp only
    split_ifs
    · exact ⟨rfl, List.forall_mem_nil _⟩
    · exact ⟨h, hfound⟩
    · exact ⟨h, List.forall_mem_nil _⟩

theorem call_of_resolved (h : p.stopper = .resolved) (k : NodeCallback) :
    (p.call handles done found k).1.stopper = .resolved := by
  cases k with
  | stopAll =>
    show (p.stopAll handles).1.stopper = .resolved
    rw [stopAll, h]
    exact h
  | io k =>
    cases k with
    | other => exact h
    | pump i =>
      rw [call_io_pump, finishTask, h]
      dsimp only
      split_ifs
      · rfl
      · exact h
      · exact h
  | _ => exact h

theorem call_io_of_new (handles : ℕ) (done : Bool) (found : List Io) (k : Io) :
    (new.call handles done found (.io k)).1 = new ∧
      ∀ j ∈ (new.call handles done found (.io k)).2, ∃ io, j = .io io := by
  have hunasked := call_io_of_unasked (p := new) handles done found rfl k
  refine ⟨?_, hunasked.2⟩
  cases k with
  | other => rfl
  | pump i => rfl

end PumpTasks

namespace NodeThreads

variable {handles : ℕ} {q : NodeThreads} {done : Bool} {found : List Io}

theorem execute_loop (handles : ℕ) (q : NodeThreads) (loop : EventLoop NodeCallback)
    (done : Bool) (found : List Io) (k : NodeCallback) :
    (q.execute handles loop done found k).loop =
      { loop with
        later := loop.later ++ (q.pumps.call handles done found k).2
        stopping := loop.stopping || k.stops } := by
  unfold execute
  cases k.stops with
  | false => simp [callSoon]
  | true => simp [callSoon, EventLoop.stop]

theorem execute_ready (handles : ℕ) (q : NodeThreads) (loop : EventLoop NodeCallback)
    (done : Bool) (found : List Io) (k : NodeCallback) :
    (q.execute handles loop done found k).loop.ready =
      loop.ready ++ (q.pumps.call handles done found k).2 := by
  rw [execute_loop]
  exact ready_append rfl rfl

theorem turn_cases (handles : ℕ) (q : NodeThreads) (done : Bool) (found : List Io)
    (next : LoopStage) :
    (∃ loop : EventLoop NodeCallback, ∃ ios : List Io,
      q.turn handles done found next = { q with loop := loop } ∧
        loop.ready = q.loop.ready ++ ios.map .io ∧ loop.stopping = q.loop.stopping ∧
        loop.running = q.loop.running ∧ loop.closed = q.loop.closed) ∨
    (∃ k rest, q.loop.round = some (k :: rest) ∧
      q.turn handles done found next = q.execute handles (q.loop.next rest) done found k) ∨
    (q.loop.round = some [] ∧ q.loop.stopping = true ∧
      q.turn handles done found next = { q with stage := next, loop := q.loop.leave }) := by
  unfold turn
  split
  next hround => exact Or.inl ⟨_, found, rfl, ready_beginRound hround _, rfl, rfl, rfl⟩
  next k rest hround => exact Or.inr (Or.inl ⟨k, rest, hround, rfl⟩)
  next hround =>
    split_ifs with hstopping
    · exact Or.inr (Or.inr ⟨hround, hstopping, rfl⟩)
    · refine Or.inl ⟨_, [], rfl, ?_, rfl, rfl, rfl⟩
      rw [ready_again hround, List.map_nil, List.append_nil]

end NodeThreads

/-! ### The queue -/

def NodeCallback.isIo : NodeCallback → Bool
  | io _ => true
  | _ => false

theorem NodeCallback.io_ne_startAll (k : Io) : io k ≠ startAll := NodeCallback.noConfusion

def control (l : List NodeCallback) : List NodeCallback := l.filter fun k => !k.isIo

section Control

variable {l l' : List NodeCallback}

theorem control_of_ios (h : ∀ k ∈ l, ∃ io, k = .io io) : control l = [] := by
  apply List.filter_eq_nil_iff.mpr
  intro k hk
  obtain ⟨io, rfl⟩ := h k hk
  exact Bool.false_ne_true

theorem isIo_of_control (h : control l = []) : ∀ k ∈ l, ∃ io, k = .io io := by
  intro k hk
  have hio := List.filter_eq_nil_iff.mp h k hk
  cases k with
  | io k => exact ⟨k, rfl⟩
  | _ => exact absurd rfl hio

theorem ios_of_map (ios : List Io) : ∀ k ∈ ios.map NodeCallback.io, ∃ io, k = .io io := by
  intro k hk
  obtain ⟨io, -, rfl⟩ := List.mem_map.mp hk
  exact ⟨io, rfl⟩

theorem control_append (l l' : List NodeCallback) : control (l ++ l') = control l ++ control l' :=
  List.filter_append ..

theorem control_append_ios (h : ∀ k ∈ l', ∃ io, k = .io io) : control (l ++ l') = control l := by
  rw [control_append, control_of_ios h, List.append_nil]

theorem PumpTasks.control_startAll (p : PumpTasks) (handles : ℕ) :
    control (p.startAll handles).2 = [.finish] := by
  have hios : ∀ k ∈ ((List.range handles).filter fun i => !(p.tasks i).live).map
      (NodeCallback.io ∘ Io.pump), ∃ io, k = .io io := by
    intro k hk
    obtain ⟨i, -, rfl⟩ := List.mem_map.mp hk
    exact ⟨.pump i, rfl⟩
  show control (_ ++ [NodeCallback.finish]) = _
  rw [control_append, control_of_ios hios]
  rfl

theorem control_cons {k c : NodeCallback} {rest : List NodeCallback}
    (h : control (k :: l) = c :: rest) :
    (∃ io, k = .io io) ∧ control l = c :: rest ∨ k = c ∧ control l = rest := by
  cases k with
  | io k => exact Or.inl ⟨⟨k, rfl⟩, h⟩
  | _ =>
    obtain ⟨hk, hrest⟩ := List.cons.inj h
    exact Or.inr ⟨hk, hrest⟩

end Control

/-! ### Every state of a node -/

def NodeStage.asked : NodeStage → Bool
  | joining | stopped => true
  | _ => false

def NodeStage.regular : NodeStage → Bool
  | idle | raised => false
  | _ => true

def LoopStage.early : LoopStage → Bool
  | unborn | new | created | published | queued | starting | completed => true
  | _ => false

namespace NodeThreads

variable {handles : ℕ} {q : NodeThreads}

/-- `run_forever` is to come or going on. -/
structure Serving (handles : ℕ) (q : NodeThreads) : Prop where
  ready : q.ready = true
  published : q.main ≠ .stopped → q.published = true
  completed : q.completed = true
  closed : q.loop.closed = false
  started : q.pumps.Started handles
  swept : q.pumps.Swept handles
  queue : ∀ k ∈ q.loop.ready, k = .stopAll ∨ (∃ io, k = .io io) ∨ k = .stop ∧ q.main.asked = true
  calm : q.main.asked = false → q.loop.stopping = false
  due : q.main.asked = true → Due (· = .stop) q.loop.stopping q.loop.ready
  settled : q.main = .settled ∨ q.main.asked = true → q.warned = true ∨ q.pumps.stopper = .resolved
  regular : q.main.regular = true

structure Over (handles : ℕ) (q : NodeThreads) : Prop where
  stage : q.stage = .closing ∧ q.loop.closed = false ∨ q.stage = .closed ∧ q.loop.closed = true
  asked : q.main.asked = true
  started : q.pumps.Started handles
  done : q.warned = true ∨ ∀ i < handles, q.pumps.tasks i = .done

/-- `start` waits for the loop thread, unless it has been interrupted. -/
structure Booting (q : NodeThreads) : Prop where
  stage : q.stage.early = true
  main : q.main = .waiting ∨ q.main = .abandoned
  ready : q.ready = false
  closed : q.loop.closed = false

inductive Sound (handles : ℕ) : NodeThreads → Prop
  | unborn {q : NodeThreads} (hstage : q.stage = .unborn) (hq : q = { initial with main := q.main })
      (hmain : q.main = .idle ∨ q.main = .abandoned) : Sound handles q
  | booting {q : NodeThreads} (h : Booting q) (hstage : q.stage = .new ∨ q.stage = .created)
      (hloop : q.loop = .new) (hcompleted : q.completed = false) (hpumps : q.pumps = .new) :
      Sound handles q
  | booted {q : NodeThreads} (h : Booting q) (hstage : q.stage = .published)
      (hpublished : q.published = true) (hloop : q.loop = .new) (hcompleted : q.completed = false)
      (hpumps : q.pumps = .new) : Sound handles q
  | starting {q : NodeThreads} (h : Booting q) (hstage : q.stage = .queued ∨ q.stage = .starting)
      (hpublished : q.published = true) (hcompleted : q.completed = false)
      (hpumps : q.pumps = .new) (hstopping : q.loop.stopping = false)
      (hcontrol : control q.loop.ready = [.startAll]) : Sound handles q
  | finishing {q : NodeThreads} (h : Booting q) (hstage : q.stage = .starting)
      (hpublished : q.published = true) (hcompleted : q.completed = true)
      (hstarted : q.pumps.Started handles) (hstopper : q.pumps.stopper = .unasked)
      (hcontrol : q.loop.stopping = false ∧ control q.loop.ready = [.finish] ∨
        q.loop.stopping = true ∧ control q.loop.ready = []) : Sound handles q
  | completed {q : NodeThreads} (h : Booting q) (hstage : q.stage = .completed)
      (hpublished : q.published = true) (hcompleted : q.completed = true)
      (hstarted : q.pumps.Started handles) (hstopper : q.pumps.stopper = .unasked)
      (hstopping : q.loop.stopping = false) (hcontrol : control q.loop.ready = []) :
      Sound handles q
  | serving {q : NodeThreads} (hstage : q.stage = .between ∨ q.stage = .forever)
      (h : Serving handles q) : Sound handles q
  | settled {q : NodeThreads} (h : Over handles q) : Sound handles q

/-! ### The loop thread -/

variable {done : Bool} {found : List Io}

theorem sound_starting (h : Booting q) (hstage : q.stage = .starting)
    (hpublished : q.published = true) (hcompleted : q.completed = false) (hpumps : q.pumps = .new)
    (hstopping : q.loop.stopping = false) (hcontrol : control q.loop.ready = [.startAll]) :
    Sound handles (q.turn handles done found .completed) := by
  obtain ⟨loop', ios, heq, hready, hstopping', -, hclosed⟩ | ⟨k, rest, hround, heq⟩ |
    ⟨-, hstop, -⟩ := turn_cases handles q done found .completed
  · rw [heq]
    have hcontrol' : control loop'.ready = [.startAll] := by
      rw [hready, control_append_ios (ios_of_map ios), hcontrol]
    have h' : Booting { q with loop := loop' } := ⟨h.stage, h.main, h.ready, hclosed.trans h.closed⟩
    exact Sound.starting h' (Or.inr hstage) hpublished hcompleted hpumps
      (hstopping'.trans hstopping) hcontrol'
  · have hloop := execute_loop handles q (q.loop.next rest) done found k
    have hready := execute_ready handles q (q.loop.next rest) done found k
    rw [heq]
    have h' : Booting (q.execute handles (q.loop.next rest) done found k) := by
      refine ⟨h.stage, h.main, h.ready, ?_⟩
      rw [hloop]
      exact h.closed
    rw [ready_eq_cons hround] at hcontrol
    obtain ⟨⟨io, rfl⟩, hrest⟩ | ⟨rfl, hrest⟩ := control_cons hcontrol
    · obtain ⟨hsame, hios⟩ := PumpTasks.call_io_of_new handles done found io
      rw [← hpumps] at hsame hios
      apply Sound.starting h' (Or.inr hstage) hpublished
      · exact (Bool.or_false _).trans hcompleted
      · exact hsame.trans hpumps
      · rw [hloop]
        exact (Bool.or_false _).trans hstopping
      · rw [hready, control_append_ios hios]
        exact hrest
    · apply Sound.finishing h' hstage hpublished
      · exact Bool.or_true _
      · exact PumpTasks.started_startAll q.pumps handles
      · exact (congrArg PumpTasks.stopper hpumps)
      · refine Or.inl ⟨?_, ?_⟩
        · rw [hloop]
          exact (Bool.or_false _).trans hstopping
        · rw [hready, control_append, hrest]
          exact PumpTasks.control_startAll q.pumps handles
  · exact absurd hstop (ne_true_of_eq_false hstopping)

theorem sound_finishing (h : Booting q) (hstage : q.stage = .starting)
    (hpublished : q.published = true) (hcompleted : q.completed = true)
    (hstarted : q.pumps.Started handles) (hstopper : q.pumps.stopper = .unasked)
    (hcontrol : q.loop.stopping = false ∧ control q.loop.ready = [.finish] ∨
      q.loop.stopping = true ∧ control q.loop.ready = []) :
    Sound handles (q.turn handles done found .completed) := by
  obtain ⟨loop', ios, heq, hready, hstopping', -, hclosed⟩ | ⟨k, rest, hround, heq⟩ |
    ⟨hround, hstop, heq⟩ := turn_cases handles q done found .completed
  · rw [heq]
    have hcontrol' : control loop'.ready = control q.loop.ready := by
      rw [hready, control_append_ios (ios_of_map ios)]
    have h' : Booting { q with loop := loop' } := ⟨h.stage, h.main, h.ready, hclosed.trans h.closed⟩
    apply Sound.finishing h' hstage hpublished hcompleted hstarted hstopper
    rw [hcontrol', hstopping']
    exact hcontrol
  · have hloop := execute_loop handles q (q.loop.next rest) done found k
    have hready := execute_ready handles q (q.loop.next rest) done found k
    rw [heq]
    have h' : Booting (q.execute handles (q.loop.next rest) done found k) := by
      refine ⟨h.stage, h.main, h.ready, ?_⟩
      rw [hloop]
      exact h.closed
    rw [ready_eq_cons hround] at hcontrol
    obtain ⟨io, rfl⟩ | rfl : (∃ io, k = .io io) ∨ k = .finish := by
      obtain ⟨-, hcontrol⟩ | ⟨-, hcontrol⟩ := hcontrol
      · exact (control_cons hcontrol).imp And.left And.left
      · exact Or.inl (isIo_of_control hcontrol k List.mem_cons_self)
    · obtain ⟨hsame, hios⟩ := PumpTasks.call_io_of_unasked handles done found hstopper io
      have hkept := PumpTasks.call_keeps done found hstarted
        (PumpTasks.swept_of_unasked hstopper) (NodeCallback.io_ne_startAll io)
      apply Sound.finishing h' hstage hpublished
      · exact (Bool.or_false _).trans hcompleted
      · exact hkept.1
      · exact hsame
      · rw [hready, control_append_ios hios, hloop]
        show ((q.loop.stopping || false) = false ∧ _) ∨ (q.loop.stopping || false) = true ∧ _
        rw [Bool.or_false]
        exact hcontrol
    · have hleft : q.loop.stopping = false ∧ control (q.loop.next rest).ready = [] := by
        obtain ⟨hstopping, hcontrol⟩ | ⟨-, hcontrol⟩ := hcontrol
        · exact ⟨hstopping, (List.cons.inj hcontrol).2⟩
        · cases hcontrol
      apply Sound.finishing h' hstage hpublished
      · exact (Bool.or_false _).trans hcompleted
      · exact hstarted
      · exact hstopper
      · rw [hready, hloop]
        exact Or.inr ⟨Bool.or_true _, (congrArg control (List.append_nil _)).trans hleft.2⟩
  · rw [heq]
    have hqueue : control q.loop.ready = [] := by
      obtain ⟨hstopping, -⟩ | ⟨-, hcontrol⟩ := hcontrol
      · exact absurd hstop (ne_true_of_eq_false hstopping)
      · exact hcontrol
    have h' : Booting { q with stage := .completed, loop := q.loop.leave } :=
      ⟨rfl, h.main, h.ready, h.closed⟩
    apply Sound.completed h' rfl hpublished hcompleted hstarted hstopper rfl
    rw [ready_leave hround]
    exact hqueue

theorem Serving.execute (h : Serving handles q) {k : NodeCallback} {rest : List NodeCallback}
    (hround : q.loop.round = some (k :: rest)) :
    Serving handles (q.execute handles (q.loop.next rest) done found k) := by
  have hready : q.loop.ready = k :: (q.loop.next rest).ready := ready_eq_cons hround
  have hk : k = .stopAll ∨ (∃ io, k = .io io) ∨ k = .stop ∧ q.main.asked = true := by
    apply h.queue
    rw [hready]
    exact List.mem_cons_self
  have hne : k ≠ .startAll := by
    obtain rfl | ⟨io, rfl⟩ | ⟨rfl, -⟩ := hk
    · decide
    · exact NodeCallback.io_ne_startAll io
    · decide
  have hloop := execute_loop handles q (q.loop.next rest) done found k
  have hready' := execute_ready handles q (q.loop.next rest) done found k
  have hkept := PumpTasks.call_keeps done found h.started h.swept hne
  have hqueues := PumpTasks.call_queues handles q.pumps done found hne
  refine ⟨h.ready, h.published, ?_, ?_, hkept.1, hkept.2, ?_, ?_, ?_, ?_, h.regular⟩
  · exact (congrArg (· || _) h.completed).trans (Bool.true_or _)
  · rw [hloop]
    exact h.closed
  · intro j hj
    rw [hready'] at hj
    obtain hrest | hqueued := List.mem_append.mp hj
    · apply h.queue
      rw [hready]
      exact List.mem_cons_of_mem _ hrest
    · exact (hqueues j hqueued).imp_right Or.inl
  · intro hcalm
    rw [hloop]
    show (q.loop.stopping || k.stops) = false
    rw [h.calm hcalm]
    obtain rfl | ⟨io, rfl⟩ | ⟨-, hasked⟩ := hk
    · rfl
    · rfl
    · exact absurd hasked (ne_true_of_eq_false hcalm)
  · intro hasked
    have hdue := h.due hasked
    rw [hready] at hdue
    rw [hready', hloop]
    apply Due.append
    apply hdue.run
    rintro rfl
    rfl
  · intro hsettled
    exact (h.settled hsettled).imp_right fun hresolved =>
      PumpTasks.call_of_resolved hresolved k

theorem sound_forever (hstage : q.stage = .forever) (h : Serving handles q) :
    Sound handles (q.turn handles done found .closing) := by
  obtain ⟨loop', ios, heq, hready, hstopping, -, hclosed⟩ | ⟨k, rest, hround, heq⟩ |
    ⟨hround, hstop, heq⟩ := turn_cases handles q done found .closing
  · rw [heq]
    refine Sound.serving (Or.inr hstage) ?_
    refine ⟨h.ready, h.published, h.completed, hclosed.trans h.closed, h.started, h.swept, ?_, ?_,
      ?_, h.settled, h.regular⟩
    · intro k hk
      have hmem : k ∈ loop'.ready := hk
      rw [hready] at hmem
      obtain hmem | hmem := List.mem_append.mp hmem
      · exact h.queue k hmem
      · exact Or.inr (Or.inl (ios_of_map ios k hmem))
    · exact fun hcalm => hstopping.trans (h.calm hcalm)
    · intro hasked
      show Due _ loop'.stopping loop'.ready
      rw [hready, hstopping]
      exact (h.due hasked).append _
  · rw [heq]
    exact Sound.serving (Or.inr hstage) (h.execute hround)
  · rw [heq]
    have hasked : q.main.asked = true := by
      by_contra hnot
      have hcalm := h.calm (eq_false_of_ne_true hnot)
      exact absurd hstop (ne_true_of_eq_false hcalm)
    have hdone : q.warned = true ∨ ∀ i < handles, q.pumps.tasks i = .done := by
      refine (h.settled (Or.inr hasked)).imp_right fun hresolved => ?_
      have hswept := h.swept
      rw [PumpTasks.Swept, hresolved] at hswept
      exact hswept
    exact Sound.settled ⟨Or.inl ⟨rfl, h.closed⟩, hasked, h.started, hdone⟩

theorem sound_runLoop (h : Sound handles q) : Sound handles (q.runLoop handles done found) := by
  cases h with
  | unborn hstage hq hmain =>
    rw [runLoop, hstage]
    exact Sound.unborn hstage hq hmain
  | booting h hstage hloop hcompleted hpumps =>
    obtain hstage | hstage := hstage
    · rw [runLoop, hstage]
      exact Sound.booting ⟨rfl, h.main, h.ready, rfl⟩ (Or.inr rfl) rfl hcompleted hpumps
    · rw [runLoop, hstage]
      exact Sound.booted ⟨rfl, h.main, h.ready, h.closed⟩ rfl rfl hloop hcompleted hpumps
  | booted h hstage hpublished hloop hcompleted hpumps =>
    rw [runLoop, hstage]
    refine Sound.starting ⟨rfl, h.main, h.ready, h.closed⟩ (Or.inl rfl) hpublished hcompleted hpumps
      ?_ ?_
    · exact congrArg EventLoop.stopping hloop
    · show control (q.loop.callSoon [.startAll]).ready = [.startAll]
      rw [hloop]
      rfl
  | starting h hstage hpublished hcompleted hpumps hstopping hcontrol =>
    obtain hstage | hstage := hstage
    · rw [runLoop, hstage]
      exact Sound.starting ⟨rfl, h.main, h.ready, h.closed⟩ (Or.inr rfl) hpublished hcompleted
        hpumps hstopping hcontrol
    · rw [runLoop, hstage]
      exact sound_starting h hstage hpublished hcompleted hpumps hstopping hcontrol
  | finishing h hstage hpublished hcompleted hstarted hstopper hcontrol =>
    rw [runLoop, hstage]
    exact sound_finishing h hstage hpublished hcompleted hstarted hstopper hcontrol
  | completed h hstage hpublished hcompleted hstarted hstopper hstopping hcontrol =>
    rw [runLoop, hstage]
    show Sound handles { q with stage := if q.completed then .between else .crashed, ready := true }
    rw [if_pos hcompleted]
    have hmain : q.main.asked = false ∧ q.main ≠ .settled ∧ q.main.regular = true := by
      obtain hmain | hmain := h.main
      · rw [hmain]
        decide
      · rw [hmain]
        decide
    apply Sound.serving (Or.inl rfl)
    refine ⟨rfl, fun _ => hpublished, hcompleted, h.closed, hstarted,
      PumpTasks.swept_of_unasked hstopper, ?_, fun _ => hstopping, ?_, ?_, hmain.2.2⟩
    · intro k hk
      exact Or.inr (Or.inl (isIo_of_control hcontrol k hk))
    · exact fun hasked => absurd hasked (ne_true_of_eq_false hmain.1)
    · rintro (hsettled | hasked)
      · exact absurd hsettled hmain.2.1
      · exact absurd hasked (ne_true_of_eq_false hmain.1)
  | serving hstage h =>
    obtain hstage | hstage := hstage
    · rw [runLoop, hstage]
      exact Sound.serving (Or.inr rfl) ⟨h.ready, h.published, h.completed, h.closed, h.started,
        h.swept, h.queue, h.calm, h.due, h.settled, h.regular⟩
    · rw [runLoop, hstage]
      exact sound_forever hstage h
  | settled h =>
    obtain ⟨hstage, -⟩ | ⟨hstage, hclosed⟩ := h.stage
    · rw [runLoop, hstage]
      exact Sound.settled ⟨Or.inr ⟨rfl, rfl⟩, h.asked, h.started, h.done⟩
    · rw [runLoop, hstage]
      exact Sound.settled ⟨Or.inr ⟨hstage, hclosed⟩, h.asked, h.started, h.done⟩

/-! ### The main thread -/

theorem Serving.goOn (h : Serving handles q) {main : NodeStage} {warned : Bool}
    (hmain : main.asked = q.main.asked ∧ q.main ≠ .stopped ∧ main.regular = true)
    (hwarned : q.warned = true → warned = true)
    (hsettled : main = .settled → warned = true ∨ q.pumps.stopper = .resolved) :
    Serving handles { q with main := main, warned := warned } := by
  obtain ⟨hasked, hpublished, hregular⟩ := hmain
  refine ⟨h.ready, fun _ => h.published hpublished, h.completed, h.closed, h.started, h.swept, ?_,
    ?_, ?_, ?_, hregular⟩
  · show ∀ k ∈ q.loop.ready, k = .stopAll ∨ (∃ io, k = .io io) ∨ k = .stop ∧ main.asked = true
    rw [hasked]
    exact h.queue
  · show main.asked = false → _
    rw [hasked]
    exact h.calm
  · show main.asked = true → _
    rw [hasked]
    exact h.due
  · show main = .settled ∨ main.asked = true → _
    rw [hasked]
    rintro (hnow | hnow)
    · exact hsettled hnow
    · exact (h.settled (Or.inr hnow)).imp_left hwarned

theorem Booting.startStop_eq (h : Booting q) (timedOut : Bool) : q.startStop timedOut = q := by
  obtain hmain | hmain := h.main
  · rw [startStop, hmain]
    show (if q.ready then _ else q) = q
    rw [if_neg (ne_true_of_eq_false h.ready)]
  · rw [startStop, hmain]

theorem Serving.submit (h : Serving handles q) (hmain : q.main = .stopping) :
    Serving handles
      { q with
        loop := q.loop.callSoon [.stopAll]
        pumps := { q.pumps with stopper := .submitted }
        main := .pending } := by
  have hcalm : q.main.asked = false := by rw [hmain]; rfl
  have hpublished : q.main ≠ .stopped := by rw [hmain]; decide
  refine ⟨h.ready, fun _ => h.published hpublished, h.completed, h.closed, h.started, trivial, ?_,
    fun _ => h.calm hcalm, ?_, ?_, rfl⟩
  · intro k hk
    rw [ready_callSoon] at hk
    obtain hmem | hmem := List.mem_append.mp hk
    · refine (h.queue k hmem).imp_right fun hk => hk.imp_right ?_
      rintro ⟨-, hasked⟩
      exact absurd hasked (ne_true_of_eq_false hcalm)
    · exact Or.inl (List.mem_singleton.mp hmem)
  · intro hasked
    cases hasked
  · rintro (hsettled | hasked)
    · cases hsettled
    · cases hasked

theorem Serving.ask (h : Serving handles q) (hmain : q.main = .settled) :
    Serving handles { q with loop := q.loop.callSoon [.stop], main := .joining } := by
  have hpublished : q.main ≠ .stopped := by rw [hmain]; decide
  refine ⟨h.ready, fun _ => h.published hpublished, h.completed, h.closed, h.started, h.swept, ?_,
    ?_, ?_, fun _ => h.settled (Or.inl hmain), rfl⟩
  · intro k hk
    rw [ready_callSoon] at hk
    obtain hmem | hmem := List.mem_append.mp hk
    · exact (h.queue k hmem).imp_right fun hk => hk.imp_right fun hstop => ⟨hstop.1, rfl⟩
    · exact Or.inr (Or.inr ⟨List.mem_singleton.mp hmem, rfl⟩)
  · intro hcalm
    cases hcalm
  · intro _
    rw [ready_callSoon]
    exact due_of_mem (List.mem_append_right _ (List.mem_singleton_self _)) rfl

theorem Serving.leave (h : Serving handles q) (hasked : q.main.asked = true) (published : Bool) :
    Serving handles { q with published := published, main := .stopped } := by
  refine ⟨h.ready, fun hne => absurd rfl hne, h.completed, h.closed, h.started, h.swept, ?_, ?_,
    ?_, ?_, rfl⟩
  · intro k hk
    exact (h.queue k hk).imp_right fun hk => hk.imp_right fun hstop => ⟨hstop.1, rfl⟩
  · intro hcalm
    cases hcalm
  · exact fun _ => h.due hasked
  · exact fun _ => h.settled (Or.inr hasked)

theorem Serving.startStop (h : Serving handles q) (timedOut : Bool) :
    Serving handles (q.startStop timedOut) := by
  unfold NodeThreads.startStop
  split
  next hmain =>
    have hregular := h.regular
    rw [hmain] at hregular
    cases hregular
  next hmain =>
    rw [if_pos h.ready]
    exact h.goOn (by rw [hmain]; decide) id NodeStage.noConfusion
  next hmain => exact h.goOn (by rw [hmain]; decide) id NodeStage.noConfusion
  next hmain =>
    have hpublished : q.published = true := h.published (by rw [hmain]; decide)
    rw [if_pos hpublished, if_neg (ne_true_of_eq_false h.closed)]
    exact h.submit hmain
  next hmain =>
    split_ifs with hresolved
    · exact h.goOn (by rw [hmain]; decide) id fun _ => Or.inr hresolved
    · exact h.goOn (by rw [hmain]; decide) (fun _ => rfl) fun _ => Or.inl rfl
    · exact h
  next hmain =>
    rw [if_neg (ne_true_of_eq_false h.closed)]
    exact h.ask hmain
  next hmain =>
    split_ifs
    · exact h.leave (by rw [hmain]; rfl) false
    · exact h
  next => exact h
  next => exact h
  next => exact h

theorem Serving.interrupt (h : Serving handles q) : Serving handles q.interrupt := by
  have habandon (hmain : NodeStage.abandoned.asked = q.main.asked ∧ q.main ≠ .stopped ∧
      NodeStage.abandoned.regular = true) : Serving handles { q with main := .abandoned } :=
    h.goOn hmain id NodeStage.noConfusion
  unfold NodeThreads.interrupt
  split
  next hmain => exact h.goOn (by rw [hmain]; decide) id NodeStage.noConfusion
  next hmain => exact h.leave (by rw [hmain]; rfl) _
  next hmain => exact habandon (by rw [hmain]; decide)
  next hmain => exact habandon (by rw [hmain]; decide)
  next hmain => exact habandon (by rw [hmain]; decide)
  next hmain => exact habandon (by rw [hmain]; decide)
  next hmain => exact habandon (by rw [hmain]; decide)
  next => exact h
  next => exact h
  next => exact h

theorem Over.startStop (h : Over handles q) (timedOut : Bool) :
    Over handles (q.startStop timedOut) := by
  have hasked := h.asked
  unfold NodeThreads.startStop
  split
  case h_7 =>
    split_ifs
    · exact ⟨h.stage, rfl, h.started, h.done⟩
    · exact h
  case h_8 => exact h
  case h_9 => exact h
  case h_10 => exact h
  all_goals
    next hmain =>
      rw [hmain] at hasked
      cases hasked

theorem Over.interrupt (h : Over handles q) : Over handles q.interrupt := by
  have hasked := h.asked
  unfold NodeThreads.interrupt
  split
  case h_2 => exact ⟨h.stage, rfl, h.started, h.done⟩
  case h_8 => exact h
  case h_9 => exact h
  case h_10 => exact h
  all_goals
    next hmain =>
      rw [hmain] at hasked
      cases hasked

theorem Booting.interrupt (h : Booting q) :
    Booting q.interrupt ∧ q.interrupt = { q with main := q.interrupt.main } := by
  obtain hmain | hmain := h.main
  · rw [NodeThreads.interrupt, hmain]
    exact ⟨⟨h.stage, Or.inr rfl, h.ready, h.closed⟩, rfl⟩
  · rw [NodeThreads.interrupt, hmain]
    exact ⟨h, rfl⟩

theorem startStop_stage (hmain : q.main.regular = true) (timedOut : Bool) :
    (q.startStop timedOut).stage = q.stage := by
  unfold startStop
  split
  next hidle =>
    rw [hidle] at hmain
    cases hmain
  case h_3 => rfl
  case h_8 => rfl
  case h_9 => rfl
  case h_10 => rfl
  all_goals split_ifs <;> rfl

theorem interrupt_stage (q : NodeThreads) : q.interrupt.stage = q.stage := by
  unfold interrupt
  split <;> rfl

theorem sound_startStop (h : Sound handles q) (timedOut : Bool) :
    Sound handles (q.startStop timedOut) := by
  cases h with
  | unborn hstage hq hmain =>
    obtain hmain | hmain := hmain
    · rw [startStop, hmain, hq]
      exact Sound.booting ⟨rfl, Or.inl rfl, rfl, rfl⟩ (Or.inl rfl) rfl rfl rfl
    · rw [startStop, hmain]
      exact Sound.unborn hstage hq (Or.inr hmain)
  | booting h =>
    rw [h.startStop_eq]
    exact Sound.booting h ‹_› ‹_› ‹_› ‹_›
  | booted h =>
    rw [h.startStop_eq]
    exact Sound.booted h ‹_› ‹_› ‹_› ‹_› ‹_›
  | starting h =>
    rw [h.startStop_eq]
    exact Sound.starting h ‹_› ‹_› ‹_› ‹_› ‹_› ‹_›
  | finishing h =>
    rw [h.startStop_eq]
    exact Sound.finishing h ‹_› ‹_› ‹_› ‹_› ‹_› ‹_›
  | completed h =>
    rw [h.startStop_eq]
    exact Sound.completed h ‹_› ‹_› ‹_› ‹_› ‹_› ‹_› ‹_›
  | serving hstage h =>
    have hsame := startStop_stage h.regular timedOut
    exact Sound.serving (hsame ▸ hstage) (h.startStop timedOut)
  | settled h => exact Sound.settled (h.startStop timedOut)

theorem sound_interrupt (h : Sound handles q) : Sound handles q.interrupt := by
  cases h with
  | unborn hstage hq hmain =>
    obtain hmain | hmain := hmain
    · rw [interrupt, hmain]
      refine Sound.unborn hstage ?_ (Or.inr rfl)
      rw [hq]
    · rw [interrupt, hmain]
      exact Sound.unborn hstage hq (Or.inr hmain)
  | booting h =>
    obtain ⟨h', heq⟩ := h.interrupt
    rw [heq] at h' ⊢
    exact Sound.booting h' ‹_› ‹_› ‹_› ‹_›
  | booted h =>
    obtain ⟨h', heq⟩ := h.interrupt
    rw [heq] at h' ⊢
    exact Sound.booted h' ‹_› ‹_› ‹_› ‹_› ‹_›
  | starting h =>
    obtain ⟨h', heq⟩ := h.interrupt
    rw [heq] at h' ⊢
    exact Sound.starting h' ‹_› ‹_› ‹_› ‹_› ‹_› ‹_›
  | finishing h =>
    obtain ⟨h', heq⟩ := h.interrupt
    rw [heq] at h' ⊢
    exact Sound.finishing h' ‹_› ‹_› ‹_› ‹_› ‹_› ‹_›
  | completed h =>
    obtain ⟨h', heq⟩ := h.interrupt
    rw [heq] at h' ⊢
    exact Sound.completed h' ‹_› ‹_› ‹_› ‹_› ‹_› ‹_› ‹_›
  | serving hstage h => exact Sound.serving (q.interrupt_stage ▸ hstage) h.interrupt
  | settled h => exact Sound.settled h.interrupt

theorem sound_initial : Sound handles initial := Sound.unborn rfl rfl (Or.inl rfl)

theorem sound_step (q : NodeThreads) (a : NodeStep) (h : Sound handles q) :
    Sound handles (q.step handles a) := by
  cases a with
  | loop done found => exact sound_runLoop h
  | main timedOut => exact sound_startStop h timedOut
  | interrupt => exact sound_interrupt h

def Returned (q : NodeThreads) : Prop :=
  q.main ≠ .idle ∧ q.main ≠ .waiting ∧ q.main ≠ .abandoned

/-- What the users of a node may rely on. -/
structure Orderly (handles : ℕ) (q : NodeThreads) : Prop where
  alive : q.stage ≠ .crashed ∧ q.main ≠ .raised
  started : q.Returned → q.pumps.Started handles
  -- a stop that `stop` has scheduled is not lost
  stops : q.main.asked = true →
    (q.stage = .closing ∨ q.stage = .closed) ∨ Due (· = .stop) q.loop.stopping q.loop.ready
  -- a loop is closed for good reason only, and behind the pumps unless `stop` gave up on them
  closed : q.stage = .closing ∨ q.stage = .closed →
    q.main.asked = true ∧ (q.warned = true ∨ ∀ i < handles, q.pumps.tasks i = .done)

theorem orderly_of_early (hstage : q.stage.early = true)
    (hmain : q.main = .idle ∨ q.main = .waiting ∨ q.main = .abandoned) : Orderly handles q := by
  have hover : q.stage ≠ .crashed ∧ ¬ (q.stage = .closing ∨ q.stage = .closed) := by
    cases hq : q.stage with
    | between => rw [hq] at hstage; cases hstage
    | forever => rw [hq] at hstage; cases hstage
    | closing => rw [hq] at hstage; cases hstage
    | closed => rw [hq] at hstage; cases hstage
    | crashed => rw [hq] at hstage; cases hstage
    | _ => decide
  have hcalm : q.main ≠ .raised ∧ q.main.asked = false ∧ ¬ q.Returned := by
    obtain hmain | hmain | hmain := hmain
    · rw [Returned, hmain]
      decide
    · rw [Returned, hmain]
      decide
    · rw [Returned, hmain]
      decide
  refine ⟨⟨hover.1, hcalm.1⟩, fun hreturned => absurd hreturned hcalm.2.2, ?_, ?_⟩
  · exact fun hasked => absurd hasked (ne_true_of_eq_false hcalm.2.1)
  · exact fun hstage => absurd hstage hover.2

theorem Booting.orderly (h : Booting q) : Orderly handles q :=
  orderly_of_early h.stage (Or.inr h.main)

theorem Sound.orderly (h : Sound handles q) : Orderly handles q := by
  cases h with
  | unborn hstage _ hmain =>
    have hearly : q.stage.early = true := by rw [hstage]; rfl
    exact orderly_of_early hearly (hmain.imp_right Or.inr)
  | booting h => exact h.orderly
  | booted h => exact h.orderly
  | starting h => exact h.orderly
  | finishing h => exact h.orderly
  | completed h => exact h.orderly
  | serving hstage h =>
    have hover : q.stage ≠ .crashed ∧ ¬ (q.stage = .closing ∨ q.stage = .closed) := by
      obtain hstage | hstage := hstage
      · rw [hstage]
        decide
      · rw [hstage]
        decide
    refine ⟨⟨hover.1, ?_⟩, fun _ => h.started, fun hasked => Or.inr (h.due hasked), ?_⟩
    · intro hraised
      have hregular := h.regular
      rw [hraised] at hregular
      cases hregular
    · exact fun hstage => absurd hstage hover.2
  | settled h =>
    have hstage : q.stage = .closing ∨ q.stage = .closed := h.stage.imp And.left And.left
    refine ⟨⟨?_, ?_⟩, fun _ => h.started, fun _ => Or.inl hstage, fun _ => ⟨h.asked, h.done⟩⟩
    · obtain hstage | hstage := hstage
      · rw [hstage]
        decide
      · rw [hstage]
        decide
    · intro hraised
      have hasked := h.asked
      rw [hraised] at hasked
      cases hasked

/-- Whatever the order of the steps of the two threads and of the callbacks of the loop, and
whenever the main thread is interrupted. -/
theorem lifecycle_orderly (handles : ℕ) (steps : List NodeStep) :
    Orderly handles ((machine handles).after initial steps) :=
  (Machine.after_invariant (fun q a h => sound_step q a h) sound_initial steps).orderly

end NodeThreads

end QuikSync.Pump

import Mathlib.Order.Nat
import QuikSyncAdapters.Library.Schedules
import QuikSyncAdapters.Pump.NodeStops

/-! Whether a node comes to its end. When neither thread is starved and every wait may time out,
the loop thread ends unless an interrupt keeps the main thread from asking it to; when the pumps
heed their cancellation, no wait has to time out for that. -/

namespace QuikSync.Pump

open EventLoop

def LoopStage.togo : LoopStage → ℕ
  | unborn => 10
  | new => 9
  | created => 8
  | published => 7
  | queued => 6
  | starting => 5
  | completed => 4
  | between => 3
  | forever => 2
  | closing => 1
  | closed => 0
  | crashed => 0

def NodeStage.togo : NodeStage → ℕ
  | idle => 8
  | waiting => 7
  | started => 6
  | stopping => 5
  | pending => 4
  | settled => 3
  | joining => 2
  | stopped => 1
  | abandoned => 0
  | raised => 0

inductive NodeParty where
  | loop
  | main
deriving DecidableEq

namespace NodeThreads

variable {handles : ℕ} {q : NodeThreads} {done : Bool} {found : List Io}

def Ended (q : NodeThreads) : Prop := q.stage = .closed ∧ q.loop.closed = true

/-- An interrupt comes while the main thread spins or joins, or when it is through. -/
def Uninterrupted (q : NodeThreads) : NodeStep → Prop
  | .interrupt => q.main = .started ∨ q.main.asked = true ∨ q.main.togo = 0
  | _ => True

/-! ### The loop thread comes on -/

def Awaits (completed : Bool) (k : NodeCallback) : Prop :=
  if completed then k.stops = true else k = .startAll

instance (completed : Bool) : DecidablePred (Awaits completed) :=
  fun _ => inferInstanceAs (Decidable (ite ..))

/-- What is left of the loop thread: its stages, whether the pumps are to be started, and the time
the loop still takes. -/
def left (q : NodeThreads) : ℕ ×ₗ ℕ ×ₗ ℕ ×ₗ ℕ :=
  toLex (q.stage.togo, toLex (if q.completed then 0 else 1, q.loop.delay (Awaits q.completed)))

theorem left_lt_of_stage {q q' : NodeThreads} (h : q'.stage.togo < q.stage.togo) :
    q'.left < q.left := Prod.Lex.toLex_lt_toLex.mpr (Or.inl h)

theorem left_lt_of_completed {q q' : NodeThreads} (hstage : q'.stage = q.stage)
    (hcompleted : q'.completed = true) (hbefore : q.completed = false) : q'.left < q.left := by
  apply Prod.Lex.toLex_lt_toLex.mpr
  refine Or.inr ⟨congrArg LoopStage.togo hstage, Prod.Lex.toLex_lt_toLex.mpr (Or.inl ?_)⟩
  rw [hcompleted, hbefore]
  exact Nat.zero_lt_one

theorem left_lt_of_delay {q q' : NodeThreads} (hstage : q'.stage = q.stage)
    (hcompleted : q'.completed = q.completed)
    (h : q'.loop.delay (Awaits q.completed) < q.loop.delay (Awaits q.completed)) :
    q'.left < q.left := by
  rw [left, left, hstage, hcompleted]
  exact Prod.Lex.toLex_lt_toLex.mpr (Or.inr ⟨rfl, Prod.Lex.toLex_lt_toLex.mpr (Or.inr ⟨rfl, h⟩)⟩)

theorem left_execute_lt {k : NodeCallback} {rest : List NodeCallback}
    (hround : q.loop.round = some (k :: rest)) :
    (q.execute handles (q.loop.next rest) done found k).left < q.left := by
  have hloop := execute_loop handles q (q.loop.next rest) done found k
  have hdelay (hcompleted : (q.completed || decide (k = .startAll)) = q.completed)
      (hk : Awaits q.completed k → k.stops = true) :
      (q.execute handles (q.loop.next rest) done found k).left < q.left := by
    refine left_lt_of_delay rfl hcompleted ?_
    rw [hloop]
    exact delay_run_lt hround rfl rfl hk
  cases hcompleted : q.completed with
  | true =>
    rw [hcompleted] at hdelay
    exact hdelay (Bool.true_or _) id
  | false =>
    rw [hcompleted] at hdelay
    by_cases hk : k = .startAll
    · have hcompleted' : (q.completed || decide (k = .startAll)) = true := by
        rw [decide_eq_true hk, Bool.or_true]
      exact left_lt_of_completed rfl hcompleted' hcompleted
    · exact hdelay (by rw [decide_eq_false hk, Bool.or_false]) fun hawaits => absurd hawaits hk

theorem left_turn_lt (hdue : Due (Awaits q.completed) q.loop.stopping q.loop.ready)
    {next : LoopStage} (hnext : next.togo < q.stage.togo) :
    (q.turn handles done found next).left < q.left := by
  unfold turn
  split
  next hround => exact left_lt_of_delay rfl rfl (delay_beginRound_lt hround hdue _)
  next k rest hround => exact left_execute_lt hround
  next hround =>
    split_ifs with hstopping
    · exact left_lt_of_stage hnext
    · exact left_lt_of_delay rfl rfl (delay_again_lt hround (eq_false_of_ne_true hstopping))

def Working (q : NodeThreads) : Prop := q.ready = false ∧ q.main = .waiting ∨ q.main.asked = true

theorem due_of_control {l : List NodeCallback} {k : NodeCallback} (h : control l = [k])
    {ends : NodeCallback → Prop} (hk : ends k) (stopping : Bool) : Due ends stopping l := by
  have hmem : k ∈ control l := by
    rw [h]
    exact List.mem_singleton_self k
  exact due_of_mem (List.mem_filter.mp hmem).1 hk

theorem left_runLoop_lt (done : Bool) (found : List Io) (h : Sound handles q)
    (hworking : q.Working) (hclosed : q.stage ≠ .closed) :
    (q.runLoop handles done found).left < q.left := by
  have hstep {stage : LoopStage} (hstage : q.stage = stage) {q' : NodeThreads}
      (h : q'.stage.togo < stage.togo) : q'.left < q.left :=
    left_lt_of_stage (by rw [hstage]; exact h)
  cases h with
  | unborn hstage hq hmain =>
    exfalso
    obtain ⟨-, hwaiting⟩ | hasked := hworking
    · obtain hmain | hmain := hmain
      · rw [hmain] at hwaiting
        cases hwaiting
      · rw [hmain] at hwaiting
        cases hwaiting
    · obtain hmain | hmain := hmain
      · rw [hmain] at hasked
        cases hasked
      · rw [hmain] at hasked
        cases hasked
  | booting h hstage =>
    obtain hstage | hstage := hstage
    · rw [runLoop, hstage]
      exact hstep hstage (Nat.lt_succ_self _)
    · rw [runLoop, hstage]
      exact hstep hstage (Nat.lt_succ_self _)
  | booted h hstage =>
    rw [runLoop, hstage]
    exact hstep hstage (Nat.lt_succ_self _)
  | starting h hstage hpublished hcompleted hpumps hstopping hcontrol =>
    obtain hstage | hstage := hstage
    · rw [runLoop, hstage]
      exact hstep hstage (Nat.lt_succ_self _)
    · rw [runLoop, hstage]
      apply left_turn_lt
      · have hawaits : Awaits false .startAll := rfl
        rw [hcompleted]
        exact due_of_control hcontrol hawaits _
      · rw [hstage]
        exact Nat.lt_succ_self _
  | finishing h hstage hpublished hcompleted hstarted hstopper hcontrol =>
    rw [runLoop, hstage]
    apply left_turn_lt
    · have hawaits : Awaits true .finish := rfl
      rw [hcompleted]
      obtain ⟨-, hcontrol⟩ | ⟨hstopping, -⟩ := hcontrol
      · exact due_of_control hcontrol hawaits _
      · exact Or.inl hstopping
    · rw [hstage]
      exact Nat.lt_succ_self _
  | completed h hstage hpublished hcompleted =>
    rw [runLoop, hstage]
    apply hstep hstage
    show (if q.completed then LoopStage.between else .crashed).togo < _
    rw [if_pos hcompleted]
    exact Nat.lt_succ_self _
  | serving hstage h =>
    obtain hstage | hstage := hstage
    · rw [runLoop, hstage]
      exact hstep hstage (Nat.lt_succ_self _)
    · have hasked : q.main.asked = true := by
        obtain ⟨hready, -⟩ | hasked := hworking
        · exact absurd h.ready (ne_true_of_eq_false hready)
        · exact hasked
      rw [runLoop, hstage]
      apply left_turn_lt
      · rw [h.completed]
        apply (h.due hasked).mono
        rintro k rfl
        rfl
      · rw [hstage]
        exact Nat.lt_succ_self _
  | settled h =>
    obtain ⟨hstage, -⟩ | ⟨hstage, -⟩ := h.stage
    · rw [runLoop, hstage]
      exact hstep hstage (Nat.lt_succ_self _)
    · exact absurd hstage hclosed

/-! ### The main thread comes on -/

theorem runLoop_main (q : NodeThreads) : (q.runLoop handles done found).main = q.main := by
  have hturn (next : LoopStage) : (q.turn handles done found next).main = q.main := by
    obtain ⟨_, _, heq, -⟩ | ⟨_, _, -, heq⟩ | ⟨-, -, heq⟩ :=
      turn_cases handles q done found next
    · rw [heq]
    · rw [heq]
      rfl
    · rw [heq]
  unfold runLoop
  split
  case h_6 => exact hturn _
  case h_9 => exact hturn _
  all_goals rfl

theorem runLoop_ready (handles : ℕ) (done : Bool) (found : List Io) (h : q.ready = true) :
    (q.runLoop handles done found).ready = true := by
  have hturn (next : LoopStage) : (q.turn handles done found next).ready = true := by
    obtain ⟨_, _, heq, -⟩ | ⟨_, _, -, heq⟩ | ⟨-, -, heq⟩ :=
      turn_cases handles q done found next
    · rw [heq]
      exact h
    · rw [heq]
      exact h
    · rw [heq]
      exact h
  unfold runLoop
  split
  case h_6 => exact hturn _
  case h_7 => rfl
  case h_9 => exact hturn _
  all_goals exact h

structure MainNext (q : NodeThreads) : Prop where
  busy : 1 < q.main.togo
  ready : q.main = .waiting → q.ready = true

def Waits (q : NodeThreads) : Prop :=
  q.main = .pending ∧ q.pumps.stopper ≠ .resolved ∨ q.main = .joining ∧ q.stage.over = false

theorem Serving.startStop_cases (h : Serving handles q) (hnext : q.MainNext) (timedOut : Bool) :
    (q.startStop timedOut).main.togo + 1 = q.main.togo ∨
      timedOut = false ∧ q.Waits ∧ q.startStop timedOut = q := by
  have hbusy := hnext.busy
  have hregular := h.regular
  unfold NodeThreads.startStop
  split
  next hmain =>
    rw [hmain] at hregular
    cases hregular
  next hmain =>
    rw [if_pos h.ready, hmain]
    exact Or.inl rfl
  next hmain =>
    rw [hmain]
    exact Or.inl rfl
  next hmain =>
    have hpublished : q.published = true := h.published (by rw [hmain]; decide)
    rw [if_pos hpublished, if_neg (ne_true_of_eq_false h.closed), hmain]
    exact Or.inl rfl
  next hmain =>
    split_ifs with hresolved htimedOut
    · rw [hmain]
      exact Or.inl rfl
    · rw [hmain]
      exact Or.inl rfl
    · exact Or.inr ⟨eq_false_of_ne_true htimedOut, Or.inl ⟨hmain, hresolved⟩, rfl⟩
  next hmain =>
    rw [if_neg (ne_true_of_eq_false h.closed), hmain]
    exact Or.inl rfl
  next hmain =>
    split_ifs with hover
    · rw [hmain]
      exact Or.inl rfl
    · obtain ⟨hover, htimedOut⟩ := not_or.mp hover
      have hwaits : q.Waits := Or.inr ⟨hmain, eq_false_of_ne_true hover⟩
      exact Or.inr ⟨eq_false_of_ne_true htimedOut, hwaits, rfl⟩
  next hmain =>
    rw [hmain] at hbusy
    exact absurd hbusy (lt_irrefl _)
  next hmain =>
    rw [hmain] at hbusy
    exact absurd hbusy (Nat.not_lt_zero _)
  next hmain =>
    rw [hmain] at hregular
    cases hregular

theorem Over.startStop_cases (h : Over handles q) (hnext : q.MainNext) (timedOut : Bool) :
    (q.startStop timedOut).main.togo + 1 = q.main.togo ∨
      timedOut = false ∧ q.Waits ∧ q.startStop timedOut = q := by
  have hbusy := hnext.busy
  have hasked := h.asked
  cases hmain : q.main with
  | joining =>
    rw [NodeThreads.startStop, hmain]
    show (if q.stage.over ∨ timedOut then _ else q : NodeThreads).main.togo + 1 = _ ∨
      timedOut = false ∧ q.Waits ∧ (if q.stage.over ∨ timedOut then _ else q : NodeThreads) = q
    split_ifs with hover
    · exact Or.inl rfl
    · obtain ⟨hover, htimedOut⟩ := not_or.mp hover
      have hwaits : q.Waits := Or.inr ⟨hmain, eq_false_of_ne_true hover⟩
      exact Or.inr ⟨eq_false_of_ne_true htimedOut, hwaits, rfl⟩
  | stopped =>
    rw [hmain] at hbusy
    exact absurd hbusy (lt_irrefl _)
  | _ =>
    rw [hmain] at hasked
    cases hasked

theorem Booting.not_mainNext (h : Booting q) : ¬ q.MainNext := by
  intro hnext
  obtain hmain | hmain := h.main
  · exact absurd (hnext.ready hmain) (ne_true_of_eq_false h.ready)
  · have hbusy := hnext.busy
    rw [hmain] at hbusy
    exact absurd hbusy (Nat.not_lt_zero _)

theorem Sound.startStop_cases (h : Sound handles q) (hnext : q.MainNext) (timedOut : Bool) :
    (q.startStop timedOut).main.togo + 1 = q.main.togo ∨
      timedOut = false ∧ q.Waits ∧ q.startStop timedOut = q := by
  cases h with
  | unborn hstage hq hmain =>
    obtain hmain | hmain := hmain
    · rw [startStop, hmain]
      exact Or.inl rfl
    · have hbusy := hnext.busy
      rw [hmain] at hbusy
      exact absurd hbusy (Nat.not_lt_zero _)
  | booting h => exact absurd hnext h.not_mainNext
  | booted h => exact absurd hnext h.not_mainNext
  | starting h => exact absurd hnext h.not_mainNext
  | finishing h => exact absurd hnext h.not_mainNext
  | completed h => exact absurd hnext h.not_mainNext
  | serving _ h => exact h.startStop_cases hnext timedOut
  | settled h => exact h.startStop_cases hnext timedOut

theorem interrupt_cases (h : q.Uninterrupted .interrupt) :
    (q.interrupt.main.togo + 1 = q.main.togo ∧ 1 < q.main.togo) ∨ q.interrupt = q := by
  obtain hmain | hasked | hover := h
  · rw [interrupt, hmain]
    exact Or.inl ⟨rfl, by decide⟩
  · cases hmain : q.main with
    | joining =>
      rw [interrupt, hmain]
      exact Or.inl ⟨rfl, by decide⟩
    | stopped =>
      rw [interrupt, hmain]
      exact Or.inr rfl
    | _ =>
      rw [hmain] at hasked
      cases hasked
  · cases hmain : q.main with
    | abandoned =>
      rw [interrupt, hmain]
      exact Or.inr rfl
    | raised =>
      rw [interrupt, hmain]
      exact Or.inr rfl
    | _ =>
      rw [hmain] at hover
      cases hover

/-! ### The node ends -/

/-- Steps that help a thread on: for the main thread those at which it has waited long enough. -/
def NodeParty.Helps : NodeParty → NodeStep → Prop
  | .loop, .loop .. => True
  | .main, .main timedOut => timedOut = true
  | _, _ => False

/-- The loop thread is the one to act: the main thread waits for `ready` or has left `stop`. -/
def Alone (q : NodeThreads) : Prop := q.ready = false ∧ q.main = .waiting ∨ q.main = .stopped

instance (q : NodeThreads) : Decidable q.Alone := inferInstanceAs (Decidable (_ ∨ _))

def helper (q : NodeThreads) : NodeParty := if q.Alone then .loop else .main

/-- What is left of the main thread, and while the other is alone of that. -/
def outstanding (q : NodeThreads) : ℕ ×ₗ ℕ ×ₗ ℕ ×ₗ ℕ ×ₗ ℕ :=
  toLex (q.main.togo, if q.Alone then q.left else ⊥)

theorem outstanding_lt_of_main {q q' : NodeThreads} (h : q'.main.togo + 1 = q.main.togo) :
    q'.outstanding < q.outstanding :=
  Prod.Lex.toLex_lt_toLex.mpr (Or.inl (Nat.lt_of_succ_le h.le))

theorem startStop_of_alone (halone : q.Alone) (timedOut : Bool) : q.startStop timedOut = q := by
  obtain ⟨hready, hmain⟩ | hmain := halone
  · rw [startStop, hmain]
    show (if q.ready then _ else q) = q
    rw [if_neg (ne_true_of_eq_false hready)]
  · rw [startStop, hmain]

theorem mainNext_of_not_alone (hbusy : 0 < q.main.togo) (halone : ¬ q.Alone) : q.MainNext := by
  obtain ⟨hwaiting, hstopped⟩ := not_or.mp halone
  constructor
  · cases hmain : q.main with
    | stopped => exact absurd hmain hstopped
    | abandoned =>
      rw [hmain] at hbusy
      exact absurd hbusy (lt_irrefl _)
    | raised =>
      rw [hmain] at hbusy
      exact absurd hbusy (lt_irrefl _)
    | _ => decide
  · intro hmain
    by_contra hready
    exact hwaiting ⟨eq_false_of_ne_true hready, hmain⟩

theorem not_alone_runLoop (halone : ¬ q.Alone) : ¬ (q.runLoop handles done found).Alone := by
  rintro (⟨hready, hmain⟩ | hmain)
  · apply halone
    rw [runLoop_main] at hmain
    refine Or.inl ⟨?_, hmain⟩
    by_contra hset
    have hready' := runLoop_ready handles done found (eq_true_of_ne_false hset)
    exact absurd hready' (ne_true_of_eq_false hready)
  · rw [runLoop_main] at hmain
    exact halone (Or.inr hmain)

theorem outstanding_runLoop_lt (hsound : Sound handles q) (halone : q.Alone)
    (hclosed : q.stage ≠ .closed) :
    (q.runLoop handles done found).outstanding < q.outstanding := by
  have hworking : q.Working := by
    obtain hwaiting | hmain := halone
    · exact Or.inl hwaiting
    · exact Or.inr (by rw [hmain]; rfl)
  have hlower := left_runLoop_lt done found hsound hworking hclosed
  have hle : (if (q.runLoop handles done found).Alone then (q.runLoop handles done found).left
      else ⊥) ≤ (q.runLoop handles done found).left := by
    split_ifs
    · exact le_rfl
    · exact bot_le
  rw [outstanding, outstanding, runLoop_main, if_pos halone]
  exact Prod.Lex.toLex_lt_toLex.mpr (Or.inr ⟨rfl, hle.trans_lt hlower⟩)

theorem Sound.ended_of_closed (h : Sound handles q) (hclosed : q.stage = .closed) : q.Ended := by
  have hover : Over handles q := by
    cases h with
    | settled h => exact h
    | unborn hstage => rw [hclosed] at hstage; cases hstage
    | booting h => have hearly := h.stage; rw [hclosed] at hearly; cases hearly
    | booted h => have hearly := h.stage; rw [hclosed] at hearly; cases hearly
    | starting h => have hearly := h.stage; rw [hclosed] at hearly; cases hearly
    | finishing h => have hearly := h.stage; rw [hclosed] at hearly; cases hearly
    | completed h => have hearly := h.stage; rw [hclosed] at hearly; cases hearly
    | serving hstage =>
      rw [hclosed] at hstage
      obtain hstage | hstage := hstage
      · cases hstage
      · cases hstage
  obtain ⟨hclosing, -⟩ | hended := hover.stage
  · rw [hclosed] at hclosing
    cases hclosing
  · exact hended

theorem runLoop_of_closed (hclosed : q.stage = .closed) : q.runLoop handles done found = q := by
  rw [runLoop, hclosed]

theorem nears_end (q : NodeThreads) (a : NodeStep) (ha : q.Uninterrupted a)
    (hq : Sound handles q ∧ 0 < q.main.togo) :
    (machine handles).Nears NodeParty.Helps helper outstanding
      (fun q => Sound handles q ∧ 0 < q.main.togo) Ended q a := by
  obtain ⟨hsound, hbusy⟩ := hq
  have hsound' := sound_step q a hsound
  cases a with
  | loop done found =>
    have hmain : (q.step handles (.loop done found)).main = q.main := runLoop_main q
    have hbusy' : 0 < (q.step handles (.loop done found)).main.togo := by
      rw [hmain]
      exact hbusy
    by_cases halone : q.Alone
    · by_cases hclosed : q.stage = .closed
      · apply Machine.Nears.reaches
        show (q.runLoop handles done found).Ended
        rw [runLoop_of_closed hclosed]
        exact hsound.ended_of_closed hclosed
      · exact Machine.Nears.lowers ⟨hsound', hbusy'⟩
          (outstanding_runLoop_lt hsound halone hclosed)
    · have halone' : ¬ (q.step handles (.loop done found)).Alone := not_alone_runLoop halone
      have hsame : (q.step handles (.loop done found)).outstanding = q.outstanding := by
        rw [outstanding, outstanding, hmain, if_neg halone, if_neg halone']
      have hhelper : q.helper = .main := if_neg halone
      have hhelper' : (q.step handles (.loop done found)).helper = .main := if_neg halone'
      apply Machine.Nears.leaves ⟨hsound', hbusy'⟩ hsame.le (hhelper'.trans hhelper.symm)
      rw [hhelper]
      exact id
  | main timedOut =>
    by_cases halone : q.Alone
    · refine Machine.nears_of_same (startStop_of_alone halone timedOut) ⟨hsound, hbusy⟩ ?_
      have hhelper : q.helper = .loop := if_pos halone
      rw [hhelper]
      exact id
    · have hnext := mainNext_of_not_alone hbusy halone
      obtain hlower | ⟨rfl, -, hsame⟩ := hsound.startStop_cases hnext timedOut
      · have hbusy' : 0 < (q.startStop timedOut).main.togo := by
          have hlarge := hnext.busy
          omega
        exact Machine.Nears.lowers ⟨hsound', hbusy'⟩ (outstanding_lt_of_main hlower)
      · refine Machine.nears_of_same hsame ⟨hsound, hbusy⟩ ?_
        have hhelper : q.helper = .main := if_neg halone
        rw [hhelper]
        exact Bool.false_ne_true
  | interrupt =>
    obtain ⟨hlower, hlarge⟩ | hsame := interrupt_cases ha
    · have hbusy' : 0 < q.interrupt.main.togo := by omega
      exact Machine.Nears.lowers ⟨hsound', hbusy'⟩ (outstanding_lt_of_main hlower)
    · refine Machine.nears_of_same hsame ⟨hsound, hbusy⟩ ?_
      cases q.helper with
      | loop => exact id
      | main => exact id

/-! ### Interrupts -/

def Abandoned (q : NodeThreads) : Prop := q.main = .abandoned

theorem abandoned_step (q : NodeThreads) (a : NodeStep) (_ : True) (h : Abandoned q) :
    Abandoned (q.step handles a) := by
  cases a with
  | loop done found => exact (runLoop_main q).trans h
  | main timedOut =>
    show (q.startStop timedOut).main = .abandoned
    rw [startStop, h]
    exact h
  | interrupt =>
    show q.interrupt.main = .abandoned
    rw [interrupt, h]
    exact h

theorem abandoned_of_interrupted {a : NodeStep} (ha : ¬ q.Uninterrupted a) :
    Abandoned (q.step handles a) := by
  cases a with
  | loop done found => exact absurd trivial ha
  | main timedOut => exact absurd trivial ha
  | interrupt =>
    obtain ⟨hstarted, hrest⟩ := not_or.mp ha
    obtain ⟨hasked, hover⟩ := not_or.mp hrest
    show q.interrupt.main = .abandoned
    cases hmain : q.main with
    | started => exact absurd hmain hstarted
    | joining => exact absurd (by rw [hmain]; rfl) hasked
    | stopped => exact absurd (by rw [hmain]; rfl) hasked
    | abandoned => exact absurd (by rw [hmain]; rfl) hover
    | raised => exact absurd (by rw [hmain]; rfl) hover
    | _ => rw [interrupt, hmain]

def Asked (q : NodeThreads) : Prop := q.main.asked = true

theorem asked_step (q : NodeThreads) (a : NodeStep) (_ : True) (h : Asked q) :
    Asked (q.step handles a) := by
  unfold Asked at h
  cases a with
  | loop done found => exact (congrArg _ (runLoop_main q)).trans h
  | main timedOut =>
    show (q.startStop timedOut).main.asked = true
    cases hmain : q.main with
    | joining =>
      rw [startStop, hmain]
      show (if q.stage.over ∨ timedOut then _ else q : NodeThreads).main.asked = true
      split_ifs
      · rfl
      · exact h
    | stopped =>
      rw [startStop, hmain]
      exact h
    | _ =>
      rw [hmain] at h
      cases h
  | interrupt =>
    show q.interrupt.main.asked = true
    cases hmain : q.main with
    | joining => rw [interrupt, hmain]; rfl
    | stopped =>
      rw [interrupt, hmain]
      exact h
    | _ =>
      rw [hmain] at h
      cases h

variable {steps : ℕ → NodeStep}

/-- When both threads keep taking steps and no wait is for ever, the loop thread ends, its loop
closed, if and only if no interrupt takes the main thread out of `start` or out of a `stop` that
has not asked for it yet. -/
theorem ends_iff_uninterrupted (hfair : Machine.Fair NodeParty.Helps steps) :
    (∃ n, ((machine handles).path initial steps n).Ended) ↔
      ∀ n, ((machine handles).path initial steps n).Uninterrupted (steps n) := by
  constructor
  · rintro ⟨n, hended⟩ m
    by_contra hm
    have hsound : Sound handles ((machine handles).path initial steps n) :=
      Machine.path_keeps (fun q a (_ : True) => sound_step q a) (fun _ => trivial) sound_initial
        (Nat.zero_le n)
    have hasked : Asked ((machine handles).path initial steps n) :=
      (hsound.orderly.closed (Or.inr hended.1)).1
    have habandoned : Abandoned ((machine handles).path initial steps (m + 1)) :=
      abandoned_of_interrupted hm
    have hlast := Machine.path_keeps asked_step (fun _ => trivial) hasked (le_max_left n (m + 1))
    have hlost := Machine.path_keeps abandoned_step (fun _ => trivial) habandoned
      (le_max_right n (m + 1))
    rw [Asked, hlost] at hlast
    cases hlast
  · intro h
    have hinitial : Sound handles initial ∧ 0 < initial.main.togo := ⟨sound_initial, by decide⟩
    obtain ⟨n, -, hended⟩ := Machine.eventually_of_nears nears_end h hfair (n := 0) hinitial
    exact ⟨n, hended⟩

def inTurn (n : ℕ) : NodeStep := if n % 2 = 0 then .loop true [] else .main true

theorem inTurn_ends : ∃ n, ((machine 2).path initial inTurn n).Ended := by
  have hfair : Machine.Fair NodeParty.Helps inTurn := by
    intro t n
    cases t with
    | loop =>
      refine ⟨2 * n, by omega, ?_⟩
      rw [inTurn, if_pos (by omega)]
      exact trivial
    | main =>
      refine ⟨2 * n + 1, by omega, ?_⟩
      rw [inTurn, if_neg (by omega)]
      rfl
  apply (ends_iff_uninterrupted hfair).mpr
  intro n
  unfold inTurn
  split_ifs
  · exact trivial
  · exact trivial

end NodeThreads

end QuikSync.Pump

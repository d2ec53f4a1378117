import QuikSyncAdapters.Adapters
import QuikSyncAdapters.Pump.Deliveries
import QuikSyncAdapters.Pump.Subscriptions

/-! The dry runs of the adapters. A coroutine starts the pumps, waits for a first frame, stops the
pumps one after the other and returns an exit code; the tasks of the pumps go on in between. -/

namespace QuikSync.Pump

open Client Py

/-! ### The coroutine -/

/-- How long a dry run waits for a first frame. -/
structure Patience where
  Wait : Type
  -- the wait that begins once the pumps are started, if one begins
  enter (now check : ℚ) : Option Wait
  -- what is left of a wait, if anything, when there is no frame yet
  look (w : Wait) (check : ℚ) : Option Wait

/-- `deadline = loop.time() + timeout_seconds`, of the door and of the lift adapter. -/
def Patience.deadline (timeoutSeconds : ℚ) : Patience where
  Wait := ℚ
  enter now check := if now + timeoutSeconds ≤ check then none else some (now + timeoutSeconds)
  look deadline check := if deadline ≤ check then none else some deadline

/-- `for _ in range(30)`, of the fleet adapter. -/
def Patience.thirtyNaps : Patience where
  Wait := ℕ
  enter _ _ := some 30
  look naps _ := if naps ≤ 1 then none else some (naps - 1)

inductive DryStage (W : Type) where
  | created
  | waiting (w : W)
  | stopping (k : ℕ)
  | done (code : ℕ)

/-- `seen` counts the frames that the pumps have dispatched. -/
structure DryRun (W : Type) where
  world : PumpWorld
  seen : ℕ
  stage : DryStage W

inductive DryEvent where
  | arrive (t : ℕ) (i : WsInput) (accepts : Json × Dict → Bool)
  -- the coroutine goes on, with what it may read of the clock
  | main (now check : ℚ)

namespace DryRun

section Machine

variable (n : ℕ) (patience : Patience)

def new (ws : WsConfig) : DryRun patience.Wait := ⟨.new ws, 0, .created⟩

def halt {W : Type} (seen k : ℕ) : List PumpInput × DryStage W :=
  if k < n then ([.stop k], .stopping (k + 1)) else ([], .done (if 0 < seen then 0 else 2))

def watch {W : Type} (seen : ℕ) (wait : Option W) : List PumpInput × DryStage W :=
  match wait with
  | some w => if 0 < seen then halt n seen 0 else ([], .waiting w)
  | none => halt n seen 0

def act (q : DryRun patience.Wait) : DryEvent → List PumpInput × DryStage patience.Wait
  | .arrive t i accepts => ([.progress t i accepts], q.stage)
  | .main now check =>
    match q.stage with
    | .created =>
      let next := watch n q.seen (patience.enter now check)
      ((List.range n).map .start ++ next.1, next.2)
    | .waiting w => watch n q.seen (patience.look w check)
    | .stopping k => halt n q.seen k
    | .done code => ([], .done code)

variable (configs : ℕ → PumpConfig)

def perform {W : Type} (q : DryRun W) (next : List PumpInput × DryStage W) :
    DryRun W × List (PumpInput × List Delivery) :=
  let log := (pumpMachine configs).log q.world next.1
  (⟨(pumpMachine configs).after q.world next.1, q.seen + (log.flatMap Prod.snd).length, next.2⟩,
    log)

/-- `_run_dry` over `n` pumps. -/
def machine : Machine (DryRun patience.Wait) DryEvent (List (PumpInput × List Delivery)) where
  step q e := q.perform configs (q.act n patience e)

theorem drives : (machine n patience configs).Drives (pumpMachine configs) DryRun.world id := by
  intro q e
  have hlog : ((machine n patience configs).step q e).2 =
      (pumpMachine configs).log q.world (q.act n patience e).1 := rfl
  rw [hlog, id, Machine.log_map_fst]
  exact ⟨rfl, rfl⟩

theorem perform_append {W : Type} (q : DryRun W) (is js : List PumpInput)
    (between stage : DryStage W) :
    (q.perform configs (is ++ js, stage)).1 =
      ((q.perform configs (is, between)).1.perform configs (js, stage)).1 := by
  unfold perform
  dsimp only
  rw [Machine.after_append, Machine.log_append, List.flatMap_append, List.length_append,
    Nat.add_assoc]

end Machine

/-! ### The tasks of the pumps -/

structure Tended (n k : ℕ) (w : PumpWorld) : Prop where
  count : w.tasks.length = n
  stopped : ∀ p < k, ∀ task, w.tasks[p]? = some task → task.done = true
  held : ∀ p, k ≤ p → p < n → (w.pumps p).task = some p

variable {n k : ℕ} {w : PumpWorld} {configs : ℕ → PumpConfig}

theorem cancel_done (c : QuikSyncWsClient) (task : Task) :
    (PumpWorld.cancel c task).done = true := by
  unfold PumpWorld.cancel
  split_ifs with hdone
  · exact hdone
  · have hcancel : (task.subscription.step c .cancel).subscription.phase.finished = true := by
      show (if task.subscription.phase.finished then (⟨c, task.subscription, []⟩ : WsStep)
        else _).subscription.phase.finished = true
      split_ifs with hfinished
      · exact hfinished
      · rfl
    unfold Task.done
    rw [hcancel, Bool.or_true]

theorem tended_stop (h : Tended n k w) (hk : k < n) : Tended n (k + 1) (w.stop k) := by
  have htask := h.held k le_rfl hk
  have htasks : (w.stop k).tasks = w.tasks.modify k (PumpWorld.cancel w.client.close) := by
    unfold PumpWorld.stop
    rw [htask]
  refine ⟨?_, ?_, ?_⟩
  · rw [htasks, List.length_modify]
    exact h.count
  · intro p hp task hget
    rw [htasks, List.getElem?_modify] at hget
    obtain ⟨old, hold, hnew⟩ := Option.map_eq_some_iff.mp hget
    by_cases hpk : k = p
    · rw [if_pos hpk] at hnew
      rw [← hnew]
      exact cancel_done _ old
    · rw [if_neg hpk] at hnew
      rw [← hnew]
      exact h.stopped p (by omega) old hold
  · intro p hp hpn
    have hne : p ≠ k := by omega
    show (Function.update w.pumps k _ p).task = some p
    rw [Function.update_of_ne hne]
    exact h.held p (by omega) hpn

theorem tended_progress (hcloses : w.StopCloses) (h : Tended n k w) (t : ℕ) (i : WsInput)
    (accepts : Json × Dict → Bool) :
    Tended n k ((pumpMachine configs).step w (.progress t i accepts)).1 := by
  -- Of a pump only the counters change.
  have hkept : ∀ p, (((pumpMachine configs).step w (.progress t i accepts)).1.pumps p).task =
      (w.pumps p).task := by
    intro p
    have hprogressed := progressed configs hcloses t i accepts
    generalize (pumpMachine configs).step w (.progress t i accepts) = r at hprogressed ⊢
    obtain ⟨w', ds⟩ := r
    cases hprogressed with
    | silent hpumps hheard => rw [hpumps]
    | frame hpumps hheard =>
      rename_i d
      rw [hpumps]
      rcases eq_or_ne p d.pump with rfl | hne
      · rw [Function.update_self]
        rfl
      · rw [Function.update_of_ne hne]
  have htasks : ((pumpMachine configs).step w (.progress t i accepts)).1.tasks = w.tasks ∨
      ∃ task new, w.tasks[t]? = some task ∧ task.done = false ∧
        ((pumpMachine configs).step w (.progress t i accepts)).1.tasks = w.tasks.set t new := by
    dsimp only [pumpMachine]
    split
    · exact Or.inl rfl
    rename_i task hget
    split_ifs with hdone
    · exact Or.inl rfl
    · obtain ⟨pumps, left, hnext⟩ := progress_eq_set configs w t task i accepts
      have hnew := congrArg PumpWorld.tasks hnext
      exact Or.inr ⟨task, _, hget, Bool.eq_false_iff.mpr hdone, hnew⟩
  refine ⟨?_, ?_, fun p hk hn => (hkept p).trans (h.held p hk hn)⟩
  · obtain hsame | ⟨_, new, -, -, hset⟩ := htasks
    · rw [hsame]
      exact h.count
    · rw [hset, List.length_set]
      exact h.count
  · intro p hp task' hget'
    obtain hsame | ⟨task, new, hget, hopen, hset⟩ := htasks
    · exact h.stopped p hp task' (hsame ▸ hget')
    · have hne : t ≠ p := by
        rintro rfl
        exact Bool.false_ne_true (hopen.symm.trans (h.stopped t hp task hget))
      rw [hset, List.getElem?_set_ne hne] at hget'
      exact h.stopped p hp task' hget'

structure Unstarted (k : ℕ) (w : PumpWorld) : Prop where
  tended : Tended k 0 w
  free : ∀ p, k ≤ p → (w.pumps p).task = none

theorem unstarted_start (h : Unstarted k w) : Unstarted (k + 1) (w.start configs k) := by
  have hidle : w.running k = false := by
    unfold PumpWorld.running
    rw [h.free k le_rfl]
    rfl
  have hstart : w.start configs k =
      { w with
        pumps := Function.update w.pumps k
          { w.pumps k with stopRequested := false, task := some w.tasks.length }
        tasks := w.tasks ++
          [⟨k, .new w.client.config (configs k).path (configs k).scope, false⟩] } :=
    if_neg (by rw [hidle]; exact Bool.false_ne_true)
  rw [hstart]
  refine ⟨⟨?_, fun p hp => absurd hp (Nat.not_lt_zero p), ?_⟩, ?_⟩
  · rw [List.length_append, h.tended.count]
    rfl
  · intro p _ hp
    dsimp only
    by_cases hpk : p = k
    · subst hpk
      rw [Function.update_self, h.tended.count]
    · rw [Function.update_of_ne hpk]
      exact h.tended.held p (Nat.zero_le p) (by omega)
  · intro p hp
    dsimp only
    rw [Function.update_of_ne (by omega)]
    exact h.free p (by omega)

variable (configs) in
theorem tended_starts (n : ℕ) (ws : WsConfig) :
    Unstarted n ((pumpMachine configs).after (.new ws) ((List.range n).map .start)) := by
  induction n with
  | zero => exact ⟨⟨rfl, fun p hp => absurd hp (Nat.not_lt_zero p), fun p _ hp =>
      absurd hp (Nat.not_lt_zero p)⟩, fun _ _ => rfl⟩
  | succ n ih =>
    rw [List.range_succ, List.map_append, Machine.after_append]
    exact unstarted_start ih

/-! ### The stages -/

section Run

def AtStage {W : Type} (ws : WsConfig) (n : ℕ) (q : DryRun W) : Prop :=
  match q.stage with
  | .created => q.world = .new ws ∧ q.seen = 0
  | .waiting _ => Tended n 0 q.world
  | .stopping k => k ≤ n ∧ q.world.client.closed = true ∧ Tended n k q.world
  | .done code => q.world.client.closed = true ∧ Tended n n q.world ∧
      code = if 0 < q.seen then 0 else 2

structure Settled {W : Type} (ws : WsConfig) (n : ℕ) (q : DryRun W) : Prop where
  closes : q.world.StopCloses
  stage : AtStage ws n q

variable {ws : WsConfig} {W : Type} {q : DryRun W}

theorem settled_halt (hn : 0 < n) (hcloses : q.world.StopCloses) (htended : Tended n k q.world)
    (hk : k ≤ n) (hclosed : k = 0 ∨ q.world.client.closed = true) :
    Settled ws n (q.perform configs (halt n q.seen k)).1 := by
  unfold halt
  by_cases hnext : k < n
  · rw [if_pos hnext]
    have hstop : ((pumpMachine configs).step q.world (.stop k)).1.StopCloses :=
      stopCloses_step hcloses _
    exact ⟨hstop, hnext, rfl, tended_stop htended hnext⟩
  · rw [if_neg hnext]
    obtain rfl : k = n := by omega
    exact ⟨hcloses, hclosed.resolve_left (by omega), htended, rfl⟩

theorem settled_watch (hn : 0 < n) (hcloses : q.world.StopCloses) (htended : Tended n 0 q.world)
    (wait : Option W) : Settled ws n (q.perform configs (watch n q.seen wait)).1 := by
  have hhalt : Settled ws n (q.perform configs (halt n q.seen 0)).1 :=
    settled_halt hn hcloses htended (Nat.zero_le n) (Or.inl rfl)
  unfold watch
  cases wait with
  | none => exact hhalt
  | some w =>
    dsimp only
    split_ifs
    · exact hhalt
    · exact ⟨hcloses, htended⟩

theorem stopCloses_after (is : List PumpInput) (hcloses : w.StopCloses) :
    ((pumpMachine configs).after w is).StopCloses :=
  Machine.after_invariant (P := PumpWorld.StopCloses) (fun _ i h => stopCloses_step h i) hcloses is

theorem trace_starts (w : PumpWorld) (names : List ℕ) :
    ((pumpMachine configs).log w (names.map .start)).flatMap Prod.snd = [] := by
  induction names generalizing w with
  | nil => rfl
  | cons p names ih =>
    rw [List.map_cons, Machine.log_cons, List.flatMap_cons, ih]
    rfl

end Run

section Steps

variable {patience : Patience} {ws : WsConfig} {q : DryRun patience.Wait}

theorem settled_main (hn : 0 < n) (h : Settled ws n q) (now check : ℚ) :
    Settled ws n ((machine n patience configs).step q (.main now check)).1 := by
  obtain ⟨world, seen, stage⟩ := q
  obtain ⟨hcloses, hstage⟩ := h
  cases stage with
  | created =>
    obtain ⟨rfl, rfl⟩ : world = .new ws ∧ seen = 0 := hstage
    have hstarted := (tended_starts configs n ws).tended
    show Settled ws n (perform configs _ ((List.range n).map .start ++
      (watch n 0 (patience.enter now check)).1, (watch n 0 (patience.enter now check)).2)).1
    -- Starting suspends nowhere, so the first look comes in the same step.
    rw [perform_append configs _ _ _ .created]
    set started := (perform configs (⟨.new ws, 0, .created⟩ : DryRun patience.Wait)
      ((List.range n).map .start, .created)).1
    have hseen : started.seen = 0 := by
      show 0 + (((pumpMachine configs).log _ ((List.range n).map .start)).flatMap _).length = 0
      rw [trace_starts]
      rfl
    have hclosed : started.world.StopCloses :=
      stopCloses_after ((List.range n).map .start) hcloses
    have hwatch : Settled ws n (started.perform configs
        (watch n started.seen (patience.enter now check))).1 :=
      settled_watch hn hclosed hstarted _
    rw [hseen] at hwatch
    exact hwatch
  | waiting w => exact settled_watch hn hcloses hstage _
  | stopping k => exact settled_halt hn hcloses hstage.2.2 hstage.1 (Or.inr hstage.2.1)
  | done code => exact ⟨hcloses, hstage⟩

theorem settled_arrive (h : Settled ws n q) (t : ℕ) (i : WsInput)
    (accepts : Json × Dict → Bool) :
    Settled ws n ((machine n patience configs).step q (.arrive t i accepts)).1 := by
  obtain ⟨world, seen, stage⟩ := q
  obtain ⟨hcloses, hstage⟩ := h
  have hnext : ((pumpMachine configs).step world (.progress t i accepts)).1.StopCloses :=
    stopCloses_step hcloses _
  cases stage with
  | created =>
    obtain ⟨rfl, rfl⟩ : world = .new ws ∧ seen = 0 := hstage
    exact ⟨hcloses, rfl, rfl⟩
  | waiting w => exact ⟨hnext, tended_progress hcloses hstage t i accepts⟩
  | stopping k =>
    obtain ⟨hk, hclosed, htended⟩ := hstage
    exact ⟨hnext, hk, (step_of_closed configs hclosed _).1,
      tended_progress hcloses htended t i accepts⟩
  | done code =>
    -- The client is closed, so the count that the code was read from stays.
    obtain ⟨hclosed, htended, hcode⟩ := hstage
    obtain ⟨hstays, hsilent⟩ := step_of_closed configs hclosed (.progress t i accepts)
    refine ⟨hnext, hstays, tended_progress hcloses htended t i accepts, ?_⟩
    show code = if 0 < seen + ([(_, ((pumpMachine configs).step world _).2)].flatMap
      Prod.snd).length then 0 else 2
    rw [hsilent]
    exact hcode

theorem settled_run (hn : 0 < n) (events : List DryEvent) :
    Settled ws n ((machine n patience configs).after (new patience ws) events) := by
  refine Machine.after_invariant (P := Settled ws n) (fun q e h => ?_) ?_ events
  · cases e with
    | arrive t i accepts => exact settled_arrive h t i accepts
    | main now check => exact settled_main hn h now check
  · exact ⟨stopCloses_new ws, rfl, rfl⟩

end Steps

section Verdict

variable (n) (patience : Patience) (configs) (ws : WsConfig) (events : List DryEvent)

def inputs : List PumpInput :=
  (((machine n patience configs).answers (new patience ws) events).flatMap id).map Prod.fst

def HeardFrame : Prop :=
  ∃ p frame, (p, .loaded (.obj frame)) ∈ heardBy configs ws (inputs n configs patience ws events)

theorem seen_after (q : DryRun patience.Wait) :
    ((machine n patience configs).after q events).seen = q.seen +
      ((((machine n patience configs).answers q events).flatMap id).flatMap Prod.snd).length := by
  induction events generalizing q with
  | nil => rfl
  | cons e events ih =>
    rw [Machine.after_cons, ih]
    show q.seen + _ + _ = q.seen + (((_ :: _).flatMap id).flatMap Prod.snd).length
    rw [List.flatMap_cons, List.flatMap_append, List.length_append, Nat.add_assoc]
    rfl

theorem seen_pos_iff :
    0 < ((machine n patience configs).after (new patience ws) events).seen ↔
      HeardFrame n configs patience ws events := by
  have hdriven := ((drives n patience configs).run (new patience ws) events).1
  have hseen := seen_after n configs patience events (new patience ws)
  rw [hdriven] at hseen
  have htrace : ((pumpMachine configs).log (.new ws)
      (inputs n configs patience ws events)).flatMap Prod.snd =
        (heardBy configs ws (inputs n configs patience ws events)).filterMap
          (deliver configs) := by
    rw [← trace_eq_heard]
    exact List.flatMap_def ..
  have hcount : ((machine n patience configs).after (new patience ws) events).seen =
      ((heardBy configs ws (inputs n configs patience ws events)).filterMap
        (deliver configs)).length := by
    rw [← htrace]
    exact hseen.trans (Nat.zero_add _)
  rw [hcount, List.length_pos_iff_exists_mem]
  constructor
  · rintro ⟨d, hd⟩
    obtain ⟨e, he, hdeliver⟩ := List.mem_filterMap.mp hd
    obtain ⟨frame, rfl, -⟩ := deliver_eq_some.mp hdeliver
    exact ⟨_, frame, he⟩
  · rintro ⟨p, frame, he⟩
    exact ⟨_, List.mem_filterMap.mpr ⟨_, he, rfl⟩⟩

end Verdict

/-! ### The end -/

section End

variable (n) (patience : Patience)

def readings (events : List DryEvent) : List (ℚ × ℚ) :=
  events.filterMap fun
    | .main now check => some (now, check)
    | .arrive .. => none

/-- The wait is over after some of the readings, and each pump has one more. -/
def Outlasts : Option patience.Wait → List (ℚ × ℚ) → Prop
  | none, rest => n ≤ rest.length
  | some _, [] => False
  | some w, c :: rest => Outlasts (patience.look w c.2) rest

def Enough : DryStage patience.Wait → List (ℚ × ℚ) → Prop
  | .created, c :: rest => Outlasts n patience (patience.enter c.1 c.2) rest
  | .created, [] => False
  | .waiting w, rest => Outlasts n patience (some w) rest
  | .stopping k, rest => n + 1 ≤ rest.length + k
  | .done _, _ => True

variable {n patience} {q : DryRun patience.Wait}

theorem le_of_outlasts {wait : Option patience.Wait} {rest : List (ℚ × ℚ)}
    (h : Outlasts n patience wait rest) : n ≤ rest.length := by
  induction rest generalizing wait with
  | nil =>
    cases wait with
    | none => exact h
    | some w => exact h.elim
  | cons c rest ih =>
    cases wait with
    | none => exact h
    | some w => exact (ih h).trans (Nat.le_succ _)

theorem outlasts_none {rest : List (ℚ × ℚ)} (h : n ≤ rest.length) :
    Outlasts n patience none rest := by
  cases rest with
  | nil => exact h
  | cons c rest => exact h

theorem enough_halt {seen k : ℕ} {rest : List (ℚ × ℚ)} (h : n ≤ rest.length + k) :
    Enough n patience (halt n seen k).2 rest := by
  unfold halt
  by_cases hk : k < n
  · rw [if_pos hk]
    show n + 1 ≤ rest.length + (k + 1)
    omega
  · rw [if_neg hk]
    trivial

theorem enough_watch {seen : ℕ} {wait : Option patience.Wait} {rest : List (ℚ × ℚ)}
    (h : Outlasts n patience wait rest) : Enough n patience (watch n seen wait).2 rest := by
  have hhalt : Enough n patience (halt n seen 0).2 rest := enough_halt (le_of_outlasts h)
  unfold watch
  cases wait with
  | none => exact hhalt
  | some w =>
    dsimp only
    split_ifs
    · exact hhalt
    · exact h

theorem enough_main {now check : ℚ} {rest : List (ℚ × ℚ)}
    (h : Enough n patience q.stage ((now, check) :: rest)) :
    Enough n patience (q.act n patience (.main now check)).2 rest := by
  unfold act
  cases hstage : q.stage with
  | created =>
    rw [hstage] at h
    exact enough_watch h
  | waiting w =>
    rw [hstage] at h
    exact enough_watch h
  | stopping k =>
    rw [hstage] at h
    have hle : n + 1 ≤ rest.length + 1 + k := h
    exact enough_halt (by omega)
  | done code => trivial

theorem enough_after {events : List DryEvent}
    (h : Enough n patience q.stage (readings events)) :
    Enough n patience ((machine n patience configs).after q events).stage [] := by
  induction events generalizing q with
  | nil => exact h
  | cons e events ih =>
    rw [Machine.after_cons]
    apply ih
    cases e with
    | arrive t i accepts => exact h
    | main now check => exact enough_main h

theorem ends_of_enough (hn : 0 < n) {ws : WsConfig} {events : List DryEvent}
    (h : Enough n patience .created (readings events)) :
    ∃ code, ((machine n patience configs).after (new patience ws) events).stage = .done code := by
  have hsettled : AtStage ws n ((machine n patience configs).after (new patience ws) events) :=
    (settled_run hn events).stage
  have hend : Enough n patience
      ((machine n patience configs).after (new patience ws) events).stage [] := enough_after h
  unfold AtStage at hsettled
  generalize ((machine n patience configs).after (new patience ws) events) = r at hsettled hend ⊢
  cases hstage : r.stage with
  | created =>
    rw [hstage] at hend
    exact hend.elim
  | waiting w =>
    rw [hstage] at hend
    exact hend.elim
  | stopping k =>
    rw [hstage] at hend hsettled
    have hk : k ≤ n := hsettled.1
    have hlong : n + 1 ≤ 0 + k := hend
    omega
  | done code => exact ⟨code, rfl⟩

end End

/-! ### The dry runs of the three adapters -/

/-- What a dry run over `n` pumps comes to, in every run that has `enough` readings. -/
structure RunsDry (n : ℕ) (configs : ℕ → PumpConfig) (patience : Patience) (ws : WsConfig)
    (enough : List (ℚ × ℚ) → Prop) : Prop where
  verdict : ∀ events code,
    ((machine n patience configs).after (new patience ws) events).stage = .done code →
      (code = 0 ∧ HeardFrame n configs patience ws events) ∨
        (code = 2 ∧ ¬ HeardFrame n configs patience ws events)
  cleaned : ∀ events code,
    ((machine n patience configs).after (new patience ws) events).stage = .done code →
      ((machine n patience configs).after (new patience ws) events).world.client.closed = true ∧
        ∀ task ∈ ((machine n patience configs).after (new patience ws) events).world.tasks,
          task.done = true
  ends : ∀ events, enough (readings events) →
    ∃ code, ((machine n patience configs).after (new patience ws) events).stage = .done code

section Adapters

variable (configs) (ws : WsConfig)

theorem runs_dry (patience : Patience) (hn : 0 < n) {enough : List (ℚ × ℚ) → Prop}
    (henough : ∀ cs, enough cs → Enough n patience .created cs) :
    RunsDry n configs patience ws enough where
  verdict events code hdone := by
    have hstage : AtStage ws n ((machine n patience configs).after (new patience ws) events) :=
      (settled_run hn events).stage
    unfold AtStage at hstage
    rw [hdone] at hstage
    have hcode := hstage.2.2
    have hseen := seen_pos_iff n configs patience ws events
    by_cases hheard : HeardFrame n configs patience ws events
    · rw [if_pos (hseen.mpr hheard)] at hcode
      exact Or.inl ⟨hcode, hheard⟩
    · rw [if_neg (mt hseen.mp hheard)] at hcode
      exact Or.inr ⟨hcode, hheard⟩
  cleaned events code hdone := by
    have hstage : AtStage ws n ((machine n patience configs).after (new patience ws) events) :=
      (settled_run hn events).stage
    unfold AtStage at hstage
    rw [hdone] at hstage
    obtain ⟨hclosed, htended, -⟩ := hstage
    refine ⟨hclosed, fun task htask => ?_⟩
    obtain ⟨p, hp⟩ := List.mem_iff_getElem?.mp htask
    have hlt := (List.getElem?_eq_some_iff.mp hp).1
    rw [htended.count] at hlt
    exact htended.stopped p hlt task hp
  ends events hevents := ends_of_enough hn (henough _ hevents)

end Adapters

/-- A reading after the first reaches the deadline, and `n` more follow. -/
def PastDeadline (timeoutSeconds : ℚ) (n : ℕ) (cs : List (ℚ × ℚ)) : Prop :=
  ∃ first before late rest, cs = first :: (before ++ late :: rest) ∧
    first.1 + timeoutSeconds ≤ late.2 ∧ n ≤ rest.length

theorem outlasts_deadline {timeoutSeconds deadline : ℚ} {before rest : List (ℚ × ℚ)}
    {late : ℚ × ℚ} (hlate : deadline ≤ late.2) (hrest : n ≤ rest.length) :
    Outlasts n (.deadline timeoutSeconds) (some deadline) (before ++ late :: rest) := by
  induction before with
  | nil =>
    show Outlasts n (.deadline timeoutSeconds)
      (if deadline ≤ late.2 then none else some deadline) rest
    rw [if_pos hlate]
    exact outlasts_none hrest
  | cons c before ih =>
    show Outlasts n (.deadline timeoutSeconds)
      (if deadline ≤ c.2 then none else some deadline) (before ++ late :: rest)
    split_ifs
    · exact outlasts_none (le_of_outlasts ih)
    · exact ih

theorem enough_pastDeadline (timeoutSeconds : ℚ) (n : ℕ) (cs : List (ℚ × ℚ))
    (h : PastDeadline timeoutSeconds n cs) : Enough n (.deadline timeoutSeconds) .created cs := by
  obtain ⟨first, before, late, rest, rfl, hlate, hrest⟩ := h
  have houtlasts := @outlasts_deadline n timeoutSeconds _ before rest late hlate hrest
  show Outlasts n (.deadline timeoutSeconds)
    (if first.1 + timeoutSeconds ≤ first.2 then none else some (first.1 + timeoutSeconds))
    (before ++ late :: rest)
  split_ifs
  · exact outlasts_none (le_of_outlasts houtlasts)
  · exact houtlasts

theorem outlasts_naps {naps : ℕ} {rest : List (ℚ × ℚ)} (hnaps : 0 < naps)
    (h : naps + n ≤ rest.length) : Outlasts n .thirtyNaps (some naps) rest := by
  induction rest generalizing naps with
  | nil =>
    have hle : naps + n ≤ 0 := h
    omega
  | cons c rest ih =>
    rw [List.length_cons] at h
    show Outlasts n .thirtyNaps (if naps ≤ 1 then none else some (naps - 1)) rest
    split_ifs with hlast
    · exact outlasts_none (by omega)
    · exact ih (by omega) (by omega)

theorem enough_naps (cs : List (ℚ × ℚ)) (h : 32 ≤ cs.length) :
    Enough 1 .thirtyNaps .created cs := by
  cases cs with
  | nil => exact absurd h (by decide)
  | cons c rest => exact outlasts_naps (by decide) (Nat.le_of_succ_le_succ h)

structure DryRunsSound (env : LoadEnv) (ws : WsConfig) : Prop where
  door : ∀ data config timeoutSeconds, DoorAdapterConfig.fromDict env data = .ok config →
    RunsDry config.doors.length (pumpFor config.doors fun door => doorStatePump door none)
      (.deadline timeoutSeconds) ws (PastDeadline timeoutSeconds config.doors.length)
  lift : ∀ data config timeoutSeconds, LiftAdapterConfig.fromDict env data = .ok config →
    RunsDry config.lifts.length (pumpFor config.lifts fun lift => liftStatePump lift none)
      (.deadline timeoutSeconds) ws (PastDeadline timeoutSeconds config.lifts.length)
  fleet : ∀ fleetName scope,
    RunsDry 1 (fun _ => fleetStatePump fleetName scope) .thirtyNaps ws fun cs => 32 ≤ cs.length

theorem dry_runs_sound (env : LoadEnv) (ws : WsConfig) : DryRunsSound env ws where
  door _ config timeoutSeconds hload := by
    have hdoors : 0 < config.doors.length := List.length_pos_iff.mpr (doors_ne_nil hload)
    exact runs_dry _ ws _ hdoors (enough_pastDeadline timeoutSeconds _)
  lift _ config timeoutSeconds hload := by
    have hlifts : 0 < config.lifts.length := List.length_pos_iff.mpr (lifts_ne_nil hload)
    exact runs_dry _ ws _ hlifts (enough_pastDeadline timeoutSeconds _)
  fleet fleetName scope := runs_dry _ ws _ Nat.one_pos enough_naps

end DryRun

end QuikSync.Pump

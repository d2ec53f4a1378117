import QuikSyncAdapters.Pump.StatePump

/-! The lifecycle of the pumps of one client. A pump that is stopped closes the client for all
of them, and nothing opens it again. -/

namespace QuikSync.Pump

open Client Py

/-! ### What a step yields -/

section Yield

variable {c : QuikSyncWsClient} {s : Subscription}

theorem yielded_append (effects more : List WsEffect) :
    yielded (effects ++ more) = (yielded effects).or (yielded more) := List.findSome?_append

theorem yielded_backOff (random : Draw) {effects : List WsEffect} (h : yielded effects = none) :
    yielded (s.backOff c random effects).effects = none := by
  unfold Subscription.backOff
  split
  · exact h
  · rw [yielded_append, h]
    rfl

theorem yielded_connect (token : Except Exc String) :
    yielded (s.connect c token).effects = none := by
  unfold Subscription.connect
  split
  · rfl
  · cases token <;> rfl

theorem yielded_invalidStatus (status : ℕ) (now : ℚ) (refresh : Except Exc String)
    (random : Draw) : yielded (s.invalidStatus c status now refresh random).effects = none := by
  unfold Subscription.invalidStatus
  dsimp only
  split
  · split
    · rfl
    · cases refresh <;> exact yielded_backOff random rfl
  · exact yielded_backOff random rfl

theorem step_yielded {i : WsInput} {frame : Dict} (h : yielded (s.step c i).effects = some frame) :
    c.closed = false ∧ s.phase = .streaming ∧ i = .message (.loaded (.obj frame)) := by
  have hsilent : ∀ {effects}, yielded effects = none → yielded effects = some frame → False :=
    fun hnone hsome => nomatch hnone.symm.trans hsome
  unfold Subscription.step at h
  split at h
  · exact (hsilent (yielded_connect _) h).elim
  · exact (hsilent (yielded_connect _) h).elim
  · exact nomatch h
  · exact (hsilent (yielded_invalidStatus ..) h).elim
  · exact (hsilent (yielded_backOff _ rfl) h).elim
  · exact (hsilent (yielded_backOff _ rfl) h).elim
  · rename_i decoded hphase
    unfold Subscription.receive at h
    cases hclosed : c.closed with
    | true =>
      rw [hclosed] at h
      exact nomatch h
    | false =>
      rw [hclosed] at h
      cases decoded with
      | loaded v =>
        cases v with
        | obj members =>
          obtain rfl := Option.some.inj h
          exact ⟨rfl, hphase, rfl⟩
        | _ => exact nomatch h
      | jsonDecodeError => exact nomatch h
      | raised e => exact nomatch h
  · exact (hsilent (yielded_backOff _ rfl) h).elim
  · split at h <;> exact nomatch h
  · exact nomatch h

theorem step_message (hopen : c.closed = false) (hphase : s.phase = .streaming) (frame : Dict) :
    s.step c (.message (.loaded (.obj frame))) = ⟨c, s, [.yield frame]⟩ := by
  unfold Subscription.step
  rw [hphase]
  simp only [Subscription.receive, hopen]
  rfl

end Yield

/-! ### A closed client -/

section Closed

variable (configs : ℕ → PumpConfig)

theorem progress_client (w : PumpWorld) (t : ℕ) (task : Task) (i : WsInput)
    (accepts : Json × Dict → Bool) :
    (w.progress configs t task i accepts).1.client = (task.subscription.step w.client i).client := by
  unfold PumpWorld.progress
  dsimp only
  split
  · rfl
  · split <;> rfl

theorem step_of_closed {w : PumpWorld} (hclosed : w.client.closed = true) (i : PumpInput) :
    ((pumpMachine configs).step w i).1.client.closed = true ∧
      ((pumpMachine configs).step w i).2 = [] := by
  cases i with
  | start p =>
    refine ⟨?_, rfl⟩
    show (w.start configs p).client.closed = true
    unfold PumpWorld.start
    split <;> exact hclosed
  | stop p => exact ⟨rfl, rfl⟩
  | progress t i accepts =>
    dsimp only [pumpMachine]
    split
    · exact ⟨hclosed, rfl⟩
    split
    · exact ⟨hclosed, rfl⟩
    rename_i task _ _
    refine ⟨?_, ?_⟩
    · rw [progress_client, Subscription.step_closed]
      exact hclosed
    · have hsilent : yielded (task.subscription.step w.client i).effects = none := by
        by_contra hsome
        obtain ⟨frame, hframe⟩ := Option.ne_none_iff_exists'.mp hsome
        exact absurd (hclosed.symm.trans (step_yielded hframe).1) (by decide)
      unfold PumpWorld.progress
      dsimp only
      rw [hsilent]

theorem trace_of_closed {w : PumpWorld} (hclosed : w.client.closed = true) (is : List PumpInput) :
    (pumpMachine configs).trace w is = [] := by
  induction is generalizing w with
  | nil => rfl
  | cons i is ih =>
    obtain ⟨hnext, hsilent⟩ := step_of_closed configs hclosed i
    rw [Machine.trace_cons, hsilent, ih hnext]
    rfl

theorem closed_of_stop (w : PumpWorld) {is : List PumpInput} {p : ℕ} (hstop : .stop p ∈ is) :
    ((pumpMachine configs).after w is).client.closed = true := by
  induction is generalizing w with
  | nil => exact absurd hstop List.not_mem_nil
  | cons i is ih =>
    rcases List.mem_cons.mp hstop with rfl | htail
    · exact Machine.after_invariant (P := fun w : PumpWorld => w.client.closed = true)
        (fun w i h => (step_of_closed configs h i).1) rfl is
    · exact ih _ htail

end Closed

def offer (t : ℕ) (token : String) (accepts : Json × Dict → Bool) (frames : List Dict) :
    List PumpInput :=
  .progress t (.resume (.ok token)) accepts :: .progress t .handshake accepts ::
    frames.map fun frame => .progress t (.message (.loaded (.obj frame))) accepts

def deliveries (configs : ℕ → PumpConfig) (w : PumpWorld) (p : ℕ) (token : String)
    (accepts : Json × Dict → Bool) (frames : List Dict) : List Dict :=
  (List.range w.tasks.length).flatMap fun t =>
    ((pumpMachine configs).trace w (offer t token accepts frames)).filterMap fun d =>
      if d.pump = p then some d.frame else none

theorem deliveries_of_closed (configs : ℕ → PumpConfig) {w : PumpWorld}
    (hclosed : w.client.closed = true) (p : ℕ) (token : String) (accepts : Json × Dict → Bool)
    (frames : List Dict) : deliveries configs w p token accepts frames = [] := by
  unfold deliveries
  rw [List.flatMap_eq_nil_iff]
  intro t _
  rw [trace_of_closed configs hclosed]
  rfl

/-! ### An open client -/

section Open

variable (configs : ℕ → PumpConfig)

structure Holds (w : PumpWorld) (t p : ℕ) (s : Subscription) : Prop where
  isOpen : w.client.closed = false
  wanted : (w.pumps p).stopRequested = false
  task : w.tasks[t]? = some ⟨p, s, false⟩

theorem getElem?_set_self_of_some {tasks : List Task} {t : ℕ} {old : Task}
    (h : tasks[t]? = some old) (new : Task) : (tasks.set t new)[t]? = some new := by
  obtain ⟨ht, -⟩ := List.getElem?_eq_some_iff.mp h
  rw [List.getElem?_set_self ht]

theorem step_progress {w : PumpWorld} {t p : ℕ} {s : Subscription} (h : Holds w t p s)
    (halive : s.phase.finished = false) (i : WsInput) (accepts : Json × Dict → Bool) :
    (pumpMachine configs).step w (.progress t i accepts) =
      w.progress configs t ⟨p, s, false⟩ i accepts := by
  have hdone : (⟨p, s, false⟩ : Task).done = false := halive
  dsimp only [pumpMachine]
  rw [h.task]
  simp only [hdone, Bool.false_eq_true, if_false]

theorem progress_silent {w : PumpWorld} {t p : ℕ} {s : Subscription} (h : Holds w t p s)
    (halive : s.phase.finished = false) {i : WsInput} (accepts : Json × Dict → Bool)
    (hsilent : yielded (s.step w.client i).effects = none) :
    ((pumpMachine configs).step w (.progress t i accepts)).2 = [] ∧
      Holds ((pumpMachine configs).step w (.progress t i accepts)).1 t p
        (s.step w.client i).subscription := by
  rw [step_progress configs h halive]
  unfold PumpWorld.progress
  dsimp only
  rw [hsilent]
  refine ⟨rfl, ?_, h.wanted, getElem?_set_self_of_some h.task _⟩
  exact (Subscription.step_closed ..).trans h.isOpen

theorem progress_message {w : PumpWorld} {t p : ℕ} {s : Subscription} (h : Holds w t p s)
    (hphase : s.phase = .streaming) (accepts : Json × Dict → Bool) (frame : Dict) :
    ((pumpMachine configs).step w
        (.progress t (.message (.loaded (.obj frame))) accepts)).2 =
      [⟨p, frame, (configs p).invocations frame⟩] ∧
    Holds ((pumpMachine configs).step w
        (.progress t (.message (.loaded (.obj frame))) accepts)).1 t p s := by
  have halive : s.phase.finished = false := by
    rw [hphase]
    rfl
  have hwanted := h.wanted
  rw [step_progress configs h halive]
  unfold PumpWorld.progress
  simp only [step_message h.isOpen hphase]
  dsimp only [yielded, List.findSome?_cons]
  rw [if_neg (by rw [hwanted]; decide)]
  refine ⟨rfl, h.isOpen, ?_, getElem?_set_self_of_some h.task _⟩
  show (Function.update w.pumps p _ p).stopRequested = false
  rw [Function.update_self]
  exact hwanted

theorem trace_messages {w : PumpWorld} {t p : ℕ} {s : Subscription} (h : Holds w t p s)
    (hphase : s.phase = .streaming) (accepts : Json × Dict → Bool) (frames : List Dict) :
    (pumpMachine configs).trace w
        (frames.map fun frame => .progress t (.message (.loaded (.obj frame))) accepts) =
      frames.map fun frame => ⟨p, frame, (configs p).invocations frame⟩ := by
  induction frames generalizing w with
  | nil => rfl
  | cons frame frames ih =>
    obtain ⟨hout, hnext⟩ := progress_message configs h hphase accepts frame
    rw [List.map_cons, List.map_cons, Machine.trace_cons, hout, ih hnext]
    rfl

theorem ready_to_stream {c : QuikSyncWsClient} (c' : QuikSyncWsClient) (hopen : c.closed = false)
    {s : Subscription} (halive : s.phase.finished = false) (token : String) :
    (s.step c (.resume (.ok token))).subscription.phase.finished = false ∧
      ((s.step c (.resume (.ok token))).subscription.step c' .handshake).subscription.phase =
        .streaming := by
  have hconnect : ∀ s' : Subscription,
      (s'.connect c (.ok token)).subscription.phase.finished = false ∧
        ((s'.connect c (.ok token)).subscription.step c' .handshake).subscription.phase =
          .streaming := by
    intro s'
    unfold Subscription.connect
    rw [hopen]
    exact ⟨rfl, rfl⟩
  obtain ⟨path, scope, backoff, phase⟩ := s
  cases phase with
  | unstarted => exact hconnect _
  | connecting url => exact ⟨rfl, rfl⟩
  | streaming => exact ⟨rfl, rfl⟩
  | sleeping seconds => exact hconnect _
  | returned => exact nomatch halive
  | raised e => exact nomatch halive

theorem silent_of_not_message {c : QuikSyncWsClient} {s : Subscription} {i : WsInput}
    (hi : ∀ decoded, i ≠ .message decoded) : yielded (s.step c i).effects = none := by
  by_contra hsome
  obtain ⟨frame, hframe⟩ := Option.ne_none_iff_exists'.mp hsome
  exact hi _ (step_yielded hframe).2.2

theorem trace_offer {w : PumpWorld} {t p : ℕ} {s : Subscription} (h : Holds w t p s)
    (halive : s.phase.finished = false) (token : String) (accepts : Json × Dict → Bool)
    (frames : List Dict) :
    (pumpMachine configs).trace w (offer t token accepts frames) =
      frames.map fun frame => ⟨p, frame, (configs p).invocations frame⟩ := by
  obtain ⟨hresumed, -⟩ := ready_to_stream w.client h.isOpen halive token
  obtain ⟨hout, hnext⟩ := progress_silent configs h halive accepts
    (silent_of_not_message (i := .resume (.ok token)) nofun)
  obtain ⟨hout', hnext'⟩ := progress_silent configs hnext hresumed accepts
    (silent_of_not_message (i := .handshake) nofun)
  have hstreaming := (ready_to_stream
    ((pumpMachine configs).step w (.progress t (.resume (.ok token)) accepts)).1.client
    h.isOpen halive token).2
  unfold offer
  rw [Machine.trace_cons, hout, Machine.trace_cons, hout',
    trace_messages configs hnext' hstreaming]
  rfl

end Open

/-! ### Runs without a stop -/

inductive Call where
  | start
  | stop
  deriving DecidableEq

def PumpInput.call (p : ℕ) : PumpInput → Option Call
  | start q => if q = p then some .start else none
  | stop q => if q = p then some .stop else none
  | progress .. => none

def lastCall (p : ℕ) (is : List PumpInput) : Option Call := (is.filterMap (PumpInput.call p)).getLast?

/-- While nobody stops a pump, only the task that a pump refers to can be alive. -/
structure Tracked (w : PumpWorld) (past : List PumpInput) : Prop where
  isOpen : w.client.closed = false
  wanted : ∀ p, (w.pumps p).stopRequested = false
  owned : ∀ p t, (w.pumps p).task = some t → ∃ task, w.tasks[t]? = some task ∧ task.pump = p
  current : ∀ t task, w.tasks[t]? = some task → task.done = false →
    (w.pumps task.pump).task = some t
  started : ∀ p t, (w.pumps p).task = some t → .start p ∈ past

section Tracking

variable (configs : ℕ → PumpConfig) {w : PumpWorld} {past : List PumpInput}

theorem tracked_new (config : WsConfig) : Tracked (.new config) [] where
  isOpen := rfl
  wanted _ := rfl
  owned _ _ h := nomatch h
  current _ _ h _ := nomatch h
  started _ _ h := nomatch h

theorem running_iff (w : PumpWorld) (p : ℕ) :
    w.running p = true ↔
      ∃ t task, (w.pumps p).task = some t ∧ w.tasks[t]? = some task ∧ task.done = false := by
  unfold PumpWorld.running
  cases htask : (w.pumps p).task with
  | none => simp
  | some t => cases hget : w.tasks[t]? <;> simp [hget]

theorem getElem?_concat_eq_some_iff {tasks : List Task} {new task : Task} {t : ℕ} :
    (tasks ++ [new])[t]? = some task ↔
      tasks[t]? = some task ∨ (t = tasks.length ∧ task = new) := by
  rw [List.getElem?_append]
  by_cases ht : t < tasks.length
  · rw [if_pos ht]
    exact ⟨Or.inl, fun h => h.resolve_right fun h => absurd h.1 ht.ne⟩
  · rw [if_neg ht, List.getElem?_eq_none (not_lt.mp ht)]
    constructor
    · intro h
      obtain ⟨hlt, hnew⟩ := List.getElem?_eq_some_iff.mp h
      have ht' : t = tasks.length := by
        rw [List.length_singleton] at hlt
        omega
      subst ht'
      simp only [Nat.sub_self, List.getElem_cons_zero] at hnew
      exact Or.inr ⟨rfl, hnew.symm⟩
    · rintro (h | ⟨rfl, rfl⟩)
      · exact nomatch h
      · rw [Nat.sub_self]
        rfl

theorem tracked_start (h : Tracked w past) (p : ℕ) :
    Tracked (w.start configs p) (past ++ [.start p]) := by
  have hearlier : ∀ q, .start q ∈ past → .start q ∈ past ++ [PumpInput.start p] := fun _ hq =>
    List.mem_append_left _ hq
  unfold PumpWorld.start
  by_cases hrunning : w.running p = true
  · rw [if_pos hrunning]
    exact { h with started := fun q t ht => hearlier q (h.started q t ht) }
  · rw [if_neg hrunning]
    refine ⟨h.isOpen, ?_, ?_, ?_, ?_⟩
    · intro q
      dsimp only
      by_cases hq : q = p
      · subst hq
        rw [Function.update_self]
      · rw [Function.update_of_ne hq]
        exact h.wanted q
    · intro q t ht
      dsimp only at ht ⊢
      by_cases hq : q = p
      · subst hq
        rw [Function.update_self] at ht
        obtain rfl := Option.some.inj ht
        exact ⟨_, getElem?_concat_eq_some_iff.mpr (Or.inr ⟨rfl, rfl⟩), rfl⟩
      · rw [Function.update_of_ne hq] at ht
        obtain ⟨task, hget, hpump⟩ := h.owned q t ht
        exact ⟨task, getElem?_concat_eq_some_iff.mpr (Or.inl hget), hpump⟩
    · intro t task hget halive
      dsimp only at hget ⊢
      rcases getElem?_concat_eq_some_iff.mp hget with hget | ⟨rfl, rfl⟩
      · have hcurrent := h.current t task hget halive
        have hother : task.pump ≠ p := fun hpump =>
          hrunning ((running_iff w p).mpr ⟨t, task, hpump ▸ hcurrent, hget, halive⟩)
        rw [Function.update_of_ne hother]
        exact hcurrent
      · rw [Function.update_self]
    · intro q t ht
      dsimp only at ht
      by_cases hq : q = p
      · rw [hq]
        exact List.mem_append_right _ List.mem_cons_self
      · rw [Function.update_of_ne hq] at ht
        exact hearlier q (h.started q t ht)

theorem progress_kept (t : ℕ) {task : Task} (hwanted : (w.pumps task.pump).stopRequested = false)
    (i : WsInput) (accepts : Json × Dict → Bool) :
    (∀ q, ((w.progress configs t task i accepts).1.pumps q).task = (w.pumps q).task ∧
        ((w.progress configs t task i accepts).1.pumps q).stopRequested =
          (w.pumps q).stopRequested) ∧
      (w.progress configs t task i accepts).1.tasks =
        w.tasks.set t { task with subscription := (task.subscription.step w.client i).subscription } := by
  unfold PumpWorld.progress
  dsimp only
  split
  · exact ⟨fun q => ⟨rfl, rfl⟩, rfl⟩
  · rw [if_neg (by rw [hwanted]; decide)]
    refine ⟨fun q => ?_, rfl⟩
    by_cases hq : q = task.pump
    · subst hq
      dsimp only [PumpWorld.dispatchFrame]
      rw [Function.update_self]
      exact ⟨rfl, rfl⟩
    · dsimp only [PumpWorld.dispatchFrame]
      rw [Function.update_of_ne hq]
      exact ⟨rfl, rfl⟩

theorem tracked_progress (h : Tracked w past) {t : ℕ} {task : Task}
    (hget : w.tasks[t]? = some task) (halive : task.done = false) (i : WsInput)
    (accepts : Json × Dict → Bool) :
    Tracked (w.progress configs t task i accepts).1 (past ++ [.progress t i accepts]) := by
  obtain ⟨hpumps, htasks⟩ := progress_kept configs t (h.wanted task.pump) i accepts
  refine ⟨?_, fun q => (hpumps q).2.trans (h.wanted q), ?_, ?_, ?_⟩
  · rw [progress_client, Subscription.step_closed]
    exact h.isOpen
  · intro q t' ht'
    rw [(hpumps q).1] at ht'
    obtain ⟨other, hother, hpump⟩ := h.owned q t' ht'
    rw [htasks]
    by_cases ht : t = t'
    · subst ht
      obtain rfl := Option.some.inj (hget.symm.trans hother)
      exact ⟨_, getElem?_set_self_of_some hget _, hpump⟩
    · rw [List.getElem?_set_ne ht]
      exact ⟨other, hother, hpump⟩
  · intro t' other hother hdone
    rw [htasks] at hother
    rw [(hpumps _).1]
    by_cases ht : t = t'
    · subst ht
      rw [getElem?_set_self_of_some hget] at hother
      obtain rfl := Option.some.inj hother
      exact h.current t task hget halive
    · rw [List.getElem?_set_ne ht] at hother
      exact h.current t' other hother hdone
  · intro q t' ht'
    rw [(hpumps q).1] at ht'
    exact List.mem_append_left _ (h.started q t' ht')

theorem tracked_step (h : Tracked w past) {i : PumpInput} (hstop : ∀ p, i ≠ .stop p) :
    Tracked ((pumpMachine configs).step w i).1 (past ++ [i]) := by
  cases i with
  | start p => exact tracked_start configs h p
  | stop p => exact absurd rfl (hstop p)
  | progress t i accepts =>
    have hidle : Tracked w (past ++ [.progress t i accepts]) :=
      { h with started := fun q t' ht' => List.mem_append_left _ (h.started q t' ht') }
    dsimp only [pumpMachine]
    split
    · exact hidle
    · rename_i task hget
      by_cases hdone : task.done = true
      · rw [if_pos hdone]
        exact hidle
      · rw [if_neg hdone]
        exact tracked_progress configs h hget (Bool.not_eq_true _ ▸ hdone) i accepts

theorem tracked_run (config : WsConfig) {is : List PumpInput} (hstop : ∀ p, .stop p ∉ is) :
    Tracked ((pumpMachine configs).after (.new config) is) is := by
  have hrun : Tracked ((pumpMachine configs).after (.new config) is)
      (((pumpMachine configs).log (.new config) is).map Prod.fst) :=
    Machine.run_invariant (P := fun w past => Tracked w (past.map Prod.fst))
      (A := fun i => ∀ p, i ≠ .stop p)
      (fun w past i hi h => by
        rw [List.map_append]
        exact tracked_step configs h hi)
      (tracked_new config) fun i hi p hp => hstop p (hp ▸ hi)
  rwa [Machine.log_map_fst] at hrun

theorem flatMap_range_single {α : Type} (xs : List α) (t n : ℕ) :
    ((List.range n).flatMap fun t' => if t = t' then xs else []) = if t < n then xs else [] := by
  induction n with
  | zero => rfl
  | succ n ih =>
    rw [List.range_succ, List.flatMap_append, ih, List.flatMap_singleton]
    by_cases hlt : t < n
    · rw [if_pos hlt, if_neg hlt.ne, if_pos (Nat.lt_succ_of_lt hlt), List.append_nil]
    · by_cases heq : t = n
      · rw [if_neg hlt, if_pos heq, if_pos (heq ▸ Nat.lt_succ_self n), List.nil_append]
      · have hbeyond : ¬ t < n + 1 := by omega
        rw [if_neg hlt, if_neg heq, if_neg hbeyond, List.append_nil]

theorem trace_done {t : ℕ} {task : Task} (hget : w.tasks[t]? = some task)
    (hdone : task.done = true) (inputs : List (WsInput × (Json × Dict → Bool))) :
    (pumpMachine configs).trace w (inputs.map fun i => .progress t i.1 i.2) = [] := by
  induction inputs with
  | nil => rfl
  | cons i inputs ih =>
    have hstep : (pumpMachine configs).step w (.progress t i.1 i.2) = (w, []) := by
      dsimp only [pumpMachine]
      rw [hget]
      exact if_pos hdone
    rw [List.map_cons, Machine.trace_cons, hstep, ih]
    rfl

theorem Tracked.offer_eq (h : Tracked w past) {t : ℕ} {task : Task}
    (hget : w.tasks[t]? = some task) (p : ℕ) (token : String) (accepts : Json × Dict → Bool)
    (frames : List Dict) :
    (((pumpMachine configs).trace w (offer t token accepts frames)).filterMap fun d =>
      if d.pump = p then some d.frame else none) =
        if task.done = false ∧ task.pump = p then frames else [] := by
  cases hdone : task.done with
  | true =>
    have hsilent : (pumpMachine configs).trace w (offer t token accepts frames) = [] := by
      have hinputs := trace_done configs hget hdone ((.resume (.ok token), accepts) ::
        (.handshake, accepts) :: frames.map fun frame => (.message (.loaded (.obj frame)), accepts))
      rwa [List.map_cons, List.map_cons, List.map_map] at hinputs
    rw [hsilent]
    simp
  | false =>
    obtain ⟨hleft, halive⟩ := Bool.or_eq_false_iff.mp hdone
    have hholds : Holds w t task.pump task.subscription := by
      refine ⟨h.isOpen, h.wanted _, hget.trans ?_⟩
      rw [← hleft]
    rw [trace_offer configs hholds halive, List.filterMap_map]
    by_cases hpump : task.pump = p <;> simp [hpump]

theorem Tracked.deliveries_eq (h : Tracked w past) (p : ℕ) (token : String)
    (accepts : Json × Dict → Bool) (frames : List Dict) :
    deliveries configs w p token accepts frames = if w.running p = true then frames else [] := by
  have hget : ∀ t' ∈ List.range w.tasks.length, ∃ task, w.tasks[t']? = some task := fun t' ht' =>
    ⟨_, List.getElem?_eq_getElem (List.mem_range.mp ht')⟩
  unfold deliveries
  by_cases hrunning : w.running p = true
  · obtain ⟨t, task, htask, ht, hdone⟩ := (running_iff w p).mp hrunning
    obtain ⟨hlt, -⟩ := List.getElem?_eq_some_iff.mp ht
    have honly : ∀ t' ∈ List.range w.tasks.length,
        (((pumpMachine configs).trace w (offer t' token accepts frames)).filterMap fun d =>
          if d.pump = p then some d.frame else none) = if t = t' then frames else [] := by
      intro t' ht'
      obtain ⟨task', hget'⟩ := hget t' ht'
      rw [h.offer_eq configs hget']
      apply if_congr _ rfl rfl
      constructor
      · rintro ⟨hdone', rfl⟩
        exact Option.some.inj (htask.symm.trans (h.current t' task' hget' hdone'))
      · rintro rfl
        obtain rfl := Option.some.inj (ht.symm.trans hget')
        obtain ⟨other, hother, hpump⟩ := h.owned p t htask
        obtain rfl := Option.some.inj (ht.symm.trans hother)
        exact ⟨hdone, hpump⟩
    rw [if_pos hrunning, List.flatMap_congr honly, flatMap_range_single, if_pos hlt]
  · rw [if_neg hrunning, List.flatMap_eq_nil_iff]
    intro t' ht'
    obtain ⟨task', hget'⟩ := hget t' ht'
    rw [h.offer_eq configs hget']
    apply if_neg
    rintro ⟨hdone', rfl⟩
    have hcurrent := h.current t' task' hget' hdone'
    exact hrunning ((running_iff w task'.pump).mpr ⟨t', task', hcurrent, hget', hdone'⟩)

end Tracking

/-! ### The contract -/

/-- Offered frames, each pump whose last call was `start()` gets each of them once, and the
other pumps get none. -/
def DeliversAsCalled (configs : ℕ → PumpConfig) (w : PumpWorld) (is : List PumpInput) : Prop :=
  ∀ p token accepts frames, deliveries configs w p token accepts frames =
    if lastCall p is = some .start then frames else []

theorem PumpInput.call_eq_some_iff {p : ℕ} {i : PumpInput} {call : Call} :
    i.call p = some call ↔ (i = .start p ∧ call = .start) ∨ (i = .stop p ∧ call = .stop) := by
  cases i with
  | start q =>
    by_cases hq : q = p
    · simp [PumpInput.call, hq, eq_comm]
    · simp [PumpInput.call, hq]
  | stop q =>
    by_cases hq : q = p
    · simp [PumpInput.call, hq, eq_comm]
    · simp [PumpInput.call, hq]
  | progress t i accepts => simp [PumpInput.call]

theorem lastCall_of_no_stop {is : List PumpInput} (hstop : ∀ p, .stop p ∉ is) (p : ℕ) :
    lastCall p is = some .start ↔ .start p ∈ is := by
  have hcalls : ∀ call ∈ is.filterMap (PumpInput.call p), .start p ∈ is ∧ call = .start := by
    intro call hcall
    obtain ⟨i, hi, hcall⟩ := List.mem_filterMap.mp hcall
    obtain ⟨rfl, hstart⟩ | ⟨rfl, -⟩ := PumpInput.call_eq_some_iff.mp hcall
    · exact ⟨hi, hstart⟩
    · exact absurd hi (hstop p)
  unfold lastCall
  constructor
  · intro hlast
    exact (hcalls _ (List.mem_of_getLast? hlast)).1
  · intro hmem
    have hcall : Call.start ∈ is.filterMap (PumpInput.call p) :=
      List.mem_filterMap.mpr ⟨.start p, hmem, if_pos rfl⟩
    have hne := List.ne_nil_of_mem hcall
    rw [List.getLast?_eq_some_getLast hne, (hcalls _ (List.getLast_mem hne)).2]

/-- Each pump whose last call was `start()` delivers exactly if no pump was ever stopped and its
own task has not ended since. -/
theorem delivers_as_called_iff (configs : ℕ → PumpConfig) (config : WsConfig)
    (is : List PumpInput) :
    DeliversAsCalled configs ((pumpMachine configs).after (.new config) is) is ↔
      ∀ p, lastCall p is = some .start → (∀ stopped, .stop stopped ∉ is) ∧
        ((pumpMachine configs).after (.new config) is).running p = true := by
  by_cases hstop : ∀ stopped, .stop stopped ∉ is
  · have htracked := tracked_run configs config hstop
    constructor
    · intro h p hp
      refine ⟨hstop, ?_⟩
      have hframe := h p "" (fun _ => true) [[]]
      rw [htracked.deliveries_eq, if_pos hp] at hframe
      by_contra hdead
      rw [if_neg hdead] at hframe
      exact nomatch hframe
    · intro h p token accepts frames
      rw [htracked.deliveries_eq]
      apply if_congr _ rfl rfl
      constructor
      · intro hrunning
        obtain ⟨t, -, htask, -⟩ := (running_iff _ p).mp hrunning
        exact (lastCall_of_no_stop hstop p).mpr (htracked.started p t htask)
      · exact fun hp => (h p hp).2
  · obtain ⟨stopped, hstopped⟩ : ∃ stopped, .stop stopped ∈ is := by
      by_contra hno
      exact hstop fun stopped hmem => hno ⟨stopped, hmem⟩
    have hclosed := closed_of_stop configs (.new config) hstopped
    constructor
    · intro h p hp
      have hframe := h p "" (fun _ => true) [[]]
      rw [deliveries_of_closed configs hclosed, if_pos hp] at hframe
      exact nomatch hframe
    · intro h p token accepts frames
      have hlast : lastCall p is ≠ some .start := fun hp => hstop (h p hp).1
      rw [deliveries_of_closed configs hclosed, if_neg hlast]

def threePumps : ℕ → PumpConfig
  | 0 => doorStatePump "d" none
  | 1 => liftStatePump "l" none
  | _ => fleetStatePump "f" (some "site")

/-- A pump gets no frame any more once its neighbour has been stopped. -/
theorem neighbour_stop_ends_stream :
    ¬ ∀ (configs : ℕ → PumpConfig) (config : WsConfig) (is : List PumpInput),
      DeliversAsCalled configs ((pumpMachine configs).after (.new config) is) is := by
  intro h
  have hdelivers := h threePumps ⟨"wss://host", 1, 30, 3, 60⟩ [.start 0, .start 1, .stop 0] 1 "token"
    (fun _ => true) [[]]
  have hstop : .stop 0 ∈ [PumpInput.start 0, .start 1, .stop 0] := by simp
  have hclosed := closed_of_stop threePumps (.new ⟨"wss://host", 1, 30, 3, 60⟩) hstop
  rw [deliveries_of_closed threePumps hclosed, if_pos (by decide)] at hdelivers
  exact nomatch hdelivers

end QuikSync.Pump

import QuikSyncAdapters.Library.EventLoop
import QuikSyncAdapters.Library.Machine

/-! The thread of the fleet state pump and the request of the main thread to stop it, as
interleaved steps. -/

namespace QuikSync.Fleet

open EventLoop

inductive Callback where
  -- the first step of `FleetStatePump.start`, after which its task is done
  | start
  -- `_run_until_complete_cb` of that task
  | finish
  | stop
  -- a step of the task of the pump, a timer or a transport
  | other
deriving DecidableEq

inductive RunnerStage where
  | new
  | created
  | published
  | built
  -- `start()` is a task of the loop, which does not run yet
  | queued
  -- inside `run_until_complete(start())`
  | starting
  | between
  | forever
  -- in the `finally` block
  | finalising
  -- inside `run_until_complete(stop())`, whose rounds are left out
  | closing
  | left
  | closed
deriving DecidableEq

def RunnerStage.ahead : RunnerStage → Bool
  | finalising | closing | left | closed => false
  | _ => true

/-- At this stage the callback stops the run of the loop that is to come or going on; the one
that ends `run_until_complete(start())` stops `run_forever` when it is left over. -/
def RunnerStage.Ends (s : RunnerStage) (k : Callback) : Prop :=
  k = .stop ∨ k = .finish ∧ s ≠ .starting

instance (s : RunnerStage) : DecidablePred s.Ends := fun _ => inferInstanceAs (Decidable (_ ∨ _))

inductive RequestStage where
  | idle
  -- `request_stop` has read a loop
  | loaded
  -- and found it running
  | checked
  | returned
  | raised
deriving DecidableEq

def RequestStage.isOpen : RequestStage → Bool
  | idle | loaded | checked => true
  | _ => false

/-- `published` says that `_loop` holds the loop, `started` that the task of `start()` is done. -/
structure PumpThreads where
  stage : RunnerStage
  published : Bool
  loop : EventLoop Callback
  started : Bool
  main : RequestStage
deriving DecidableEq

/-- A step of one of the two threads. The runner's comes with the number of other callbacks that
it finds or queues. -/
inductive ThreadStep where
  | runner (others : ℕ)
  | main

namespace PumpThreads

def initial : PumpThreads := ⟨.new, false, .new, false, .idle⟩

def others (n : ℕ) : List Callback := List.replicate n .other

def execute (q : PumpThreads) (loop : EventLoop Callback) (n : ℕ) : Callback → PumpThreads
  | .start => { q with loop := loop.callSoon [.other, .finish], started := true }
  | .finish => { q with loop := loop.stop }
  | .stop => { q with loop := loop.stop }
  | .other => { q with loop := loop.callSoon (others n) }

/-- One step of `BaseEventLoop.run_forever`, after which the runner is at `next`. -/
def turn (q : PumpThreads) (n : ℕ) (next : RunnerStage) : PumpThreads :=
  match q.loop.round with
  | none => { q with loop := q.loop.beginRound (others n) }
  | some (k :: rest) => q.execute (q.loop.next rest) n k
  | some [] =>
    if q.loop.stopping then { q with stage := next, loop := q.loop.leave }
    else { q with loop := q.loop.again }

/-- `_StatePumpRunner.run`. A loop that stops before `start()` is done makes
`run_until_complete` raise. -/
def run (q : PumpThreads) (n : ℕ) : PumpThreads :=
  match q.stage with
  | .new => { q with stage := .created, loop := .new }
  | .created => { q with stage := .published, published := true }
  | .published => { q with stage := .built }
  | .built => { q with stage := .queued, loop := q.loop.callSoon [.start] }
  | .queued => { q with stage := .starting, loop := q.loop.enter }
  | .starting => q.turn n (if q.started then .between else .finalising)
  | .between => { q with stage := .forever, loop := q.loop.enter }
  | .forever => q.turn n .finalising
  | .finalising =>
    if q.loop.closed then { q with stage := .left }
    else { q with stage := .closing, loop := q.loop.enter }
  | .closing => { q with stage := .left, loop := q.loop.leave }
  | .left => { q with stage := .closed, loop := if q.loop.closed then q.loop else q.loop.close }
  | .closed => q

/-- `_StatePumpRunner.request_stop`, one read or call at a time. -/
def requestStop (q : PumpThreads) : PumpThreads :=
  match q.main with
  | .idle => { q with main := if q.published then .loaded else .returned }
  | .loaded => { q with main := if q.loop.running then .checked else .returned }
  | .checked =>
    if q.loop.closed then { q with main := .raised }
    else { q with main := .returned, loop := q.loop.callSoon [.stop] }
  | .returned => q
  | .raised => q

def step (q : PumpThreads) : ThreadStep → PumpThreads
  | .runner n => q.run n
  | .main => q.requestStop

def machine : Machine PumpThreads ThreadStep Unit := ⟨fun q a => (q.step a, ())⟩

/-- `request_stop` has returned, and `run_forever` is to come or going on with no stop scheduled. -/
def Lost (q : PumpThreads) : Prop :=
  q.main = .returned ∧ q.stage.ahead = true ∧ ¬ Due q.stage.Ends q.loop.stopping q.loop.ready

instance : DecidablePred Lost := fun _ => inferInstanceAs (Decidable (_ ∧ _ ∧ _))

/-- `run_until_complete(start())` has begun the round of the first step of `start()` and not yet
the next one. -/
def FirstRound (q : PumpThreads) : Prop :=
  q.stage = .starting ∧ (.start ∈ q.loop.round.getD [] ∨ .finish ∈ q.loop.later)

/-- `request_stop` reads `_loop` when it is published, finds it running unless `run_forever` is
over, and schedules its stop outside the first round. -/
def Timely (q : PumpThreads) : ThreadStep → Prop
  | .runner _ => True
  | .main =>
    match q.main with
    | .idle => q.published = true
    | .loaded => q.stage.ahead = true → q.loop.running = true
    | .checked => ¬ q.FirstRound
    | _ => True

end PumpThreads

def Callback.queues (n : ℕ) : Callback → List Callback
  | start => [other, finish]
  | finish => []
  | stop => []
  | other => PumpThreads.others n

def Callback.stops : Callback → Bool
  | finish | stop => true
  | _ => false

theorem Callback.queues_other (n : ℕ) : ∀ k ∈ Callback.other.queues n, k = other :=
  fun _ hk => List.eq_of_mem_replicate hk

theorem Callback.queues_of_ne_start (k : Callback) (hk : k ≠ start) (n : ℕ) :
    ∀ j ∈ k.queues n, j = other := by
  cases k with
  | start => exact absurd rfl hk
  | finish => exact List.forall_mem_nil _
  | stop => exact List.forall_mem_nil _
  | other => exact queues_other n

theorem stops_of_eq_finish (k : Callback) (hk : k = .finish) : k.stops = true := by
  rw [hk]
  rfl

theorem forall_ne_start_append {l l' : List Callback} (hl : ∀ k ∈ l, k ≠ .start)
    (hl' : ∀ k ∈ l', k = .other) : ∀ k ∈ l ++ l', k ≠ .start := by
  intro k hk
  obtain hk | hk := List.mem_append.mp hk
  · exact hl k hk
  · rw [hl' k hk]
    decide

theorem RunnerStage.ends_stop (s : RunnerStage) : s.Ends .stop := Or.inl rfl

theorem RunnerStage.Ends.stops {s : RunnerStage} {k : Callback} (h : s.Ends k) :
    k.stops = true := by
  obtain rfl | ⟨rfl, -⟩ := h
  · rfl
  · rfl

theorem RunnerStage.Ends.mono {s s' : RunnerStage} {k : Callback} (h : s.Ends k)
    (hs' : s' ≠ .starting) : s'.Ends k := by
  obtain rfl | ⟨rfl, -⟩ := h
  · exact s'.ends_stop
  · exact Or.inr ⟨rfl, hs'⟩

namespace PumpThreads

theorem execute_eq (q : PumpThreads) (loop : EventLoop Callback) (n : ℕ) (k : Callback) :
    q.execute loop n k =
      { q with
        loop := { loop with
          later := loop.later ++ k.queues n
          stopping := loop.stopping || k.stops }
        started := q.started || decide (k = .start) } := by
  cases k with
  | start => simp [execute, callSoon, Callback.queues, Callback.stops]
  | finish => simp [execute, EventLoop.stop, Callback.queues, Callback.stops]
  | stop => simp [execute, EventLoop.stop, Callback.queues, Callback.stops]
  | other => simp [execute, callSoon, Callback.queues, Callback.stops]

theorem run_starting_cons (m : RequestStage) (stopping : Bool) (k : Callback)
    (rest later : List Callback) (n : ℕ) :
    run ⟨.starting, true, ⟨some (k :: rest), later, stopping, true, false⟩, true, m⟩ n =
      ⟨.starting, true, ⟨some rest, later ++ k.queues n, stopping || k.stops, true, false⟩,
        true, m⟩ :=
  execute_eq _ _ n k

end PumpThreads

end QuikSync.Fleet

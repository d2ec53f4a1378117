import QuikSyncAdapters.Library.EventLoop
import QuikSyncAdapters.Library.Machine

/-! The lifecycle of the door and lift nodes, which is the same code twice: the main thread in
`start` and `stop`, and the thread of `_run_loop` with the state pumps, as interleaved steps. -/

namespace QuikSync.Pump

open EventLoop

/-- A step of the task of a pump, or of a timer or transport. -/
inductive Io where
  | pump (i : ℕ)
  | other
deriving DecidableEq

inductive NodeCallback where
  -- the one step of `_start_all_pumps`
  | startAll
  | finish
  -- a step of `_stop_all_pumps`, or of what submits it and passes its result on
  | stopAll
  | stop
  | io (k : Io)
deriving DecidableEq

def NodeCallback.stops : NodeCallback → Bool
  | finish | stop => true
  | _ => false

inductive PumpTask where
  | absent
  | running
  | cancelled
  | done
deriving DecidableEq

def PumpTask.live : PumpTask → Bool
  | running | cancelled => true
  | _ => false

inductive StopStage where
  | unasked
  -- `run_coroutine_threadsafe` has scheduled its callback
  | submitted
  | stopping (rest : List ℕ)
  -- it awaits the task of this pump
  | waiting (i : ℕ) (rest : List ℕ)
  | returned
  -- the future has the result
  | resolved
deriving DecidableEq

/-- The pumps of the node and the coroutine that stops them. -/
structure PumpTasks where
  tasks : ℕ → PumpTask
  stopper : StopStage

namespace PumpTasks

def new : PumpTasks := ⟨fun _ => .absent, .unasked⟩

/-- `start` of each handle makes a task unless one is there that is not done. -/
def startAll (p : PumpTasks) (handles : ℕ) : PumpTasks × List NodeCallback :=
  ({ p with
      tasks := fun i => if i < handles ∧ !(p.tasks i).live then .running else p.tasks i },
    ((List.range handles).filter fun i => !(p.tasks i).live).map (.io ∘ .pump) ++ [.finish])

/-- `stop` of a handle cancels its task and awaits it, which a task that is done does not
suspend. -/
def stopAll (p : PumpTasks) (handles : ℕ) : PumpTasks × List NodeCallback :=
  match p.stopper with
  | .submitted => ({ p with stopper := .stopping (List.range handles) }, [.stopAll])
  | .stopping rest =>
    match rest.dropWhile fun i => !(p.tasks i).live with
    | [] => ({ p with stopper := .returned }, [.stopAll])
    | i :: rest =>
      (⟨Function.update p.tasks i .cancelled, .waiting i rest⟩, [.io (.pump i)])
  | .returned => ({ p with stopper := .resolved }, [])
  | _ => (p, [])

def finishTask (p : PumpTasks) (i : ℕ) : PumpTasks × List NodeCallback :=
  let tasks := Function.update p.tasks i .done
  match p.stopper with
  | .waiting j rest =>
    if j = i then (⟨tasks, .stopping rest⟩, [.stopAll]) else (⟨tasks, p.stopper⟩, [])
  | _ => (⟨tasks, p.stopper⟩, [])

/-- What a callback does to the pumps, and what it queues. `done` says that the step of a pump
ends its task, and `found` what is due after a step. -/
def call (p : PumpTasks) (handles : ℕ) (done : Bool) (found : List Io) :
    NodeCallback → PumpTasks × List NodeCallback
  | .startAll => p.startAll handles
  | .finish => (p, [])
  | .stopAll => p.stopAll handles
  | .stop => (p, [])
  | .io .other => (p, found.map .io)
  | .io (.pump i) =>
    if (p.tasks i).live then
      if done then p.finishTask i else (p, found.map .io)
    else (p, [])

end PumpTasks

inductive LoopStage where
  -- `start` has not made the thread yet
  | unborn
  | new
  | created
  | published
  -- `_start_all_pumps` is a task of the loop, which does not run yet
  | queued
  -- inside `run_until_complete(_start_all_pumps())`
  | starting
  -- in the `finally` block that sets `ready`
  | completed
  | between
  | forever
  | closing
  | closed
  -- the exception of `run_until_complete` has ended the thread
  | crashed
deriving DecidableEq

def LoopStage.over : LoopStage → Bool
  | closed | crashed => true
  | _ => false

inductive NodeStage where
  | idle
  -- in `ready.wait()`
  | waiting
  | started
  | stopping
  -- in `future.result(timeout=10)`
  | pending
  | settled
  -- in `join(timeout=5)`
  | joining
  | stopped
  -- past `start` and `stop` without having scheduled `loop.stop`
  | abandoned
  | raised
deriving DecidableEq

/-- `published` says that `_loop` holds the loop, `ready` is the event, `completed` says that the
task of `_start_all_pumps` is done and `warned` that `stop` has logged a failure of
`_stop_all_pumps`. -/
structure NodeThreads where
  stage : LoopStage
  published : Bool
  ready : Bool
  loop : EventLoop NodeCallback
  completed : Bool
  pumps : PumpTasks
  main : NodeStage
  warned : Bool

/-- A step of one of the two threads, that of `_run_loop` with what its callback comes to and that
of the main thread with whether it has waited long enough. An interrupt is for the main thread. -/
inductive NodeStep where
  | loop (done : Bool) (found : List Io)
  | main (timedOut : Bool)
  | interrupt

namespace NodeThreads

def initial : NodeThreads := ⟨.unborn, false, false, .new, false, .new, .idle, false⟩

variable (handles : ℕ)

def execute (q : NodeThreads) (loop : EventLoop NodeCallback) (done : Bool) (found : List Io)
    (k : NodeCallback) : NodeThreads :=
  let r := q.pumps.call handles done found k
  let loop := loop.callSoon r.2
  { q with
    loop := if k.stops then loop.stop else loop
    completed := q.completed || decide (k = .startAll)
    pumps := r.1 }

def turn (q : NodeThreads) (done : Bool) (found : List Io) (next : LoopStage) : NodeThreads :=
  match q.loop.round with
  | none => { q with loop := q.loop.beginRound (found.map .io) }
  | some (k :: rest) => q.execute handles (q.loop.next rest) done found k
  | some [] =>
    if q.loop.stopping then { q with stage := next, loop := q.loop.leave }
    else { q with loop := q.loop.again }

/-- `_run_loop`. A loop that stops before the pumps are started makes `run_until_complete`
raise. -/
def runLoop (q : NodeThreads) (done : Bool) (found : List Io) : NodeThreads :=
  match q.stage with
  | .unborn => q
  | .new => { q with stage := .created, loop := .new }
  | .created => { q with stage := .published, published := true }
  | .published => { q with stage := .queued, loop := q.loop.callSoon [.startAll] }
  | .queued => { q with stage := .starting, loop := q.loop.enter }
  | .starting => q.turn handles done found .completed
  | .completed => { q with stage := if q.completed then .between else .crashed, ready := true }
  | .between => { q with stage := .forever, loop := q.loop.enter }
  | .forever => q.turn handles done found .closing
  | .closing => { q with stage := .closed, loop := q.loop.close }
  | .closed => q
  | .crashed => q

/-- `start` and, when the executor is through, `stop`, one call at a time. -/
def startStop (q : NodeThreads) (timedOut : Bool) : NodeThreads :=
  match q.main with
  | .idle => { q with stage := .new, main := .waiting }
  | .waiting => if q.ready then { q with main := .started } else q
  | .started => { q with main := .stopping }
  | .stopping =>
    if q.published then
      if q.loop.closed then { q with main := .raised }
      else
        { q with
          loop := q.loop.callSoon [.stopAll]
          pumps := { q.pumps with stopper := .submitted }
          main := .pending }
    else { q with main := .abandoned }
  | .pending =>
    if q.pumps.stopper = .resolved then { q with main := .settled }
    else if timedOut then { q with main := .settled, warned := true }
    else q
  | .settled =>
    if q.loop.closed then { q with main := .raised }
    else { q with loop := q.loop.callSoon [.stop], main := .joining }
  | .joining =>
    if q.stage.over ∨ timedOut then { q with published := false, main := .stopped }
    else q
  | .stopped => q
  | .abandoned => q
  | .raised => q

/-- `KeyboardInterrupt`. It ends the spinning of the executor and any wait; a `stop` that comes
before `start` has set `_started` returns at once. -/
def interrupt (q : NodeThreads) : NodeThreads :=
  match q.main with
  | .started => { q with main := .stopping }
  | .joining => { q with main := .stopped }
  | .idle | .waiting | .stopping | .pending | .settled => { q with main := .abandoned }
  | .stopped | .abandoned | .raised => q

def step (q : NodeThreads) : NodeStep → NodeThreads
  | .loop done found => q.runLoop handles done found
  | .main timedOut => q.startStop timedOut
  | .interrupt => q.interrupt

def machine : Machine NodeThreads NodeStep Unit := ⟨fun q a => (q.step handles a, ())⟩

end NodeThreads

end QuikSync.Pump

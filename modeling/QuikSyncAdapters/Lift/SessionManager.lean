import QuikSyncAdapters.Library.Machine
import Mathlib.Algebra.Order.Ring.Rat
import Mathlib.Logic.Function.Basic

/-! The adapter-side session-occupant lock of the lift adapter, with its three maps as the
code keeps them. Every public method runs under one lock, so each is one step; a method
takes the clock readings it makes as arguments. -/

namespace QuikSync.Lift

/-- `LiftSessionManager`: the dictionaries are partial functions on lift names. -/
structure LiftSessionManager where
  requested : String → Option String
  requestedAt : String → Option ℚ
  server : String → Option String
  ttlSeconds : ℚ

namespace LiftSessionManager

def new (ttlSeconds : ℚ) : LiftSessionManager :=
  ⟨fun _ => none, fun _ => none, fun _ => none, ttlSeconds⟩

def setRequest (m : LiftSessionManager) (lift sessionId : String) (stamp : ℚ) :
    LiftSessionManager :=
  { m with
    requested := Function.update m.requested lift (some sessionId)
    requestedAt := Function.update m.requestedAt lift (some stamp) }

def setRequestedAt (m : LiftSessionManager) (lift : String) (stamp : ℚ) : LiftSessionManager :=
  { m with requestedAt := Function.update m.requestedAt lift (some stamp) }

def popRequest (m : LiftSessionManager) (lift : String) : LiftSessionManager :=
  { m with
    requested := Function.update m.requested lift none
    requestedAt := Function.update m.requestedAt lift none }

def setServer (m : LiftSessionManager) (lift serverSessionId : String) : LiftSessionManager :=
  { m with server := Function.update m.server lift (some serverSessionId) }

def evictStaleLocked (m : LiftSessionManager) (lift : String) (now : ℚ) : LiftSessionManager :=
  if m.ttlSeconds ≤ 0 then m
  else
    match m.requestedAt lift with
    | none => m
    | some requestedAt => if m.ttlSeconds < now - requestedAt then m.popRequest lift else m

/-- `stamp` is the reading stored on success, `now` the one the eviction compares. -/
def tryAcquire (m : LiftSessionManager) (lift sessionId : String) (now stamp : ℚ) :
    LiftSessionManager × Bool :=
  if sessionId = "" then (m, false)
  else
    let m := m.evictStaleLocked lift now
    let currentRequest := (m.requested lift).getD ""
    let currentServer := (m.server lift).getD ""
    if currentRequest = "" ∧ currentServer = "" then (m.setRequest lift sessionId stamp, true)
    -- same session retrying: only the time is rewritten
    else if currentRequest = sessionId then (m.setRequestedAt lift stamp, true)
    else if currentServer = sessionId then (m.setRequest lift sessionId stamp, true)
    else (m, false)

def release (m : LiftSessionManager) (lift sessionId : String) : LiftSessionManager × Bool :=
  let currentRequest := (m.requested lift).getD ""
  let currentServer := (m.server lift).getD ""
  if currentRequest = "" ∧ currentServer = "" then (m, true)
  else if currentRequest = sessionId ∨ currentServer = sessionId then (m.popRequest lift, true)
  else (m, false)

def observeServerState (m : LiftSessionManager) (lift serverSessionId : String) (now : ℚ) :
    LiftSessionManager :=
  let m := (m.setServer lift serverSessionId).evictStaleLocked lift now
  let currentRequest := (m.requested lift).getD ""
  if currentRequest ≠ "" ∧ serverSessionId ≠ "" ∧ currentRequest ≠ serverSessionId then
    m.popRequest lift
  else if currentRequest ≠ "" ∧ serverSessionId = "" then m.popRequest lift
  else m

def currentHolder (m : LiftSessionManager) (lift : String) (now : ℚ) :
    LiftSessionManager × Option String :=
  let m := m.evictStaleLocked lift now
  let orNone := fun holder : String => if holder = "" then none else some holder
  match m.server lift with
  | some holder => (m, orNone holder)
  | none =>
    match m.requested lift with
    | some holder => (m, orNone holder)
    | none => (m, none)

inductive Call where
  | tryAcquire (lift sessionId : String) (now stamp : ℚ)
  | release (lift sessionId : String)
  | observeServerState (lift serverSessionId : String) (now : ℚ)
  | currentHolder (lift : String) (now : ℚ)

inductive Answer where
  | verdict (b : Bool)
  | done
  | holder (h : Option String)

def Call.lift : Call → String
  | .tryAcquire lift .. => lift
  | .release lift _ => lift
  | .observeServerState lift .. => lift
  | .currentHolder lift _ => lift

def call (m : LiftSessionManager) : Call → LiftSessionManager × Answer
  | .tryAcquire lift s now stamp =>
    ((m.tryAcquire lift s now stamp).1, .verdict (m.tryAcquire lift s now stamp).2)
  | .release lift s => ((m.release lift s).1, .verdict (m.release lift s).2)
  | .observeServerState lift s now => (m.observeServerState lift s now, .done)
  | .currentHolder lift now => ((m.currentHolder lift now).1, .holder (m.currentHolder lift now).2)

def machine : Machine LiftSessionManager Call Answer := ⟨call⟩

@[simp] theorem setRequest_requested (m : LiftSessionManager) (lift s : String) (stamp : ℚ) :
    (m.setRequest lift s stamp).requested lift = some s := Function.update_self ..
@[simp] theorem setRequest_requestedAt (m : LiftSessionManager) (lift s : String) (stamp : ℚ) :
    (m.setRequest lift s stamp).requestedAt lift = some stamp := Function.update_self ..
@[simp] theorem setRequestedAt_requestedAt (m : LiftSessionManager) (lift : String) (stamp : ℚ) :
    (m.setRequestedAt lift stamp).requestedAt lift = some stamp := Function.update_self ..
@[simp] theorem popRequest_requested (m : LiftSessionManager) (lift : String) :
    (m.popRequest lift).requested lift = none := Function.update_self ..
@[simp] theorem popRequest_requestedAt (m : LiftSessionManager) (lift : String) :
    (m.popRequest lift).requestedAt lift = none := Function.update_self ..
@[simp] theorem setServer_server (m : LiftSessionManager) (lift s : String) :
    (m.setServer lift s).server lift = some s := Function.update_self ..
@[simp] theorem popRequest_server (m : LiftSessionManager) (lift : String) :
    (m.popRequest lift).server = m.server := rfl

theorem evictStaleLocked_eq (m : LiftSessionManager) (lift : String) (now : ℚ) :
    m.evictStaleLocked lift now = m ∨ m.evictStaleLocked lift now = m.popRequest lift := by
  unfold evictStaleLocked
  split
  · exact Or.inl rfl
  split
  · exact Or.inl rfl
  split
  · exact Or.inr rfl
  · exact Or.inl rfl

theorem evictStaleLocked_setServer (m : LiftSessionManager) (lift s : String) (now : ℚ) :
    (m.setServer lift s).evictStaleLocked lift now =
      (m.evictStaleLocked lift now).setServer lift s := by
  unfold evictStaleLocked setServer
  split
  · rfl
  cases m.requestedAt lift with
  | none => rfl
  | some t =>
    dsimp only
    split <;> rfl

def AgreeOff (lift : String) (m m' : LiftSessionManager) : Prop :=
  m'.ttlSeconds = m.ttlSeconds ∧ ∀ other, other ≠ lift →
    m'.requested other = m.requested other ∧ m'.requestedAt other = m.requestedAt other ∧
      m'.server other = m.server other

theorem AgreeOff.refl (lift : String) (m : LiftSessionManager) : AgreeOff lift m m :=
  ⟨rfl, fun _ _ => ⟨rfl, rfl, rfl⟩⟩

theorem AgreeOff.trans {lift : String} {m₁ m₂ m₃ : LiftSessionManager}
    (h : AgreeOff lift m₁ m₂) (h' : AgreeOff lift m₂ m₃) : AgreeOff lift m₁ m₃ := by
  refine ⟨h'.1.trans h.1, fun other hne => ?_⟩
  obtain ⟨h1, h2, h3⟩ := h.2 other hne
  obtain ⟨h1', h2', h3'⟩ := h'.2 other hne
  exact ⟨h1'.trans h1, h2'.trans h2, h3'.trans h3⟩

theorem agreeOff_setRequest (m : LiftSessionManager) (lift s : String) (stamp : ℚ) :
    AgreeOff lift m (m.setRequest lift s stamp) :=
  ⟨rfl, fun _ hne => ⟨Function.update_of_ne hne _ _, Function.update_of_ne hne _ _, rfl⟩⟩

theorem agreeOff_popRequest (m : LiftSessionManager) (lift : String) :
    AgreeOff lift m (m.popRequest lift) :=
  ⟨rfl, fun _ hne => ⟨Function.update_of_ne hne _ _, Function.update_of_ne hne _ _, rfl⟩⟩

theorem agreeOff_evictStaleLocked (m : LiftSessionManager) (lift : String) (now : ℚ) :
    AgreeOff lift m (m.evictStaleLocked lift now) := by
  rcases m.evictStaleLocked_eq lift now with h | h <;> rw [h]
  · exact AgreeOff.refl lift m
  · exact agreeOff_popRequest m lift

theorem agreeOff_tryAcquire (m : LiftSessionManager) (lift s : String) (now stamp : ℚ) :
    AgreeOff lift m (m.tryAcquire lift s now stamp).1 := by
  have hevict := agreeOff_evictStaleLocked m lift now
  unfold tryAcquire
  dsimp only
  split_ifs
  · exact AgreeOff.refl lift m
  · exact hevict.trans (agreeOff_setRequest _ lift s stamp)
  · exact hevict.trans ⟨rfl, fun _ hne => ⟨rfl, Function.update_of_ne hne _ _, rfl⟩⟩
  · exact hevict.trans (agreeOff_setRequest _ lift s stamp)
  · exact hevict

theorem agreeOff_release (m : LiftSessionManager) (lift s : String) :
    AgreeOff lift m (m.release lift s).1 := by
  unfold release
  dsimp only
  split_ifs
  · exact AgreeOff.refl lift m
  · exact agreeOff_popRequest m lift
  · exact AgreeOff.refl lift m

theorem agreeOff_observeServerState (m : LiftSessionManager) (lift s : String) (now : ℚ) :
    AgreeOff lift m (m.observeServerState lift s now) := by
  have hserver : AgreeOff lift m (m.setServer lift s) :=
    ⟨rfl, fun _ hne => ⟨rfl, rfl, Function.update_of_ne hne _ _⟩⟩
  have hevict := hserver.trans (agreeOff_evictStaleLocked _ lift now)
  unfold observeServerState
  dsimp only
  split_ifs
  · exact hevict.trans (agreeOff_popRequest _ lift)
  · exact hevict.trans (agreeOff_popRequest _ lift)
  · exact hevict

theorem currentHolder_fst (m : LiftSessionManager) (lift : String) (now : ℚ) :
    (m.currentHolder lift now).1 = m.evictStaleLocked lift now := by
  unfold currentHolder
  dsimp only
  split
  · rfl
  split <;> rfl

theorem agreeOff_call (m : LiftSessionManager) (c : Call) : AgreeOff c.lift m (m.call c).1 := by
  cases c with
  | tryAcquire lift s now stamp => exact agreeOff_tryAcquire m lift s now stamp
  | release lift s => exact agreeOff_release m lift s
  | observeServerState lift s now => exact agreeOff_observeServerState m lift s now
  | currentHolder lift now =>
    have h := agreeOff_evictStaleLocked m lift now
    rwa [← currentHolder_fst] at h

theorem evictStaleLocked_server (m : LiftSessionManager) (lift : String) (now : ℚ) :
    (m.evictStaleLocked lift now).server = m.server := by
  rcases m.evictStaleLocked_eq lift now with h | h <;> rw [h]
  exact popRequest_server m lift

theorem tryAcquire_server (m : LiftSessionManager) (lift s : String) (now stamp : ℚ) :
    (m.tryAcquire lift s now stamp).1.server = m.server := by
  have hevict := evictStaleLocked_server m lift now
  unfold tryAcquire
  dsimp only
  split_ifs
  · rfl
  · exact hevict
  · exact hevict
  · exact hevict
  · exact hevict

theorem release_server (m : LiftSessionManager) (lift s : String) :
    (m.release lift s).1.server = m.server := by
  unfold release
  dsimp only
  split_ifs <;> rfl

theorem observeServerState_server (m : LiftSessionManager) (lift s : String) (now : ℚ) :
    (m.observeServerState lift s now).server = Function.update m.server lift (some s) := by
  have hevict := evictStaleLocked_server (m.setServer lift s) lift now
  unfold observeServerState
  dsimp only
  split_ifs
  · exact hevict
  · exact hevict
  · exact hevict

end LiftSessionManager

end QuikSync.Lift

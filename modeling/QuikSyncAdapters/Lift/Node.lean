import QuikSyncAdapters.Library.Registry
import QuikSyncAdapters.Lift.Dispatch

/-! The node of the lift adapter: one handle per managed lift and one session manager for
all of them. -/

namespace QuikSync.Lift

open Client Py

structure LiftAdapterNode where
  handles : Registry String LiftHandle LiftHandle.liftName
  sessionManager : LiftSessionManager

namespace LiftAdapterNode

def new (liftNames : List String) (scope : Option String) (sessionManager : LiftSessionManager) :
    LiftAdapterNode :=
  ⟨.ofKeys (fun name => .new name scope) (fun _ => rfl) liftNames, sessionManager⟩

structure Routed where
  node : LiftAdapterNode
  posts : List LiftPost
  result : Except Exc Bool

/-- Registered as the subscription callback; `fresh` is the execution id drawn if needed. -/
def routeRequest (n : LiftAdapterNode) (r : LiftRequest) (fresh : String) (now stamp : ℚ)
    (outcome : Except Exc Json) : Routed :=
  match r.liftName with
  | none => ⟨n, [], .ok false⟩
  | some liftName =>
    match n.handles.get liftName with
    | none => ⟨n, [], .ok false⟩
    | some handle =>
      let d := handle.dispatchRequest n.sessionManager r none fresh now stamp outcome
      ⟨⟨n.handles.set d.handle, d.manager⟩, d.posts, d.result⟩

def onStateFrame (n : LiftAdapterNode) (liftName : String) (f : LiftStateFrame) (now : ℚ)
    (published : Bool) : LiftAdapterNode × Option LiftStateFields :=
  match n.handles.get liftName with
  | none => (n, none)
  | some handle =>
    let (handle, manager, fields) := handle.onStateFrame n.sessionManager f now published
    (⟨n.handles.set handle, manager⟩, fields)

/-- The session lock is open to `s`: nobody is named, or one of the two views names `s`. -/
def LockOpen (m : LiftSessionManager) (lift s : String) (now : ℚ) : Prop :=
  let m := m.evictStaleLocked lift now
  ((m.requested lift).getD "" = "" ∧ (m.server lift).getD "" = "") ∨
    (m.requested lift).getD "" = s ∨ (m.server lift).getD "" = s

/-- The requests that the node forwards: for one of its lifts, with usable fields, and with
the lock open if they need it. -/
def Forwards (n : LiftAdapterNode) (r : LiftRequest) (now : ℚ) : Prop :=
  ∃ lift s floor type, r.liftName = some lift ∧ lift ∈ n.handles.keys ∧ lift ≠ "" ∧
    r.sessionId = some s ∧ s ≠ "" ∧ r.destinationFloor = some floor ∧ floor ≠ "" ∧
    Code.requestType? r.requestType = some type ∧ r.doorState.goal?.isSome = true ∧
    (type = .agvMode → LockOpen n.sessionManager lift s now)

theorem tryAcquire_iff_lockOpen {m : LiftSessionManager} {lift s : String} {now : ℚ} (stamp : ℚ)
    (hs : s ≠ "") : (m.tryAcquire lift s now stamp).2 = true ↔ LockOpen m lift s now := by
  unfold LiftSessionManager.tryAcquire LockOpen
  rw [if_neg hs]
  dsimp only
  split_ifs with hfree hrequest hserver
  · simp [hfree]
  · simp [hrequest]
  · simp [hserver]
  · simp [hfree, hrequest, hserver]

theorem routeRequest_returns_iff (n : LiftAdapterNode) (r : LiftRequest) (fresh : String)
    (now stamp : ℚ) (outcome : Except Exc Json) :
    (∃ b, (n.routeRequest r fresh now stamp outcome).result = .ok b) ↔
      (∃ body, outcome = .ok body) ∨ ¬ n.Forwards r now := by
  unfold routeRequest
  cases hname : r.liftName with
  | none =>
    refine ⟨fun _ => Or.inr ?_, fun _ => ⟨false, rfl⟩⟩
    rintro ⟨lift, _, _, _, hlift, -⟩
    exact absurd (hname.symm.trans hlift) nofun
  | some lift =>
    dsimp only
    cases hget : n.handles.get lift with
    | none =>
      refine ⟨fun _ => Or.inr ?_, fun _ => ⟨false, rfl⟩⟩
      rintro ⟨lift', _, _, _, hlift, hmem, -⟩
      obtain rfl : lift = lift' := Option.some.inj (hname.symm.trans hlift)
      exact Registry.get_eq_none.mp hget hmem
    | some handle =>
      have hkey : handle.liftName = lift := Registry.key_of_get hget
      have hmem : lift ∈ n.handles.keys := (Registry.get_eq_some.mp hget).1
      dsimp only
      rw [LiftHandle.dispatchRequest_returns_iff]
      refine or_congr_right ?_
      constructor
      · rintro hstop ⟨lift', s, floor, type, hlift, -, hne, hsession, hs, hfloor, hf, htype, hdoor,
          hlock⟩
        obtain rfl : lift = lift' := Option.some.inj (hname.symm.trans hlift)
        obtain ⟨goal, hgoal⟩ := Option.isSome_iff_exists.mp hdoor
        have hscreen : handle.screen r none fresh = .request ⟨handle.liftName, ⟨s, hs⟩, type,
            ⟨floor, hf⟩, goal, orFresh none fresh, handle.scope⟩ :=
          LiftHandle.screen_eq_request.mpr ⟨by rw [hkey, hlift], by rwa [hkey], hsession, hfloor,
            htype, hgoal, rfl, rfl, rfl⟩
        have hclosed := hstop _ hscreen
        unfold LiftPost.gate at hclosed
        dsimp only at hclosed
        split_ifs at hclosed with hagv
        have hopen := (tryAcquire_iff_lockOpen stamp hs).mpr (hlock hagv)
        rw [hkey, hopen] at hclosed
        cases hclosed
      · intro hnot p hp
        obtain ⟨hl, hne, hsession, hfloor, htype, hgoal, hpl, -, -⟩ :=
          LiftHandle.screen_eq_request.mp hp
        rw [← Bool.not_eq_true]
        intro hgate
        refine hnot ⟨lift, p.sessionId.val, p.destinationFloor.val, p.requestType, hname, hmem,
          hkey ▸ hne, hsession, p.sessionId.2, hfloor, p.destinationFloor.2, htype,
          by rw [hgoal]; rfl, fun hagv => ?_⟩
        rw [LiftPost.gate, if_pos hagv, hpl, hkey] at hgate
        exact (tryAcquire_iff_lockOpen stamp p.sessionId.2).mp hgate

end LiftAdapterNode

end QuikSync.Lift

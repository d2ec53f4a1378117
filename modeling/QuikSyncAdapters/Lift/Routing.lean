import QuikSyncAdapters.Lift.Node

/-! Whole runs of the lift node: which of four things each routed request does to the server,
the counters and the session lock. -/

namespace QuikSync.Lift

open Client Py

structure LiftCall where
  lift : String
  session : String
  floor : String
  requestType : ℤ
  doorState : ℤ
  fresh : String
  now : ℚ
  stamp : ℚ
  outcome : Except Exc Json

def LiftCall.request (c : LiftCall) : LiftRequest :=
  ⟨some c.lift, some c.session, .int c.requestType, some c.floor, .bare (.int c.doorState)⟩

structure LiftAnswer where
  posts : List LiftPost
  result : Except Exc Bool

/-! ### The lock before the POST -/

section Gate

variable {p : LiftPost} {m : LiftSessionManager} {now stamp : ℚ}

theorem gate_refused (h : (p.gate m now stamp).2 = false) :
    (p.gate m now stamp).1 = m.evictStaleLocked p.lift now := by
  unfold LiftPost.gate LiftSessionManager.tryAcquire at h ⊢
  rw [if_neg p.sessionId.2] at h ⊢
  dsimp only at h ⊢
  split_ifs at h ⊢
  rfl

end Gate

namespace LiftAdapterNode

def routing : Machine LiftAdapterNode LiftCall LiftAnswer where
  step n c :=
    let routed := n.routeRequest c.request c.fresh c.now c.stamp c.outcome
    (routed.node, ⟨routed.posts, routed.result⟩)

def requestTypes : List (ℤ × LiftRequestType) := [(1, .endSession), (2, .agvMode), (3, .humanMode)]

def doorStates : List (ℤ × DoorGoal) := [(0, .closed), (2, .opened)]

structure PostsRequest (c : LiftCall) (p : LiftPost) : Prop where
  lift : p.lift = c.lift
  session : p.sessionId.val = c.session
  floor : p.destinationFloor.val = c.floor
  requestType : (c.requestType, p.requestType) ∈ requestTypes
  doorState : (c.doorState, p.doorState) ∈ doorStates

inductive Routes (n : LiftAdapterNode) (c : LiftCall) : LiftAdapterNode → LiftAnswer → Prop where
  | unmanaged (hlift : c.lift ∉ n.handles.keys) : Routes n c n ⟨[], .ok false⟩
  | noRequest (hlift : c.lift ∈ n.handles.keys) (htype : c.requestType = 0) :
      Routes n c n ⟨[], .ok false⟩
  | rejected {h : LiftHandle} (hget : n.handles.get c.lift = some h) (htype : c.requestType ≠ 0) :
      Routes n c ⟨n.handles.set h.reject, n.sessionManager⟩ ⟨[], .ok false⟩
  | occupied {h : LiftHandle} (hget : n.handles.get c.lift = some h) (htype : c.requestType ≠ 0) :
      Routes n c ⟨n.handles.set h.reject, n.sessionManager.evictStaleLocked c.lift c.now⟩
        ⟨[], .ok false⟩
  | raised {h : LiftHandle} {p : LiftPost} {e : Exc} (hget : n.handles.get c.lift = some h)
      (htype : c.requestType ≠ 0) (hpost : PostsRequest c p)
      (hgate : (p.gate n.sessionManager c.now c.stamp).2 = true) :
      Routes n c ⟨n.handles, (p.gate n.sessionManager c.now c.stamp).1⟩ ⟨[p], .error e⟩
  | returned {h : LiftHandle} {p : LiftPost} (hget : n.handles.get c.lift = some h)
      (htype : c.requestType ≠ 0) (hpost : PostsRequest c p)
      (hgate : (p.gate n.sessionManager c.now c.stamp).2 = true) :
      Routes n c
        ⟨n.handles.set h.dispatched, p.settle (p.gate n.sessionManager c.now c.stamp).1⟩
        ⟨[p], .ok true⟩

theorem requestTypeOf_eq_ok {n : ℤ} {t : LiftRequestType} :
    Code.requestType? (.int n) = some t ↔ (n, t) ∈ requestTypes := by
  unfold Code.requestType? requestTypeOf requestTypes
  simp only [Code.asInt?, Option.bind_some]
  by_cases hend : n = 1
  · subst hend
    cases t <;> simp [Except.toOption]
  · by_cases hagv : n = 2
    · subst hagv
      cases t <;> simp [Except.toOption]
    · by_cases hhuman : n = 3
      · subst hhuman
        cases t <;> simp [Except.toOption]
      · simp [Except.toOption, hend, hagv, hhuman]

theorem doorGoalOf_eq_ok {n : ℤ} {g : DoorGoal} :
    (DoorStateField.bare (.int n)).goal? = some g ↔ (n, g) ∈ doorStates := by
  unfold DoorStateField.goal? doorGoalOf doorStates
  simp only [DoorStateField.code, Code.asInt?, Option.bind_some]
  by_cases hopen : n = 2
  · subst hopen
    cases g <;> simp [Except.toOption]
  · by_cases hclosed : n = 0
    · subst hclosed
      cases g <;> simp [Except.toOption]
    · by_cases hmoving : n = 1 <;> simp [Except.toOption, hopen, hclosed, hmoving]

theorem screen_of_zero {h : LiftHandle} {c : LiftCall} (htype : c.requestType = 0) :
    h.screen c.request none c.fresh = .dropped := by
  unfold LiftHandle.screen LiftCall.request
  rw [htype]
  rfl

theorem screen_ne_dropped {h : LiftHandle} {c : LiftCall} (htype : c.requestType ≠ 0) :
    h.screen c.request none c.fresh ≠ .dropped := by
  unfold LiftHandle.screen LiftCall.request
  simp only [asInt, Code.asInt?, if_neg htype]
  unfold LiftHandle.screenTranslated
  split
  · intro hdropped
    cases hdropped
  · split_ifs
    all_goals
      intro hdropped
      cases hdropped

theorem postsRequest_of_screen {h : LiftHandle} {c : LiftCall} {p : LiftPost}
    (hkey : h.liftName = c.lift) (hscreen : h.screen c.request none c.fresh = .request p) :
    PostsRequest c p := by
  obtain ⟨-, -, hsession, hfloor, htype, hdoor, hlift, -, -⟩ :=
    LiftHandle.screen_eq_request.mp hscreen
  exact {
    lift := hlift.trans hkey
    session := (Option.some.inj hsession).symm
    floor := (Option.some.inj hfloor).symm
    requestType := requestTypeOf_eq_ok.mp htype
    doorState := doorGoalOf_eq_ok.mp hdoor }

theorem routing_step (n : LiftAdapterNode) (c : LiftCall) :
    n.Routes c (routing.step n c).1 (routing.step n c).2 := by
  unfold routing routeRequest
  dsimp only
  rw [show c.request.liftName = some c.lift from rfl]
  dsimp only
  cases hget : n.handles.get c.lift with
  | none => exact .unmanaged (Registry.get_eq_none.mp hget)
  | some h =>
    have hkey : h.liftName = c.lift := Registry.key_of_get hget
    have hset := Registry.set_of_get hget
    unfold LiftHandle.dispatchRequest
    dsimp only
    by_cases htype : c.requestType = 0
    · rw [screen_of_zero htype]
      dsimp only
      rw [hset]
      exact .noRequest (Registry.get_eq_some.mp hget).1 htype
    · cases hscreen : h.screen c.request none c.fresh with
      | dropped => exact absurd hscreen (screen_ne_dropped htype)
      | rejected why => exact .rejected hget htype
      | request p =>
        have hpost := postsRequest_of_screen hkey hscreen
        dsimp only
        cases hgate : (p.gate n.sessionManager c.now c.stamp).2 with
        | false =>
          simp only [Bool.not_false, if_true]
          rw [gate_refused hgate, hpost.lift]
          exact .occupied hget htype
        | true =>
          cases c.outcome with
          | error e =>
            simp only [Bool.not_true, Bool.false_eq_true, if_false, hset]
            exact .raised hget htype hpost hgate
          | ok body => exact .returned hget htype hpost hgate

/-! ### The four kinds of calls -/

section Kinds

variable {liftNames : List String} {n n' : LiftAdapterNode} {c : LiftCall} {a : LiftAnswer}

theorem Routes.keys (hroutes : n.Routes c n' a) : n'.handles.keys = n.handles.keys := by
  cases hroutes <;> rfl

end Kinds

end LiftAdapterNode

end QuikSync.Lift

import QuikSyncAdapters.Lift.Handle

/-! What one `dispatch_request` can do, and the release of a lift through END_SESSION. -/

namespace QuikSync.Lift.LiftHandle

open Client Py

variable {h : LiftHandle} {m : LiftSessionManager} {r : LiftRequest} {executionId : Option String}
  {fresh : String} {now stamp : ℚ} {outcome : Except Exc Json}

theorem dispatchRequest_cases (h : LiftHandle) (m : LiftSessionManager) (r : LiftRequest)
    (executionId : Option String) (fresh : String) (now stamp : ℚ) (outcome : Except Exc Json) :
    ((∀ p, h.screen r executionId fresh = .request p → (p.gate m now stamp).2 = false) ∧
        (h.dispatchRequest m r executionId fresh now stamp outcome).posts = [] ∧
        (h.dispatchRequest m r executionId fresh now stamp outcome).result = .ok false) ∨
      ∃ p, h.screen r executionId fresh = .request p ∧ (p.gate m now stamp).2 = true ∧
        (h.dispatchRequest m r executionId fresh now stamp outcome).posts = [p] ∧
        (h.dispatchRequest m r executionId fresh now stamp outcome).result =
          outcome.map fun _ => true := by
  unfold dispatchRequest
  cases hscreen : h.screen r executionId fresh with
  | dropped => exact Or.inl ⟨nofun, rfl, rfl⟩
  | rejected why => exact Or.inl ⟨nofun, rfl, rfl⟩
  | request p =>
    dsimp only
    cases hgate : (p.gate m now stamp).2 with
    | false =>
      refine Or.inl ⟨fun q hq => ?_, rfl, rfl⟩
      obtain rfl := Screening.request.inj hq
      exact hgate
    | true =>
      refine Or.inr ⟨p, rfl, hgate, ?_⟩
      cases outcome <;> exact ⟨rfl, rfl⟩

theorem dispatchRequest_posts {p : LiftPost} :
    (h.dispatchRequest m r executionId fresh now stamp outcome).posts = [p] ↔
      h.screen r executionId fresh = .request p ∧ (p.gate m now stamp).2 = true := by
  rcases dispatchRequest_cases h m r executionId fresh now stamp outcome with
    ⟨hstop, hposts, -⟩ | ⟨q, hscreen, hgate, hposts, -⟩
  · rw [hposts]
    refine ⟨nofun, fun ⟨hscreen, hgate⟩ => ?_⟩
    exact absurd (hgate.symm.trans (hstop p hscreen)) nofun
  · rw [hposts, hscreen]
    constructor
    · intro hq
      obtain rfl : q = p := by simpa using hq
      exact ⟨rfl, hgate⟩
    · rintro ⟨hq, -⟩
      rw [Screening.request.inj hq]

theorem dispatchRequest_returns_iff :
    (∃ b, (h.dispatchRequest m r executionId fresh now stamp outcome).result = .ok b) ↔
      (∃ body, outcome = .ok body) ∨
        ∀ p, h.screen r executionId fresh = .request p → (p.gate m now stamp).2 = false := by
  rcases dispatchRequest_cases h m r executionId fresh now stamp outcome with
    ⟨hstop, -, hresult⟩ | ⟨q, hscreen, hgate, -, hresult⟩
  · exact ⟨fun _ => Or.inr hstop, fun _ => ⟨false, hresult⟩⟩
  · rw [hresult]
    constructor
    · rintro ⟨b, hb⟩
      cases outcome with
      | error e => cases hb
      | ok body => exact Or.inl ⟨body, rfl⟩
    · rintro (⟨body, rfl⟩ | hstop)
      · exact ⟨true, rfl⟩
      · exact absurd (hgate.symm.trans (hstop q hscreen)) nofun

theorem gate_of_ne_agvMode {p : LiftPost} (hp : p.requestType ≠ .agvMode) :
    (p.gate m now stamp).2 = true := by
  rw [LiftPost.gate, if_neg hp]

/-- An END_SESSION is posted, whoever holds the lift, exactly when it names a floor: the
check of the floor is shared with the requests that need one. -/
theorem endSession_posted_iff (h : LiftHandle) (m : LiftSessionManager) (s floor : String)
    (type : Code) (door : DoorStateField) (executionId : Option String) (fresh : String)
    (now stamp : ℚ) (outcome : Except Exc Json) (hs : s ≠ "") (htype : type.asInt? = some 1)
    (hdoor : door.code.asInt? = some 0 ∨ door.code.asInt? = some 2) :
    (∃ p, (h.dispatchRequest m ⟨some h.liftName, some s, type, some floor, door⟩
          executionId fresh now stamp outcome).posts = [p] ∧
        p.requestType = .endSession ∧ p.lift = h.liftName ∧ p.sessionId.val = s) ↔
      floor ≠ "" ∧ h.liftName ≠ "" := by
  have hend : Code.requestType? type = some .endSession := by
    rw [Code.requestType?, htype]
    rfl
  obtain ⟨goal, hgoal⟩ : ∃ goal, door.goal? = some goal := by
    unfold DoorStateField.goal?
    rcases hdoor with hclosed | hopen
    · rw [hclosed]
      exact ⟨.closed, rfl⟩
    · rw [hopen]
      exact ⟨.opened, rfl⟩
  constructor
  · rintro ⟨p, hp, -⟩
    obtain ⟨-, hname, -, hfloor, -⟩ := screen_eq_request.mp (dispatchRequest_posts.mp hp).1
    obtain rfl : floor = p.destinationFloor.val := Option.some.inj hfloor
    exact ⟨p.destinationFloor.2, hname⟩
  · rintro ⟨hfloor, hname⟩
    have hlockless : LiftRequestType.endSession ≠ .agvMode := by decide
    refine ⟨⟨h.liftName, ⟨s, hs⟩, .endSession, ⟨floor, hfloor⟩, goal, orFresh executionId fresh,
      h.scope⟩, dispatchRequest_posts.mpr ⟨?_, gate_of_ne_agvMode hlockless⟩, rfl, rfl, rfl⟩
    exact screen_eq_request.mpr ⟨rfl, hname, rfl, rfl, hend, hgoal, rfl, rfl, rfl⟩

theorem endSession_posted_iff_witness :
    (∃ p, ((LiftHandle.new "L1" none).dispatchRequest (.new 0)
          ⟨some "L1", some "a", .int 1, some "G", .bare (.int 0)⟩ none "x" 0 0
          (.ok .null)).posts = [p] ∧
        p.requestType = .endSession ∧ p.lift = "L1" ∧ p.sessionId.val = "a") ↔
      "G" ≠ "" ∧ "L1" ≠ "" :=
  endSession_posted_iff (LiftHandle.new "L1" none) (.new 0) "a" "G" (.int 1) (.bare (.int 0)) none
    "x" 0 0 (.ok .null) (by decide) rfl (Or.inl rfl)

/-- The documented release names no floor and is dropped. -/
theorem endSession_dropped :
    ¬ ∀ (h : LiftHandle) (m : LiftSessionManager) (s floor : String) (type : Code)
        (door : DoorStateField) (executionId : Option String) (fresh : String) (now stamp : ℚ)
        (outcome : Except Exc Json), h.liftName ≠ "" → s ≠ "" → type.asInt? = some 1 →
      door.code.asInt? = some 0 ∨ door.code.asInt? = some 2 →
      ∃ p, (h.dispatchRequest m ⟨some h.liftName, some s, type, some floor, door⟩
          executionId fresh now stamp outcome).posts = [p] ∧
        p.requestType = .endSession ∧ p.lift = h.liftName ∧ p.sessionId.val = s := by
  intro hall
  obtain ⟨p, hp, -⟩ := hall (LiftHandle.new "L1" none) (.new 0) "a" "" (.int 1) (.bare (.int 0))
    none "x" 0 0 (.ok .null) (by decide) (by decide) rfl (Or.inl rfl)
  exact absurd hp nofun

end QuikSync.Lift.LiftHandle

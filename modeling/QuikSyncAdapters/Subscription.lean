import QuikSyncAdapters.Door.Node
import QuikSyncAdapters.Lift.Node

/-! The subscription callbacks of the door and the lift node. Both hand a failed POST on to
their caller, and the executor that calls them has no handler for it. -/

namespace QuikSync

open Client Py

/-- Each callback returns a verdict exactly when the POST succeeds or is not reached. -/
theorem route_requests_return_iff (door : Door.DoorAdapterNode) (lift : Lift.LiftAdapterNode)
    (doorRequest : Door.DoorRequest) (liftRequest : Lift.LiftRequest) (fresh : String)
    (now stamp : ℚ) (outcome : Except Exc Json) :
    ((∃ b, (door.routeRequest doorRequest fresh outcome).result = .ok b) ↔
        (∃ body, outcome = .ok body) ∨ ¬ door.Forwards doorRequest) ∧
      ((∃ b, (lift.routeRequest liftRequest fresh now stamp outcome).result = .ok b) ↔
        (∃ body, outcome = .ok body) ∨ ¬ lift.Forwards liftRequest now) :=
  ⟨door.routeRequest_returns_iff doorRequest fresh outcome,
    lift.routeRequest_returns_iff liftRequest fresh now stamp outcome⟩

/-- A session conflict answered by the server leaves the callback of the lift node. -/
theorem conflict_escapes :
    ¬ ((∀ (n : Door.DoorAdapterNode) (r : Door.DoorRequest) (fresh : String)
          (outcome : Except Exc Json), (∀ e, outcome = .error e → e.isQuikSync = true) →
        ∃ b, (n.routeRequest r fresh outcome).result = .ok b) ∧
      ∀ (n : Lift.LiftAdapterNode) (r : Lift.LiftRequest) (fresh : String) (now stamp : ℚ)
          (outcome : Except Exc Json), (∀ e, outcome = .error e → e.isQuikSync = true) →
        ∃ b, (n.routeRequest r fresh now stamp outcome).result = .ok b) := by
  rintro ⟨-, hlift⟩
  obtain ⟨b, hb⟩ := hlift (.new ["L1"] none (.new 0))
    ⟨some "L1", some "a", .int 2, some "G", .bare (.int 0)⟩ "x" 0 0
    (.error (.quikSyncClientError 409 (.str "session_conflict") .null))
    (by rintro e he; obtain rfl := Except.error.inj he; rfl)
  exact absurd hb nofun

end QuikSync

import QuikSyncAdapters.Library.Registry
import QuikSyncAdapters.Door.Handle

/-! The node of the door adapter: one handle per managed door. -/

namespace QuikSync.Door

open Client Py

structure DoorAdapterNode where
  handles : Registry String DoorHandle DoorHandle.doorName

namespace DoorAdapterNode

def new (doorNames : List String) (scope : Option String) : DoorAdapterNode :=
  ⟨.ofKeys (fun name => .new name scope) (fun _ => rfl) doorNames⟩

structure Routed where
  node : DoorAdapterNode
  posts : List DoorPost
  result : Except Exc Bool

/-- Registered as the subscription callback; `fresh` is the execution id drawn if needed. -/
def routeRequest (n : DoorAdapterNode) (r : DoorRequest) (fresh : String)
    (outcome : Except Exc Json) : Routed :=
  match r.doorName with
  | none => ⟨n, [], .ok false⟩
  | some doorName =>
    match n.handles.get doorName with
    | none => ⟨n, [], .ok false⟩
    | some handle =>
      let d := handle.dispatchRequest r none fresh outcome
      ⟨⟨n.handles.set d.handle⟩, d.posts, d.result⟩

def onStateFrame (n : DoorAdapterNode) (doorName : String) (frame : Dict) (published : Bool) :
    DoorAdapterNode × Option DoorStateFields :=
  match n.handles.get doorName with
  | none => (n, none)
  | some handle =>
    (⟨n.handles.set (handle.onStateFrame frame published).1⟩,
      (handle.onStateFrame frame published).2)

/-- The requests that the node forwards: for one of its doors, from somebody, to open or close. -/
def Forwards (n : DoorAdapterNode) (r : DoorRequest) : Prop :=
  ∃ door requester mode, r.doorName = some door ∧ door ∈ n.handles.keys ∧ door ≠ "" ∧
    r.requesterId = some requester ∧ requester ≠ "" ∧ r.requestedMode = some mode ∧
    (mode.equals? = some 0 ∨ mode.equals? = some 2)

theorem requestedModeOf_eq_ok {mode : Option Code} :
    (∃ g, requestedModeOf mode = .ok g) ↔
      ∃ value, mode = some value ∧ (value.equals? = some 0 ∨ value.equals? = some 2) := by
  unfold requestedModeOf
  split
  · simp
  · simp [Code.equals?]
  · rename_i value _
    have hvalue : (∃ v, some value = some v ∧ (v.equals? = some 0 ∨ v.equals? = some 2)) ↔
        value.equals? = some 0 ∨ value.equals? = some 2 := by simp
    rw [hvalue]
    split_ifs with hopen hclosed hmoving
    · simp [hopen]
    · simp [hclosed]
    · simp [hopen, hclosed]
    · simp [hopen, hclosed]

theorem routeRequest_returns_iff (n : DoorAdapterNode) (r : DoorRequest) (fresh : String)
    (outcome : Except Exc Json) :
    (∃ b, (n.routeRequest r fresh outcome).result = .ok b) ↔
      (∃ body, outcome = .ok body) ∨ ¬ n.Forwards r := by
  unfold routeRequest
  cases hname : r.doorName with
  | none =>
    refine ⟨fun _ => Or.inr ?_, fun _ => ⟨false, rfl⟩⟩
    rintro ⟨door, _, _, hdoor, -⟩
    exact absurd (hname.symm.trans hdoor) nofun
  | some door =>
    dsimp only
    cases hget : n.handles.get door with
    | none =>
      refine ⟨fun _ => Or.inr ?_, fun _ => ⟨false, rfl⟩⟩
      rintro ⟨door', _, _, hdoor, hmem, -⟩
      obtain rfl : door = door' := Option.some.inj (hname.symm.trans hdoor)
      exact Registry.get_eq_none.mp hget hmem
    | some handle =>
      have hkey : handle.doorName = door := Registry.key_of_get hget
      have hmem : door ∈ n.handles.keys := (Registry.get_eq_some.mp hget).1
      dsimp only
      rw [DoorHandle.dispatchRequest_returns_iff]
      refine or_congr_right ?_
      constructor
      · rintro hstop ⟨door', requester, mode, hdoor, -, hne, hrequester, hq, hmode, hvalue⟩
        obtain rfl : door = door' := Option.some.inj (hname.symm.trans hdoor)
        obtain ⟨goal, hgoal⟩ := requestedModeOf_eq_ok.mpr ⟨mode, hmode, hvalue⟩
        have hscreen := hstop ⟨handle.doorName, ⟨requester, hq⟩, goal, orFresh none fresh,
          handle.scope⟩
        refine hscreen (DoorHandle.screen_eq_ok.mpr ?_)
        exact ⟨by rw [hkey, hdoor], by rwa [hkey], hrequester, hgoal, rfl, rfl, rfl⟩
      · intro hnot p hp
        obtain ⟨-, hne, hrequester, hgoal, -⟩ := DoorHandle.screen_eq_ok.mp hp
        obtain ⟨mode, hmode, hvalue⟩ := requestedModeOf_eq_ok.mp ⟨_, hgoal⟩
        exact hnot ⟨door, p.requesterId.val, mode, hname, hmem, hkey ▸ hne, hrequester,
          p.requesterId.2, hmode, hvalue⟩

end DoorAdapterNode

end QuikSync.Door

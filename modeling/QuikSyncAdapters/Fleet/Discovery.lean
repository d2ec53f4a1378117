import QuikSyncAdapters.Library.Fallible
import QuikSyncAdapters.Library.PyValue

/-! The lookup of the fleet in the answer to `/discovery`, with the two exit codes of its
failures. -/

namespace QuikSync.Fleet

open Py Fallible

def findOurFleet (fleetName : Json) : Json → Except Py.Error (Option Dict)
  | .obj discovery =>
    match (Dict.get discovery "fleets").orElse (.arr []) with
    | .arr fleets => .ok (fleets.findSome? fun
      | .obj fleet => if Json.eq (Dict.get fleet "fleet_name") fleetName then some fleet else none
      | _ => none)
    | _ => .ok none
  | _ => .error .attributeError

namespace Discovery

def available : Json → Except Py.Error (List Json)
  | .obj discovery => do
    let fleets ← ((Dict.get discovery "fleets").orElse (.arr [])).iter
    pure (fleets.filterMap fun
      | .obj fleet => some (Dict.get fleet "fleet_name")
      | _ => none)
  | _ => .error .attributeError

/-- `_fetch_fleet_entry`, given how `get_discovery` ended: the entry, or the exit code. -/
def fetchFleetEntry {ε : Type} (fleetName : Json) (outcome : Except ε Json) :
    Except Py.Error (Option Dict × Option ℕ) :=
  match outcome with
  | .error _ => .ok (none, some 3)
  | .ok discovery => do
    let found ← findOurFleet fleetName discovery
    match found with
    | some entry => pure (some entry, none)
    | none =>
      let _names ← available discovery
      pure (none, some 4)

def FirstNamed (fleetName discovery : Json) (entry : Dict) : Prop :=
  ∃ members before rest, discovery = .obj members ∧
    Dict.get members "fleets" = .arr (before ++ .obj entry :: rest) ∧
    Json.eq (Dict.get entry "fleet_name") fleetName = true ∧
    ∀ fleet, Json.obj fleet ∈ before → Json.eq (Dict.get fleet "fleet_name") fleetName = false

/-- The answer is an object, and what stands under `fleets` can be gone through if there is
anything. -/
def Readable (discovery : Json) : Prop :=
  ∃ members, discovery = .obj members ∧
    ((Dict.get members "fleets").truthy = true →
      ∃ items, (Dict.get members "fleets").iter = .ok items)

theorem findOurFleet_of_not_list {fleetName : Json} {members : Dict}
    (h : ∀ items, Dict.get members "fleets" ≠ .arr items) :
    findOurFleet fleetName (.obj members) = .ok none := by
  unfold findOurFleet
  dsimp only
  split
  · rename_i items hitems
    unfold Json.orElse at hitems
    split_ifs at hitems with htruthy
    · exact absurd hitems (h items)
    · obtain rfl := Json.arr.inj hitems
      rfl
  · rfl

theorem findOurFleet_eq_some {fleetName discovery : Json} {entry : Dict} :
    findOurFleet fleetName discovery = .ok (some entry) ↔
      FirstNamed fleetName discovery entry := by
  constructor
  · intro h
    cases discovery with
    | obj members =>
      cases hfleets : Dict.get members "fleets" with
      | arr items =>
        unfold findOurFleet at h
        dsimp only at h
        rw [hfleets, Json.arr_orElse_nil] at h
        obtain ⟨before, v, rest, hitems, hv, hbefore⟩ :=
          List.findSome?_eq_some_iff.mp (Except.ok.inj h)
        cases v with
        | obj fleet =>
          dsimp only at hv
          split_ifs at hv with hname
          obtain rfl := Option.some.inj hv
          refine ⟨members, before, rest, rfl, by rw [hfleets, hitems], hname, ?_⟩
          intro other hother
          have hskipped := hbefore (.obj other) hother
          dsimp only at hskipped
          split_ifs at hskipped with hsame
          exact Bool.eq_false_iff.mpr hsame
        | _ => cases hv
      | _ =>
        rw [findOurFleet_of_not_list fun items hitems => by rw [hfleets] at hitems; cases hitems]
          at h
        cases h
    | _ => cases h
  · rintro ⟨members, before, rest, rfl, hfleets, hname, hbefore⟩
    unfold findOurFleet
    dsimp only
    rw [hfleets, Json.arr_orElse_nil]
    dsimp only
    apply congrArg Except.ok
    refine List.findSome?_eq_some_iff.mpr ⟨before, .obj entry, rest, rfl, if_pos hname, ?_⟩
    intro v hv
    cases v with
    | obj fleet => exact if_neg (Bool.eq_false_iff.mp (hbefore fleet hv))
    | _ => rfl

theorem available_ok_iff {discovery : Json} :
    (∃ names, available discovery = .ok names) ↔ Readable discovery := by
  cases discovery with
  | obj members =>
    have hreadable : Readable (.obj members) ↔
        ((Dict.get members "fleets").truthy = true →
          ∃ items, (Dict.get members "fleets").iter = .ok items) := by
      constructor
      · rintro ⟨members', hmembers, h⟩
        obtain rfl := Json.obj.inj hmembers
        exact h
      · exact fun h => ⟨members, rfl, h⟩
    rw [hreadable, ← Json.iter_orElse_nil]
    constructor
    · rintro ⟨names, h⟩
      obtain ⟨items, hitems, -⟩ := bind_eq_ok.mp h
      exact ⟨items, hitems⟩
    · rintro ⟨items, hitems⟩
      exact ⟨_, bind_eq_ok.mpr ⟨items, hitems, rfl⟩⟩
  | _ =>
    refine iff_of_false ?_ ?_
    · rintro ⟨names, h⟩
      cases h
    · rintro ⟨members, h, -⟩
      cases h

structure KeepsContract {ε : Type} (fleetName : Json) (outcome : Except ε Json) : Prop where
  fetchFailed : ∀ e, outcome = .error e → fetchFleetEntry fleetName outcome = .ok (none, some 3)
  found : ∀ discovery entry, outcome = .ok discovery → FirstNamed fleetName discovery entry →
    fetchFleetEntry fleetName outcome = .ok (some entry, none)
  notFound : ∀ discovery, outcome = .ok discovery →
    (∀ entry, ¬ FirstNamed fleetName discovery entry) →
      fetchFleetEntry fleetName outcome = .ok (none, some 4)
  oneSide : ∃ entry code, fetchFleetEntry fleetName outcome = .ok (entry, code) ∧
    (entry.isSome = true ↔ code = none)

theorem readable_of_firstNamed {fleetName discovery : Json} {entry : Dict}
    (h : FirstNamed fleetName discovery entry) : Readable discovery := by
  obtain ⟨members, before, rest, hmembers, hfleets, -⟩ := h
  refine ⟨members, hmembers, fun _ => ⟨before ++ .obj entry :: rest, ?_⟩⟩
  rw [hfleets]
  rfl

theorem fetchFleetEntry_found {ε : Type} {fleetName discovery : Json} {entry : Dict}
    (h : FirstNamed fleetName discovery entry) :
    fetchFleetEntry fleetName (.ok discovery : Except ε Json) = .ok (some entry, none) := by
  have hfound : findOurFleet fleetName discovery = .ok (some entry) := findOurFleet_eq_some.mpr h
  unfold fetchFleetEntry
  dsimp only
  exact bind_eq_ok.mpr ⟨some entry, hfound, rfl⟩

theorem fetchFleetEntry_notFound {ε : Type} {fleetName discovery : Json}
    (hreadable : Readable discovery) (h : ∀ entry, ¬ FirstNamed fleetName discovery entry) :
    fetchFleetEntry fleetName (.ok discovery : Except ε Json) = .ok (none, some 4) := by
  have hnone : findOurFleet fleetName discovery = .ok none := by
    obtain ⟨members, rfl, -⟩ := hreadable
    cases hfound : findOurFleet fleetName (.obj members) with
    | error e =>
      unfold findOurFleet at hfound
      dsimp only at hfound
      split at hfound
      · cases hfound
      · cases hfound
    | ok found =>
      cases found with
      | none => rfl
      | some entry => exact absurd (findOurFleet_eq_some.mp hfound) (h entry)
  obtain ⟨names, hnames⟩ := available_ok_iff.mpr hreadable
  unfold fetchFleetEntry
  dsimp only
  exact bind_eq_ok.mpr ⟨none, hnone, bind_eq_ok.mpr ⟨names, hnames, rfl⟩⟩

theorem readable_of_returns {ε : Type} {fleetName discovery : Json}
    {result : Option Dict × Option ℕ}
    (h : fetchFleetEntry fleetName (.ok discovery : Except ε Json) = .ok result) :
    Readable discovery := by
  unfold fetchFleetEntry at h
  dsimp only at h
  obtain ⟨found, hfound, h⟩ := bind_eq_ok.mp h
  cases found with
  | some entry => exact readable_of_firstNamed (findOurFleet_eq_some.mp hfound)
  | none =>
    obtain ⟨names, hnames, -⟩ := bind_eq_ok.mp h
    exact available_ok_iff.mp ⟨names, hnames⟩

theorem keeps_contract_iff {ε : Type} (fleetName : Json) (outcome : Except ε Json) :
    KeepsContract fleetName outcome ↔
      ∀ discovery, outcome = .ok discovery → Readable discovery := by
  constructor
  · rintro h discovery rfl
    obtain ⟨entry, code, hreturns, -⟩ := h.oneSide
    exact readable_of_returns hreturns
  · intro h
    cases outcome with
    | error e =>
      exact {
        fetchFailed := fun _ _ => rfl
        found := fun _ _ hok => by cases hok
        notFound := fun _ hok => by cases hok
        oneSide := ⟨none, some 3, rfl, by simp⟩ }
    | ok discovery =>
      have hreadable : Readable discovery := h discovery rfl
      refine ⟨fun _ herror => (by cases herror), fun _ entry hok hfirst => ?_,
        fun _ hok hnone => ?_, ?_⟩
      · obtain rfl := Except.ok.inj hok
        exact fetchFleetEntry_found hfirst
      · obtain rfl := Except.ok.inj hok
        exact fetchFleetEntry_notFound hreadable hnone
      · by_cases hfirst : ∃ entry, FirstNamed fleetName discovery entry
        · obtain ⟨entry, hfirst⟩ := hfirst
          exact ⟨some entry, none, fetchFleetEntry_found hfirst, by simp⟩
        · push Not at hfirst
          exact ⟨none, some 4, fetchFleetEntry_notFound hreadable hfirst, by simp⟩

/-- A number under `fleets` is refused by the search and then gone through for the log line. -/
theorem numeric_fleets_not_kept :
    ¬ KeepsContract (ε := Unit) (.str "service_robots") (.ok (.obj [("fleets", .int 5)])) := by
  intro h
  obtain ⟨entry, code, hreturns, -⟩ := h.oneSide
  cases hreturns

end Discovery

end QuikSync.Fleet

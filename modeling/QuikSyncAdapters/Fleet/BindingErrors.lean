import QuikSyncAdapters.Fleet.StateTranslation
import QuikSyncAdapters.Fleet.Wiring

/-! How binding a fleet from discovery ends: with every handle prepared, with the error of the
binding, or with an error that an entry of the documents raises on its way. -/

namespace QuikSync.Fleet

open Client Py Fallible

variable {rmf : RmfAdapter} {m : RmfModule rmf} {repr : Json → String}

structure RmfModule.Succeeds (m : RmfModule rmf) : Prop where
  vehicleTraits : ∀ linear angular footprint vicinity,
    ∃ traits, m.vehicleTraits linear angular footprint vicinity = .ok traits
  batterySystem : ∀ voltage capacity current, ∃ battery,
    m.batterySystem voltage capacity current = .ok battery
  deserialize : ∀ graph, ∃ g, m.deserialize graph = .ok g
  fleetConfiguration : ∀ name graph traits battery categories,
    ∃ config, m.fleetConfiguration name graph traits battery categories = .ok config
  makeAdapter : ∀ nodeName, ∃ adapter, m.makeAdapter nodeName = .ok (some adapter)
  addEasyFleet : ∀ adapter config, ∃ fleetHandle, m.addEasyFleet adapter config = .ok fleetHandle
  robotConfiguration : ∃ config, m.robotConfiguration = .ok config
  robotCallbacks : ∀ closures, ∃ callbacks, m.robotCallbacks closures = .ok callbacks

def Clean {α : Type} (x : Except BindError α) : Prop := ¬ ∃ e, x = .error e ∧ ∃ r, e = .raised r

theorem clean_ok {α : Type} (a : α) : Clean (.ok a : Except BindError α) := by
  rintro ⟨e, h, -⟩
  cases h

theorem clean_bindingError {α : Type} (message : String) :
    Clean (.error (.bindingError message) : Except BindError α) := by
  rintro ⟨e, h, r, hr⟩
  rw [← Except.error.inj h] at hr
  cases hr

theorem not_clean_raised {α : Type} (e : Exc) :
    ¬ Clean (.error (.raised e) : Except BindError α) := fun h => h ⟨_, rfl, e, rfl⟩

theorem clean_read_bind {α β : Type} {x : Except Py.Error α} {f : α → Except BindError β} :
    Clean (x.mapError .builtin >>= f) ↔ ∃ a, x = .ok a ∧ Clean (f a) := by
  cases x with
  | error e => exact iff_of_false (not_clean_raised _) fun ⟨a, h, _⟩ => by cases h
  | ok a =>
    show Clean (f a) ↔ _
    constructor
    · exact fun h => ⟨a, rfl, h⟩
    · rintro ⟨a', ha', h⟩
      rw [Except.ok.inj ha']
      exact h

theorem clean_read {α : Type} {x : Except Py.Error α} :
    Clean (x.mapError .builtin) ↔ ∃ a, x = .ok a := by
  cases x with
  | error e => exact iff_of_false (not_clean_raised _) fun ⟨a, h⟩ => by cases h
  | ok a => exact iff_of_true (clean_ok a) ⟨a, rfl⟩

theorem clean_of_ok {α : Type} {x : Except BindError α} (h : ∃ a, x = .ok a) : Clean x := by
  obtain ⟨a, rfl⟩ := h
  exact clean_ok a

theorem mapError_of_ok {ε ε' α : Type} {x : Except ε α} (f : ε → ε') (h : ∃ a, x = .ok a) :
    ∃ a, x.mapError f = .ok a := by
  obtain ⟨a, rfl⟩ := h
  exact ⟨a, rfl⟩

/-! ### The traits and the battery -/

def Numeric (v : Json) (key : String) : Prop := ∃ x, readFloat v key = .ok x

def LacksTraits (traits : Json) : Prop :=
  ∃ key missing, missingTraits traits = .ok (key :: missing)

theorem clean_readFloat_bind {β : Type} {v : Json} {key : String}
    {f : Double → Except BindError β} {C : Prop} (hf : ∀ x, Clean (f x) ↔ C) :
    Clean (readFloat v key >>= f) ↔ Numeric v key ∧ C := by
  unfold Numeric readFloat
  rw [clean_read_bind]
  simp only [mapError_ok_iff, hf]
  exact exists_and_right

/-- The part of `buildVehicleTraits` after the check for missing fields. -/
def convertTraits (m : RmfModule rmf) (traits : Json) : Except BindError m.VehicleTraits := do
  let linearVelocity ← readFloat traits "linear_velocity_m_s"
  let linearAcceleration ← readFloat traits "linear_acceleration_m_s2"
  let angularVelocity ← readFloat traits "angular_velocity_rad_s"
  let angularAcceleration ← readFloat traits "angular_acceleration_rad_s2"
  let footprint ← readFloat traits "footprint_radius_m"
  let vicinity ← readFloat traits "vicinity_radius_m"
  (m.vehicleTraits ⟨linearVelocity, linearAcceleration⟩ ⟨angularVelocity, angularAcceleration⟩
    footprint vicinity).mapError .raised

theorem buildVehicleTraits_nothing_missing {traits : Json} (h : missingTraits traits = .ok []) :
    buildVehicleTraits m repr traits = convertTraits m traits := by
  unfold buildVehicleTraits
  rw [h]
  rfl

theorem buildVehicleTraits_lacking {traits : Json} (h : LacksTraits traits) :
    ∃ message, buildVehicleTraits m repr traits = .error (.bindingError message) := by
  obtain ⟨key, missing, hmissing⟩ := h
  unfold buildVehicleTraits
  rw [hmissing]
  exact ⟨_, rfl⟩

theorem clean_convertTraits (hm : m.Succeeds) {traits : Json} :
    Clean (convertTraits m traits) ↔ ∀ key ∈ requiredTraits, Numeric traits key := by
  have hlast : ∀ linear angular footprint vicinity, Clean
      ((m.vehicleTraits linear angular footprint vicinity).mapError .raised) ↔ True := by
    intro linear angular footprint vicinity
    exact iff_true_intro (clean_of_ok (mapError_of_ok _ (hm.vehicleTraits ..)))
  unfold convertTraits requiredTraits
  simp only [List.forall_mem_cons, List.not_mem_nil, IsEmpty.forall_iff, implies_true]
  repeat' refine clean_readFloat_bind fun _ => ?_
  exact hlast ..

theorem convertTraits_ok (hm : m.Succeeds) {traits : Json}
    (h : ∀ key ∈ requiredTraits, Numeric traits key) : ∃ t, convertTraits m traits = .ok t := by
  unfold requiredTraits at h
  simp only [List.forall_mem_cons, List.not_mem_nil, IsEmpty.forall_iff, implies_true,
    and_true] at h
  obtain ⟨hvelocity, hacceleration, hangular, hangular', hfootprint, hvicinity⟩ := h
  unfold convertTraits
  refine exists_ok_bind hvelocity fun _ => ?_
  refine exists_ok_bind hacceleration fun _ => ?_
  refine exists_ok_bind hangular fun _ => ?_
  refine exists_ok_bind hangular' fun _ => ?_
  refine exists_ok_bind hfootprint fun _ => ?_
  refine exists_ok_bind hvicinity fun _ => ?_
  exact mapError_of_ok _ (hm.vehicleTraits ..)

theorem numeric_member {v : Json} {key : String} (h : Numeric v key) :
    ∃ members, v = .obj members ∧ (members.lookup key).isSome = true := by
  obtain ⟨x, hx⟩ := h
  obtain ⟨w, hw, -⟩ := bind_eq_ok.mp (mapError_ok_iff.mp hx)
  cases v with
  | obj members =>
    refine ⟨members, rfl, ?_⟩
    have hitem : Dict.item members key = .ok w := hw
    unfold Dict.item at hitem
    split at hitem
    · rename_i found
      rw [found]
      rfl
    · cases hitem
  | _ => cases hw

theorem missingTraits_of_numeric {traits : Json}
    (h : ∀ key ∈ requiredTraits, Numeric traits key) : missingTraits traits = .ok [] := by
  obtain ⟨members, rfl, -⟩ := numeric_member (h "footprint_radius_m" (by decide))
  apply congrArg Except.ok
  rw [List.filter_eq_nil_iff]
  intro key hkey
  obtain ⟨members', hmembers, hthere⟩ := numeric_member (h key hkey)
  rw [← Json.obj.inj hmembers] at hthere
  rw [Option.isNone_iff_eq_none]
  intro hnone
  rw [hnone] at hthere
  cases hthere

theorem clean_buildVehicleTraits (hm : m.Succeeds) {traits : Json} :
    Clean (buildVehicleTraits m repr traits) ↔
      LacksTraits traits ∨ ∀ key ∈ requiredTraits, Numeric traits key := by
  cases hmissing : missingTraits traits with
  | error e =>
    have hraised : buildVehicleTraits m repr traits = .error (.builtin e) := by
      unfold buildVehicleTraits
      rw [hmissing]
      rfl
    rw [hraised]
    refine iff_of_false (not_clean_raised _) ?_
    rintro (⟨key, missing, hlacks⟩ | hnumeric)
    · rw [hmissing] at hlacks
      cases hlacks
    · rw [missingTraits_of_numeric hnumeric] at hmissing
      cases hmissing
  | ok missing =>
    cases missing with
    | nil =>
      have hnone : ¬ LacksTraits traits := by
        rintro ⟨key, missing, hlacks⟩
        rw [hmissing] at hlacks
        cases hlacks
      rw [buildVehicleTraits_nothing_missing hmissing, clean_convertTraits hm]
      exact (or_iff_right hnone).symm
    | cons key missing =>
      have hlacks : LacksTraits traits := ⟨key, missing, hmissing⟩
      obtain ⟨message, hmessage⟩ := @buildVehicleTraits_lacking rmf m repr traits hlacks
      rw [hmessage]
      exact iff_of_true (clean_bindingError message) (.inl hlacks)

theorem buildVehicleTraits_ok_iff (hm : m.Succeeds) {traits : Json} :
    (∃ t, buildVehicleTraits m repr traits = .ok t) ↔
      ∀ key ∈ requiredTraits, Numeric traits key := by
  constructor
  · rintro ⟨t, ht⟩
    have hclean : Clean (buildVehicleTraits m repr traits) := clean_of_ok ⟨t, ht⟩
    rcases (clean_buildVehicleTraits hm).mp hclean with hlacks | hnumeric
    · obtain ⟨message, hmessage⟩ := @buildVehicleTraits_lacking rmf m repr traits hlacks
      rw [hmessage] at ht
      cases ht
    · exact hnumeric
  · intro h
    rw [buildVehicleTraits_nothing_missing (missingTraits_of_numeric h)]
    exact convertTraits_ok hm h

theorem clean_buildBatterySystem (hm : m.Succeeds) {battery : Json} :
    Clean (buildBatterySystem m battery) ↔
      Numeric battery "nominal_voltage_v" ∧ Numeric battery "capacity_ah" := by
  unfold buildBatterySystem
  rw [clean_readFloat_bind fun _ => clean_readFloat_bind (C := True) fun _ => ?_, and_true]
  exact iff_true_intro (clean_of_ok (mapError_of_ok _ (hm.batterySystem ..)))

theorem buildBatterySystem_ok_iff (hm : m.Succeeds) {battery : Json} :
    (∃ b, buildBatterySystem m battery = .ok b) ↔
      Numeric battery "nominal_voltage_v" ∧ Numeric battery "capacity_ah" := by
  constructor
  · intro h
    exact (clean_buildBatterySystem hm).mp (clean_of_ok h)
  · rintro ⟨hvoltage, hcapacity⟩
    refine exists_ok_bind hvoltage fun _ => exists_ok_bind hcapacity fun _ => ?_
    exact mapError_of_ok _ (hm.batterySystem ..)

/-! ### The graph -/

def OtherGraph (name graph : Json) : Prop :=
  ∃ members, graph = .obj members ∧ Json.eq (Dict.get members "name") name = false

def PassesLevel (name level : Json) : Prop :=
  ∃ members graphs, level = .obj members ∧ navGraphs members = .ok graphs ∧
    ∀ graph ∈ graphs, OtherGraph name graph

def HoldsGraph (name level : Json) : Prop :=
  ∃ members before graph rest, level = .obj members ∧
    navGraphs members = .ok (before ++ .obj graph :: rest) ∧
    (∀ other ∈ before, OtherGraph name other) ∧ Json.eq (Dict.get graph "name") name = true

def levelsOf : Json → Except Py.Error (List Json)
  | .obj map => ((Dict.get map "levels").orElse (.arr [])).iter
  | _ => .error .attributeError

def GraphAbsent (buildingMap name : Json) : Prop :=
  ∃ levels, levelsOf buildingMap = .ok levels ∧ ∀ level ∈ levels, PassesLevel name level

def GraphFound (buildingMap name : Json) : Prop :=
  ∃ before level rest, levelsOf buildingMap = .ok (before ++ level :: rest) ∧
    (∀ other ∈ before, PassesLevel name other) ∧ HoldsGraph name level

def isNamed (name : Json) : Json → Except Py.Error (Option Dict)
  | .obj graph => .ok (if Json.eq (Dict.get graph "name") name then some graph else none)
  | _ => .error .attributeError

def inLevel (name : Json) : Json → Except Py.Error (Option Dict)
  | .obj level => navGraphs level >>= graphNamed name
  | _ => .error .attributeError

theorem graphNamed_eq (name : Json) (graphs : List Json) :
    graphNamed name graphs = graphs.findSomeM? (isNamed name) := by
  induction graphs with
  | nil => rfl
  | cons graph graphs ih =>
    rw [List.findSomeM?_cons, ← ih]
    cases graph with
    | obj members =>
      unfold isNamed
      dsimp only
      by_cases hname : Json.eq (Dict.get members "name") name = true
      · rw [if_pos hname]
        exact if_pos hname
      · rw [if_neg hname]
        exact if_neg hname
    | _ => rfl

theorem graphInLevels_obj {name : Json} {level : Dict} {rest : List Json} :
    graphInLevels name (.obj level :: rest) = (do
      let graphs ← navGraphs level
      match ← graphNamed name graphs with
      | some graph => pure (some graph)
      | none => graphInLevels name rest) := rfl

theorem graphInLevels_eq (name : Json) (levels : List Json) :
    graphInLevels name levels = levels.findSomeM? (inLevel name) := by
  induction levels with
  | nil => rfl
  | cons level levels ih =>
    rw [List.findSomeM?_cons, ← ih]
    cases level with
    | obj members =>
      rw [graphInLevels_obj]
      unfold inLevel
      dsimp only
      cases navGraphs members with
      | error e => rfl
      | ok graphs =>
        show (graphNamed name graphs >>= _) = (graphNamed name graphs >>= _)
        apply bind_congr
        intro found
        cases found with
        | none => rfl
        | some graph => rfl
    | _ => rfl

theorem isNamed_none_iff {name graph : Json} :
    isNamed name graph = .ok none ↔ OtherGraph name graph := by
  cases graph with
  | obj members =>
    have hother : OtherGraph name (.obj members) ↔
        Json.eq (Dict.get members "name") name = false := by
      constructor
      · rintro ⟨members', hmembers, h⟩
        rw [Json.obj.inj hmembers]
        exact h
      · exact fun h => ⟨members, rfl, h⟩
    rw [hother]
    unfold isNamed
    dsimp only
    split_ifs with hname
    · simp [hname]
    · simp [hname]
  | _ =>
    refine iff_of_false (fun h => by cases h) ?_
    rintro ⟨members, hmembers, -⟩
    cases hmembers

theorem isNamed_some_iff {name graph : Json} {found : Dict} :
    isNamed name graph = .ok (some found) ↔
      graph = .obj found ∧ Json.eq (Dict.get found "name") name = true := by
  cases graph with
  | obj members =>
    unfold isNamed
    dsimp only
    split_ifs with hname
    · constructor
      · intro h
        obtain rfl := Option.some.inj (Except.ok.inj h)
        exact ⟨rfl, hname⟩
      · rintro ⟨h, -⟩
        rw [Json.obj.inj h]
    · refine iff_of_false (fun h => by cases h) ?_
      rintro ⟨h, heq⟩
      rw [Json.obj.inj h] at hname
      exact hname heq
  | _ => exact iff_of_false (fun h => by cases h) fun h => by cases h.1

theorem inLevel_none_iff {name level : Json} :
    inLevel name level = .ok none ↔ PassesLevel name level := by
  constructor
  · intro h
    cases level with
    | obj members =>
      obtain ⟨graphs, hgraphs, hnone⟩ := bind_eq_ok.mp h
      rw [graphNamed_eq, findSomeM?_none_iff] at hnone
      exact ⟨members, graphs, rfl, hgraphs, fun g hg => isNamed_none_iff.mp (hnone g hg)⟩
    | _ => cases h
  · rintro ⟨members, graphs, rfl, hgraphs, hother⟩
    refine bind_eq_ok.mpr ⟨graphs, hgraphs, ?_⟩
    rw [graphNamed_eq, findSomeM?_none_iff]
    exact fun g hg => isNamed_none_iff.mpr (hother g hg)

theorem inLevel_some_iff {name level : Json} :
    (∃ graph, inLevel name level = .ok (some graph)) ↔ HoldsGraph name level := by
  constructor
  · rintro ⟨graph, h⟩
    cases level with
    | obj members =>
      obtain ⟨graphs, hgraphs, hsome⟩ := bind_eq_ok.mp h
      rw [graphNamed_eq, findSomeM?_some_iff] at hsome
      obtain ⟨before, found, rest, rfl, hbefore, hfound⟩ := hsome
      obtain ⟨rfl, hname⟩ := isNamed_some_iff.mp hfound
      exact ⟨members, before, graph, rest, rfl, hgraphs,
        fun other hother => isNamed_none_iff.mp (hbefore other hother), hname⟩
    | _ => cases h
  · rintro ⟨members, before, graph, rest, rfl, hgraphs, hbefore, hname⟩
    refine ⟨graph, bind_eq_ok.mpr ⟨_, hgraphs, ?_⟩⟩
    rw [graphNamed_eq, findSomeM?_some_iff]
    exact ⟨before, .obj graph, rest, rfl,
      fun other hother => isNamed_none_iff.mpr (hbefore other hother),
      isNamed_some_iff.mpr ⟨rfl, hname⟩⟩

theorem graphAbsent_iff {buildingMap name : Json} :
    GraphAbsent buildingMap name ↔
      ∃ levels, levelsOf buildingMap = .ok levels ∧ graphInLevels name levels = .ok none := by
  unfold GraphAbsent
  simp only [graphInLevels_eq, findSomeM?_none_iff, inLevel_none_iff]

theorem graphFound_iff {buildingMap name : Json} :
    GraphFound buildingMap name ↔ ∃ levels graph, levelsOf buildingMap = .ok levels ∧
      graphInLevels name levels = .ok (some graph) := by
  simp only [graphInLevels_eq, findSomeM?_some_iff]
  constructor
  · rintro ⟨before, level, rest, hlevels, hbefore, hlevel⟩
    obtain ⟨graph, hgraph⟩ := inLevel_some_iff.mpr hlevel
    exact ⟨_, graph, hlevels, before, level, rest, rfl,
      fun other hother => inLevel_none_iff.mpr (hbefore other hother), hgraph⟩
  · rintro ⟨levels, graph, hlevels, before, level, rest, rfl, hbefore, hgraph⟩
    exact ⟨before, level, rest, hlevels,
      fun other hother => inLevel_none_iff.mp (hbefore other hother),
      inLevel_some_iff.mp ⟨graph, hgraph⟩⟩

/-- The part of `buildGraph` after the levels are read. -/
def searchLevels (m : RmfModule rmf) (repr : Json → String) (name : Json) (levels : List Json) :
    Except BindError m.Graph := do
  match ← (graphInLevels name levels).mapError .builtin with
  | some graph => (m.deserialize graph).mapError .raised
  | none =>
    throw (.bindingError (s!"nav graph {repr name} not found in building_map; " ++
      s!"available: {repr (.arr (availableGraphs levels))}"))

theorem buildGraph_eq (buildingMap name : Json) :
    buildGraph m repr buildingMap name =
      (levelsOf buildingMap).mapError .builtin >>= searchLevels m repr name := by
  cases buildingMap with
  | _ => rfl

theorem buildGraph_found (hm : m.Succeeds) {buildingMap name : Json}
    (h : GraphFound buildingMap name) : ∃ g, buildGraph m repr buildingMap name = .ok g := by
  obtain ⟨levels, graph, hlevels, hgraph⟩ := graphFound_iff.mp h
  obtain ⟨g, hg⟩ := hm.deserialize graph
  refine ⟨g, ?_⟩
  rw [buildGraph_eq, hlevels]
  show searchLevels m repr name levels = .ok g
  unfold searchLevels
  rw [hgraph]
  exact mapError_ok_iff.mpr hg

theorem buildGraph_absent {buildingMap name : Json} (h : GraphAbsent buildingMap name) :
    ∃ message, buildGraph m repr buildingMap name = .error (.bindingError message) := by
  obtain ⟨levels, hlevels, hnone⟩ := graphAbsent_iff.mp h
  rw [buildGraph_eq, hlevels]
  show ∃ message, searchLevels m repr name levels = .error (.bindingError message)
  unfold searchLevels
  rw [hnone]
  exact ⟨_, rfl⟩

theorem searched_of_clean {buildingMap name : Json}
    (h : Clean (buildGraph m repr buildingMap name)) :
    GraphAbsent buildingMap name ∨ GraphFound buildingMap name := by
  rw [buildGraph_eq, clean_read_bind] at h
  obtain ⟨levels, hlevels, h⟩ := h
  unfold searchLevels at h
  obtain ⟨found, hfound, -⟩ := clean_read_bind.mp h
  cases found with
  | none => exact .inl (graphAbsent_iff.mpr ⟨levels, hlevels, hfound⟩)
  | some graph => exact .inr (graphFound_iff.mpr ⟨levels, graph, hlevels, hfound⟩)

/-! ### The configuration of the fleet -/

def ConvertibleTraits (entry : Dict) : Prop :=
  ∃ traits, entry.lookup "traits" = some traits ∧ ∀ key ∈ requiredTraits, Numeric traits key

def ConvertibleBattery (entry : Dict) : Prop :=
  ∃ battery, entry.lookup "battery" = some battery ∧ Numeric battery "nominal_voltage_v" ∧
    Numeric battery "capacity_ah"

def HashableCategories (entry : Dict) : Prop :=
  ∃ items, ((Dict.get entry "task_categories").orElse (.arr [])).iter = .ok items ∧
    ∃ keys, items.mapM Json.key = .ok keys

/-- The documents describe the fleet in full. -/
structure Configures (entry : Dict) (buildingMap : Json) : Prop where
  named : (entry.lookup "fleet_name").isSome = true
  traits : ConvertibleTraits entry
  battery : ConvertibleBattery entry
  graph : ∃ name, entry.lookup "nav_graph_name" = some name ∧ GraphFound buildingMap name
  categories : HashableCategories entry

/-- The binding names what the documents lack: a trait, or the graph. -/
inductive Refused (entry : Dict) (buildingMap : Json) : Prop
  | traits (traits : Json) (named : (entry.lookup "fleet_name").isSome = true)
      (htraits : entry.lookup "traits" = some traits) (hlacks : LacksTraits traits)
  | graph (name : Json) (named : (entry.lookup "fleet_name").isSome = true)
      (htraits : ConvertibleTraits entry) (hbattery : ConvertibleBattery entry)
      (hname : entry.lookup "nav_graph_name" = some name)
      (habsent : GraphAbsent buildingMap name)

theorem read_item {ε : Type} {d : Dict} {key : String} {v : Json} (f : Py.Error → ε)
    (h : d.lookup key = some v) : (Dict.item d key).mapError f = .ok v :=
  mapError_ok_iff.mpr (item_eq_ok_iff.mpr h)

theorem exists_item {ε : Type} {d : Dict} {key : String} (f : Py.Error → ε)
    (h : (d.lookup key).isSome = true) : ∃ v, (Dict.item d key).mapError f = .ok v := by
  obtain ⟨v, hv⟩ := Option.isSome_iff_exists.mp h
  exact ⟨v, read_item f hv⟩

theorem exists_ok_read {α β : Type} {x : Except BindError α} {f : α → Except BindError β} {a : α}
    (hx : x = .ok a) (hf : ∃ b, f a = .ok b) : ∃ b, x >>= f = .ok b := by
  rw [hx]
  exact hf

theorem buildFleetConfiguration_ok (hm : m.Succeeds) {entry : Dict} {buildingMap : Json}
    (h : Configures entry buildingMap) :
    ∃ config, buildFleetConfiguration m repr entry buildingMap = .ok config := by
  obtain ⟨traits, htraits, hnumeric⟩ := h.traits
  obtain ⟨battery, hbattery, hvoltage, hcapacity⟩ := h.battery
  obtain ⟨name, hname, hgraph⟩ := h.graph
  obtain ⟨items, hitems, keys, hkeys⟩ := h.categories
  have hcategories : buildConsiderRequestDict
      ((Dict.get entry "task_categories").orElse (.arr [])) = .ok keys := by
    unfold buildConsiderRequestDict
    rw [hitems]
    exact mapError_ok_iff.mpr hkeys
  refine exists_ok_bind (exists_item _ h.named) fun _ => ?_
  refine exists_ok_read (read_item _ htraits) ?_
  refine exists_ok_bind ((buildVehicleTraits_ok_iff hm).mpr hnumeric) fun _ => ?_
  refine exists_ok_read (read_item _ hbattery) ?_
  refine exists_ok_bind ((buildBatterySystem_ok_iff hm).mpr ⟨hvoltage, hcapacity⟩) fun _ => ?_
  refine exists_ok_read (read_item _ hname) ?_
  refine exists_ok_bind (buildGraph_found hm hgraph) fun _ => ?_
  refine exists_ok_read hcategories ?_
  exact mapError_of_ok _ (hm.fleetConfiguration ..)

theorem refuses_bind {α β : Type} {x : Except BindError α} {f : α → Except BindError β}
    (h : ∃ message, x = .error (.bindingError message)) :
    ∃ message, x >>= f = .error (.bindingError message) := by
  obtain ⟨message, rfl⟩ := h
  exact ⟨message, rfl⟩

theorem refuses_read {α β : Type} {x : Except BindError α} {f : α → Except BindError β}
    (hx : ∃ a, x = .ok a) (hf : ∀ a, ∃ message, f a = .error (.bindingError message)) :
    ∃ message, x >>= f = .error (.bindingError message) := by
  obtain ⟨a, rfl⟩ := hx
  exact hf a

theorem refuses_item {β : Type} {d : Dict} {key : String} {v : Json}
    {f : Json → Except BindError β} (h : d.lookup key = some v)
    (hf : ∃ message, f v = .error (.bindingError message)) :
    ∃ message, (Dict.item d key).mapError .builtin >>= f = .error (.bindingError message) := by
  rw [read_item BindError.builtin h]
  exact hf

theorem buildFleetConfiguration_refused (hm : m.Succeeds) {entry : Dict} {buildingMap : Json}
    (h : Refused entry buildingMap) :
    ∃ message, buildFleetConfiguration m repr entry buildingMap =
      .error (.bindingError message) := by
  cases h with
  | traits traits named htraits hlacks =>
    refine refuses_read (exists_item _ named) fun _ => refuses_item htraits ?_
    exact refuses_bind (buildVehicleTraits_lacking hlacks)
  | graph name named htraits hbattery hname habsent =>
    obtain ⟨traits, htraits, hnumeric⟩ := htraits
    obtain ⟨battery, hbattery, hvoltage, hcapacity⟩ := hbattery
    refine refuses_read (exists_item _ named) fun _ => refuses_item htraits ?_
    refine refuses_read ((buildVehicleTraits_ok_iff hm).mpr hnumeric) fun _ => ?_
    refine refuses_item hbattery ?_
    refine refuses_read ((buildBatterySystem_ok_iff hm).mpr ⟨hvoltage, hcapacity⟩) fun _ => ?_
    exact refuses_item hname (refuses_bind (buildGraph_absent habsent))

theorem clean_first {α β : Type} {x : Except BindError α} {f : α → Except BindError β}
    (h : Clean (x >>= f)) : Clean x := by
  rintro ⟨e, rfl, hraised⟩
  exact h ⟨e, rfl, hraised⟩

theorem clean_rest {α β : Type} {x : Except BindError α} {f : α → Except BindError β} {a : α}
    (h : Clean (x >>= f)) (hx : x = .ok a) : Clean (f a) := by
  rw [hx] at h
  exact h

theorem clean_item {β : Type} {d : Dict} {key : String} {f : Json → Except BindError β}
    (h : Clean ((Dict.item d key).mapError .builtin >>= f)) :
    ∃ v, d.lookup key = some v ∧ Clean (f v) := by
  obtain ⟨v, hv, hrest⟩ := clean_read_bind.mp h
  exact ⟨v, item_eq_ok_iff.mp hv, hrest⟩

theorem described_of_clean (hm : m.Succeeds) {entry : Dict} {buildingMap : Json}
    (h : Clean (buildFleetConfiguration m repr entry buildingMap)) :
    Refused entry buildingMap ∨ Configures entry buildingMap := by
  unfold buildFleetConfiguration at h
  obtain ⟨fleetName, hfleet, h⟩ := clean_item h
  have named : (entry.lookup "fleet_name").isSome = true := by
    rw [hfleet]
    rfl
  obtain ⟨traits, htraits, h⟩ := clean_item h
  rcases (clean_buildVehicleTraits hm).mp (clean_first h) with hlacks | hnumeric
  · exact .inl (.traits traits named htraits hlacks)
  obtain ⟨built, hbuilt⟩ := (@buildVehicleTraits_ok_iff rmf m repr hm traits).mpr hnumeric
  have h := clean_rest h hbuilt
  obtain ⟨battery, hbattery, h⟩ := clean_item h
  have hvolts := (clean_buildBatterySystem hm).mp (clean_first h)
  obtain ⟨system, hsystem⟩ := (buildBatterySystem_ok_iff hm).mpr hvolts
  have h := clean_rest h hsystem
  obtain ⟨name, hname, h⟩ := clean_item h
  rcases searched_of_clean (clean_first h) with habsent | hfound
  · exact .inl (.graph name named ⟨traits, htraits, hnumeric⟩ ⟨battery, hbattery, hvolts⟩ hname
      habsent)
  obtain ⟨graph, hgraph⟩ := @buildGraph_found rmf m repr hm _ _ hfound
  have h := clean_rest h hgraph
  have hcategories := clean_first h
  unfold buildConsiderRequestDict at hcategories
  obtain ⟨items, hitems, hkeys⟩ := clean_read_bind.mp hcategories
  exact .inr ⟨named, ⟨traits, htraits, hnumeric⟩, ⟨battery, hbattery, hvolts⟩,
    ⟨name, hname, hfound⟩, items, hitems, clean_read.mp hkeys⟩

/-! ### The robots -/

def Listed (robots : List Json) (key : Key) : Prop :=
  ∃ robot, .obj robot ∈ robots ∧ (Dict.get robot "name").truthy = true ∧
    (Dict.get robot "name").key = .ok key

def HashableNames (robots : List Json) : Prop :=
  ∀ robot, .obj robot ∈ robots → (Dict.get robot "name").truthy = true →
    ∃ key, (Dict.get robot "name").key = .ok key

theorem addRobotHandle_step {handles next : Handles rmf} {robot : Json}
    (h : addRobotHandle repr handles robot = .ok next) :
    HashableNames [robot] ∧ ∀ key, (next.ref key).isSome = true →
      (handles.ref key).isSome = true ∨ Listed [robot] key := by
  cases robot with
  | obj members =>
    unfold addRobotHandle at h
    dsimp only at h
    by_cases hname : (Dict.get members "name").truthy = true
    · rw [if_pos hname] at h
      obtain ⟨key, hkey, rfl⟩ := map_eq_ok.mp h
      refine ⟨fun robot hrobot _ => ?_, fun other hother => ?_⟩
      · obtain rfl := Json.obj.inj (List.mem_singleton.mp hrobot)
        exact ⟨key, hkey⟩
      · by_cases hsame : other = key
        · exact .inr ⟨members, List.mem_singleton_self _, hname, hsame ▸ hkey⟩
        · left
          unfold createHandle at hother
          rw [handles.create_ref_of_ne hsame] at hother
          exact hother
    · rw [if_neg hname] at h
      obtain rfl := Except.ok.inj h
      refine ⟨fun robot hrobot htruthy => ?_, fun _ hother => .inl hother⟩
      obtain rfl := Json.obj.inj (List.mem_singleton.mp hrobot)
      exact absurd htruthy hname
  | _ =>
    obtain rfl := Except.ok.inj h
    refine ⟨fun robot hrobot _ => ?_, fun _ hother => .inl hother⟩
    cases List.mem_singleton.mp hrobot

theorem Listed.mono {robots others : List Json} {key : Key} (h : Listed robots key)
    (hsub : robots ⊆ others) : Listed others key := by
  obtain ⟨robot, hrobot, hname, hkey⟩ := h
  exact ⟨robot, hsub hrobot, hname, hkey⟩

theorem foldlM_addRobotHandle_listed {robots : List Json} {handles built : Handles rmf}
    (h : robots.foldlM (addRobotHandle repr) handles = .ok built) :
    HashableNames robots ∧ ∀ key, (built.ref key).isSome = true →
      (handles.ref key).isSome = true ∨ Listed robots key := by
  induction robots generalizing handles with
  | nil =>
    obtain rfl := Except.ok.inj h
    exact ⟨fun robot hrobot => absurd hrobot List.not_mem_nil, fun _ hkey => .inl hkey⟩
  | cons robot robots ih =>
    obtain ⟨next, hnext, hrest⟩ := bind_eq_ok.mp h
    obtain ⟨hhash, hstep⟩ := addRobotHandle_step hnext
    obtain ⟨hhashes, hrun⟩ := ih hrest
    constructor
    · intro members hmembers hname
      rcases List.mem_cons.mp hmembers with heq | hmem
      · exact hhash members (List.mem_singleton.mpr heq) hname
      · exact hhashes members hmem hname
    · intro key hkey
      rcases hrun key hkey with hthere | hlisted
      · rcases hstep key hthere with hbefore | hlisted
        · exact .inl hbefore
        · exact .inr (hlisted.mono (List.cons_subset_cons _ (List.nil_subset _)))
      · exact .inr (hlisted.mono (List.subset_cons_self _ _))

def PreparedAt (handles : Handles rmf) (r : ℕ) : Prop :=
  ∃ h : RobotHandle rmf, handles.objects[r]? = some h ∧ h.registration.isSome = true

section Loop

variable {fleet : String} {scope : Option String} {fleetHandle : rmf.FleetHandle}

theorem prepareRobot_succeeds (hm : m.Succeeds) (handles : Handles rmf) (robot : String) (r : ℕ) :
    ∃ next, prepareRobot m fleet robot scope fleetHandle m.robotConfiguration handles r =
      .ok next := by
  refine exists_ok_bind (mapError_of_ok _ hm.robotConfiguration) fun _ => ?_
  refine exists_ok_bind (mapError_of_ok _ (hm.robotCallbacks _)) fun _ => ?_
  exact ⟨_, rfl⟩

theorem prepareListedRobots_step (hm : m.Succeeds) (handles : Handles rmf) {robot : Dict}
    (hhash : (Dict.get robot "name").truthy = true →
      ∃ key, (Dict.get robot "name").key = .ok key) :
    ∃ next, prepareListedRobots m repr fleet scope fleetHandle handles (.obj robot) = .ok next ∧
      next.ref = handles.ref ∧ (∀ r, PreparedAt handles r → PreparedAt next r) ∧
      ∀ key r, Listed [.obj robot] key → handles.ref key = some r → PreparedAt next r := by
  unfold prepareListedRobots
  dsimp only
  by_cases hname : (Dict.get robot "name").truthy = true
  · obtain ⟨key, hkey⟩ := hhash hname
    have hlisted : ∀ other, Listed [.obj robot] other → other = key := by
      rintro other ⟨members, hmembers, -, hother⟩
      obtain rfl := Json.obj.inj (List.mem_singleton.mp hmembers)
      exact Except.ok.inj (hother.symm.trans hkey)
    rw [if_pos hname, hkey]
    dsimp only
    cases href : handles.ref key with
    | none =>
      refine ⟨handles, rfl, rfl, fun _ h => h, fun other r hother hr => ?_⟩
      rw [hlisted other hother, href] at hr
      cases hr
    | some r =>
      obtain ⟨next, hnext⟩ := @prepareRobot_succeeds rmf m fleet scope fleetHandle hm handles
        ((Dict.get robot "name").text repr) r
      obtain ⟨registration, rfl, -⟩ := prepareRobot_ok hnext
      obtain ⟨object, hobject⟩ := ObjectStore.exists_get href
      rw [ObjectStore.get_of_ref href] at hobject
      have hself : PreparedAt (handles.modify r fun old =>
          { old with registration := some registration }) r := by
        refine ⟨{ object with registration := some registration }, ?_, rfl⟩
        rw [handles.modify_objects_self, hobject]
        rfl
      refine ⟨_, hnext, rfl, ?_, fun other r' hother hr' => ?_⟩
      · rintro r' ⟨old, hold, hprepared⟩
        by_cases hsame : r = r'
        · exact hsame ▸ hself
        · exact ⟨old, by rw [handles.modify_objects_of_ne hsame, hold], hprepared⟩
      · rw [hlisted other hother, href] at hr'
        obtain rfl := Option.some.inj hr'
        exact hself
  · rw [if_neg hname]
    refine ⟨handles, rfl, rfl, fun _ h => h, ?_⟩
    rintro other r ⟨members, hmembers, htruthy, -⟩
    obtain rfl := Json.obj.inj (List.mem_singleton.mp hmembers)
    exact absurd htruthy hname

theorem prepareListedRobots_run (hm : m.Succeeds) {robots : List Json} (handles : Handles rmf)
    (hobjects : ∀ robot ∈ robots, ∃ members, robot = .obj members)
    (hhash : HashableNames robots) :
    ∃ bound, robots.foldlM (prepareListedRobots m repr fleet scope fleetHandle) handles =
        .ok bound ∧
      bound.ref = handles.ref ∧ (∀ r, PreparedAt handles r → PreparedAt bound r) ∧
      ∀ key r, Listed robots key → handles.ref key = some r → PreparedAt bound r := by
  induction robots generalizing handles with
  | nil =>
    refine ⟨handles, rfl, rfl, fun _ h => h, ?_⟩
    rintro key r ⟨robot, hrobot, -⟩
    cases hrobot
  | cons robot robots ih =>
    obtain ⟨⟨members, rfl⟩, hrest⟩ := List.forall_mem_cons.mp hobjects
    obtain ⟨next, hnext, href, hkept, hlisted⟩ :=
      @prepareListedRobots_step rmf m repr fleet scope fleetHandle hm handles members
        (hhash members List.mem_cons_self)
    obtain ⟨bound, hbound, href', hkept', hlisted'⟩ :=
      ih next hrest fun other hother => hhash other (List.mem_cons_of_mem _ hother)
    refine ⟨bound, bind_eq_ok.mpr ⟨next, hnext, hbound⟩, href'.trans href,
      fun r hr => hkept' r (hkept r hr), ?_⟩
    rintro key r ⟨other, hother, hname, hkey⟩ hr
    rcases List.mem_cons.mp hother with heq | hmem
    · exact hkept' r (hlisted key r ⟨other, List.mem_singleton.mpr heq, hname, hkey⟩ hr)
    · have hr' : next.ref key = some r := by rw [href, hr]
      exact hlisted' key r ⟨other, hmem, hname, hkey⟩ hr'

theorem objects_of_clean (hm : m.Succeeds) {robots : List Json} (handles : Handles rmf)
    (hhash : HashableNames robots)
    (h : Clean (robots.foldlM (prepareListedRobots m repr fleet scope fleetHandle) handles)) :
    ∀ robot ∈ robots, ∃ members, robot = .obj members := by
  induction robots generalizing handles with
  | nil => exact List.forall_mem_nil _
  | cons robot robots ih =>
    rw [List.foldlM_cons] at h
    cases robot with
    | obj members =>
      obtain ⟨next, hnext, -⟩ :=
        @prepareListedRobots_step rmf m repr fleet scope fleetHandle hm handles members
          (hhash members List.mem_cons_self)
      have hrest : Clean (robots.foldlM (prepareListedRobots m repr fleet scope fleetHandle)
          next) := by
        rw [hnext] at h
        exact h
      refine List.forall_mem_cons.mpr ⟨⟨members, rfl⟩, ih next (fun other hother => ?_) hrest⟩
      exact hhash other (List.mem_cons_of_mem _ hother)
    | _ => exact absurd (clean_first h) (not_clean_raised _)

end Loop

/-! ### The binding -/

/-- The binding returns with every handle of the dictionary prepared, or raises its own error. -/
def BindsCleanly (m : RmfModule rmf) (repr : Json → String) (entry : Dict) (buildingMap : Json)
    (nodeName : String) (serverUri scope : Option String) (handles : Handles rmf) : Prop :=
  (∃ bound, bindEasyFullControl m repr entry buildingMap nodeName serverUri scope handles =
      .ok bound ∧
    ∀ key r, handles.ref key = some r →
      bound.handles.ref key = some r ∧ PreparedAt bound.handles r) ∨
  ∃ message, bindEasyFullControl m repr entry buildingMap nodeName serverUri scope handles =
    .error (.bindingError message)

/-- Either the documents lack a trait or the graph, or they describe the fleet in full and list
nothing but objects as robots. -/
def Orderly (entry : Dict) (buildingMap : Json) : Prop :=
  Refused entry buildingMap ∨ Configures entry buildingMap ∧
    ∀ robots, robotsOf entry = .ok robots → ∀ robot ∈ robots, ∃ members, robot = .obj members

theorem addFleet_succeeds (hm : m.Succeeds) (nodeName : String) (config : m.FleetConfiguration) :
    ∃ made, addFleet m repr nodeName config = .ok made := by
  obtain ⟨adapter, hadapter⟩ := hm.makeAdapter nodeName
  obtain ⟨fleetHandle, hfleet⟩ := hm.addEasyFleet adapter config
  refine ⟨(adapter, fleetHandle), ?_⟩
  unfold addFleet
  rw [hadapter]
  show ((m.addEasyFleet adapter config).mapError BindError.raised >>= _) = _
  rw [hfleet]
  rfl

section Binding

variable {entry : Dict} {buildingMap : Json} {nodeName : String} {serverUri scope : Option String}
  {handles : Handles rmf}

theorem bindsCleanly_of_refused (hm : m.Succeeds) (h : Refused entry buildingMap) :
    BindsCleanly m repr entry buildingMap nodeName serverUri scope handles := by
  have named : (entry.lookup "fleet_name").isSome = true := by
    cases h with
    | traits traits named htraits hlacks => exact named
    | graph name named htraits hbattery hname habsent => exact named
  right
  unfold bindEasyFullControl
  refine refuses_read (exists_item _ named) fun _ => ?_
  exact refuses_bind (buildFleetConfiguration_refused hm h)

theorem bindsCleanly_of_configures (hm : m.Succeeds)
    (hhandles : buildRobotHandles rmf repr entry = .ok handles)
    (h : Configures entry buildingMap)
    (hobjects : ∀ robots, robotsOf entry = .ok robots →
      ∀ robot ∈ robots, ∃ members, robot = .obj members) :
    BindsCleanly m repr entry buildingMap nodeName serverUri scope handles := by
  obtain ⟨robots, hrobots, hbuilt⟩ := bind_eq_ok.mp hhandles
  obtain ⟨hhash, hlisted⟩ := foldlM_addRobotHandle_listed hbuilt
  obtain ⟨fleetName, hfleet⟩ := exists_item BindError.builtin h.named
  obtain ⟨config, hconfig⟩ := @buildFleetConfiguration_ok rmf m repr hm _ _ h
  obtain ⟨⟨adapter, fleetHandle⟩, hmade⟩ :=
    @addFleet_succeeds rmf m repr hm nodeName (addServerUri m config serverUri)
  obtain ⟨bound, hbound, href, -, hprepared⟩ :=
    @prepareListedRobots_run rmf m repr (fleetName.text repr) scope fleetHandle hm robots handles
      (hobjects robots hrobots) hhash
  left
  refine ⟨⟨adapter, fleetHandle, bound⟩, ?_, fun key r hr => ⟨?_, ?_⟩⟩
  · unfold bindEasyFullControl
    refine bind_eq_ok.mpr ⟨fleetName, hfleet, ?_⟩
    refine bind_eq_ok.mpr ⟨config, hconfig, ?_⟩
    refine bind_eq_ok.mpr ⟨(adapter, fleetHandle), hmade, ?_⟩
    refine bind_eq_ok.mpr ⟨robots, mapError_ok_iff.mpr hrobots, ?_⟩
    exact bind_eq_ok.mpr ⟨bound, hbound, rfl⟩
  · show bound.ref key = some r
    rw [href, hr]
  · rcases hlisted key (by rw [hr]; rfl) with hempty | hlist
    · cases hempty
    · exact hprepared key r hlist hr

theorem orderly_of_clean (hm : m.Succeeds)
    (hhandles : buildRobotHandles rmf repr entry = .ok handles)
    (h : Clean (bindEasyFullControl m repr entry buildingMap nodeName serverUri scope handles)) :
    Orderly entry buildingMap := by
  unfold bindEasyFullControl at h
  obtain ⟨fleetName, -, h⟩ := clean_item h
  rcases described_of_clean hm (clean_first h) with hrefused | hconfigures
  · exact .inl hrefused
  obtain ⟨config, hconfig⟩ := @buildFleetConfiguration_ok rmf m repr hm _ _ hconfigures
  have h := clean_rest h hconfig
  obtain ⟨⟨adapter, fleetHandle⟩, hmade⟩ :=
    @addFleet_succeeds rmf m repr hm nodeName (addServerUri m config serverUri)
  have h := clean_rest h hmade
  obtain ⟨robots, hrobots, h⟩ := clean_read_bind.mp h
  obtain ⟨listed, hlisted, hbuilt⟩ := bind_eq_ok.mp hhandles
  obtain rfl := Except.ok.inj (hlisted.symm.trans hrobots)
  have hhash := (foldlM_addRobotHandle_listed hbuilt).1
  refine .inr ⟨hconfigures, fun others hothers => ?_⟩
  obtain rfl := Except.ok.inj (hothers.symm.trans hrobots)
  exact objects_of_clean hm handles hhash (clean_first h)

end Binding

theorem binds_cleanly_iff (hm : m.Succeeds) {entry : Dict} {handles : Handles rmf}
    (hhandles : buildRobotHandles rmf repr entry = .ok handles) (buildingMap : Json)
    (nodeName : String) (serverUri scope : Option String) :
    BindsCleanly m repr entry buildingMap nodeName serverUri scope handles ↔
      Orderly entry buildingMap := by
  constructor
  · rintro (⟨bound, hbound, -⟩ | ⟨message, hmessage⟩)
    · exact orderly_of_clean hm hhandles (clean_of_ok ⟨bound, hbound⟩)
    · have hclean : Clean (bindEasyFullControl m repr entry buildingMap nodeName serverUri scope
          handles) := by
        rw [hmessage]
        exact clean_bindingError message
      exact orderly_of_clean hm hhandles hclean
  · rintro (hrefused | ⟨hconfigures, hobjects⟩)
    · exact bindsCleanly_of_refused hm hrefused
    · exact bindsCleanly_of_configures hm hhandles hconfigures hobjects

theorem wiredModule_succeeds : wiredModule.Succeeds where
  vehicleTraits _ _ _ _ := ⟨(), rfl⟩
  batterySystem _ _ _ := ⟨(), rfl⟩
  deserialize _ := ⟨(), rfl⟩
  fleetConfiguration _ _ _ _ _ := ⟨(), rfl⟩
  makeAdapter _ := ⟨(), rfl⟩
  addEasyFleet _ _ := ⟨(), rfl⟩
  robotConfiguration := ⟨(), rfl⟩
  robotCallbacks c := ⟨c, rfl⟩

theorem binds_cleanly_iff_witness :
    BindsCleanly wiredModule (fun _ => "") pairEntry pairMap "node" none (some "north")
        (newHandles wiredRmf ["r1", "r2"]) ↔
      Orderly pairEntry pairMap :=
  @binds_cleanly_iff wiredRmf wiredModule (fun _ => "") wiredModule_succeeds pairEntry
    (newHandles wiredRmf ["r1", "r2"]) rfl pairMap "node" none (some "north")

def malformedEntry : Dict :=
  pairEntry.dropLast ++ [("robots", .arr [.obj [("name", .str "r1")], .str "bad"])]

/-- The robot is skipped when the handles are built, and then raises an `AttributeError`. -/
theorem malformed_robot_escapes :
    buildRobotHandles wiredRmf (fun _ => "") malformedEntry = .ok (newHandles wiredRmf ["r1"]) ∧
      ¬ BindsCleanly wiredModule (fun _ => "") malformedEntry pairMap "node" none none
        (newHandles wiredRmf ["r1"]) := by
  have hraised : bindEasyFullControl wiredModule (fun _ => "") malformedEntry pairMap "node" none
      none (newHandles wiredRmf ["r1"]) = .error (.builtin .attributeError) := rfl
  refine ⟨rfl, ?_⟩
  rintro (⟨bound, hbound, -⟩ | ⟨message, hmessage⟩)
  · rw [hraised] at hbound
    cases hbound
  · rw [hraised] at hmessage
    cases hmessage

end QuikSync.Fleet

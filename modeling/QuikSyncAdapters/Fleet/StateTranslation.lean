import QuikSyncAdapters.Fleet.RobotHandle
import QuikSyncAdapters.Library.Fallible
import QuikSyncAdapters.Library.Rounding

/-! What crosses into Open-RMF: the frames that the translation drops, those it translates into a
well formed state, and the rest, which it lets through or fails on. -/

namespace QuikSync.Fleet

open Client Py

variable {rmf : RmfAdapter}

/-! ### The fields of a location -/

def Coordinate (location : Dict) (key : String) (x : Double) : Prop :=
  ∃ v, location.lookup key = some v ∧ v.toFloat = .ok x

/-- A coordinate that is missing or no number at all. An integer beyond the range of doubles is a
number, although `float()` fails on it. -/
inductive Unusable (location : Dict) (key : String) : Prop where
  | missing (h : location.lookup key = none)
  | noNumber {v : Json} {e : Py.Error} (hlookup : location.lookup key = some v)
      (hfloat : v.toFloat = .error e) (he : e ≠ .overflowError)

/-- The first coordinate that does not read is unusable, or all read and the level is missing. -/
inductive Incomplete (location : Dict) : List String → Prop where
  | unusable {key : String} {keys : List String} (h : Unusable location key) :
      Incomplete location (key :: keys)
  | next {key : String} {keys : List String} {x : Double} (h : Coordinate location key x)
      (hrest : Incomplete location keys) : Incomplete location (key :: keys)
  | noLevel (h : location.lookup "level_name" = none) : Incomplete location []

structure Complete (location : Dict) (position : Double × Double × Double) (level : Json) :
    Prop where
  x : Coordinate location "x" position.1
  y : Coordinate location "y" position.2.1
  yaw : Coordinate location "yaw" position.2.2
  level : location.lookup "level_name" = some level

/-- The errors that `_to_rmf_robot_state` catches around a location. -/
def locationErrors : List Py.Error := [.keyError, .typeError, .valueError]

def Caught {α : Type} (x : Except Py.Error α) : Prop := ∃ e, x = .error e ∧ e ∈ locationErrors

theorem not_caught_ok {α : Type} (a : α) : ¬ Caught (.ok a) := by
  rintro ⟨e, h, _⟩
  cases h

theorem caught_bind_iff {α β : Type} {x : Except Py.Error α} {f : α → Except Py.Error β} :
    Caught (x >>= f) ↔ Caught x ∨ ∃ a, x = .ok a ∧ Caught (f a) := Fallible.bind_error_iff

theorem item_eq_ok_iff {d : Dict} {key : String} {v : Json} :
    Dict.item d key = .ok v ↔ d.lookup key = some v := Dict.item_eq_ok

theorem item_caught_iff {d : Dict} {key : String} :
    Caught (Dict.item d key) ↔ d.lookup key = none := by
  unfold Caught Dict.item
  cases d.lookup key <;> simp [locationErrors]

theorem coordinate_iff {location : Dict} {key : String} {x : Double} :
    (Dict.item location key >>= Json.toFloat) = .ok x ↔ Coordinate location key x := by
  unfold Coordinate
  simp only [Fallible.bind_eq_ok, item_eq_ok_iff]

theorem toFloat_caught_iff {v : Json} :
    Caught v.toFloat ↔ ∃ e, v.toFloat = .error e ∧ e ≠ .overflowError := by
  constructor
  · rintro ⟨e, hfloat, hmem⟩
    refine ⟨e, hfloat, ?_⟩
    rintro rfl
    simp [locationErrors] at hmem
  · rintro ⟨e, hfloat, he⟩
    refine ⟨e, hfloat, ?_⟩
    rcases Json.toFloat_error hfloat with rfl | rfl | rfl
    · simp [locationErrors]
    · simp [locationErrors]
    · exact absurd rfl he

theorem unusable_iff {location : Dict} {key : String} :
    Caught (Dict.item location key >>= Json.toFloat) ↔
      Unusable location key := by
  rw [caught_bind_iff, item_caught_iff]
  constructor
  · rintro (hmissing | ⟨v, hitem, hcaught⟩)
    · exact .missing hmissing
    · obtain ⟨e, hfloat, he⟩ := toFloat_caught_iff.mp hcaught
      exact .noNumber (item_eq_ok_iff.mp hitem) hfloat he
  · intro h
    cases h with
    | missing hmissing => exact .inl hmissing
    | noNumber hlookup hfloat he =>
      exact .inr ⟨_, item_eq_ok_iff.mpr hlookup, toFloat_caught_iff.mpr ⟨_, hfloat, he⟩⟩

section Reading

variable {α : Type} {location : Dict} {key : String} {rest : Double → Except Py.Error α}

theorem coordinate_bind_ok_iff {a : α} :
    ((Dict.item location key >>= Json.toFloat) >>= rest) = .ok a ↔
      ∃ x, Coordinate location key x ∧ rest x = .ok a := by
  rw [Fallible.bind_eq_ok]
  simp only [coordinate_iff]

theorem coordinate_bind_caught_iff :
    Caught ((Dict.item location key >>= Json.toFloat) >>= rest) ↔
      Unusable location key ∨
        ∃ x, Coordinate location key x ∧ Caught (rest x) := by
  rw [caught_bind_iff, unusable_iff]
  simp only [coordinate_iff]

end Reading

theorem incomplete_cons_iff {location : Dict} {key : String} {keys : List String} :
    Incomplete location (key :: keys) ↔
      Unusable location key ∨ ∃ x, Coordinate location key x ∧ Incomplete location keys := by
  constructor
  · intro h
    cases h with
    | unusable hkey => exact .inl hkey
    | next hkey hrest => exact .inr ⟨_, hkey, hrest⟩
  · rintro (hkey | ⟨x, hkey, hrest⟩)
    · exact .unusable hkey
    · exact .next hkey hrest

theorem incomplete_nil_iff {location : Dict} :
    Incomplete location [] ↔ location.lookup "level_name" = none := by
  constructor
  · intro h
    cases h with
    | noLevel hlevel => exact hlevel
  · exact .noLevel

theorem readLocation_eq_ok_iff {location : Dict} {position : Double × Double × Double}
    {level : Json} :
    readLocation location = .ok (position, level) ↔ Complete location position level := by
  unfold readLocation
  simp only [coordinate_bind_ok_iff, Fallible.bind_eq_ok (x := Dict.item location "level_name"),
    item_eq_ok_iff]
  constructor
  · rintro ⟨x, hx, y, hy, yaw, hyaw, v, hlevel, hread⟩
    obtain ⟨rfl, rfl⟩ := Prod.mk.inj (Except.ok.inj hread)
    exact ⟨hx, hy, hyaw, hlevel⟩
  · intro h
    exact ⟨_, h.x, _, h.y, _, h.yaw, _, h.level, rfl⟩

theorem readLocation_caught_iff {location : Dict} :
    Caught (readLocation location) ↔
      Incomplete location ["x", "y", "yaw"] := by
  have hlevel : ∀ x y yaw : Double,
      Caught (do
        let levelName ← Dict.item location "level_name"
        pure ((x, y, yaw), levelName)) ↔ location.lookup "level_name" = none := by
    intro x y yaw
    rw [caught_bind_iff, item_caught_iff]
    constructor
    · rintro (hnone | ⟨v, _, hcaught⟩)
      · exact hnone
      · exact absurd hcaught (not_caught_ok _)
    · exact .inl
  unfold readLocation
  simp only [incomplete_cons_iff, incomplete_nil_iff, coordinate_bind_caught_iff, hlevel]

theorem catching_readLocation_some_iff {location : Dict} {position : Double × Double × Double}
    {level : Json} :
    catching locationErrors (readLocation location) = .ok (some (position, level)) ↔
      Complete location position level :=
  catching_eq_some_iff.trans readLocation_eq_ok_iff

theorem catching_readLocation_none_iff {location : Dict} :
    catching locationErrors (readLocation location) = .ok none ↔
      Incomplete location ["x", "y", "yaw"] :=
  catching_eq_none_iff.trans readLocation_caught_iff

/-! ### The frames that translate -/

inductive Dropped (state : Dict) : Prop where
  | noLocation (h : ∀ location, Dict.get state "location" ≠ .obj location)
  | incomplete {location : Dict} (hlocation : Dict.get state "location" = .obj location)
      (h : Incomplete location ["x", "y", "yaw"])
  | noBattery {location : Dict} {position : Double × Double × Double} {level : Json}
      (hlocation : Dict.get state "location" = .obj location)
      (hcomplete : Complete location position level)
      (h : (Dict.get state "battery_percent").isNumber = false)

structure LetThrough (state : Dict) (position : Double × Double × Double) (level : Json)
    (percent : Double) : Prop where
  location : ∃ location, Dict.get state "location" = .obj location ∧
    Complete location position level
  isNumber : (Dict.get state "battery_percent").isNumber = true
  percent : (Dict.get state "battery_percent").toFloat = .ok percent

theorem toRmfRobotState_of_location (himportable : rmf.importable = true) {state location : Dict}
    (hlocation : Dict.get state "location" = .obj location) :
    toRmfRobotState rmf state =
      match catching locationErrors (readLocation location) with
      | .error e => .error (.builtin e)
      | .ok none => .ok none
      | .ok (some (position, levelName)) =>
        if (Dict.get state "battery_percent").isNumber = false then .ok none
        else
          match (Dict.get state "battery_percent").toFloat with
          | .error e => .error (.builtin e)
          | .ok percent => (rmf.robotState levelName position (percent.divide 100)).map some := by
  unfold toRmfRobotState
  simp only [himportable, hlocation, Bool.not_true, Bool.false_eq_true, if_false, Bool.not_eq_true']
  rfl

section Translation

variable (himportable : rmf.importable = true) {state : Dict}
include himportable

theorem toRmfRobotState_of_dropped (h : Dropped state) :
    toRmfRobotState rmf state = .ok none := by
  cases h with
  | noLocation hlocation =>
    unfold toRmfRobotState
    rw [himportable]
    split
    · rfl
    · split
      · rename_i location heq
        exact absurd heq (hlocation location)
      · rfl
  | incomplete hlocation hincomplete =>
    have hcaught := catching_readLocation_none_iff.mpr hincomplete
    rw [toRmfRobotState_of_location himportable hlocation, hcaught]
  | noBattery hlocation hcomplete hbattery =>
    have hread := catching_readLocation_some_iff.mpr hcomplete
    rw [toRmfRobotState_of_location himportable hlocation, hread]
    exact if_pos hbattery

theorem toRmfRobotState_of_letThrough {position : Double × Double × Double} {level : Json}
    {percent : Double} (h : LetThrough state position level percent) :
    toRmfRobotState rmf state =
      (rmf.robotState level position (percent.divide 100)).map some := by
  obtain ⟨location, hlocation, hcomplete⟩ := h.location
  have hread := catching_readLocation_some_iff.mpr hcomplete
  rw [toRmfRobotState_of_location himportable hlocation, hread]
  simp only [h.isNumber, h.percent, Bool.true_eq_false, if_false]

theorem dropped_or_letThrough {result : Option rmf.RobotState}
    (h : toRmfRobotState rmf state = .ok result) :
    Dropped state ∨ ∃ position level percent, LetThrough state position level percent := by
  by_cases hobject : ∃ location, Dict.get state "location" = .obj location
  swap
  · exact .inl (.noLocation fun location hlocation => hobject ⟨location, hlocation⟩)
  obtain ⟨location, hlocation⟩ := hobject
  rw [toRmfRobotState_of_location himportable hlocation] at h
  rcases hread : catching locationErrors (readLocation location) with e | _ | ⟨position, level⟩
  · rw [hread] at h
    cases h
  · exact .inl (.incomplete hlocation (catching_readLocation_none_iff.mp hread))
  have hcomplete : Complete location position level :=
    catching_readLocation_some_iff.mp hread
  rw [hread] at h
  cases hnumber : (Dict.get state "battery_percent").isNumber with
  | false => exact .inl (.noBattery hlocation hcomplete hnumber)
  | true =>
    simp only [hnumber, Bool.true_eq_false, if_false] at h
    cases hfloat : (Dict.get state "battery_percent").toFloat with
    | error e =>
      rw [hfloat] at h
      cases h
    | ok percent =>
      exact .inr ⟨position, level, percent, ⟨location, hlocation, hcomplete⟩, hnumber, hfloat⟩

end Translation

/-! ### Well formed states -/

structure RobotFields where
  levelName : Json
  position : Double × Double × Double
  batterySoc : Double

structure RobotFields.WellFormed (f : RobotFields) : Prop where
  levelName : ∃ name, f.levelName = .str name ∧ name ≠ ""
  x : ∃ q, f.position.1 = .finite q
  y : ∃ q, f.position.2.1 = .finite q
  yaw : ∃ q, f.position.2.2 = .finite q
  batterySoc : ∃ q, f.batterySoc = .finite q ∧ 0 ≤ q ∧ q ≤ 1

/-- The constructor of Open-RMF makes a state of the fields it is given, and refuses none whose
level is a string. -/
structure KeepsFields (rmf : RmfAdapter) (fields : rmf.RobotState → RobotFields) : Prop where
  holds : ∀ level position soc s, rmf.robotState level position soc = .ok s →
    fields s = ⟨level, position, soc⟩
  accepts : ∀ name position soc, ∃ s, rmf.robotState (.str name) position soc = .ok s

/-- A battery percentage from 0 to 100, with what the division by 100 rounds away: on the grid of
the doubles nothing above 100, and below 0 only what is at most fifty times the least positive
double. -/
def InPercentRange (percent : Double) : Prop :=
  ∃ q, percent = .finite q ∧ -(2 ^ (-1075 : ℤ)) * 100 ≤ q ∧ q ≤ (1 + 2 ^ (-53 : ℤ)) * 100

theorem divide_unit_iff (percent : Double) :
    (∃ q, percent.divide 100 = .finite q ∧ 0 ≤ q ∧ q ≤ 1) ↔ InPercentRange percent := by
  cases percent with
  | nan =>
    constructor
    · rintro ⟨q, hq, _⟩
      cases hq
    · rintro ⟨q, hq, _⟩
      cases hq
  | inf negative =>
    constructor
    · rintro ⟨q, hq, _⟩
      cases hq
    · rintro ⟨q, hq, _⟩
      cases hq
  | finite p =>
    -- the quotient is rounded once, so the ends of the unit interval take half a place more
    have hunit := Double.round_unit_iff (p / 100)
    rw [le_div_iff₀ (by norm_num), div_le_iff₀ (by norm_num)] at hunit
    constructor
    · intro h
      exact ⟨p, rfl, hunit.mp h⟩
    · rintro ⟨q, hq, hrange⟩
      cases hq
      exact hunit.mpr hrange

/-- A frame whose coordinates are finite, whose level is named and whose battery percentage is in
range. -/
structure Proper (state : Dict) : Prop where
  location : ∃ location x y yaw name, Dict.get state "location" = .obj location ∧
    Complete location (.finite x, .finite y, .finite yaw) (.str name) ∧ name ≠ ""
  isNumber : (Dict.get state "battery_percent").isNumber = true
  percent : ∃ percent, (Dict.get state "battery_percent").toFloat = .ok percent ∧
    InPercentRange percent

theorem proper_iff {state : Dict} :
    Proper state ↔ ∃ position name percent, LetThrough state position (.str name) percent ∧
      RobotFields.WellFormed ⟨.str name, position, percent.divide 100⟩ := by
  constructor
  · intro h
    obtain ⟨location, x, y, yaw, name, hlocation, hcomplete, hname⟩ := h.location
    obtain ⟨percent, hpercent, hrange⟩ := h.percent
    have hsoc := (divide_unit_iff percent).mpr hrange
    have hthrough : LetThrough state (.finite x, .finite y, .finite yaw) (.str name) percent :=
      ⟨⟨location, hlocation, hcomplete⟩, h.isNumber, hpercent⟩
    exact ⟨_, name, percent, hthrough, ⟨name, rfl, hname⟩, ⟨x, rfl⟩, ⟨y, rfl⟩, ⟨yaw, rfl⟩, hsoc⟩
  · rintro ⟨⟨px, py, pyaw⟩, level, percent, hthrough, hwell⟩
    obtain ⟨location, hlocation, hcomplete⟩ := hthrough.location
    obtain ⟨name, hlevel, hname⟩ := hwell.levelName
    obtain ⟨x, rfl⟩ : ∃ x, px = .finite x := hwell.x
    obtain ⟨y, rfl⟩ : ∃ y, py = .finite y := hwell.y
    obtain ⟨yaw, rfl⟩ : ∃ yaw, pyaw = .finite yaw := hwell.yaw
    have hcomplete' : Complete location (.finite x, .finite y, .finite yaw) (.str name) :=
      hlevel ▸ hcomplete
    exact ⟨⟨location, x, y, yaw, name, hlocation, hcomplete', hname⟩, hthrough.isNumber, percent,
      hthrough.percent, (divide_unit_iff percent).mp hwell.batterySoc⟩

/-! ### What crosses -/

def RmfCall.state : RmfCall rmf → rmf.RobotState
  | .update _ state _ => state
  | .addRobot _ state _ => state

theorem translated_of_receive {h : RobotHandle rmf} {state : Dict} {call : RmfCall rmf}
    (hreceive : (h.receive state).2 = .ok (some call)) :
    toRmfRobotState rmf state = .ok (some call.state) := by
  unfold RobotHandle.receive at hreceive
  dsimp only at hreceive
  split at hreceive
  · obtain ⟨translated, htranslated, hcall⟩ := Fallible.map_eq_ok.mp hreceive
    obtain ⟨s, rfl, rfl⟩ := Option.map_eq_some_iff.mp hcall
    exact htranslated
  split at hreceive
  · split at hreceive
    · cases hreceive
    · cases hreceive
    · rename_i s htranslated
      obtain rfl := Option.some.inj (Except.ok.inj hreceive)
      exact htranslated
  · cases hreceive

theorem translated_of_call {h : RobotHandle rmf} {state : Dict} {answers : RmfAnswers rmf}
    {call : RmfCall rmf} (hcall : call ∈ (h.onState state answers).calls) :
    toRmfRobotState rmf state = .ok (some call.state) := by
  unfold RobotHandle.onState at hcall
  split at hcall
  · cases hcall
  · cases hcall
  · rename_i made hreceive
    obtain rfl := List.mem_singleton.mp hcall
    exact translated_of_receive (congrArg Prod.snd hreceive)

/-- The translation returns nothing or a well formed state, and the handle calls Open-RMF with well
formed states only. -/
structure CrossesWellFormed (rmf : RmfAdapter) (fields : rmf.RobotState → RobotFields)
    (state : Dict) : Prop where
  translated : ∃ result, toRmfRobotState rmf state = .ok result ∧
    ∀ s, result = some s → (fields s).WellFormed
  called : ∀ (h : RobotHandle rmf) (answers : RmfAnswers rmf),
    ∀ call ∈ (h.onState state answers).calls, (fields call.state).WellFormed

theorem crosses_of_translated {fields : rmf.RobotState → RobotFields} {state : Dict}
    {result : Option rmf.RobotState} (htranslated : toRmfRobotState rmf state = .ok result)
    (hwell : ∀ s, result = some s → (fields s).WellFormed) :
    CrossesWellFormed rmf fields state := by
  refine ⟨⟨result, htranslated, hwell⟩, ?_⟩
  intro h answers call hcall
  have hcalled := translated_of_call hcall
  exact hwell _ (Except.ok.inj (htranslated.symm.trans hcalled))

theorem crosses_of_none {fields : rmf.RobotState → RobotFields} {state : Dict}
    (hnone : toRmfRobotState rmf state = .ok none) : CrossesWellFormed rmf fields state :=
  crosses_of_translated hnone fun s hs => by cases hs

theorem crosses_of_proper {fields : rmf.RobotState → RobotFields} (hfields : KeepsFields rmf fields)
    (himportable : rmf.importable = true) {state : Dict} (hproper : Proper state) :
    CrossesWellFormed rmf fields state := by
  obtain ⟨position, name, percent, hthrough, hwell⟩ := proper_iff.mp hproper
  obtain ⟨s, hmade⟩ := hfields.accepts name position (percent.divide 100)
  have hsome : toRmfRobotState rmf state = .ok (some s) := by
    rw [toRmfRobotState_of_letThrough himportable hthrough, hmade]
    rfl
  apply crosses_of_translated hsome
  intro s' hs'
  obtain rfl := Option.some.inj hs'
  rw [hfields.holds _ _ _ _ hmade]
  exact hwell

theorem dropped_or_proper_of_crosses {fields : rmf.RobotState → RobotFields}
    (hfields : KeepsFields rmf fields) (himportable : rmf.importable = true) {state : Dict}
    (hcrosses : CrossesWellFormed rmf fields state) : Dropped state ∨ Proper state := by
  obtain ⟨result, htranslated, hwell⟩ := hcrosses.translated
  rcases dropped_or_letThrough himportable htranslated with hdropped | hthrough
  · exact .inl hdropped
  obtain ⟨position, level, percent, hthrough⟩ := hthrough
  -- the constructor was given the fields as they were read, so the state shows them
  rw [toRmfRobotState_of_letThrough himportable hthrough] at htranslated
  obtain ⟨s, hmade, rfl⟩ := Fallible.map_eq_ok.mp htranslated
  have hs := hwell s rfl
  rw [hfields.holds _ _ _ _ hmade] at hs
  obtain ⟨name, hlevel, _⟩ := hs.levelName
  obtain rfl : level = .str name := hlevel
  exact .inr (proper_iff.mpr ⟨position, name, percent, hthrough, hs⟩)

/-- The guards check that the coordinates convert and that the battery is a number; the level,
infinities and the range of the battery they leave to the frame. -/
theorem crosses_well_formed_iff {fields : rmf.RobotState → RobotFields}
    (hfields : KeepsFields rmf fields) (state : Dict) :
    CrossesWellFormed rmf fields state ↔
      rmf.importable = false ∨ Dropped state ∨ Proper state := by
  cases himportable : rmf.importable with
  | false =>
    have hnone : toRmfRobotState rmf state = .ok none := by
      unfold toRmfRobotState
      rw [himportable]
      rfl
    exact iff_of_true (crosses_of_none hnone) (.inl rfl)
  | true =>
    constructor
    · intro hcrosses
      exact .inr (dropped_or_proper_of_crosses hfields himportable hcrosses)
    · rintro (hfalse | hdropped | hproper)
      · cases hfalse
      · exact crosses_of_none (toRmfRobotState_of_dropped himportable hdropped)
      · exact crosses_of_proper hfields himportable hproper

def textLevelRmf : RmfAdapter where
  UpdateHandle := Unit
  FleetHandle := Unit
  RobotConfiguration := Unit
  RobotCallbacks := Unit
  ActivityIdentifier := String
  RobotState := RobotFields
  importable := true
  robotState levelName position batterySoc :=
    match levelName with
    | .str _ => .ok ⟨levelName, position, batterySoc⟩
    | _ => .error (.builtin .typeError)

theorem textLevelRmf_keepsFields : KeepsFields textLevelRmf id := by
  constructor
  · intro level position soc s hmade
    cases level with
    | str name => exact (Except.ok.inj hmade).symm
    | _ => cases hmade
  · intro name position soc
    exact ⟨⟨.str name, position, soc⟩, rfl⟩

def locationAt (x : Json) : Dict :=
  [("x", x), ("y", .float (.finite 0)), ("yaw", .float (.finite 0)), ("level_name", .str "L1")]

def frameAt (x : Json) : Dict :=
  [("location", .obj (locationAt x)), ("battery_percent", .float (.finite 50))]

theorem frameAt_proper (x : ℚ) : Proper (frameAt (.float (.finite x))) where
  location := by
    refine ⟨locationAt (.float (.finite x)), x, 0, 0, "L1", rfl, ?_, by decide⟩
    exact ⟨⟨_, rfl, rfl⟩, ⟨_, rfl, rfl⟩, ⟨_, rfl, rfl⟩, rfl⟩
  isNumber := rfl
  percent := by
    have hlow : (0 : ℚ) < 2 ^ (-1075 : ℤ) := zpow_pos two_pos _
    have hhigh : (0 : ℚ) < 2 ^ (-53 : ℤ) := zpow_pos two_pos _
    refine ⟨.finite 50, rfl, 50, rfl, ?_, ?_⟩ <;> linarith

theorem crosses_well_formed_iff_witness :
    CrossesWellFormed textLevelRmf id (frameAt (.float (.finite 12))) :=
  (crosses_well_formed_iff textLevelRmf_keepsFields (frameAt (.float (.finite 12)))).mpr
    (.inr (.inr (frameAt_proper 12)))

theorem toRmfRobotState_of_huge {n : ℤ} (hfloat : (Json.int n).toFloat = .error .overflowError) :
    toRmfRobotState textLevelRmf (frameAt (.int n)) = .error (.builtin .overflowError) := by
  have hx : (Dict.item (locationAt (.int n)) "x" >>= Json.toFloat) = .error .overflowError := hfloat
  have hread : readLocation (locationAt (.int n)) = .error .overflowError := by
    unfold readLocation
    rw [hx]
    rfl
  have hlocation : Dict.get (frameAt (.int n)) "location" = .obj (locationAt (.int n)) := rfl
  rw [toRmfRobotState_of_location rfl hlocation, hread]
  rfl

/-- A coordinate beyond the range of doubles raises out of the handler of malformed locations. -/
theorem huge_coordinate_raises :
    ¬ ∀ (rmf : RmfAdapter) (fields : rmf.RobotState → RobotFields), KeepsFields rmf fields →
      ∀ state, CrossesWellFormed rmf fields state := by
  intro hall
  have hfloat := (Json.toFloat_int_two_pow 1024).trans (if_neg (lt_irrefl 1024))
  obtain ⟨result, htranslated, _⟩ :=
    (hall textLevelRmf id textLevelRmf_keepsFields (frameAt (.int (2 ^ 1024)))).translated
  rw [toRmfRobotState_of_huge hfloat] at htranslated
  cases htranslated

end QuikSync.Fleet

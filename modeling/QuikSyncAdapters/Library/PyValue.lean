import Mathlib.Data.Int.Log
import Mathlib.Data.Rat.Floor
import Mathlib.Tactic.NormNum
import Mathlib.Tactic.Positivity

/-! The Python values that JSON decoding produces, with the built-in coercions `int()` and
`float()`, truth testing and dictionary access. Doubles are exact rationals rounded to the
binary64 grid; the sign of a zero is not kept. -/

namespace Py

inductive Error where
  | keyError
  | typeError
  | valueError
  | indexError
  | attributeError
  | overflowError
  deriving DecidableEq, Repr

/-- `try: ... except <caught>: return None`. -/
def catching {α : Type} (caught : List Error) (x : Except Error α) : Except Error (Option α) :=
  match x with
  | .ok a => .ok (some a)
  | .error e => if e ∈ caught then .ok none else .error e

theorem catching_eq_some_iff {α : Type} {caught : List Error} {x : Except Error α} {a : α} :
    catching caught x = .ok (some a) ↔ x = .ok a := by
  unfold catching
  cases x with
  | ok b => simp
  | error e =>
    dsimp only
    split <;> simp

theorem catching_eq_none_iff {α : Type} {caught : List Error} {x : Except Error α} :
    catching caught x = .ok none ↔ ∃ e, x = .error e ∧ e ∈ caught := by
  unfold catching
  cases x with
  | ok b => simp
  | error e =>
    dsimp only
    split
    · simpa using ‹e ∈ caught›
    · simpa using ‹e ∉ caught›

theorem catching_eq_error_iff {α : Type} {caught : List Error} {x : Except Error α} {e : Error} :
    catching caught x = .error e ↔ x = .error e ∧ e ∉ caught := by
  unfold catching
  cases x with
  | ok a => simp
  | error e' =>
    dsimp only
    split
    · rename_i hcaught
      simp only [false_iff, reduceCtorEq]
      rintro ⟨h, hno⟩
      obtain rfl := Except.error.inj h
      exact hno hcaught
    · rename_i hcaught
      constructor
      · intro h
        obtain rfl := Except.error.inj h
        exact ⟨rfl, hcaught⟩
      · rintro ⟨h, -⟩
        obtain rfl := Except.error.inj h
        rfl

/-! ### Doubles -/

inductive Double where
  | nan
  | inf (negative : Bool)
  | finite (q : ℚ)
  deriving DecidableEq

def roundEven (q : ℚ) : ℤ :=
  let down := ⌊q⌋
  let rest := q - down
  if rest < 1 / 2 then down
  else if 1 / 2 < rest then down + 1
  else if down % 2 = 0 then down
  else down + 1

/-- The binary64 value closest to a rational, infinite from 2 ^ 1024 on. -/
def Double.round (q : ℚ) : Double :=
  if q = 0 then .finite 0
  else
    let exponent := max (Int.log 2 |q| - 52) (-1074)
    let rounded := (roundEven (q / 2 ^ exponent) : ℚ) * 2 ^ exponent
    if 2 ^ 1024 ≤ |rounded| then .inf (decide (q < 0)) else .finite rounded

theorem round_ne_nan (q : ℚ) : Double.round q ≠ .nan := by
  unfold Double.round
  dsimp only
  split_ifs <;> simp

theorem Double.round_zero : Double.round 0 = .finite 0 := if_pos rfl

def Double.divide (x : Double) (c : ℚ) : Double :=
  match x with
  | .nan => .nan
  | .inf negative => .inf (negative != decide (c < 0))
  | .finite q => .round (q / c)

def floatOfInt (n : ℤ) : Except Error ℚ :=
  match Double.round n with
  | .finite q => .ok q
  | _ => .error .overflowError

theorem roundEven_intCast (n : ℤ) : roundEven n = n := by
  have hrest : (n : ℚ) - (⌊(n : ℚ)⌋ : ℤ) < 1 / 2 := by
    rw [Int.floor_intCast, sub_self]
    norm_num
  unfold roundEven
  dsimp only
  rw [if_pos hrest, Int.floor_intCast]

theorem Double.round_two_pow (a : ℕ) :
    Double.round (2 ^ a) = if a < 1024 then .finite (2 ^ a) else .inf false := by
  have hpos : (0 : ℚ) < 2 ^ a := by positivity
  have hlog : Int.log 2 |(2 : ℚ) ^ a| = a := by
    rw [abs_of_pos hpos]
    exact_mod_cast Int.log_zpow (R := ℚ) one_lt_two (a : ℤ)
  have hexp : max ((a : ℤ) - 52) (-1074) = (a : ℤ) - 52 := max_eq_left (by omega)
  have hquot : (2 : ℚ) ^ a / 2 ^ ((a : ℤ) - 52) = ((2 ^ 52 : ℤ) : ℚ) := by
    rw [← zpow_natCast, ← zpow_sub₀ two_ne_zero]
    norm_num
  have hprod : ((2 ^ 52 : ℤ) : ℚ) * 2 ^ ((a : ℤ) - 52) = 2 ^ a := by
    rw [← hquot, div_mul_cancel₀ _ (zpow_ne_zero _ two_ne_zero)]
  have hrange : (2 : ℚ) ^ 1024 ≤ |(2 : ℚ) ^ a| ↔ ¬ a < 1024 := by
    rw [abs_of_pos hpos, pow_le_pow_iff_right₀ one_lt_two, not_lt]
  have hneg : ¬ (2 : ℚ) ^ a < 0 := not_lt.mpr hpos.le
  unfold round
  simp only [if_neg hpos.ne', hlog, hexp, hquot, roundEven_intCast, hprod, hrange, ite_not, hneg,
    decide_false]

theorem floatOfInt_two_pow (a : ℕ) :
    floatOfInt (2 ^ a) = if a < 1024 then .ok (2 ^ a) else .error .overflowError := by
  unfold floatOfInt
  rw [show ((2 ^ a : ℤ) : ℚ) = 2 ^ a by push_cast; rfl, Double.round_two_pow]
  by_cases ha : a < 1024
  · simp only [if_pos ha]
  · simp only [if_neg ha]

/-! ### Numerals -/

/-- The zeros of the Unicode decimal digits, each the first of ten consecutive code points. -/
def digitZeros : List ℕ :=
  [0x30, 0x660, 0x6f0, 0x7c0, 0x966, 0x9e6, 0xa66, 0xae6, 0xb66, 0xbe6, 0xc66, 0xce6, 0xd66,
    0xde6, 0xe50, 0xed0, 0xf20, 0x1040, 0x1090, 0x17e0, 0x1810, 0x1946, 0x19d0, 0x1a80, 0x1a90,
    0x1b50, 0x1bb0, 0x1c40, 0x1c50, 0xa620, 0xa8d0, 0xa900, 0xa9d0, 0xa9f0, 0xaa50, 0xabf0,
    0xff10, 0x104a0, 0x10d30, 0x11066, 0x110f0, 0x11136, 0x111d0, 0x112f0, 0x11450, 0x114d0,
    0x11650, 0x116c0, 0x11730, 0x118e0, 0x11950, 0x11c50, 0x11d50, 0x11da0, 0x11f50, 0x16a60,
    0x16ac0, 0x16b50, 0x1d7ce, 0x1d7d8, 0x1d7e2, 0x1d7ec, 0x1d7f6, 0x1e140, 0x1e2f0, 0x1e4f0,
    0x1e950, 0x1fbf0]

def digit? (c : Char) : Option ℕ :=
  (digitZeros.find? fun z => decide (z ≤ c.toNat ∧ c.toNat < z + 10)).map (c.toNat - ·)

/-- The characters that the numeric coercions strip: fewer than `str.strip` does. -/
def isNumericSpace (c : Char) : Bool :=
  c.toNat ∈ [0x9, 0xa, 0xb, 0xc, 0xd, 0x20, 0x85, 0xa0, 0x1680, 0x2028, 0x2029, 0x202f, 0x205f,
    0x3000] || decide (0x2000 ≤ c.toNat ∧ c.toNat ≤ 0x200a)

def stripSpaces (s : List Char) : List Char :=
  ((s.dropWhile isNumericSpace).reverse.dropWhile isNumericSpace).reverse

/-- Remove the underscores, each of which must stand between two digits. -/
def dropUnderscores (afterDigit : Bool) : List Char → Option (List Char)
  | [] => some []
  | '_' :: c :: rest =>
    if afterDigit && (digit? c).isSome then (dropUnderscores true rest).map (c :: ·) else none
  | ['_'] => none
  | c :: rest => (dropUnderscores (digit? c).isSome rest).map (c :: ·)

def splitSign : List Char → Bool × List Char
  | '-' :: rest => (true, rest)
  | '+' :: rest => (false, rest)
  | s => (false, s)

def takeDigits : List Char → List ℕ × List Char
  | [] => ([], [])
  | c :: rest =>
    match digit? c with
    | some d => (d :: (takeDigits rest).1, (takeDigits rest).2)
    | none => ([], c :: rest)

def ofDigits (ds : List ℕ) : ℕ := ds.foldl (fun n d => 10 * n + d) 0

/-- `int(s)`: at most 4300 digits are converted. -/
def intOfString (s : String) : Except Error ℤ :=
  match dropUnderscores false (stripSpaces s.toList) with
  | none => .error .valueError
  | some chars =>
    match takeDigits (splitSign chars).2 with
    | (d :: ds, []) =>
      if 4300 < (d :: ds).length then .error .valueError
      else .ok (if (splitSign chars).1 then -(ofDigits (d :: ds) : ℤ) else ofDigits (d :: ds))
    | _ => .error .valueError

def exponent? : List Char → Option ℤ
  | [] => some 0
  | c :: rest =>
    if c = 'e' ∨ c = 'E' then
      match takeDigits (splitSign rest).2 with
      | (d :: ds, []) =>
        some (if (splitSign rest).1 then -(ofDigits (d :: ds) : ℤ) else ofDigits (d :: ds))
      | _ => none
    else none

/-- An unsigned decimal: digits with an optional point among them and an exponent. -/
def decimal? (s : List Char) : Option ℚ :=
  let whole := (takeDigits s).1
  let (fraction, rest) := match (takeDigits s).2 with
    | '.' :: t => takeDigits t
    | t => ([], t)
  if whole ++ fraction = [] then none
  else
    (exponent? rest).map fun e : ℤ =>
      (ofDigits (whole ++ fraction) : ℚ) * 10 ^ (e - (fraction.length : ℤ))

/-- `float(s)`. -/
def floatOfString (s : String) : Except Error Double :=
  match dropUnderscores false (stripSpaces s.toList) with
  | none => .error .valueError
  | some chars =>
    let negative := (splitSign chars).1
    let body := (splitSign chars).2
    let word := String.ofList (body.map Char.toLower)
    if word = "inf" ∨ word = "infinity" then .ok (.inf negative)
    else if word = "nan" then .ok .nan
    else
      match decimal? body with
      | some q => .ok (.round (if negative then -q else q))
      | none => .error .valueError

example : (intOfString " -1_0 ").toOption = some (-10) := by decide

/-! ### JSON values -/

inductive Json where
  | null
  | bool (b : Bool)
  | int (n : ℤ)
  | float (x : Double)
  | str (s : String)
  | arr (items : List Json)
  | obj (members : List (String × Json))

/-- A dictionary: its keys are distinct. -/
abbrev Dict := List (String × Json)

/-- `d.get(key)`, with `None` for a missing key. -/
def Dict.get (d : Dict) (key : String) : Json := (d.lookup key).getD .null

/-- `d[key]`. -/
def Dict.item (d : Dict) (key : String) : Except Error Json :=
  match d.lookup key with
  | some v => .ok v
  | none => .error .keyError

/-- `v[key]` for a string key. -/
def Json.item (v : Json) (key : String) : Except Error Json :=
  match v with
  | .obj members => Dict.item members key
  | _ => .error .typeError

theorem Dict.item_eq_ok {d : Dict} {key : String} {v : Json} :
    Dict.item d key = .ok v ↔ d.lookup key = some v := by
  unfold Dict.item
  cases d.lookup key <;> simp

theorem Json.item_eq_ok {v w : Json} {key : String} :
    v.item key = .ok w ↔ ∃ members : Dict, v = .obj members ∧ members.lookup key = some w := by
  cases v with
  | obj members => simp [Json.item, Dict.item_eq_ok]
  | _ => simp [Json.item]

/-- The values that `for x in v` goes through. -/
def Json.iter : Json → Except Error (List Json)
  | .arr items => .ok items
  | .obj members => .ok (members.map fun p => .str p.1)
  | .str s => .ok (s.toList.map fun c => .str (String.singleton c))
  | _ => .error .typeError

def Json.truthy : Json → Bool
  | .null => false
  | .bool b => b
  | .int n => n != 0
  | .float x => x != .finite 0
  | .str s => s != ""
  | .arr items => !items.isEmpty
  | .obj members => !members.isEmpty

/-- `v or default`. -/
def Json.orElse (v default : Json) : Json := if v.truthy then v else default

theorem Json.arr_orElse_nil (items : List Json) :
    (Json.arr items).orElse (.arr []) = .arr items := by
  cases items with
  | nil => rfl
  | cons v items => rfl

theorem Json.iter_orElse_nil {v : Json} :
    (∃ items, (v.orElse (.arr [])).iter = .ok items) ↔
      (v.truthy = true → ∃ items, v.iter = .ok items) := by
  unfold orElse
  split_ifs with htruthy
  · exact ⟨fun h _ => h, fun h => h htruthy⟩
  · exact iff_of_true ⟨[], rfl⟩ fun h => absurd h htruthy

/-- `int(v)`. -/
def Json.toInt : Json → Except Error ℤ
  | .bool b => .ok b.toNat
  | .int n => .ok n
  | .float (.finite q) => .ok (if 0 ≤ q then ⌊q⌋ else ⌈q⌉)
  | .float (.inf _) => .error .overflowError
  | .float .nan => .error .valueError
  | .str s => intOfString s
  | _ => .error .typeError

/-- `float(v)`: an integer beyond the range of doubles overflows. -/
def Json.toFloat : Json → Except Error Double
  | .bool b => .ok (.finite b.toNat)
  | .int n =>
    match Double.round n with
    | .finite q => .ok (.finite q)
    | _ => .error .overflowError
  | .float x => .ok x
  | .str s => floatOfString s
  | _ => .error .typeError

theorem floatOfString_error {s : String} {e : Error} (h : floatOfString s = .error e) :
    e = .valueError := by
  unfold floatOfString at h
  split at h
  · exact (Except.error.inj h).symm
  · dsimp only at h
    split_ifs at h
    all_goals
      split at h
      · cases h
      · exact (Except.error.inj h).symm

theorem Json.toFloat_error {v : Json} {e : Error} (h : v.toFloat = .error e) :
    e = .typeError ∨ e = .valueError ∨ e = .overflowError := by
  cases v with
  | null => exact .inl (Except.error.inj h).symm
  | bool b => cases h
  | int n =>
    simp only [toFloat] at h
    split at h
    · cases h
    · exact .inr (.inr (Except.error.inj h).symm)
  | float x => cases h
  | str s => exact .inr (.inl (floatOfString_error h))
  | arr items => exact .inl (Except.error.inj h).symm
  | obj members => exact .inl (Except.error.inj h).symm

theorem Json.toFloat_int_two_pow (a : ℕ) :
    (Json.int (2 ^ a)).toFloat =
      if a < 1024 then .ok (.finite (2 ^ a)) else .error .overflowError := by
  unfold toFloat
  dsimp only
  rw [show ((2 ^ a : ℤ) : ℚ) = 2 ^ a by push_cast; rfl, Double.round_two_pow]
  by_cases ha : a < 1024
  · simp only [if_pos ha]
  · simp only [if_neg ha]

/-- `isinstance(v, (int, float))`, which holds of booleans. -/
def Json.isNumber : Json → Bool
  | .bool _ | .int _ | .float _ => true
  | _ => false

def Json.isPositive : Json → Bool
  | .bool b => b
  | .int n => decide (0 < n)
  | .float (.finite q) => decide (0 < q)
  | .float (.inf negative) => !negative
  | _ => false

/-- `str(v)`, given `repr` for floats and containers. -/
def Json.text (repr : Json → String) : Json → String
  | .str s => s
  | .null => "None"
  | .bool b => if b then "True" else "False"
  | .int n => toString n
  | v => repr v

/-- The value of a number: an integer equals the float of the same value. -/
def Json.number? : Json → Option Double
  | .bool b => some (.finite b.toNat)
  | .int n => some (.finite n)
  | .float x => some x
  | _ => none

mutual

/-- `v == w`. -/
def Json.eq : Json → Json → Bool
  | .null, w => match w with | .null => true | _ => false
  | .str s, w => match w with | .str t => s == t | _ => false
  | .arr items, w => match w with | .arr others => Json.eqItems items others | _ => false
  | .obj members, w =>
    match w with
    | .obj others => members.length == others.length && Json.eqMembers members others
    | _ => false
  | v, w => v.number?.isSome && v.number? == w.number? && v.number? != some .nan

def Json.eqItems : List Json → List Json → Bool
  | [], others => others.isEmpty
  | v :: items, others =>
    match others with
    | w :: others => Json.eq v w && Json.eqItems items others
    | [] => false

def Json.eqMembers : List (String × Json) → List (String × Json) → Bool
  | [], _ => true
  | (k, v) :: members, others =>
    (match others.lookup k with
      | some w => Json.eq v w
      | none => false) && Json.eqMembers members others

end

/-- A value as the key of a dictionary: equal keys are equal values, and the decoder makes but
one NaN. -/
inductive Key where
  | none
  | text (s : String)
  | number (x : Double)
  deriving DecidableEq

def Json.key : Json → Except Error Key
  | .null => .ok .none
  | .str s => .ok (.text s)
  | .bool b => .ok (.number (.finite b.toNat))
  | .int n => .ok (.number (.finite n))
  | .float x => .ok (.number x)
  | _ => .error .typeError

end Py

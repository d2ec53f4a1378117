import QuikSyncAdapters.Client.Exceptions
import QuikSyncAdapters.Library.Fallible

/-! What the door and the lift handles share: the fields of a request message as they read
them, with the texts of their translation errors, and the time stamp of a state frame. -/

namespace QuikSync.Client

/-- The strings that `_require_str` lets through. -/
abbrev NonEmpty := { s : String // s ≠ "" }

def requireStr (value : Option String) (fieldName : String) : Except String NonEmpty :=
  match value with
  | none => .error s!"{fieldName} is missing"
  | some s => if h : s = "" then .error s!"{fieldName} must be non-empty" else .ok ⟨s, h⟩

theorem requireStr_eq_ok {value : Option String} {fieldName : String} {s : NonEmpty} :
    requireStr value fieldName = .ok s ↔ value = some s.val := by
  obtain ⟨s, hs⟩ := s
  cases value with
  | none => simp [requireStr]
  | some t =>
    unfold requireStr
    dsimp only
    split_ifs with ht
    · subst ht
      simp [Ne.symm hs]
    · simp

inductive DoorGoal where
  | opened
  | closed
  deriving DecidableEq

def DoorGoal.wire : DoorGoal → String
  | opened => "OPEN"
  | closed => "CLOSED"

inductive Code where
  | none
  | bool (b : Bool)
  | int (n : ℤ)
  -- a value of another class, with what `int()` makes of it when it does not raise a `TypeError` or
  -- a `ValueError`, and the integer that it compares equal to, if any
  | other (repr : String) (asInt equals : Option ℤ)

namespace Code

def repr : Code → String
  | none => "None"
  | bool b => if b then "True" else "False"
  | int n => toString n
  | other r _ _ => r

def asInt? : Code → Option ℤ
  | int n => some n
  | other _ n _ => n
  | _ => .none

/-- The integer that the code compares equal to: a boolean counts as zero or one. -/
def equals? : Code → Option ℤ
  | none => .none
  | bool b => some b.toNat
  | int n => some n
  | other _ _ n => n

end Code

def asInt (fieldName : String) (raw : Code) : Except String ℤ :=
  match raw with
  | .bool _ => .error s!"{fieldName} cannot be bool"
  | raw =>
    match raw.asInt? with
    | some n => .ok n
    | none => .error s!"{fieldName}={raw.repr} could not be coerced to int"

theorem asInt_eq_ok {fieldName : String} {raw : Code} {n : ℤ} :
    asInt fieldName raw = .ok n ↔ raw.asInt? = some n := by
  cases raw with
  | other r m e => cases m <;> simp [asInt, Code.asInt?]
  | _ => simp [asInt, Code.asInt?]

/-- `execution_id or str(uuid.uuid4())`. -/
def orFresh (executionId : Option String) (fresh : String) : String :=
  match executionId with
  | some e => if e = "" then fresh else e
  | none => fresh

def millisToTimeParts : Py.Json → Except Py.Error (ℤ × ℤ)
  | .int millis => .ok (millis / 1000, millis % 1000 * 1000000)
  | _ => .error .typeError

def stampNanos (stamp : ℤ × ℤ) : ℤ := stamp.1 * 1000000000 + stamp.2

theorem millisToTimeParts_eq_ok {v : Py.Json} {stamp : ℤ × ℤ} :
    millisToTimeParts v = .ok stamp ↔ ∃ millis, v = .int millis ∧
      stampNanos stamp = millis * 1000000 ∧ 0 ≤ stamp.2 ∧ stamp.2 < 1000000000 := by
  obtain ⟨sec, nanosec⟩ := stamp
  constructor
  · intro h
    cases v with
    | int millis =>
      obtain ⟨rfl, rfl⟩ := Prod.mk.inj (Except.ok.inj h)
      have hnanos : stampNanos (millis / 1000, millis % 1000 * 1000000) = millis * 1000000 := by
        unfold stampNanos
        omega
      exact ⟨millis, rfl, hnanos, by omega, by omega⟩
    | _ => exact nomatch h
  · rintro ⟨millis, rfl, hnanos, hlow, hhigh⟩
    unfold stampNanos at hnanos
    dsimp only at hnanos hlow hhigh
    have hsec : millis / 1000 = sec := by omega
    have hnanosec : millis % 1000 * 1000000 = nanosec := by omega
    rw [millisToTimeParts, hsec, hnanosec]

end QuikSync.Client

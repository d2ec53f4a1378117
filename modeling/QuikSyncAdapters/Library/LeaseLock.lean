import QuikSyncAdapters.Library.Machine

/-! A lock kept by an authority, as one of its clients sees it. The client records the
claim it last made together with the time it was stamped, and the owner the authority
last reported. A claim goes stale with time; a report never does. -/

namespace LeaseLock

variable {σ τ : Type*}

/-- `claim` is the client's own record, `reported` the last report of the authority:
`none` before the first one, `some none` when it said the lock is free. -/
@[ext] structure View (σ τ : Type*) where
  claim : Option (σ × τ)
  reported : Option (Option σ)
  agree : ∀ c ∈ claim, ∀ s, reported = some (some s) → s = c.1

namespace View

def free : View σ τ := ⟨none, none, by simp⟩

def claimant (v : View σ τ) : Option σ := v.claim.map Prod.fst

def owner (v : View σ τ) : Option σ := v.reported.join

theorem owner_eq_some {v : View σ τ} {s : σ} : v.owner = some s ↔ v.reported = some (some s) := by
  simp only [owner, Option.join_eq_some_iff]

theorem claimant_eq_some {v : View σ τ} {s : σ} :
    v.claimant = some s ↔ ∃ t, v.claim = some (s, t) := by
  simp only [claimant, Option.map_eq_some_iff, Prod.exists, exists_and_right, exists_eq_right]

theorem owner_eq_claimant {v : View σ τ} {c o : σ} (hc : v.claimant = some c)
    (ho : v.owner = some o) : o = c := by
  obtain ⟨t, hc⟩ := claimant_eq_some.mp hc
  exact v.agree (c, t) hc o (owner_eq_some.mp ho)

def drop (v : View σ τ) : View σ τ := ⟨none, v.reported, by simp⟩

def expire (stale : τ → Bool) (v : View σ τ) : View σ τ where
  claim := v.claim.filter fun c => !stale c.2
  reported := v.reported
  agree c hc := v.agree c (Option.mem_filter_iff.mp hc).1

@[simp] theorem expire_reported (stale : τ → Bool) (v : View σ τ) :
    (v.expire stale).reported = v.reported := rfl

theorem expire_of_fresh {stale : τ → Bool} {v : View σ τ} (h : ∀ c ∈ v.claim, stale c.2 = false) :
    v.expire stale = v := by
  refine View.ext ?_ rfl
  cases hc : v.claim with
  | none => simp [expire, hc]
  | some c => simp [expire, hc, h c hc, Option.filter]

theorem expire_claim_of_stale {stale : τ → Bool} {v : View σ τ}
    (h : ∀ c ∈ v.claim, stale c.2 = true) : (v.expire stale).claim = none := by
  cases hc : v.claim with
  | none => simp [expire, hc]
  | some c => simp [expire, hc, h c hc, Option.filter]

theorem expire_expire (stale : τ → Bool) (v : View σ τ) :
    (v.expire stale).expire stale = v.expire stale := by
  apply expire_of_fresh
  intro c hc
  have hfresh := (Option.mem_filter_iff.mp hc).2
  simpa using hfresh

def Open (v : View σ τ) (s : σ) : Prop :=
  (∀ c, v.claimant = some c → c = s) ∧ ∀ o, v.owner = some o → o = s

instance [DecidableEq σ] (v : View σ τ) (s : σ) : Decidable (v.Open s) :=
  decidable_of_iff ((∀ c ∈ v.claimant, c = s) ∧ ∀ o ∈ v.owner, o = s) Iff.rfl

theorem open_of_claimant {v : View σ τ} {a b : σ} (h : v.claimant = some a) :
    v.Open b ↔ a = b := by
  constructor
  · exact fun hopen => hopen.1 a h
  · rintro rfl
    refine ⟨fun c hc => ?_, fun o ho => owner_eq_claimant h ho⟩
    rw [h] at hc
    exact (Option.some.inj hc).symm

theorem open_of_owner {v : View σ τ} {a b : σ} (h : v.owner = some a) : v.Open b ↔ a = b := by
  constructor
  · exact fun hopen => hopen.2 a h
  · rintro rfl
    refine ⟨fun c hc => (owner_eq_claimant hc h).symm, fun o ho => ?_⟩
    rw [h] at ho
    exact (Option.some.inj ho).symm

theorem open_of_claim_none {v : View σ τ} {s : σ} (h : v.claim = none) :
    v.Open s ↔ v.owner = none ∨ v.owner = some s := by
  have hc : v.claimant = none := by rw [claimant, h]; rfl
  constructor
  · intro hopen
    cases ho : v.owner with
    | none => exact Or.inl rfl
    | some o => exact Or.inr (congrArg some (hopen.2 o ho))
  · rintro (ho | ho)
    · refine ⟨fun c h => ?_, fun o h => ?_⟩
      · rw [hc] at h; cases h
      · rw [ho] at h; cases h
    · exact (open_of_owner ho).mpr rfl

def grant (v : View σ τ) (s : σ) (stamp : τ) (h : v.Open s) : View σ τ where
  claim := some (s, stamp)
  reported := v.reported
  agree c hc o ho := by
    obtain rfl := Option.some.inj hc
    exact h.2 o (owner_eq_some.mpr ho)

@[simp] theorem grant_claim (v : View σ τ) (s : σ) (stamp : τ) (h : v.Open s) :
    (v.grant s stamp h).claim = some (s, stamp) := rfl

section Operations

variable [DecidableEq σ]

/-- Nobody (`none`) never acquires; a named client does exactly when the view is open to it. -/
def acquire (stale : τ → Bool) (x : Option σ) (stamp : τ) (v : View σ τ) : View σ τ × Bool :=
  match x with
  | none => (v, false)
  | some s =>
    if h : (v.expire stale).Open s then ((v.expire stale).grant s stamp h, true)
    else (v.expire stale, false)

/-- A release drops the claim when the releaser is named by either side or the lock is free. -/
def release (x : Option σ) (v : View σ τ) : View σ τ × Bool :=
  if (v.claimant = none ∧ v.owner = none) ∨ v.claimant = x ∨ v.owner = x then (v.drop, true)
  else (v, false)

/-- A report replaces the last one and keeps only a fresh claim of the owner it names. -/
def observe (stale : τ → Bool) (x : Option σ) (v : View σ τ) : View σ τ where
  claim := (v.expire stale).claim.filter fun c => decide (x = some c.1)
  reported := some x
  agree c hc s hs := by
    have hx := of_decide_eq_true (Option.mem_filter_iff.mp hc).2
    exact Option.some.inj ((Option.some.inj hs).symm.trans hx)

def holder (v : View σ τ) : Option σ := v.reported.getD v.claimant

theorem acquire_granted_iff {stale : τ → Bool} {x : Option σ} {stamp : τ} {v : View σ τ} :
    (v.acquire stale x stamp).2 = true ↔ ∃ s, x = some s ∧ (v.expire stale).Open s := by
  cases x with
  | none => simp [acquire]
  | some s =>
    by_cases h : (v.expire stale).Open s <;> simp [acquire, h]

theorem acquire_of_open {stale : τ → Bool} {s : σ} {stamp : τ} {v : View σ τ}
    (h : (v.expire stale).Open s) :
    v.acquire stale (some s) stamp = ((v.expire stale).grant s stamp h, true) := dif_pos h

theorem acquire_of_not_open {stale : τ → Bool} {s : σ} {stamp : τ} {v : View σ τ}
    (h : ¬ (v.expire stale).Open s) :
    v.acquire stale (some s) stamp = (v.expire stale, false) := dif_neg h

theorem release_of_other {x : Option σ} {c : σ} {v : View σ τ} (hc : v.claimant = some c)
    (hx : x ≠ some c) (hnobody : x = none → v.owner ≠ none) : v.release x = (v, false) := by
  have hkeep : ¬ ((v.claimant = none ∧ v.owner = none) ∨ v.claimant = x ∨ v.owner = x) := by
    rintro (⟨hnone, -⟩ | hclaim | howner)
    · rw [hc] at hnone
      cases hnone
    · exact hx (hclaim.symm.trans hc)
    · cases x with
      | none => exact hnobody rfl howner
      | some o => exact hx (congrArg some (owner_eq_claimant hc howner))
  exact if_neg hkeep

omit [DecidableEq σ] in
theorem holder_of_claimant {s : σ} {v : View σ τ} (hc : v.claimant = some s) :
    v.holder = some s ↔ v.reported ≠ some none := by
  rcases hrep : v.reported with _ | (_ | o)
  · simp [holder, hrep, hc]
  · simp [holder, hrep]
  · have ho : o = s := owner_eq_claimant hc (owner_eq_some.mpr hrep)
    simp [holder, hrep, ho]

omit [DecidableEq σ] in
theorem open_of_holder_none {s : σ} {v : View σ τ} (h : v.holder = none)
    (hrep : v.reported ≠ some none) : v.Open s := by
  cases hr : v.reported with
  | none =>
    have hclaim : v.claimant = none := by simpa [holder, hr] using h
    have hsilent : v.owner = none := by rw [owner, hr]; rfl
    exact ⟨by simp [hclaim], by simp [hsilent]⟩
  | some x =>
    have hx : x = none := by simpa [holder, hr] using h
    exact absurd (by rw [hr, hx]) hrep

@[simp] theorem acquire_reported (stale : τ → Bool) (x : Option σ) (stamp : τ) (v : View σ τ) :
    (v.acquire stale x stamp).1.reported = v.reported := by
  cases x with
  | none => rfl
  | some s =>
    by_cases h : (v.expire stale).Open s
    · rw [acquire_of_open h]; rfl
    · rw [acquire_of_not_open h]; rfl

@[simp] theorem release_reported (x : Option σ) (v : View σ τ) :
    (v.release x).1.reported = v.reported := by
  unfold release
  split_ifs <;> rfl

@[simp] theorem observe_reported (stale : τ → Bool) (x : Option σ) (v : View σ τ) :
    (v.observe stale x).reported = some x := rfl

theorem claimant_observe {stale : τ → Bool} {x : Option σ} {v : View σ τ} :
    (v.observe stale x).claimant = none ∨ (v.observe stale x).claimant = x := by
  cases hc : (v.observe stale x).claim with
  | none => exact Or.inl (by rw [claimant, hc]; rfl)
  | some c =>
    refine Or.inr ?_
    rw [claimant, hc]
    exact (of_decide_eq_true (Option.mem_filter_iff.mp hc).2).symm

theorem observe_none_claim (stale : τ → Bool) (v : View σ τ) :
    (v.observe stale none).claim = none := by
  rw [Option.eq_none_iff_forall_ne_some]
  intro c hc
  exact absurd (of_decide_eq_true (Option.mem_filter_iff.mp hc).2) (by simp)

theorem observe_claim_of_claim {stale : τ → Bool} {a : σ} {t : τ} {v : View σ τ}
    (h : v.claim = some (a, t)) :
    (v.observe stale (some a)).claim = if stale t then none else some (a, t) := by
  cases hs : stale t <;> simp [observe, expire, h, hs, Option.filter]

end Operations

end View

inductive Op (σ τ : Type*) where
  | acquire (x : Option σ) (now stamp : τ)
  | release (x : Option σ)
  | observe (x : Option σ) (now : τ)
  | holder (now : τ)

inductive Reply (σ : Type*) where
  | verdict (granted : Bool)
  | done
  | holder (x : Option σ)

def Op.now : Op σ τ → Option τ
  | .acquire _ now _ => some now
  | .release _ => none
  | .observe _ now => some now
  | .holder now => some now

section Machine

variable [DecidableEq σ] (stale : τ → τ → Bool)

/-- `stale now stamp` tells whether a claim stamped at `stamp` is stale at `now`. -/
def step (v : View σ τ) : Op σ τ → View σ τ × Reply σ
  | .acquire x now stamp =>
    ((v.acquire (stale now) x stamp).1, .verdict (v.acquire (stale now) x stamp).2)
  | .release x => ((v.release x).1, .verdict (v.release x).2)
  | .observe x now => (v.observe (stale now) x, .done)
  | .holder now => (v.expire (stale now), .holder (v.expire (stale now)).holder)

def machine : Machine (View σ τ) (Op σ τ) (Reply σ) := ⟨step stale⟩

end Machine

end LeaseLock

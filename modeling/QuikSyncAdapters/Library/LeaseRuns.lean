import QuikSyncAdapters.Library.LeaseLock
import Mathlib.Data.List.Induction

/-! Runs of a lease lock: exclusion between two claimants, what a report makes
forgettable, and how long a claim and a report last. -/

namespace LeaseLock

variable {σ τ : Type*} [DecidableEq σ] {stale : τ → τ → Bool}

open View

/-! ### Exclusion -/

def restamp (a : σ) (t : τ) : Op σ τ × Reply σ → τ
  | (.acquire (some s) _ stamp, .verdict true) => if s = a then stamp else t
  | _ => t

/-- The stamp of the most recent successful acquire of `a`, starting from `t`. -/
def lastStamp (a : σ) (t : τ) (log : List (Op σ τ × Reply σ)) : τ := log.foldl (restamp a) t

def Op.Ends (a : σ) : Op σ τ → Prop
  | .release x => x = some a ∨ x = none
  | .observe x _ => x ≠ some a
  | _ => False

def Op.Late (stale : τ → τ → Bool) (t : τ) (op : Op σ τ) : Prop :=
  ∃ now, op.now = some now ∧ stale now t = true

omit [DecidableEq σ] in
theorem expire_of_not_late {v : View σ τ} {a : σ} {t : τ} (h : v.claim = some (a, t)) {op : Op σ τ}
    (hlate : ¬ op.Late stale t) {now : τ} (hnow : op.now = some now) :
    v.expire (stale now) = v := by
  apply expire_of_fresh
  intro c hc
  rw [h] at hc
  obtain rfl := Option.some.inj hc
  exact Bool.eq_false_iff.mpr fun hs => hlate ⟨now, hnow, hs⟩

theorem acquire_granted_of_claim {v : View σ τ} {a : σ} {t : τ} (h : v.claim = some (a, t))
    {x : Option σ} {now stamp : τ} (hlate : ¬ (Op.acquire x now stamp).Late stale t) :
    (v.acquire (stale now) x stamp).2 = true ↔ x = some a := by
  have hc : v.claimant = some a := claimant_eq_some.mpr ⟨t, h⟩
  rw [acquire_granted_iff, expire_of_not_late h hlate rfl]
  constructor
  · rintro ⟨s, rfl, hopen⟩
    rw [(open_of_claimant hc).mp hopen]
  · rintro rfl
    exact ⟨a, rfl, (open_of_claimant hc).mpr rfl⟩

theorem step_claim {v : View σ τ} {a : σ} {t : τ} (h : v.claim = some (a, t)) {op : Op σ τ}
    (hends : ¬ op.Ends a) (hlate : ¬ op.Late stale t) :
    (step stale v op).1.claim = some (a, restamp a t (op, (step stale v op).2)) := by
  have hc : v.claimant = some a := claimant_eq_some.mpr ⟨t, h⟩
  cases op with
  | acquire x now stamp =>
    cases x with
    | none => exact h
    | some s =>
      have hexp := expire_of_not_late h hlate rfl
      by_cases hs : (v.expire (stale now)).Open s
      · have has : a = s := (open_of_claimant hc).mp (hexp ▸ hs)
        subst has
        simp only [step, acquire_of_open hs, grant_claim, restamp, if_true]
      · simp only [step, acquire_of_not_open hs, restamp, hexp, h]
  | release x =>
    have hx : ¬ (x = some a ∨ x = none) := hends
    have hkeep : v.release x = (v, false) := by
      apply if_neg
      rintro (⟨hfree, _⟩ | hclaim | howner)
      · rw [hc] at hfree; cases hfree
      · exact hx (Or.inl (hclaim.symm.trans hc))
      · cases hx' : x with
        | none => exact hx (Or.inr hx')
        | some s => exact hx (Or.inl (by rw [hx', owner_eq_claimant hc (howner.trans hx')]))
    simp only [step, hkeep, restamp, h]
  | observe x now =>
    have hx : x = some a := not_not.mp hends
    have hfresh : stale now t = false := Bool.eq_false_iff.mpr fun hs => hlate ⟨now, rfl, hs⟩
    subst hx
    simp only [step, observe_claim_of_claim h, hfresh, restamp]
    rfl
  | holder now =>
    simp only [step, expire_of_not_late h hlate rfl, restamp, h]

/-- Along a run the claim of `a` stays, or some operation ends it or finds it stale. -/
theorem claim_or_escape {v : View σ τ} {a : σ} {t : τ} (h : v.claim = some (a, t))
    (ops : List (Op σ τ)) :
    ((machine stale).after v ops).claim =
        some (a, lastStamp a t ((machine stale).log v ops)) ∨
      ∃ pre op r post, (machine stale).log v ops = pre ++ (op, r) :: post ∧
        (op.Ends a ∨ op.Late stale (lastStamp a t pre)) := by
  induction ops generalizing v t with
  | nil => exact Or.inl h
  | cons op ops ih =>
    -- the stamp moves with every acquire of `a`, so the rest of the run starts from a new one
    by_cases hesc : op.Ends a ∨ op.Late stale t
    · exact Or.inr ⟨[], op, _, _, rfl, hesc⟩
    · rw [not_or] at hesc
      rcases ih (step_claim h hesc.1 hesc.2) with hstay | ⟨pre, op', r, post, hlog, hend⟩
      · exact Or.inl hstay
      · refine Or.inr ⟨(op, (step stale v op).2) :: pre, op', r, post, ?_, hend⟩
        rw [Machine.log_cons, List.cons_append]
        exact congrArg _ hlog

/-- Between a granted acquire of `a` and one of another client, some operation ends the
claim of `a` or runs, the second acquire included, when it is stale. -/
theorem exclusive {v : View σ τ} {ops : List (Op σ τ)} {a b : σ} {now stamp now' stamp' : τ}
    {pre mid post : List (Op σ τ × Reply σ)}
    (hlog : (machine stale).log v ops = pre ++ (.acquire (some a) now stamp, .verdict true) ::
      (mid ++ (.acquire (some b) now' stamp', .verdict true) :: post))
    (hne : a ≠ b) :
    (∃ op r, (op, r) ∈ mid ∧ op.Ends a) ∨
      ∃ m₁ op r m₂, mid ++ [(.acquire (some b) now' stamp', .verdict true)] = m₁ ++ (op, r) :: m₂ ∧
        op.Late stale (lastStamp a stamp m₁) := by
  obtain ⟨-, hgrant, hrest⟩ := Machine.log_eq_append hlog
  set u := (machine stale).after v (pre.map Prod.fst)
  have hopen : (u.acquire (stale now) (some a) stamp).2 = true := (Reply.verdict.inj hgrant).symm
  obtain ⟨s, hs, hopen⟩ := acquire_granted_iff.mp hopen
  obtain rfl := Option.some.inj hs
  set w := ((machine stale).step u (.acquire (some a) now stamp)).1 with hw
  have hclaim : w.claim = some (a, stamp) := by
    simp only [hw, machine, step, acquire_of_open hopen, grant_claim]
  obtain ⟨hmid, hgrant', -⟩ := Machine.log_eq_append hrest.symm
  rcases claim_or_escape hclaim (mid.map Prod.fst) with hstay | ⟨m₁, op, r, m₂, hsplit, hesc⟩
  · -- the claim is still there, so the second acquire can only be granted on a stale one
    rw [← hmid] at hstay
    refine Or.inr ⟨mid, _, _, [], rfl, ?_⟩
    by_contra hlate
    have hgranted := (acquire_granted_of_claim hstay hlate).mp (Reply.verdict.inj hgrant').symm
    exact hne (Option.some.inj hgranted).symm
  · rw [← hmid] at hsplit
    rcases hesc with hends | hlate
    · exact Or.inl ⟨op, r, by rw [hsplit]; simp, hends⟩
    · exact Or.inr ⟨m₁, op, r, m₂ ++ [_], by rw [hsplit, List.append_assoc]; rfl, hlate⟩

/-! ### What a report makes forgettable -/

/-- Two views that no named client can tell apart. -/
def Coalesced (v w : View σ τ) : Prop :=
  v.reported = w.reported ∧ v.reported ≠ none ∧ (v.claim = w.claim ∨ ∃ s, v.owner = some s)

theorem coalesced_observe (stale stale' : τ → Bool) (v w : View σ τ) (x : Option σ) :
    Coalesced (v.observe stale x) (w.observe stale' x) := by
  refine ⟨rfl, by simp, ?_⟩
  cases x with
  | none => exact Or.inl (by rw [observe_none_claim, observe_none_claim])
  | some s => exact Or.inr ⟨s, rfl⟩

theorem release_of_owner {v : View σ τ} {s a : σ} (h : v.owner = some s) :
    (v.release (some a)).2 = decide (s = a) := by
  by_cases has : s = a
  · subst has
    simp [View.release, h]
  · have hclaim : v.claimant ≠ some a := fun hc => has (owner_eq_claimant hc h)
    simp [View.release, h, has, hclaim]

theorem coalesced_step {v w : View σ τ} (h : Coalesced v w) {op : Op σ τ}
    (hop : op ≠ .release none) :
    (step stale v op).2 = (step stale w op).2 ∧
      Coalesced (step stale v op).1 (step stale w op).1 := by
  -- either the claims agree, or there is an owner, which alone decides every answer
  obtain ⟨hrep, hseen, heq | ⟨s, hs⟩⟩ := h
  · obtain rfl : v = w := View.ext heq hrep
    refine ⟨rfl, rfl, ?_, Or.inl rfl⟩
    cases op <;> simp [step, hseen]
  · have hw : w.owner = some s := by rw [View.owner, ← hrep]; exact hs
    have hexp : ∀ (x : View σ τ) (now : τ), x.owner = some s →
        (x.expire (stale now)).owner = some s := fun _ _ h => h
    cases op with
    | acquire x now stamp =>
      refine ⟨?_, ?_, ?_, Or.inr ⟨s, ?_⟩⟩
      · cases x with
        | none => rfl
        | some a =>
          have hiff : (v.expire (stale now)).Open a ↔ (w.expire (stale now)).Open a := by
            rw [open_of_owner (hexp v now hs), open_of_owner (hexp w now hw)]
          refine congrArg Reply.verdict (Bool.eq_iff_iff.mpr ?_)
          simp only [acquire_granted_iff, Option.some.injEq, exists_eq_left', hiff]
      · simp only [step, acquire_reported, hrep]
      · simpa only [step, acquire_reported] using hseen
      · simpa only [step, View.owner, acquire_reported] using hs
    | release x =>
      cases x with
      | none => exact absurd rfl hop
      | some a =>
        refine ⟨?_, ?_, ?_, Or.inr ⟨s, ?_⟩⟩
        · simp only [step, release_of_owner hs, release_of_owner hw]
        · simp only [step, release_reported, hrep]
        · simpa only [step, release_reported] using hseen
        · simpa only [step, View.owner, release_reported] using hs
    | observe x now => exact ⟨rfl, coalesced_observe _ _ v w x⟩
    | holder now =>
      refine ⟨?_, hrep, hseen, Or.inr ⟨s, hs⟩⟩
      simp only [step, View.holder, expire_reported, ← hrep, owner_eq_some.mp hs, Option.getD_some]

/-! ### How long a claim and a report last -/

def lastReport (ops : List (Op σ τ)) : Option (Option σ) :=
  ops.foldl (fun r op => match op with | .observe x _ => some x | _ => r) none

omit [DecidableEq σ] in
theorem lastReport_append (ops : List (Op σ τ)) (op : Op σ τ) :
    lastReport (ops ++ [op]) =
      match op with | .observe x _ => some x | _ => lastReport ops := by
  simp only [lastReport, List.foldl_append, List.foldl_cons, List.foldl_nil]

theorem step_reported (v : View σ τ) (op : Op σ τ) :
    (step stale v op).1.reported = match op with | .observe x _ => some x | _ => v.reported := by
  cases op <;> simp [step]

theorem after_reported (ops : List (Op σ τ)) :
    ((machine stale).after free ops).reported = lastReport ops := by
  induction ops using List.reverseRecOn with
  | nil => rfl
  | append_singleton ops op ih =>
    rw [Machine.after_append, lastReport_append]
    refine (step_reported ((machine stale).after free ops) op).trans ?_
    cases op <;> simp [ih]

theorem step_claim_mem {v : View σ τ} {op : Op σ τ} {c : σ × τ}
    (hc : c ∈ (step stale v op).1.claim) :
    c ∈ v.claim ∨
      ∃ now, (op, (step stale v op).2) = (.acquire (some c.1) now c.2, .verdict true) := by
  have hexp : ∀ now, c ∈ (v.expire (stale now)).claim → c ∈ v.claim :=
    fun now h => (Option.mem_filter_iff.mp h).1
  cases op with
  | acquire x now stamp =>
    cases x with
    | none => exact Or.inl hc
    | some s =>
      by_cases hs : (v.expire (stale now)).Open s
      · simp only [step, acquire_of_open hs, grant_claim, Option.mem_some_iff] at hc
        subst hc
        exact Or.inr ⟨now, by simp only [step, acquire_of_open hs]⟩
      · simp only [step, acquire_of_not_open hs] at hc
        exact Or.inl (hexp now hc)
  | release x =>
    simp only [step, View.release] at hc
    split_ifs at hc
    · cases hc
    · exact Or.inl hc
  | observe x now => exact Or.inl (hexp now (Option.mem_filter_iff.mp hc).1)
  | holder now => exact Or.inl (hexp now hc)

theorem claim_mem_log (ops : List (Op σ τ)) {c : σ × τ}
    (hc : c ∈ ((machine stale).after free ops).claim) :
    ∃ now, (.acquire (some c.1) now c.2, .verdict true) ∈ (machine stale).log free ops := by
  induction ops using List.reverseRecOn with
  | nil => cases hc
  | append_singleton ops op ih =>
    rw [Machine.after_append] at hc
    rw [Machine.log_append]
    rcases step_claim_mem hc with hold | ⟨now, hnew⟩
    · obtain ⟨now, hmem⟩ := ih hold
      exact ⟨now, List.mem_append_left _ hmem⟩
    · exact ⟨now, List.mem_append_right _ (by rw [← hnew]; exact List.mem_singleton_self _)⟩

/-- Once every granted acquire of a run is stale, an acquire is granted exactly to the
client the last report named, or to anyone when it named nobody. -/
theorem acquire_after_silence {ops : List (Op σ τ)} {now stamp : τ} {s : σ}
    (hquiet : ∀ c n t, (.acquire (some c) n t, .verdict true) ∈ (machine stale).log free ops →
      stale now t = true) :
    (((machine stale).after free ops).acquire (stale now) (some s) stamp).2 = true ↔
      (lastReport ops).join = none ∨ (lastReport ops).join = some s := by
  have hnone : (((machine stale).after free ops).expire (stale now)).claim = none := by
    apply expire_claim_of_stale
    intro c hc
    obtain ⟨n, hmem⟩ := claim_mem_log ops hc
    exact hquiet c.1 n c.2 hmem
  rw [acquire_granted_iff]
  simp only [Option.some.injEq, exists_eq_left', open_of_claim_none hnone, View.owner,
    expire_reported, after_reported]

/-! ### Renewal -/

def renewed (t : τ) (ops : List (Op σ τ)) : τ :=
  ops.foldl (fun t op => match op with | .acquire _ _ stamp => stamp | _ => t) t

/-- `op` confirms `a`: a report naming it or a retry by it. -/
def Op.Confirms (a : σ) : Op σ τ → Prop
  | .acquire x _ _ => x = some a
  | .observe x _ => x = some a
  | _ => False

def HeldBy (a : σ) (t : τ) (v : View σ τ) : Prop :=
  (∀ c, v.claim = some c → c = (a, t)) ∧ ∀ o, v.owner = some o → o = a

omit [DecidableEq σ] in
theorem heldBy_of_claim {v : View σ τ} {a : σ} {t : τ} (h : v.claim = some (a, t)) :
    HeldBy a t v := by
  refine ⟨fun c hc => ?_, fun o ho => owner_eq_claimant (claimant_eq_some.mpr ⟨t, h⟩) ho⟩
  rw [h] at hc
  exact (Option.some.inj hc).symm

omit [DecidableEq σ] in
theorem HeldBy.open {v : View σ τ} {a : σ} {t : τ} (h : HeldBy a t v) (now : τ) :
    (v.expire (stale now)).Open a := by
  refine ⟨fun c hc => ?_, h.2⟩
  obtain ⟨t', hc⟩ := claimant_eq_some.mp hc
  exact congrArg Prod.fst (h.1 _ (Option.mem_filter_iff.mp hc).1)

theorem heldBy_step {v : View σ τ} {a : σ} {t : τ} (h : HeldBy a t v) {op : Op σ τ}
    (hop : op.Confirms a) : HeldBy a (renewed t [op]) (step stale v op).1 := by
  cases op with
  | acquire x now stamp =>
    obtain rfl : x = some a := hop
    simp only [step, acquire_of_open (h.open now)]
    exact ⟨fun c hc => (Option.some.inj hc).symm, h.2⟩
  | release x => exact hop.elim
  | observe x now =>
    obtain rfl : x = some a := hop
    refine ⟨fun c hc => h.1 c ?_, fun o ho => (Option.some.inj ho).symm⟩
    exact (Option.mem_filter_iff.mp (Option.mem_filter_iff.mp hc).1).1
  | holder now => exact hop.elim

theorem claim_confirm {v : View σ τ} {a : σ} {t : τ} (h : v.claim = some (a, t)) {op : Op σ τ}
    (hop : op.Confirms a) :
    (step stale v op).1.claimant = some a ↔ ∀ x now, op = .observe x now → stale now t = false := by
  cases op with
  | acquire x now stamp =>
    obtain rfl : x = some a := hop
    simp only [step, acquire_of_open ((heldBy_of_claim h).open now)]
    simp [claimant]
  | release x => exact hop.elim
  | observe x now =>
    obtain rfl : x = some a := hop
    simp only [step, claimant, observe_claim_of_claim h]
    cases hs : stale now t <;> simp [hs]
  | holder now => exact hop.elim

/-- A claim outlives every prefix of a run of confirmations exactly when each report comes
while the last stamp is fresh: reports do not renew it. -/
theorem claimant_all_iff {v : View σ τ} {a : σ} {t : τ} (h : v.claim = some (a, t))
    {ops : List (Op σ τ)} (hops : ∀ op ∈ ops, op.Confirms a) :
    (∀ pre post, ops = pre ++ post → ((machine stale).after v pre).claimant = some a) ↔
      ∀ pre x now post, ops = pre ++ .observe x now :: post →
        stale now (renewed t pre) = false := by
  induction ops generalizing v t with
  | nil =>
    refine ⟨fun _ pre x now post hsplit => ?_, fun _ pre post hsplit => ?_⟩
    · exact absurd hsplit (by simp)
    · obtain ⟨rfl, rfl⟩ := List.append_eq_nil_iff.mp hsplit.symm
      exact claimant_eq_some.mpr ⟨t, h⟩
  | cons op ops ih =>
    have hop := hops op (List.mem_cons_self ..)
    have htail : ∀ o ∈ ops, o.Confirms a := fun o ho => hops o (List.mem_cons_of_mem _ ho)
    have hstamp : (step stale v op).1.claimant = some a →
        (step stale v op).1.claim = some (a, renewed t [op]) := by
      intro hc
      obtain ⟨t', hc⟩ := claimant_eq_some.mp hc
      rw [hc, (heldBy_step (heldBy_of_claim h) hop).1 _ hc]
    constructor
    · intro hall pre x now post hsplit
      have hfirst : (step stale v op).1.claimant = some a := hall [op] ops rfl
      have hrest := (ih (hstamp hfirst) htail).mp fun pre post hpre =>
        hall (op :: pre) post (by rw [hpre]; rfl)
      cases pre with
      | nil => exact (claim_confirm h hop).mp hfirst x now (List.cons.inj hsplit).1
      | cons op' pre =>
        obtain ⟨rfl, htl⟩ := List.cons.inj hsplit
        exact hrest pre x now post htl
    · intro hall pre post hsplit
      have hfirst : (step stale v op).1.claimant = some a :=
        (claim_confirm h hop).mpr fun x now hx => hall [] x now ops (by rw [hx]; rfl)
      have hrest := (ih (hstamp hfirst) htail).mpr fun pre x now post hpre =>
        hall (op :: pre) x now post (by rw [hpre]; rfl)
      cases pre with
      | nil => exact claimant_eq_some.mpr ⟨t, h⟩
      | cons op' pre =>
        obtain ⟨rfl, htl⟩ := List.cons.inj hsplit
        exact hrest pre post htl

end LeaseLock

import QuikSyncAdapters.Library.LeaseRuns

/-! A lease lock whose claims never go stale, as one client sees its own hold: which
operations make the view stop naming it, and what the others can do meanwhile. -/

namespace LeaseLock

variable {σ τ : Type*} [DecidableEq σ]

namespace View

def Names (v : View σ τ) (a : σ) : Prop := v.claimant = some a ∨ v.owner = some a

omit [DecidableEq σ] in
theorem Names.open_iff {v : View σ τ} {a s : σ} (h : v.Names a) : v.Open s ↔ a = s := by
  rcases h with hc | ho
  · exact open_of_claimant hc
  · exact open_of_owner ho

omit [DecidableEq σ] in
theorem exists_open_of_not_names {v : View σ τ} {a b : σ} (h : ¬ v.Names a) (hb : b ≠ a) :
    ∃ s, s ≠ a ∧ v.Open s := by
  cases hc : v.claimant with
  | some c =>
    have hne : c ≠ a := fun hca => h (Or.inl (hc.trans (congrArg some hca)))
    exact ⟨c, hne, (open_of_claimant hc).mpr rfl⟩
  | none =>
    cases ho : v.owner with
    | some o =>
      have hne : o ≠ a := fun hoa => h (Or.inr (ho.trans (congrArg some hoa)))
      exact ⟨o, hne, (open_of_owner ho).mpr rfl⟩
    | none =>
      have hclaim : v.claim = none := Option.map_eq_none_iff.mp hc
      exact ⟨b, hb, (open_of_claim_none hclaim).mpr (Or.inl ho)⟩

end View

open View

/-- Whether the hold of `a` is lost after an operation and its reply: a report says so, an
acquire by `a` takes it back, and nothing else matters. -/
def loses (a : σ) (lost : Bool) : Op σ τ × Reply σ → Bool
  | (.observe x _, _) => decide (x ≠ some a)
  | (.acquire (some s) _ _, .verdict true) => if s = a then false else lost
  | _ => lost

variable {stale : τ → τ → Bool}

def Op.Keeps (a : σ) (op : Op σ τ) : Prop := ∀ x, op = .release x → x ≠ some a ∧ x ≠ none

theorem names_acquire (hstale : ∀ now t, stale now t = false) {v : View σ τ} {a s : σ} {lost : Bool}
    (h : v.Names a ↔ lost = false) (now stamp : τ) :
    (step stale v (.acquire (some s) now stamp)).1.Names a ↔
      loses a lost (.acquire (some s) now stamp,
        (step stale v (.acquire (some s) now stamp)).2) = false := by
  have hexp : v.expire (stale now) = v := expire_of_fresh fun c _ => hstale now c.2
  by_cases hopen : (v.expire (stale now)).Open s
  · simp only [step, acquire_of_open hopen, loses]
    by_cases hs : s = a
    · subst hs
      simp [Names, claimant]
    · have hnot : ¬ v.Names a := by
        intro hnames
        rw [hexp] at hopen
        exact hs (hnames.open_iff.mp hopen).symm
      have hlost : lost = true := by
        rw [← Bool.not_eq_false]
        exact fun hf => hnot (h.mpr hf)
      rw [if_neg hs, hlost]
      refine ⟨?_, fun h => Bool.noConfusion h⟩
      rintro (hc | ho)
      · exact absurd (Option.some.inj hc) hs
      · exact absurd (Or.inr ho) hnot
  · simp only [step, acquire_of_not_open hopen, hexp, loses]
    exact h

theorem names_release {v : View σ τ} {a : σ} {x : Option σ} (hxa : x ≠ some a) (hx : x ≠ none) :
    (v.release x).1.Names a ↔ v.Names a := by
  unfold View.release
  split_ifs with hdrop
  · -- the claim that is dropped was not the claim of `a`
    have hclaimant : v.claimant ≠ some a := by
      intro hc
      rcases hdrop with ⟨hnone, -⟩ | hcx | hox
      · exact (Option.some_ne_none _ (hc.symm.trans hnone)).elim
      · exact hxa (hcx.symm.trans hc)
      · cases hx' : x with
        | none => exact hx hx'
        | some s =>
          have hsa : s = a := owner_eq_claimant hc (hox.trans hx')
          exact hxa (hx'.trans (congrArg some hsa))
    constructor
    · rintro (hc | ho)
      · cases hc
      · exact Or.inr ho
    · exact fun hn => Or.inr (hn.resolve_left hclaimant)
  · exact Iff.rfl

theorem names_observe {v : View σ τ} {a : σ} (x : Option σ) (now : τ) :
    (v.observe (stale now) x).Names a ↔ x = some a := by
  constructor
  · rintro (hc | ho)
    · rcases claimant_observe (v := v) with hnone | hx
      · exact (Option.some_ne_none _ (hc.symm.trans hnone)).elim
      · exact hx.symm.trans hc
    · exact ho
  · exact Or.inr

theorem names_step (hstale : ∀ now t, stale now t = false) {v : View σ τ} {a : σ} {lost : Bool}
    (h : v.Names a ↔ lost = false) {op : Op σ τ} (hop : op.Keeps a) :
    (step stale v op).1.Names a ↔ loses a lost (op, (step stale v op).2) = false := by
  cases op with
  | acquire x now stamp =>
    cases x with
    | none => exact h
    | some s => exact names_acquire hstale h now stamp
  | release x =>
    obtain ⟨hxa, hx⟩ := hop x rfl
    exact (names_release hxa hx).trans h
  | observe x now =>
    have hnames : (v.observe (stale now) x).Names a ↔ x = some a := names_observe x now
    simpa [step, loses] using hnames
  | holder now =>
    have hexp : v.expire (stale now) = v := expire_of_fresh fun c _ => hstale now c.2
    simp only [step, hexp, loses]
    exact h

/-- Along a run that does not give up the hold of `a`, the view names `a` exactly while the
hold is not lost. -/
theorem names_after (hstale : ∀ now t, stale now t = false) {v : View σ τ} {a : σ} {lost : Bool}
    (h : v.Names a ↔ lost = false) {ops : List (Op σ τ)} (hops : ∀ op ∈ ops, op.Keeps a) :
    ((machine stale).after v ops).Names a ↔
      ((machine stale).log v ops).foldl (loses a) lost = false := by
  induction ops generalizing v lost with
  | nil => exact h
  | cons op ops ih =>
    have hstep := names_step hstale h (hops op (List.mem_cons_self ..))
    exact ih hstep fun o ho => hops o (List.mem_cons_of_mem _ ho)

end LeaseLock

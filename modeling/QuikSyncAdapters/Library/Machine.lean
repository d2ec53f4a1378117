import Mathlib.Data.List.Basic

/-! Deterministic machines that answer every input, with the rules used to lift facts
about one step to whole runs: invariants, escapes, bisimulation, projection onto a
smaller machine and machines that drive a component. -/

/-- A deterministic machine with states `σ`, inputs `ι` and one answer in `ο` per input. -/
structure Machine (σ ι ο : Type*) where
  step : σ → ι → σ × ο

namespace Machine

variable {σ ι ο : Type*}

def after (M : Machine σ ι ο) (q : σ) : List ι → σ
  | [] => q
  | i :: is => M.after (M.step q i).1 is

def log (M : Machine σ ι ο) (q : σ) : List ι → List (ι × ο)
  | [] => []
  | i :: is => (i, (M.step q i).2) :: M.log (M.step q i).1 is

variable (M : Machine σ ι ο)

def answers (q : σ) (is : List ι) : List ο := (M.log q is).map Prod.snd

@[simp] theorem after_nil (q : σ) : M.after q [] = q := rfl

@[simp] theorem after_cons (q : σ) (i : ι) (is : List ι) :
    M.after q (i :: is) = M.after (M.step q i).1 is := rfl

@[simp] theorem log_nil (q : σ) : M.log q [] = [] := rfl

@[simp] theorem log_cons (q : σ) (i : ι) (is : List ι) :
    M.log q (i :: is) = (i, (M.step q i).2) :: M.log (M.step q i).1 is := rfl

theorem after_append (q : σ) (is js : List ι) :
    M.after q (is ++ js) = M.after (M.after q is) js := by
  induction is generalizing q with
  | nil => rfl
  | cons i is ih => simpa only [List.cons_append, after_cons] using ih (M.step q i).1

theorem log_append (q : σ) (is js : List ι) :
    M.log q (is ++ js) = M.log q is ++ M.log (M.after q is) js := by
  induction is generalizing q with
  | nil => rfl
  | cons i is ih => simp only [List.cons_append, log_cons, after_cons, ih]

@[simp] theorem log_map_fst (q : σ) (is : List ι) : (M.log q is).map Prod.fst = is := by
  induction is generalizing q with
  | nil => rfl
  | cons i is ih => simp only [log_cons, List.map_cons, ih]

variable {M}

theorem inputs_eq_of_log_eq {q : σ} {is : List ι} {pre post : List (ι × ο)} {i : ι} {o : ο}
    (h : M.log q is = pre ++ (i, o) :: post) :
    is = pre.map Prod.fst ++ i :: post.map Prod.fst := by
  rw [← M.log_map_fst q is, h, List.map_append, List.map_cons]

theorem log_eq_append {q : σ} {is : List ι} {pre post : List (ι × ο)} {i : ι} {o : ο}
    (h : M.log q is = pre ++ (i, o) :: post) :
    pre = M.log q (pre.map Prod.fst) ∧ o = (M.step (M.after q (pre.map Prod.fst)) i).2 ∧
      post = M.log (M.step (M.after q (pre.map Prod.fst)) i).1 (post.map Prod.fst) := by
  rw [inputs_eq_of_log_eq h, log_append, log_cons] at h
  have hlen : (M.log q (pre.map Prod.fst)).length = pre.length := by
    rw [← List.length_map (f := Prod.fst), log_map_fst, List.length_map]
  obtain ⟨hpre, htail⟩ := List.append_inj h hlen
  obtain ⟨hio, hpost⟩ := List.cons.inj htail
  exact ⟨hpre.symm, (congrArg Prod.snd hio).symm, hpost.symm⟩

/-! ### Invariants -/

theorem after_invariant {P : σ → Prop} (hstep : ∀ q i, P q → P (M.step q i).1) {q : σ} (hq : P q)
    (is : List ι) : P (M.after q is) := by
  induction is generalizing q with
  | nil => exact hq
  | cons i is ih => exact ih (hstep q i hq)

theorem after_allowed {P : σ → Prop} {A : ι → Prop}
    (hstep : ∀ q i, A i → P q → P (M.step q i).1) {q : σ} (hq : P q) {is : List ι}
    (his : ∀ i ∈ is, A i) : P (M.after q is) := by
  induction is generalizing q with
  | nil => exact hq
  | cons i is ih =>
    obtain ⟨hi, hrest⟩ := List.forall_mem_cons.mp his
    exact ih (hstep q i hi hq) hrest

/-- A relation between the state and the log so far that every allowed step preserves. -/
theorem history_invariant {P : σ → List (ι × ο) → Prop} {A : ι → Prop}
    (hstep : ∀ q past i, A i → P q past → P (M.step q i).1 (past ++ [(i, (M.step q i).2)]))
    {q : σ} {past : List (ι × ο)} (h : P q past) {is : List ι} (his : ∀ i ∈ is, A i) :
    P (M.after q is) (past ++ M.log q is) := by
  induction is generalizing q past with
  | nil =>
    rw [log_nil, List.append_nil]
    exact h
  | cons i is ih =>
    have hnext := ih (hstep q past i (his i (List.mem_cons_self ..)) h)
      fun j hj => his j (List.mem_cons_of_mem _ hj)
    rwa [List.append_assoc, List.singleton_append] at hnext

theorem run_invariant {P : σ → List (ι × ο) → Prop} {A : ι → Prop}
    (hstep : ∀ q past i, A i → P q past → P (M.step q i).1 (past ++ [(i, (M.step q i).2)]))
    {q : σ} (h : P q []) {is : List ι} (his : ∀ i ∈ is, A i) :
    P (M.after q is) (M.log q is) := by
  have hrun := history_invariant hstep h his
  rwa [List.nil_append] at hrun

def Throughout (M : Machine σ ι ο) (P : σ → Prop) (q : σ) : List ι → Prop
  | [] => P q
  | i :: is => P q ∧ M.Throughout P (M.step q i).1 is

/-- Every input of a run is allowed in the state in which it is given. -/
def Guarded (M : Machine σ ι ο) (A : σ → ι → Prop) (q : σ) : List ι → Prop
  | [] => True
  | i :: is => A q i ∧ M.Guarded A (M.step q i).1 is

section Guards

variable {P G D : σ → Prop} {A : σ → ι → Prop}

theorem Throughout.head {q : σ} {is : List ι} (h : M.Throughout G q is) : G q := by
  cases is with
  | nil => exact h
  | cons i is => exact h.1

theorem Throughout.last {q : σ} {is : List ι} (h : M.Throughout G q is) : G (M.after q is) := by
  induction is generalizing q with
  | nil => exact h
  | cons i is ih => exact ih h.2

theorem Guarded.append {q : σ} {is js : List ι} (his : M.Guarded A q is)
    (hjs : M.Guarded A (M.after q is) js) : M.Guarded A q (is ++ js) := by
  induction is generalizing q with
  | nil => exact hjs
  | cons i is ih => exact ⟨his.1, ih his.2 hjs⟩

theorem Guarded.throughout (hgood : ∀ q, P q → G q)
    (hstep : ∀ q i, A q i → P q → P (M.step q i).1) {q : σ} (hq : P q) {is : List ι}
    (his : M.Guarded A q is) : M.Throughout G q is := by
  induction is generalizing q with
  | nil => exact hgood q hq
  | cons i is ih =>
    have hnext := hstep q i his.1 hq
    exact ⟨hgood q hq, ih hnext his.2⟩

/-- A doomed machine, which can be led to a bad state and stays doomed until it reaches one,
reaches one in some continuation of every run. -/
theorem not_throughout_of_doomed {κ : Type*} {c : κ → ι}
    (hstay : ∀ q i, D q → D (M.step q i).1 ∨ ¬ G (M.step q i).1)
    (hend : ∀ q, D q → ∃ ks : List κ, ¬ G (M.after q (ks.map c))) {q : σ} (hq : D q)
    (is : List ι) : ∃ ks : List κ, ¬ M.Throughout G q (is ++ ks.map c) := by
  induction is generalizing q with
  | nil =>
    obtain ⟨ks, hbad⟩ := hend q hq
    exact ⟨ks, fun h => hbad h.last⟩
  | cons i is ih =>
    obtain hnext | hbad := hstay q i hq
    · obtain ⟨ks, hks⟩ := ih hnext
      exact ⟨ks, fun h => hks h.2⟩
    · exact ⟨[], fun h => hbad h.2.head⟩

/-- When a step that is not allowed dooms the machine or makes it bad at once, the runs of
allowed steps are the ones that stay good however they go on. -/
theorem guarded_iff_throughout {κ : Type*} {c : κ → ι} (hgood : ∀ q, P q → G q)
    (hstep : ∀ q i, A q i → P q → P (M.step q i).1) (hfree : ∀ q k, A q (c k))
    (hdoom : ∀ q i, ¬ A q i → P q → D (M.step q i).1 ∨ ¬ G (M.step q i).1)
    (hstay : ∀ q i, D q → D (M.step q i).1 ∨ ¬ G (M.step q i).1)
    (hend : ∀ q, D q → ∃ ks : List κ, ¬ G (M.after q (ks.map c))) {q : σ} (hq : P q)
    (is : List ι) :
    M.Guarded A q is ↔ ∀ ks : List κ, M.Throughout G q (is ++ ks.map c) := by
  have hcontinued : ∀ (ks : List κ) (r : σ), M.Guarded A r (ks.map c) := by
    intro ks
    induction ks with
    | nil => exact fun _ => trivial
    | cons k ks ih => exact fun r => ⟨hfree r k, ih _⟩
  constructor
  · intro his ks
    exact (his.append (hcontinued ks _)).throughout hgood hstep hq
  · intro h
    induction is generalizing q with
    | nil => exact trivial
    | cons i is ih =>
      have htail : ∀ ks : List κ, M.Throughout G (M.step q i).1 (is ++ ks.map c) :=
        fun ks => (h ks).2
      have hallowed : A q i := by
        by_contra hA
        obtain hD | hbad := hdoom q i hA hq
        · obtain ⟨ks, hks⟩ := not_throughout_of_doomed hstay hend hD is
          exact hks (htail ks)
        · exact hbad (htail []).head
      exact ⟨hallowed, ih (hstep q i hallowed hq) htail⟩

end Guards

/-- Two states related by a relation that every allowed input preserves, answering alike,
give the same answers along every run of allowed inputs. -/
theorem answers_eq_of_bisim {R : σ → σ → Prop} {A : ι → Prop}
    (hstep : ∀ q r i, A i → R q r →
      (M.step q i).2 = (M.step r i).2 ∧ R (M.step q i).1 (M.step r i).1)
    {q r : σ} (h : R q r) {is : List ι} (his : ∀ i ∈ is, A i) :
    M.answers q is = M.answers r is := by
  induction is generalizing q r with
  | nil => rfl
  | cons i is ih =>
    obtain ⟨hans, hnext⟩ := hstep q r i (his i (List.mem_cons_self ..)) h
    have htail := ih hnext fun j hj => his j (List.mem_cons_of_mem _ hj)
    simp only [answers, log_cons, List.map_cons, hans] at htail ⊢
    rw [htail]

/-! ### Projection onto a smaller machine -/

section Projection

variable {σ' ι' ο' : Type*}

/-- `R` projects `M` onto `N`: the inputs that `view` sends to nothing leave the related
state alone, the others make `N` take the step and give the translated answer. -/
structure Projects (M : Machine σ ι ο) (N : Machine σ' ι' ο') (R : σ → σ' → Prop)
    (view : ι × ο → Option (ι' × ο')) : Prop where
  hidden : ∀ q r i, R q r → view (i, (M.step q i).2) = none → R (M.step q i).1 r
  seen : ∀ q r i j a, R q r → view (i, (M.step q i).2) = some (j, a) →
    R (M.step q i).1 (N.step r j).1 ∧ a = (N.step r j).2

variable {N : Machine σ' ι' ο'} {R : σ → σ' → Prop} {view : ι × ο → Option (ι' × ο')}

/-- The visible part of a run's log is a log of the smaller machine, ending in related states. -/
theorem Projects.run (h : Projects M N R view) {q : σ} {r : σ'} (hqr : R q r) (is : List ι) :
    (M.log q is).filterMap view = N.log r (((M.log q is).filterMap view).map Prod.fst) ∧
      R (M.after q is) (N.after r (((M.log q is).filterMap view).map Prod.fst)) := by
  induction is generalizing q r with
  | nil => exact ⟨rfl, hqr⟩
  | cons i is ih =>
    rw [log_cons, after_cons]
    cases hv : view (i, (M.step q i).2) with
    | none =>
      rw [List.filterMap_cons_none hv]
      exact ih (h.hidden q r i hqr hv)
    | some p =>
      obtain ⟨j, a⟩ := p
      obtain ⟨hnext, ha⟩ := h.seen q r i j a hqr hv
      obtain ⟨hlog, hafter⟩ := ih hnext
      rw [List.filterMap_cons_some hv, List.map_cons, log_cons, after_cons, ← hlog, ← ha]
      exact ⟨rfl, hafter⟩

end Projection

theorem exists_of_filterMap_eq_append {α β : Type*} {f : α → Option β} {l : List α}
    {pre post : List β} {b : β} (h : l.filterMap f = pre ++ b :: post) :
    ∃ l₁ a l₂, l = l₁ ++ a :: l₂ ∧ l₁.filterMap f = pre ∧ f a = some b ∧ l₂.filterMap f = post := by
  obtain ⟨l₁, rest, hl, hpre, hrest⟩ := List.filterMap_eq_append_iff.mp h
  obtain ⟨skip, a, l₂, rfl, hskip, ha, hpost⟩ := List.filterMap_eq_cons_iff.mp hrest
  refine ⟨l₁ ++ skip, a, l₂, ?_, ?_, ha, hpost⟩
  · rw [hl, List.append_assoc]
  · rw [List.filterMap_append, List.filterMap_eq_nil_iff.mpr hskip, List.append_nil, hpre]

theorem filterMap_eq_iff {α β : Type*} {f g : α → Option β} {l : List α}
    (h : ∀ a ∈ l, g a = none → f a = none) :
    l.filterMap f = l.filterMap g ↔ ∀ a ∈ l, f a = g a := by
  have hlength : ∀ l : List α, (∀ a ∈ l, g a = none → f a = none) →
      (l.filterMap f).length ≤ (l.filterMap g).length := by
    intro l hl
    induction l with
    | nil => exact Nat.le_refl _
    | cons a l ih =>
      have hrest := ih fun b hb => hl b (List.mem_cons_of_mem _ hb)
      cases hg : g a with
      | none =>
        rw [List.filterMap_cons_none hg, List.filterMap_cons_none (hl a List.mem_cons_self hg)]
        exact hrest
      | some b =>
        rw [List.filterMap_cons_some hg, List.length_cons]
        cases hf : f a with
        | none =>
          rw [List.filterMap_cons_none hf]
          exact Nat.le_succ_of_le hrest
        | some c =>
          rw [List.filterMap_cons_some hf, List.length_cons]
          exact Nat.succ_le_succ hrest
  refine ⟨fun heq => ?_, fun hsame => List.filterMap_congr hsame⟩
  induction l with
  | nil => exact List.forall_mem_nil _
  | cons a l ih =>
    have hl := fun b hb => h b (List.mem_cons_of_mem _ hb)
    rw [List.forall_mem_cons]
    cases hg : g a with
    | none =>
      have hf := h a List.mem_cons_self hg
      rw [List.filterMap_cons_none hg, List.filterMap_cons_none hf] at heq
      exact ⟨hf, ih hl heq⟩
    | some b =>
      rw [List.filterMap_cons_some hg] at heq
      cases hf : f a with
      | none =>
        rw [List.filterMap_cons_none hf] at heq
        have hshort := hlength l hl
        rw [heq, List.length_cons] at hshort
        omega
      | some c =>
        rw [List.filterMap_cons_some hf] at heq
        obtain ⟨rfl, hrest⟩ := List.cons.inj heq
        exact ⟨rfl, ih hl hrest⟩

/-! ### Unwinding two runs -/

section Unwinding

variable {κ α : Type*} (view : σ → ι → Option κ) (observe : σ → ι → List α)

def shown (M : Machine σ ι ο) (q : σ) : List ι → List κ
  | [] => []
  | i :: is => (view q i).toList ++ M.shown (M.step q i).1 is

def observed (M : Machine σ ι ο) (q : σ) : List ι → List α
  | [] => []
  | i :: is => (if (view q i).isSome then observe q i else []) ++ M.observed (M.step q i).1 is

/-- Related states stay related under an input that is not shown to one of them, and under
inputs that are shown alike to both, at which the same is observed. -/
structure Unwinds (M : Machine σ ι ο) (R : σ → σ → Prop) : Prop where
  symm : ∀ {q r}, R q r → R r q
  hidden : ∀ {q r i}, R q r → view q i = none → R (M.step q i).1 r
  seen : ∀ {q r i j k}, R q r → view q i = some k → view r j = some k →
    observe q i = observe r j ∧ R (M.step q i).1 (M.step r j).1

variable {view observe} {M : Machine σ ι ο} {R : σ → σ → Prop}

theorem shown_cons_none {q : σ} {i : ι} (h : view q i = none) (is : List ι) :
    M.shown view q (i :: is) = M.shown view (M.step q i).1 is := by
  rw [shown, h, Option.toList_none, List.nil_append]

theorem observed_cons_none {q : σ} {i : ι} (h : view q i = none) (is : List ι) :
    M.observed view observe q (i :: is) = M.observed view observe (M.step q i).1 is := by
  rw [observed, h, Option.isSome_none, if_neg Bool.false_ne_true, List.nil_append]

theorem shown_cons_some {q : σ} {i : ι} {k : κ} (h : view q i = some k) (is : List ι) :
    M.shown view q (i :: is) = k :: M.shown view (M.step q i).1 is := by
  rw [shown, h, Option.toList_some, List.singleton_append]

theorem observed_cons_some {q : σ} {i : ι} {k : κ} (h : view q i = some k) (is : List ι) :
    M.observed view observe q (i :: is) =
      observe q i ++ M.observed view observe (M.step q i).1 is := by
  rw [observed, h, Option.isSome_some, if_pos rfl]

theorem Unwinds.skip (h : Unwinds view observe M R) {q r : σ} (hqr : R q r) {js : List ι} {k : κ}
    {rest : List κ} (hjs : M.shown view r js = k :: rest) :
    ∃ r' j tail, R q r' ∧ view r' j = some k ∧ M.shown view (M.step r' j).1 tail = rest ∧
      M.observed view observe r js =
        observe r' j ++ M.observed view observe (M.step r' j).1 tail ∧
      M.after r js = M.after (M.step r' j).1 tail := by
  induction js generalizing r with
  | nil => exact nomatch hjs
  | cons j tail ih =>
    cases hv : view r j with
    | none =>
      have hnext : R q (M.step r j).1 := h.symm (h.hidden (h.symm hqr) hv)
      rw [shown_cons_none hv] at hjs
      rw [observed_cons_none hv, after_cons]
      exact ih hnext hjs
    | some k' =>
      rw [shown_cons_some hv, List.cons.injEq] at hjs
      obtain ⟨rfl, hrest⟩ := hjs
      exact ⟨r, j, tail, hqr, hv, hrest, observed_cons_some hv tail, rfl⟩

theorem Unwinds.skip_all (h : Unwinds view observe M R) {q r : σ} (hqr : R q r) {js : List ι}
    (hjs : M.shown view r js = []) :
    M.observed view observe r js = [] ∧ R q (M.after r js) := by
  induction js generalizing r with
  | nil => exact ⟨rfl, hqr⟩
  | cons j tail ih =>
    cases hv : view r j with
    | none =>
      have hnext : R q (M.step r j).1 := h.symm (h.hidden (h.symm hqr) hv)
      rw [shown_cons_none hv] at hjs
      rw [observed_cons_none hv, after_cons]
      exact ih hnext hjs
    | some k =>
      rw [shown_cons_some hv] at hjs
      exact nomatch hjs

/-- Two runs from related states that show the same inputs observe the same. -/
theorem Unwinds.run (h : Unwinds view observe M R) {q r : σ} (hqr : R q r) {is js : List ι}
    (hshown : M.shown view q is = M.shown view r js) :
    M.observed view observe q is = M.observed view observe r js ∧
      R (M.after q is) (M.after r js) := by
  induction is generalizing q r js with
  | nil =>
    obtain ⟨hnone, hend⟩ := h.skip_all hqr hshown.symm
    exact ⟨hnone.symm, hend⟩
  | cons i is ih =>
    cases hv : view q i with
    | none =>
      rw [shown_cons_none hv] at hshown
      rw [observed_cons_none hv, after_cons]
      exact ih (h.hidden hqr hv) hshown
    | some k =>
      rw [shown_cons_some hv] at hshown
      obtain ⟨r', j, tail, hqr', hvj, hrest, hobserved, hafter⟩ := h.skip hqr hshown.symm
      obtain ⟨hsame, hnext⟩ := h.seen hqr' hv hvj
      obtain ⟨htail, hend⟩ := ih hnext hrest.symm
      rw [observed_cons_some hv, hobserved, hafter, after_cons, hsame, htail]
      exact ⟨rfl, hend⟩

end Unwinding

/-! ### Machines that answer with lists -/

section Traces

variable {α : Type*}

def trace (M : Machine σ ι (List α)) (q : σ) (is : List ι) : List α := (M.answers q is).flatten

@[simp] theorem trace_nil (M : Machine σ ι (List α)) (q : σ) : M.trace q [] = [] := rfl

@[simp] theorem trace_cons (M : Machine σ ι (List α)) (q : σ) (i : ι) (is : List ι) :
    M.trace q (i :: is) = (M.step q i).2 ++ M.trace (M.step q i).1 is := rfl

theorem trace_append (M : Machine σ ι (List α)) (q : σ) (is js : List ι) :
    M.trace q (is ++ js) = M.trace q is ++ M.trace (M.after q is) js := by
  simp only [trace, answers, log_append, List.map_append, List.flatten_append]

def Always (M : Machine σ ι (List α)) (p : α → Prop) (q : σ) : Prop :=
  ∀ is, ∀ a ∈ M.trace q is, p a

variable {M : Machine σ ι (List α)} {p : α → Prop}

theorem always_of_invariant {P : σ → Prop}
    (hstep : ∀ q i, P q → P (M.step q i).1 ∧ ∀ a ∈ (M.step q i).2, p a) {q : σ} (hq : P q) :
    M.Always p q := by
  intro is
  induction is generalizing q with
  | nil => exact List.forall_mem_nil _
  | cons i is ih =>
    obtain ⟨hnext, hanswer⟩ := hstep q i hq
    rw [trace_cons, List.forall_mem_append]
    exact ⟨hanswer, ih hnext⟩

theorem Always.step {q : σ} (h : M.Always p q) (i : ι) :
    M.Always p (M.step q i).1 ∧ ∀ a ∈ (M.step q i).2, p a := by
  constructor
  · intro is a ha
    exact h (i :: is) a (List.mem_append_right _ ha)
  · intro a ha
    have htrace : M.trace q [i] = (M.step q i).2 := List.append_nil _
    exact h [i] a (htrace ▸ ha)

/-- Two machines side by side, taking turns in any order. -/
def beside {σ' ι' : Type*} (M : Machine σ ι (List α)) (N : Machine σ' ι' (List α)) :
    Machine (σ × σ') (ι ⊕ ι') (List α) where
  step q
    | .inl i => (((M.step q.1 i).1, q.2), (M.step q.1 i).2)
    | .inr i => ((q.1, (N.step q.2 i).1), (N.step q.2 i).2)

theorem Always.beside {σ' ι' : Type*} {N : Machine σ' ι' (List α)} {q : σ} {q' : σ'}
    (h : M.Always p q) (h' : N.Always p q') : (M.beside N).Always p (q, q') := by
  have hinvariant : ∀ q i, (M.Always p q.1 ∧ N.Always p q.2) →
      (M.Always p ((M.beside N).step q i).1.1 ∧ N.Always p ((M.beside N).step q i).1.2) ∧
        ∀ a ∈ ((M.beside N).step q i).2, p a := by
    rintro ⟨q, q'⟩ (i | i) ⟨hq, hq'⟩
    · obtain ⟨hnext, hanswer⟩ := hq.step i
      exact ⟨⟨hnext, hq'⟩, hanswer⟩
    · obtain ⟨hnext, hanswer⟩ := hq'.step i
      exact ⟨⟨hq, hnext⟩, hanswer⟩
  exact always_of_invariant hinvariant ⟨h, h'⟩

end Traces

section Driving

variable {σ' ι' ο' : Type*}

/-- Each step of `M` performs on its component `part` exactly the calls it reports in `calls`. -/
def Drives (M : Machine σ ι ο) (N : Machine σ' ι' ο') (part : σ → σ')
    (calls : ο → List (ι' × ο')) : Prop :=
  ∀ q i, calls (M.step q i).2 = N.log (part q) ((calls (M.step q i).2).map Prod.fst) ∧
    part (M.step q i).1 = N.after (part q) ((calls (M.step q i).2).map Prod.fst)

variable {N : Machine σ' ι' ο'} {part : σ → σ'} {calls : ο → List (ι' × ο')}

theorem Drives.run (h : Drives M N part calls) (q : σ) (is : List ι) :
    (M.answers q is).flatMap calls =
        N.log (part q) (((M.answers q is).flatMap calls).map Prod.fst) ∧
      part (M.after q is) = N.after (part q) (((M.answers q is).flatMap calls).map Prod.fst) := by
  induction is generalizing q with
  | nil => exact ⟨rfl, rfl⟩
  | cons i is ih =>
    obtain ⟨hlog, hpart⟩ := h q i
    obtain ⟨htlog, htpart⟩ := ih (M.step q i).1
    rw [hpart] at htlog htpart
    simp only [answers, log_cons, List.map_cons, List.flatMap_cons, List.map_append, after_cons,
      log_append, after_append] at htlog htpart ⊢
    exact ⟨by rw [← hlog, ← htlog], htpart⟩

end Driving

end Machine

import QuikSyncAdapters.Library.Machine

/-! A source whose answers are passed on, item by item, to a sink that also takes inputs of its
own. A run of both is a run of the sink alone on what it is given, and the source does not
notice the sink. -/

namespace Machine

variable {σ τ ι κ β δ α γ : Type*}

section Views

variable {M : Machine σ ι (List α)} {P : σ → Prop}

theorem trace_view {f : α → Option γ} {g : ι → List γ}
    (hstep : ∀ q i, P q → P (M.step q i).1 ∧ (M.step q i).2.filterMap f = g i) {q : σ} (hq : P q)
    (is : List ι) : (M.trace q is).filterMap f = is.flatMap g := by
  induction is generalizing q with
  | nil => rfl
  | cons i is ih =>
    obtain ⟨hnext, hview⟩ := hstep q i hq
    rw [trace_cons, List.filterMap_append, hview, ih hnext, List.flatMap_cons]

theorem trace_shown {view : σ → ι → Option κ} {f : κ → Option α}
    (hstep : ∀ q i, P q → P (M.step q i).1 ∧ (M.step q i).2 = ((view q i).bind f).toList) {q : σ}
    (hq : P q) (is : List ι) : M.trace q is = (M.shown view q is).filterMap f := by
  induction is generalizing q with
  | nil => rfl
  | cons i is ih =>
    obtain ⟨hnext, hanswer⟩ := hstep q i hq
    have hitem : ((view q i).bind f).toList = (view q i).toList.filterMap f := by
      rw [Option.toList_bind, List.filterMap_eq_flatMap_toList]
      rfl
    rw [trace_cons, shown, List.filterMap_append, hanswer, hitem, ih hnext]

theorem flatMap_filterMap (f : α → Option β) (h : β → List γ) (l : List α) :
    (l.filterMap f).flatMap h = l.flatMap fun a => (f a).elim [] h := by
  rw [List.filterMap_eq_flatMap_toList, List.flatMap_assoc]
  refine List.flatMap_congr fun a _ => ?_
  cases f a with
  | none => rfl
  | some b => exact List.append_nil _

theorem after_countP {f : σ → ℕ} {p : α → Bool}
    (hstep : ∀ q i, P q → P (M.step q i).1 ∧ f (M.step q i).1 = f q + (M.step q i).2.countP p)
    {q : σ} (hq : P q) (is : List ι) : f (M.after q is) = f q + (M.trace q is).countP p := by
  induction is generalizing q with
  | nil => rfl
  | cons i is ih =>
    obtain ⟨hnext, hcount⟩ := hstep q i hq
    rw [after_cons, trace_cons, List.countP_append, ih hnext, hcount, Nat.add_assoc]

theorem after_latest {f : σ → Option γ} {view : α → Option γ}
    (hstep : ∀ q i, P q → P (M.step q i).1 ∧
      f (M.step q i).1 = ((M.step q i).2.filterMap view).getLast?.or (f q))
    {q : σ} (hq : P q) (is : List ι) :
    f (M.after q is) = ((M.trace q is).filterMap view).getLast?.or (f q) := by
  induction is generalizing q with
  | nil => rfl
  | cons i is ih =>
    obtain ⟨hnext, hlatest⟩ := hstep q i hq
    rw [after_cons, trace_cons, List.filterMap_append, List.getLast?_append, ih hnext, hlatest,
      Option.or_assoc]

end Views

def logging {ο : Type*} (M : Machine σ ι ο) : Machine σ ι (List (ι × ο)) where
  step q i := ((M.step q i).1, [(i, (M.step q i).2)])

theorem logging_run {ο : Type*} (M : Machine σ ι ο) (q : σ) (is : List ι) :
    M.logging.trace q is = M.log q is ∧ M.logging.after q is = M.after q is := by
  induction is generalizing q with
  | nil => exact ⟨rfl, rfl⟩
  | cons i is ih =>
    obtain ⟨htrace, hafter⟩ := ih (M.step q i).1
    exact ⟨congrArg _ htrace, hafter⟩

section Pipes

variable (M : Machine σ ι (List δ)) (N : Machine τ κ (List α)) (pass : ι → δ → List κ)
  (own : β → κ)

/-- The sink takes the items of an answer in the step that makes them. -/
def pipe : Machine (σ × τ) (ι ⊕ β) (List α) where
  step q
    | .inl i =>
      let given := (M.step q.1 i).2.flatMap (pass i)
      (((M.step q.1 i).1, N.after q.2 given), N.trace q.2 given)
    | .inr b => ((q.1, (N.step q.2 (own b)).1), (N.step q.2 (own b)).2)

def given (M : Machine σ ι (List δ)) (pass : ι → δ → List κ) (own : β → κ) (q : σ) :
    List (ι ⊕ β) → List κ
  | [] => []
  | .inl i :: is => (M.step q i).2.flatMap (pass i) ++ M.given pass own (M.step q i).1 is
  | .inr b :: is => own b :: M.given pass own q is

theorem pipe_run (q : σ) (r : τ) (is : List (ι ⊕ β)) :
    (M.pipe N pass own).trace (q, r) is = N.trace r (M.given pass own q is) ∧
      (M.pipe N pass own).after (q, r) is =
        (M.after q (is.filterMap Sum.getLeft?), N.after r (M.given pass own q is)) := by
  induction is generalizing q r with
  | nil => exact ⟨rfl, rfl⟩
  | cons i is ih =>
    cases i with
    | inl i =>
      obtain ⟨htrace, hafter⟩ := ih (M.step q i).1 (N.after r ((M.step q i).2.flatMap (pass i)))
      rw [given, trace_append, after_append]
      exact ⟨congrArg _ htrace, hafter⟩
    | inr b =>
      obtain ⟨htrace, hafter⟩ := ih q (N.step r (own b)).1
      exact ⟨congrArg _ htrace, hafter⟩

variable {pass own}

theorem given_passed {g : κ → List γ} {h : δ → List γ} (hown : ∀ b, g (own b) = [])
    (hpass : ∀ i d, (pass i d).flatMap g = h d) (q : σ) (is : List (ι ⊕ β)) :
    (M.given pass own q is).flatMap g = (M.trace q (is.filterMap Sum.getLeft?)).flatMap h := by
  induction is generalizing q with
  | nil => rfl
  | cons i is ih =>
    cases i with
    | inl i =>
      have hleft : (Sum.inl i :: is).filterMap Sum.getLeft? = i :: is.filterMap Sum.getLeft? := rfl
      rw [given, List.flatMap_append, ih, List.flatMap_assoc, hleft, trace_cons,
        List.flatMap_append]
      simp only [hpass]
    | inr b =>
      rw [given, List.flatMap_cons, hown, ih]
      rfl

theorem given_own {g : κ → List γ} (hpass : ∀ i d, (pass i d).flatMap g = []) (q : σ)
    (is : List (ι ⊕ β)) :
    (M.given pass own q is).flatMap g =
      (is.filterMap Sum.getRight?).flatMap fun b => g (own b) := by
  induction is generalizing q with
  | nil => rfl
  | cons i is ih =>
    cases i with
    | inl i =>
      have hnone : ((M.step q i).2.flatMap (pass i)).flatMap g = [] := by
        rw [List.flatMap_assoc]
        exact List.flatMap_eq_nil_iff.mpr fun d _ => hpass i d
      rw [given, List.flatMap_append, hnone, List.nil_append, ih]
      rfl
    | inr b =>
      have hright : (Sum.inr b :: is).filterMap Sum.getRight? =
          b :: is.filterMap Sum.getRight? := rfl
      rw [given, hright, List.flatMap_cons, List.flatMap_cons, ih]

end Pipes

end Machine

import QuikSyncAdapters.Lift.Interleaving

/-! Adapter-side mutual exclusion: two sessions are let through to the same lift only when
something in between has ended the hold of the first. -/

namespace QuikSync.Lift

open Client Py LeaseLock LiftSessionManager

def LiftAction.lockPair (lift : String) (act : LiftAction) :
    Option (Op SessionId ℚ × Reply SessionId) :=
  act.call.bind (onLift lift)

def LiftAction.regrant (lift s : String) (t : ℚ) : LiftAction → ℚ
  | .tried l u _ stamp true => if l = lift ∧ u = s then stamp else t
  | _ => t

/-- The stamp of the last acquire granted to `s` on `lift`, starting from `stamp`. -/
def lastGranted (lift s : String) (stamp : ℚ) (actions : List LiftAction) : ℚ :=
  actions.foldl (LiftAction.regrant lift s) stamp

def LiftAction.RunsAt (lift : String) (now : ℚ) : LiftAction → Prop
  | .tried l _ t _ _ => l = lift ∧ t = now
  | .observed l _ t => l = lift ∧ t = now
  | _ => False

theorem lockPair_eq_some {lift : String} {act : LiftAction}
    {pair : Op SessionId ℚ × Reply SessionId} :
    act.lockPair lift = some pair ↔
      ∃ p, act.call = some p ∧ p.1.lift = lift ∧ (p.1.op, p.2.reply) = pair := by
  simp only [LiftAction.lockPair, Option.bind_eq_some_iff, onLift_eq_some]

theorem lockPair_tried (lift s : String) (now stamp : ℚ) (granted : Bool) :
    (LiftAction.tried lift s now stamp granted).lockPair lift =
      some (.acquire (sid s) now stamp, .verdict granted) := if_pos rfl

theorem elim_lockPair {β : Type*} {lift : String} {f : β → Op SessionId ℚ × Reply SessionId → β}
    {g : β → LiftAction → β}
    (htried : ∀ b s now stamp granted,
      f b (.acquire (sid s) now stamp, .verdict granted) = g b (.tried lift s now stamp granted))
    (hreleased : ∀ b p verdict,
      f b (.release (sid p.sessionId), .verdict verdict) = g b (.released p verdict))
    (hobserved : ∀ b s now, f b (.observe (sid s) now, .done) = g b (.observed lift s now))
    (hother : ∀ b act, act.lockPair lift = none → g b act = b) (b : β) (act : LiftAction) :
    (act.lockPair lift).elim b (f b) = g b act := by
  cases hpair : act.lockPair lift with
  | none => exact (hother b act hpair).symm
  | some pair =>
    obtain ⟨p, hcall, hlift, rfl⟩ := lockPair_eq_some.mp hpair
    cases act with
    | tried l s now stamp granted =>
      obtain rfl := Option.some.inj hcall
      obtain rfl : l = lift := hlift
      exact htried b s now stamp granted
    | posted p => cases hcall
    | released p verdict =>
      obtain rfl := Option.some.inj hcall
      exact hreleased b p verdict
    | observed l s now =>
      obtain rfl := Option.some.inj hcall
      obtain rfl : l = lift := hlift
      exact hobserved b s now

theorem ne_of_lockPair_none {lift : String} {act : LiftAction} {c : Call} {a : Answer}
    (hcall : act.call = some (c, a)) (hnone : act.lockPair lift = none) : c.lift ≠ lift := by
  intro hlift
  have hsome := lockPair_eq_some.mpr ⟨(c, a), hcall, hlift, rfl⟩
  exact Option.some_ne_none _ (hsome.symm.trans hnone)

theorem restamp_acquire (s : SessionId) (t : ℚ) (u : String) (now stamp : ℚ) :
    restamp s t (.acquire (sid u) now stamp, .verdict true) = if u = s then stamp else t := by
  obtain ⟨s, hs⟩ := s
  unfold sid
  split_ifs with hu husame husame
  · exact absurd (husame.symm.trans hu) hs
  · rfl
  · exact if_pos (Subtype.ext husame)
  · exact if_neg fun h => husame (congrArg Subtype.val h)

theorem restamp_lockPair (lift : String) (s : SessionId) (t : ℚ) (act : LiftAction) :
    (act.lockPair lift).elim t (restamp s t) = act.regrant lift s t := by
  apply elim_lockPair (g := fun t act => act.regrant lift s t)
  · intro t u now stamp granted
    cases granted with
    | false => cases hu : sid u <;> rfl
    | true =>
      have hstamp := restamp_acquire s t u now stamp
      simpa [LiftAction.regrant] using hstamp
  · intro t p verdict
    rfl
  · intro t u now
    rfl
  · intro t act hnone
    cases act with
    | tried l u now stamp granted =>
      have hl : l ≠ lift := ne_of_lockPair_none (c := .tryAcquire l u now stamp) rfl hnone
      cases granted with
      | false => rfl
      | true => exact if_neg fun h => hl h.1
    | _ => rfl

theorem foldl_lockPair {β : Type*} {lift : String} {f : β → Op SessionId ℚ × Reply SessionId → β}
    {g : β → LiftAction → β}
    (h : ∀ t (act : LiftAction), (act.lockPair lift).elim t (f t) = g t act) (t : β)
    (actions : List LiftAction) :
    (actions.filterMap (LiftAction.lockPair lift)).foldl f t = actions.foldl g t := by
  rw [List.foldl_filterMap]
  refine congrArg (fun step => actions.foldl step t) ?_
  funext t act
  rw [← h]
  cases act.lockPair lift <;> rfl

theorem lastStamp_lockPair (lift : String) (s : SessionId) (stamp : ℚ)
    (actions : List LiftAction) :
    lastStamp s stamp (actions.filterMap (LiftAction.lockPair lift)) =
      lastGranted lift s stamp actions :=
  foldl_lockPair (restamp_lockPair lift s) stamp actions

/-- The part of a trace on one lift is a log of the lease lock that its state represents. -/
theorem LiftSystem.Contains.lock_log {σ ι : Type*} {M : Machine σ ι (List LiftAction)}
    {part : σ → LiftSystem} (hM : LiftSystem.Contains M part) {ttl : ℚ} {lift : String} {q : σ}
    {v : View SessionId ℚ} (h : Represents ttl (part q).node.sessionManager lift v)
    (inputs : List ι) :
    ∃ ops, (M.trace q inputs).filterMap (LiftAction.lockPair lift) =
        (LeaseLock.machine (stale ttl)).log v ops ∧
      Represents ttl (part (M.after q inputs)).node.sessionManager lift
        ((LeaseLock.machine (stale ttl)).after v ops) := by
  obtain ⟨hlog, hafter⟩ := hM.drives.run q inputs
  have hcalls : (M.answers q inputs).flatMap (fun actions => actions.filterMap LiftAction.call) =
      (M.trace q inputs).filterMap LiftAction.call := by
    rw [Machine.trace, List.filterMap_flatten, List.flatMap_def]
  rw [hcalls] at hlog hafter
  refine ⟨_, ?_, hafter ▸ represents_after h _⟩
  rw [← log_onLift h, ← hlog, List.filterMap_filterMap]
  rfl

theorem sessionId_of_granted {v : View SessionId ℚ} {ttl : ℚ} {ops : List (Op SessionId ℚ)}
    {x : Option SessionId} {now stamp : ℚ} {pre post : List (Op SessionId ℚ × Reply SessionId)}
    (h : (LeaseLock.machine (stale ttl)).log v ops =
      pre ++ (.acquire x now stamp, .verdict true) :: post) : ∃ s, x = some s := by
  obtain ⟨-, hgrant, -⟩ := Machine.log_eq_append h
  obtain ⟨s, hs, -⟩ := View.acquire_granted_iff.mp (Reply.verdict.inj hgrant).symm
  exact ⟨s, hs⟩

theorem ends_of_lockPair {lift : String} {s : SessionId} {act : LiftAction}
    {pair : Op SessionId ℚ × Reply SessionId} (hpair : act.lockPair lift = some pair)
    (hends : pair.1.Ends s) :
    (∃ p verdict, act = .released p verdict ∧ p.lift = lift ∧ p.sessionId.val = s.val) ∨
      ∃ u now, act = .observed lift u now ∧ u ≠ s.val := by
  obtain ⟨p, hcall, hlift, rfl⟩ := lockPair_eq_some.mp hpair
  cases act with
  | tried l u now stamp granted =>
    obtain rfl := Option.some.inj hcall
    exact absurd hends id
  | posted p => cases hcall
  | released p verdict =>
    obtain rfl := Option.some.inj hcall
    refine Or.inl ⟨p, verdict, rfl, hlift, ?_⟩
    rcases hends with hs | hnone
    · exact (name_eq_iff.mpr hs.symm).symm
    · exact absurd (sid_eq_none.mp hnone) p.sessionId.2
  | observed l u now =>
    obtain rfl := Option.some.inj hcall
    obtain rfl : l = lift := hlift
    refine Or.inr ⟨u, now, rfl, ?_⟩
    rintro rfl
    exact hends (sid_val s)

theorem late_of_lockPair {ttl t : ℚ} {lift : String} {act : LiftAction}
    {pair : Op SessionId ℚ × Reply SessionId} (hpair : act.lockPair lift = some pair)
    (hlate : pair.1.Late (stale ttl) t) :
    0 < ttl ∧ ∃ now, act.RunsAt lift now ∧ ttl < now - t := by
  obtain ⟨now, hnow, hstale⟩ := hlate
  obtain ⟨httl, hage⟩ := stale_eq_true.mp hstale
  refine ⟨httl, now, ?_, hage⟩
  obtain ⟨p, hcall, hlift, rfl⟩ := lockPair_eq_some.mp hpair
  cases act with
  | tried l u now' stamp granted =>
    obtain rfl := Option.some.inj hcall
    exact ⟨hlift, Option.some.inj hnow⟩
  | posted p => cases hcall
  | released p verdict =>
    obtain rfl := Option.some.inj hcall
    cases hnow
  | observed l u now' =>
    obtain rfl := Option.some.inj hcall
    exact ⟨hlift, Option.some.inj hnow⟩

/-- Between an acquire granted to `a` and one granted to `b` on the same lift, a POST of `a`
that gives the lift up has returned and was released, a frame not naming `a` came, or a call
ran more than the TTL after the last acquire of `a`. -/
theorem adapter_mutual_exclusion (liftNames : List String) (scope : Option String) (ttl : ℚ)
    (events : List LiftEvent) (lift a b : String) (now stamp now' stamp' : ℚ)
    (pre mid post : List LiftAction)
    (htrace : LiftSystem.machine.trace (.new liftNames scope ttl) events =
      pre ++ .tried lift a now stamp true :: (mid ++ .tried lift b now' stamp' true :: post))
    (hne : a ≠ b) :
    (∃ m₁ p verdict m₂, mid = m₁ ++ .released p verdict :: m₂ ∧ p.lift = lift ∧
        p.sessionId.val = a ∧ (p.requestType = .endSession ∨ p.requestType = .humanMode) ∧
        .posted p ∈ pre ++ .tried lift a now stamp true :: m₁) ∨
      (∃ s t, .observed lift s t ∈ mid ∧ s ≠ a) ∨
      0 < ttl ∧ ∃ m₁ act t m₂, mid ++ [.tried lift b now' stamp' true] = m₁ ++ act :: m₂ ∧
        act.RunsAt lift t ∧ ttl < t - lastGranted lift a stamp m₁ := by
  have hstart : Represents ttl (id (LiftSystem.new liftNames scope ttl)).node.sessionManager lift
      View.free := represents_new ttl lift
  obtain ⟨ops, hlog, -⟩ := LiftSystem.contains_self.lock_log hstart events
  rw [htrace, List.filterMap_append,
    List.filterMap_cons_some (lockPair_tried lift a now stamp true), List.filterMap_append,
    List.filterMap_cons_some (lockPair_tried lift b now' stamp' true)] at hlog
  obtain ⟨s, hs⟩ := sessionId_of_granted hlog.symm
  obtain ⟨u, hu⟩ : ∃ u, sid b = some u := by
    rw [← List.cons_append, ← List.append_assoc] at hlog
    exact sessionId_of_granted hlog.symm
  obtain rfl : s.val = a := (name_eq_iff.mpr hs.symm)
  obtain rfl : u.val = b := (name_eq_iff.mpr hu.symm)
  rw [hs, hu] at hlog
  have hsu : s ≠ u := fun h => hne (congrArg Subtype.val h)
  rcases LeaseLock.exclusive hlog.symm hsu with ⟨op, r, hmem, hends⟩ | ⟨m, op, r, m', hsplit, hlate⟩
  · -- the operation that ended the hold comes from an action of the adapter
    obtain ⟨act, hact, hpair⟩ := List.mem_filterMap.mp hmem
    rcases ends_of_lockPair hpair hends with ⟨p, verdict, rfl, hlift, hsession⟩ | ⟨v, t, rfl, hv⟩
    · obtain ⟨m₁, m₂, rfl⟩ := List.append_of_mem hact
      have hsplit : LiftSystem.machine.trace (.new liftNames scope ttl) events =
          (pre ++ .tried lift s now stamp true :: m₁) ++ .released p verdict ::
            (m₂ ++ .tried lift u now' stamp' true :: post) := by
        rw [htrace]
        simp only [List.append_assoc, List.cons_append]
      have hposted := LiftSystem.contains_self.released_after_posted hsplit
      exact Or.inl ⟨m₁, p, verdict, m₂, rfl, hlift, hsession, hposted.2,
        hposted.1.resolve_left (List.not_mem_nil)⟩
    · exact Or.inr (Or.inl ⟨v, t, hact, hv⟩)
  · have hactions : (mid ++ [LiftAction.tried lift u now' stamp' true]).filterMap
        (LiftAction.lockPair lift) = m ++ (op, r) :: m' := by
      rw [List.filterMap_append, ← hsplit,
        List.filterMap_cons_some (lockPair_tried lift u now' stamp' true), hu]
      rfl
    obtain ⟨k, act, k', hk, rfl, hpair, -⟩ := Machine.exists_of_filterMap_eq_append hactions
    obtain ⟨httl, t, hruns, hage⟩ := late_of_lockPair hpair hlate
    refine Or.inr (Or.inr ⟨httl, k, act, t, k', hk, hruns, ?_⟩)
    rw [← lastStamp_lockPair]
    exact hage

theorem adapter_mutual_exclusion_witness :
    let p : LiftPost := ⟨"L1", ⟨"a", by decide⟩, .agvMode, ⟨"G", by decide⟩, .closed, "x", none⟩
    let mid : List LiftAction := [.posted p, .observed "L1" "" 1]
    (∃ (m₁ : List LiftAction) (p' : LiftPost) (verdict : Bool) (m₂ : List LiftAction),
        mid = m₁ ++ .released p' verdict :: m₂ ∧ p'.lift = "L1" ∧ p'.sessionId.val = "a" ∧
        (p'.requestType = .endSession ∨ p'.requestType = .humanMode) ∧
        .posted p' ∈ [] ++ LiftAction.tried "L1" "a" 0 0 true :: m₁) ∨
      (∃ s t, .observed "L1" s t ∈ mid ∧ s ≠ "a") ∨
      0 < (0 : ℚ) ∧ ∃ (m₁ : List LiftAction) (act : LiftAction) (t : ℚ) (m₂ : List LiftAction),
        mid ++ [.tried "L1" "b" 2 2 true] = m₁ ++ act :: m₂ ∧ act.RunsAt "L1" t ∧
        0 < t - lastGranted "L1" "a" 0 m₁ := by
  intro p mid
  exact adapter_mutual_exclusion ["L1"] none 0
    [.dispatch "L1" ⟨some "L1", some "a", .int 2, some "G", .bare (.int 0)⟩ none "x" 0 0,
      .frame "L1" (.minimal "L1" "") 1 true,
      .dispatch "L1" ⟨some "L1", some "b", .int 2, some "G", .bare (.int 0)⟩ none "y" 2 2]
    "L1" "a" "b" 0 0 2 2 [] mid
    [.posted { p with sessionId := ⟨"b", by decide⟩, executionId := "y" }] rfl (by decide)

end QuikSync.Lift

import QuikSyncAdapters.Lift.World
import QuikSyncAdapters.Library.LeaseNaming

/-! How long the adapter keeps others out of a lift that the server has granted to one of
its sessions: exactly until a frame that does not name the session arrives, which can only
be one that the server emitted before the grant. -/

namespace QuikSync.Lift

open Client Py LeaseLock LeaseLock.View LiftSessionManager

/-- Whether the hold of `s` on `lift` is lost after an action: a frame decides it, and an
acquire granted to `s` takes the hold back. -/
def LiftAction.loses (lift s : String) (lost : Bool) : LiftAction → Bool
  | .observed l u _ => if l = lift then decide (u ≠ s) else lost
  | .tried l u _ _ true => if l = lift ∧ u = s then false else lost
  | _ => lost

theorem sid_eq_some_iff {u : String} {s : SessionId} : sid u = some s ↔ u = s.val := by
  constructor
  · intro h
    exact (name_eq_iff.mpr h.symm).symm
  · rintro rfl
    exact sid_val s

theorem loses_acquire (s : SessionId) (lost : Bool) (u : String) (now stamp : ℚ) :
    loses s lost (.acquire (sid u) now stamp, .verdict true) = if u = s then false else lost := by
  cases hu : sid u with
  | none =>
    have hne : u ≠ s.val := fun h => s.2 (h ▸ sid_eq_none.mp hu)
    exact (if_neg hne).symm
  | some w =>
    obtain rfl : u = w.val := sid_eq_some_iff.mp hu
    simp only [loses, Subtype.ext_iff]

theorem loses_lockPair (lift : String) (s : SessionId) (lost : Bool) (act : LiftAction) :
    (act.lockPair lift).elim lost (loses s lost) = act.loses lift s lost := by
  apply elim_lockPair (g := fun lost act => act.loses lift s lost)
  · intro lost u now stamp granted
    cases granted with
    | false => cases hu : sid u <;> rfl
    | true =>
      have hacquire := loses_acquire s lost u now stamp
      simpa [LiftAction.loses] using hacquire
  · intro lost p verdict
    rfl
  · intro lost u now
    simp [loses, LiftAction.loses, sid_eq_some_iff]
  · intro lost act hnone
    cases act with
    | tried l u now stamp granted =>
      have hl : l ≠ lift := ne_of_lockPair_none (c := .tryAcquire l u now stamp) rfl hnone
      cases granted with
      | false => rfl
      | true => exact if_neg fun h => hl h.1
    | observed l u now =>
      have hl : l ≠ lift := ne_of_lockPair_none (c := .observeServerState l u now) rfl hnone
      exact if_neg hl
    | _ => rfl

namespace LiftWorld

theorem posted_step {w : LiftWorld} {e : WorldEvent} {p : LiftPost}
    (h : .posted p ∈ (machine.step w e).2) :
    p.lift ∈ w.system.node.handles.keys ∧ p.lift ≠ "" ∧
      ∃ now stamp, p.gate w.system.node.sessionManager now stamp =
        ((machine.step w e).1.system.node.sessionManager, true) := by
  cases e with
  | dispatch owner r executionId fresh now stamp =>
    have heffect := LiftSystem.dispatch_effect w.system owner r executionId fresh now stamp
    obtain ⟨now', stamp', hgate, -⟩ := heffect.of_posted h
    obtain ⟨hmanaged, hne⟩ := LiftSystem.managed_of_posted h
    exact ⟨hmanaged, hne, now', stamp', hgate⟩
  | response i outcome =>
    have hcause := (LiftSystem.response_effect w.system i outcome).cause_of_posted h
    cases hcause
  | process i =>
    simp only [machine, step] at h
    cases hp : w.network[i]? <;> rw [hp] at h <;> cases h
  | emit lift f =>
    simp only [machine, step] at h
    split_ifs at h <;> cases h
  | deliver lift now published =>
    simp only [machine, step] at h
    cases hf : (w.emitted lift)[w.delivered lift]? with
    | none =>
      rw [hf] at h
      cases h
    | some f =>
      rw [hf] at h
      have hcause := (LiftSystem.frame_effect w.system lift f now published).cause_of_posted h
      cases hcause

end LiftWorld

/-- A run in which a request of one session is forwarded, arrives at the server and is
followed by more events. -/
structure GrantHistory (liftNames : List String) (scope : Option String) (ttl : ℚ) where
  before : List WorldEvent
  dispatch : WorldEvent
  post : LiftPost
  between : List WorldEvent
  index : ℕ
  since : List WorldEvent

namespace GrantHistory

variable {liftNames : List String} {scope : Option String} {ttl : ℚ}
  (g : GrantHistory liftNames scope ttl)

def asked : LiftWorld := LiftWorld.machine.after (.new liftNames scope ttl) g.before

def sent : LiftWorld := (LiftWorld.machine.step g.asked g.dispatch).1

def arrived : LiftWorld := LiftWorld.machine.after g.sent g.between

def granted : LiftWorld := (LiftWorld.machine.step g.arrived (.process g.index)).1

def now : LiftWorld := LiftWorld.machine.after g.granted g.since

def actions : List LiftAction :=
  LiftWorld.machine.trace g.sent (g.between ++ .process g.index :: g.since)

/-- The server holds the lift for the session since it processed the request, and no release
by the session was awaiting its response when the request was forwarded or came after it. -/
structure Valid : Prop where
  posted : .posted g.post ∈ (LiftWorld.machine.step g.asked g.dispatch).2
  agvMode : g.post.requestType = .agvMode
  processed : g.arrived.network[g.index]? = some g.post
  held : LiftWorld.machine.Throughout (fun w => w.holder g.post.lift = g.post.sessionId) g.granted
    g.since
  kept : ∀ p, p ∈ g.sent.system.outstanding ∨ .posted p ∈ g.actions → p.lift = g.post.lift →
    p.sessionId = g.post.sessionId → p.requestType = .agvMode

/-- Whether the last frame since the latest acquire of the session does not name it. -/
def lost : Bool :=
  g.actions.foldl (LiftAction.loses g.post.lift g.post.sessionId) false

/-- Every AGV_MODE request of another session is rejected without a POST. -/
def RejectsOthers : Prop :=
  ∀ (h : LiftHandle) (r : LiftRequest) (executionId : Option String) (fresh : String)
    (now stamp : ℚ) (outcome : Except Exc Json) (b : String),
    g.now.system.node.handles.get g.post.lift = some h →
    Code.requestType? r.requestType = some .agvMode → r.sessionId = some b →
    b ≠ g.post.sessionId →
    (h.dispatchRequest g.now.system.node.sessionManager r executionId fresh now stamp outcome).posts
        = [] ∧
      (h.dispatchRequest g.now.system.node.sessionManager r executionId fresh now stamp
        outcome).result = .ok false

/-! ### The view of the manager along the run -/

theorem stale_never (httl : ttl ≤ 0) (now t : ℚ) : stale ttl now t = false :=
  decide_eq_false fun h => absurd h.1 (not_lt.mpr httl)

theorem gate_iff_open (httl : ttl ≤ 0) {m : LiftSessionManager} {v : View SessionId ℚ}
    {p : LiftPost} (hrep : Represents ttl m p.lift v) (hagv : p.requestType = .agvMode)
    (now stamp : ℚ) : (p.gate m now stamp).2 = true ↔ v.Open p.sessionId := by
  have hfresh : v.expire (stale ttl now) = v := expire_of_fresh fun c _ => stale_never httl now c.2
  rw [LiftPost.gate, if_pos hagv, (represents_tryAcquire hrep p.sessionId now stamp).2,
    acquire_granted_iff, hfresh]
  constructor
  · rintro ⟨s, hs, hopen⟩
    obtain rfl : p.sessionId = s := Option.some.inj ((sid_val p.sessionId).symm.trans hs)
    exact hopen
  · exact fun hopen => ⟨p.sessionId, sid_val p.sessionId, hopen⟩

variable {g}

theorem Valid.names_sent (h : g.Valid) :
    ∃ v, Represents ttl g.sent.system.node.sessionManager g.post.lift v ∧
      v.Names g.post.sessionId := by
  have hnew : Represents ttl (LiftWorld.new liftNames scope ttl).system.node.sessionManager
      g.post.lift View.free := represents_new ttl g.post.lift
  obtain ⟨ops, -, hasked⟩ := LiftWorld.contains.lock_log hnew g.before
  obtain ⟨-, -, now, stamp, hgate⟩ := LiftWorld.posted_step h.posted
  rw [LiftPost.gate, if_pos h.agvMode] at hgate
  obtain ⟨hsent, hverdict⟩ := represents_tryAcquire hasked g.post.sessionId now stamp
  have hm : g.sent.system.node.sessionManager =
      (g.asked.system.node.sessionManager.tryAcquire g.post.lift g.post.sessionId now stamp).1 :=
    (congrArg Prod.fst hgate).symm
  have hgranted := hverdict.symm.trans (congrArg Prod.snd hgate)
  obtain ⟨s, hs, hopen⟩ := acquire_granted_iff.mp hgranted
  obtain rfl : g.post.sessionId = s := Option.some.inj ((sid_val g.post.sessionId).symm.trans hs)
  refine ⟨_, hm ▸ hsent, Or.inl ?_⟩
  rw [hs, acquire_of_open hopen]
  rfl

theorem Valid.keeps (h : g.Valid) {op : Op SessionId ℚ} {r : Reply SessionId}
    (hmem : (op, r) ∈ g.actions.filterMap (LiftAction.lockPair g.post.lift)) :
    op.Keeps g.post.sessionId := by
  intro x hop
  subst hop
  by_contra hnot
  have hends : (Op.release x : Op SessionId ℚ).Ends g.post.sessionId := by
    by_cases hx : x = some g.post.sessionId
    · exact Or.inl hx
    · exact Or.inr (not_not.mp fun hnone => hnot ⟨hx, hnone⟩)
  obtain ⟨act, hact, hpair⟩ := List.mem_filterMap.mp hmem
  rcases ends_of_lockPair hpair hends with ⟨p, verdict, rfl, hlift, hsession⟩ | ⟨u, now, rfl, -⟩
  · obtain ⟨pre, post, hsplit⟩ := List.append_of_mem hact
    obtain ⟨hfrom, htype⟩ := LiftWorld.contains.released_after_posted hsplit
    have hin : p ∈ g.sent.system.outstanding ∨ LiftAction.posted p ∈ g.actions := by
      apply hfrom.imp_right
      intro hposted
      rw [hsplit]
      exact List.mem_append_left _ hposted
    have hagv : p.requestType = .agvMode := h.kept p hin hlift (Subtype.ext hsession)
    rcases htype with htype | htype <;> exact absurd (hagv.symm.trans htype) nofun
  · obtain ⟨-, heq⟩ := Option.ite_none_right_eq_some.mp hpair
    cases heq

theorem Valid.names_now (h : g.Valid) (httl : ttl ≤ 0) :
    ∃ v, Represents ttl g.now.system.node.sessionManager g.post.lift v ∧
      (v.Names g.post.sessionId ↔ g.lost = false) := by
  obtain ⟨v, hsent, hnames⟩ := h.names_sent
  obtain ⟨ops, hlog, hafter⟩ :=
    LiftWorld.contains.lock_log hsent (g.between ++ .process g.index :: g.since)
  have hkeeps : ∀ op ∈ ops, op.Keeps g.post.sessionId := by
    intro op hop
    rw [← (LeaseLock.machine (stale ttl)).log_map_fst v ops, ← hlog] at hop
    obtain ⟨⟨op, r⟩, hmem, rfl⟩ := List.mem_map.mp hop
    exact h.keeps hmem
  have hlost : ((LeaseLock.machine (stale ttl)).log v ops).foldl (loses g.post.sessionId) false =
      g.lost := by
    rw [← hlog]
    exact foldl_lockPair (loses_lockPair g.post.lift g.post.sessionId) false g.actions
  rw [Machine.after_append] at hafter
  refine ⟨_, hafter, ?_⟩
  rw [← hlost]
  exact names_after (stale_never httl) (iff_of_true hnames rfl) hkeeps

def agvRequest (lift s : String) : LiftRequest :=
  ⟨some lift, some s, .int 2, some "G", .bare (.int 0)⟩

def agvPost (h : LiftHandle) (s : SessionId) : LiftPost :=
  ⟨h.liftName, s, .agvMode, ⟨"G", by decide⟩, .closed, "", h.scope⟩

theorem agvRequest_screen {h : LiftHandle} (hname : h.liftName ≠ "") (s : SessionId) :
    h.screen (agvRequest h.liftName s) none "" = .request (agvPost h s) :=
  LiftHandle.screen_eq_request.mpr ⟨rfl, hname, rfl, rfl, rfl, rfl, rfl, rfl, rfl⟩

theorem Valid.managed (h : g.Valid) : g.post.lift ∈ g.now.system.node.handles.keys := by
  have hasked := (LiftWorld.posted_step h.posted).1
  rw [now, LiftWorld.keys_after, granted, LiftWorld.keys_step, arrived, LiftWorld.keys_after, sent,
    LiftWorld.keys_step]
  exact hasked

theorem Valid.rejectsOthers_iff_names (h : g.Valid) (httl : ttl ≤ 0) {v : View SessionId ℚ}
    (hrep : Represents ttl g.now.system.node.sessionManager g.post.lift v) :
    g.RejectsOthers ↔ v.Names g.post.sessionId := by
  constructor
  · intro hrejects
    by_contra hnot
    obtain ⟨s, hs, hopen⟩ : ∃ s, s ≠ g.post.sessionId ∧ v.Open s := by
      have hne : g.post.sessionId.val ++ "x" ≠ g.post.sessionId.val := by
        intro heq
        have hlen := congrArg String.length heq
        simp at hlen
      have hsome : g.post.sessionId.val ++ "x" ≠ "" := by simp
      exact View.exists_open_of_not_names (b := ⟨_, hsome⟩) hnot fun heq =>
        hne (congrArg Subtype.val heq)
    obtain ⟨hd, hget⟩ : ∃ hd, g.now.system.node.handles.get g.post.lift = some hd :=
      ⟨_, Registry.get_eq_some.mpr ⟨h.managed, rfl⟩⟩
    have hname : hd.liftName = g.post.lift := Registry.key_of_get hget
    have hlift : hd.liftName ≠ "" := hname ▸ (LiftWorld.posted_step h.posted).2.1
    -- the session that the view is open to gets its request through
    have hscreen := agvRequest_screen hlift s
    have hgate := (gate_iff_open httl (p := agvPost hd s) (hname ▸ hrep) rfl 0 0).mpr hopen
    obtain ⟨hposts, -⟩ := hrejects hd (agvRequest hd.liftName s) none "" 0 0 (.ok .null) s.val hget
      rfl rfl fun heq => hs (Subtype.ext heq)
    have hposted : (hd.dispatchRequest g.now.system.node.sessionManager
        (agvRequest hd.liftName s) none "" 0 0 (.ok .null)).posts = [agvPost hd s] :=
      LiftHandle.dispatchRequest_posts.mpr ⟨hscreen, hgate⟩
    exact absurd (hposts.symm.trans hposted) nofun
  · intro hnames hd r executionId fresh now stamp outcome b hget htype hsession hne
    have hname : hd.liftName = g.post.lift := Registry.key_of_get hget
    rcases LiftHandle.dispatchRequest_cases hd g.now.system.node.sessionManager r executionId fresh
      now stamp outcome with ⟨-, hposts, hresult⟩ | ⟨p, hscreen, hgate, -, -⟩
    · exact ⟨hposts, hresult⟩
    · obtain ⟨-, -, hs, -, hty, -, hlift, -, -⟩ := LiftHandle.screen_eq_request.mp hscreen
      have hb : p.sessionId.val = b := Option.some.inj (hs.symm.trans hsession)
      have hagv : p.requestType = .agvMode := Option.some.inj (hty.symm.trans htype)
      rw [hname] at hlift
      have hopen := (gate_iff_open httl (hlift ▸ hrep) hagv now stamp).mp hgate
      have hsame : g.post.sessionId = p.sessionId := hnames.open_iff.mp hopen
      exact absurd (hb.symm.trans (congrArg Subtype.val hsame.symm)) hne

/-! ### Which frames cost the hold -/

theorem tracks_asked (h : g.Valid) : LiftWorld.Tracks g.post.lift g.asked := by
  have hasked := (LiftWorld.posted_step h.posted).1
  rw [asked, LiftWorld.keys_after] at hasked
  exact LiftWorld.tracks_after (LiftWorld.tracks_new hasked) g.before

theorem Valid.tracks_now (h : g.Valid) : LiftWorld.Tracks g.post.lift g.now := by
  have hsent := LiftWorld.tracks_step (tracks_asked h) g.dispatch
  have harrived := LiftWorld.tracks_after hsent g.between
  exact LiftWorld.tracks_after (LiftWorld.tracks_step harrived (.process g.index)) g.since

theorem Valid.granted_emitted (h : g.Valid) : g.granted.emitted = g.arrived.emitted := by
  simp only [granted, LiftWorld.machine, LiftWorld.step, h.processed]

theorem Valid.view_of_delivered (h : g.Valid)
    (hlate : (g.arrived.emitted g.post.lift).length < g.now.delivered g.post.lift) :
    g.now.system.node.sessionManager.server g.post.lift = some g.post.sessionId.val := by
  have htracks := h.tracks_now
  obtain ⟨k, hk⟩ : ∃ k, g.now.delivered g.post.lift = k + 1 :=
    Nat.exists_eq_succ_of_ne_zero (by omega)
  have hbound : k < (g.now.emitted g.post.lift).length := by
    have hdelivered := htracks.bounded
    omega
  have hlast := List.getElem?_eq_getElem hbound
  have hnames : ((g.now.emitted g.post.lift)[k]).sessionId = g.post.sessionId.val := by
    refine LiftWorld.emitted_names_holder h.held ?_ hlast
    rw [h.granted_emitted]
    omega
  have htail : ((g.now.emitted g.post.lift).take (k + 1)).getLast? =
      some (g.now.emitted g.post.lift)[k] := by
    rw [List.take_add_one, hlast]
    exact List.getLast?_concat
  rw [htracks.view, hk, htail, ← hnames]
  rfl

/-- While the server holds the lift for a session whose request the adapter forwarded and
did not take back, the adapter rejects the others exactly until a frame not naming the
session arrives, up to the next acquire or frame that names it; and such a frame was
emitted before the server processed the request. -/
theorem rejects_others_iff (g : GrantHistory liftNames scope ttl) (h : g.Valid) (httl : ttl ≤ 0) :
    (g.RejectsOthers ↔ g.lost = false) ∧
      (g.lost = true →
        g.now.delivered g.post.lift ≤ (g.arrived.emitted g.post.lift).length) := by
  obtain ⟨v, hrep, hnames⟩ := h.names_now httl
  refine ⟨(h.rejectsOthers_iff_names httl hrep).trans hnames, fun hlost => ?_⟩
  by_contra hlate
  have hview := h.view_of_delivered (not_le.mp hlate)
  rw [hrep.server] at hview
  obtain ⟨x, hx, hxs⟩ := Option.map_eq_some_iff.mp hview
  have howner : v.owner = some g.post.sessionId := by
    rw [owner_eq_some, hx, name_eq_iff.mp hxs, sid_val]
  exact absurd (hlost.symm.trans (hnames.mp (Or.inr howner))) nofun

/-- A run in which the lift is free when a request of `a` is forwarded and granted, and the
frame that says so arrives after the grant. -/
def overtaken : GrantHistory ["L1"] none 0 where
  before := [.emit "L1" (.minimal "L1" "")]
  dispatch := .dispatch "L1" (agvRequest "L1" "a") none "" 0 0
  post := ⟨"L1", ⟨"a", by decide⟩, .agvMode, ⟨"G", by decide⟩, .closed, "", none⟩
  between := []
  index := 0
  since := [.deliver "L1" 1 true, .response 0 (.ok .null)]

theorem overtaken_valid : overtaken.Valid where
  posted := List.mem_cons_of_mem _ (List.mem_singleton_self _)
  agvMode := rfl
  processed := rfl
  held := ⟨rfl, rfl, rfl⟩
  kept p hp := by
    have hsent : overtaken.sent.system.outstanding = [overtaken.post] := rfl
    have hactions : overtaken.actions = [.observed "L1" "" 1] := rfl
    rw [hsent, hactions] at hp
    rcases hp with hout | hposted
    · rw [List.mem_singleton.mp hout]
      exact fun _ _ => rfl
    · exact absurd (List.mem_singleton.mp hposted) nofun

theorem rejects_others_iff_witness :
    (overtaken.RejectsOthers ↔ overtaken.lost = false) ∧
      (overtaken.lost = true →
        overtaken.now.delivered "L1" ≤ (overtaken.arrived.emitted "L1").length) :=
  rejects_others_iff overtaken overtaken_valid le_rfl

/-- A frame older than the grant costs the session its lock. -/
theorem overtaken_not_rejecting :
    ¬ ∀ (liftNames : List String) (scope : Option String) (ttl : ℚ)
        (g : GrantHistory liftNames scope ttl), g.Valid → ttl ≤ 0 → g.RejectsOthers := by
  intro hall
  have hrejects := hall ["L1"] none 0 overtaken overtaken_valid le_rfl
  obtain ⟨hposts, -⟩ := hrejects ⟨"L1", none, 1, 1, 0⟩ (agvRequest "L1" "b") none "" 2 2
    (.ok .null) "b" rfl rfl rfl (by decide)
  exact absurd hposts nofun

end GrantHistory

end QuikSync.Lift

import QuikSyncAdapters.Client.WsBackoff
import QuikSyncAdapters.Client.WsSurvival

/-! The frames that a subscription yields of the messages that its connection delivers. The
loop skips what it cannot use and goes on, but one class of decoding errors leaves it. -/

namespace QuikSync.Client

open Py

def WsEffect.frame? : WsEffect → Option Dict
  | .yield frame => some frame
  | _ => none

def Decoded.frame? : Decoded → Option Dict
  | .loaded (.obj frame) => some frame
  | _ => none

theorem Decoded.frame?_eq_some {decoded : Decoded} {frame : Dict} :
    decoded.frame? = some frame ↔ decoded = .loaded (.obj frame) := by
  unfold Decoded.frame?
  split
  · simp
  · rename_i hother
    exact iff_of_false (by simp) (hother frame)

def framesOf (k : ℕ) (log : SharedLog) : List Dict := (ownEffects k log).filterMap WsEffect.frame?

def untilClose : List SharedInput → List SharedInput
  | [] => []
  | .close :: _ => []
  | i :: is => i :: untilClose is

def SharedInput.messageTo (k : ℕ) : SharedInput → Option Decoded
  | .subscription j (.message decoded) => if j = k then some decoded else none
  | _ => none

/-- The messages delivered to subscription `k` before `close()`, decoded. -/
def delivered (k : ℕ) (is : List SharedInput) : List Decoded :=
  (untilClose is).filterMap (SharedInput.messageTo k)

theorem delivered_message (k : ℕ) (decoded : Decoded) (is : List SharedInput) :
    delivered k (.subscription k (.message decoded) :: is) = decoded :: delivered k is :=
  List.filterMap_cons_some (if_pos rfl)

theorem delivered_other {j k : ℕ} (hj : j ≠ k) (i : WsInput) (is : List SharedInput) :
    delivered k (.subscription j i :: is) = delivered k is := by
  have hother : SharedInput.messageTo k (.subscription j i) = none := by
    cases i with
    | message decoded => exact if_neg hj
    | _ => rfl
  exact List.filterMap_cons_none hother

/-- The open connection of subscription `k` delivers messages; the other subscriptions of the
client go on and `close()` may be called. -/
structure Delivering (q : WsShared) (k : ℕ) (is : List SharedInput) : Prop where
  isOpen : q.client.closed = false
  streaming : (q.subscriptions k).phase = .streaming
  messages : ∀ i, .subscription k i ∈ is → ∃ decoded, i = .message decoded

section Message

variable {c : QuikSyncWsClient} {s : Subscription}

theorem step_streaming (hphase : s.phase = .streaming) (decoded : Decoded) :
    s.step c (.message decoded) = s.receive c decoded := by
  unfold Subscription.step
  rw [hphase]

theorem receive_of_decoded (hopen : c.closed = false) {decoded : Decoded}
    (hdecoded : ∀ e, decoded ≠ .raised e) :
    s.receive c decoded = ⟨c, s, (decoded.frame?.map WsEffect.yield).toList⟩ := by
  unfold Subscription.receive
  rw [if_neg (by rw [hopen]; exact Bool.false_ne_true)]
  cases decoded with
  | loaded v =>
    cases v with
    | obj frame => rfl
    | _ => rfl
  | jsonDecodeError => rfl
  | raised e => exact absurd rfl (hdecoded e)

theorem receive_raised (hopen : c.closed = false) (e : Exc) :
    (s.receive c (.raised e)).subscription.phase = .raised (.client e) := by
  unfold Subscription.receive
  rw [if_neg (by rw [hopen]; exact Bool.false_ne_true)]

theorem message_of_closed (hclosed : c.closed = true) (decoded : Decoded) :
    (s.step c (.message decoded)).effects = [] := by
  cases hphase : s.phase with
  | streaming =>
    rw [step_streaming hphase]
    unfold Subscription.receive
    rw [if_pos hclosed]
  | _ =>
    unfold Subscription.step
    rw [hphase]

end Message

section Connection

variable {q : WsShared} {k : ℕ} {is : List SharedInput}

theorem framesOf_cons (e : SharedInput × List WsEffect) (log : SharedLog) :
    framesOf k (e :: log) = framesOf k [e] ++ framesOf k log := by
  simp only [framesOf, ownEffects, List.flatMap_cons, List.flatMap_nil, List.append_nil,
    List.filterMap_append]

theorem framesOf_of_closed (hclosed : q.client.closed = true)
    (hmessages : ∀ i, .subscription k i ∈ is → ∃ decoded, i = .message decoded) :
    framesOf k (sharedMachine.log q is) = [] := by
  -- a closed client stays closed, and drops each message before it looks at it
  induction is generalizing q with
  | nil => rfl
  | cons i is ih =>
    have hrest := fun i hi => hmessages i (List.mem_cons_of_mem _ hi)
    rw [Machine.log_cons, framesOf_cons]
    cases i with
    | close => exact ih rfl hrest
    | subscription j i =>
      have hnext : (sharedMachine.step q (.subscription j i)).1.client.closed = true :=
        (Subscription.step_closed ..).trans hclosed
      rw [ih hnext hrest, List.append_nil]
      by_cases hj : j = k
      · subst hj
        obtain ⟨decoded, rfl⟩ := hmessages i List.mem_cons_self
        have hsilent : (sharedMachine.step q (.subscription j (.message decoded))).2 = [] :=
          message_of_closed hclosed decoded
        rw [hsilent, framesOf, ownEffects_self]
        rfl
      · rw [framesOf, ownEffects_of_ne hj]
        rfl

theorem Delivering.message {decoded : Decoded}
    (h : Delivering q k (.subscription k (.message decoded) :: is))
    (hdecoded : ∀ e, decoded ≠ .raised e) :
    framesOf k [(.subscription k (.message decoded),
        (sharedMachine.step q (.subscription k (.message decoded))).2)] = decoded.frame?.toList ∧
      Delivering (sharedMachine.step q (.subscription k (.message decoded))).1 k is := by
  have hstep : (q.subscriptions k).step q.client (.message decoded) =
      ⟨q.client, q.subscriptions k, (decoded.frame?.map WsEffect.yield).toList⟩ := by
    rw [step_streaming h.streaming, receive_of_decoded h.isOpen hdecoded]
  have heffects : (sharedMachine.step q (.subscription k (.message decoded))).2 =
      (decoded.frame?.map WsEffect.yield).toList := congrArg WsStep.effects hstep
  refine ⟨?_, ?_, ?_, fun i hi => h.messages i (List.mem_cons_of_mem _ hi)⟩
  · rw [framesOf, ownEffects_self, heffects]
    cases decoded.frame? with
    | none => rfl
    | some frame => rfl
  · exact (Subscription.step_closed ..).trans h.isOpen
  · rw [sharedMachine_step, hstep]
    exact (congrArg Subscription.phase (Function.update_self ..)).trans h.streaming

theorem Delivering.other {j : ℕ} (hj : j ≠ k) {i : WsInput}
    (h : Delivering q k (.subscription j i :: is)) :
    framesOf k [(.subscription j i, (sharedMachine.step q (.subscription j i)).2)] = [] ∧
      Delivering (sharedMachine.step q (.subscription j i)).1 k is := by
  refine ⟨?_, ?_, ?_, fun i hi => h.messages i (List.mem_cons_of_mem _ hi)⟩
  · rw [framesOf, ownEffects_of_ne hj]
    rfl
  · exact (Subscription.step_closed ..).trans h.isOpen
  · rw [sharedMachine_step]
    exact (congrArg Subscription.phase (Function.update_of_ne hj.symm ..)).trans h.streaming

/-- Nothing that is delivered before `close()` makes `json.loads` raise anything but a
`JSONDecodeError`. -/
def Decodable (k : ℕ) (is : List SharedInput) : Prop :=
  ∀ pre e, pre ++ [.subscription k (.message (.raised e))] <+: is → .close ∈ pre

theorem Decodable.tail {j : ℕ} {i : WsInput} (h : Decodable k (.subscription j i :: is)) :
    Decodable k is := by
  intro pre e hpre
  have hmem := h (.subscription j i :: pre) e (List.cons_prefix_cons.mpr ⟨rfl, hpre⟩)
  exact (List.mem_cons.mp hmem).resolve_left (by intro heq; cases heq)

theorem Decodable.head {decoded : Decoded}
    (h : Decodable k (.subscription k (.message decoded) :: is)) (e : Exc) :
    decoded ≠ .raised e := by
  rintro rfl
  have hmem := h [] e (List.cons_prefix_cons.mpr ⟨rfl, List.nil_prefix⟩)
  exact List.not_mem_nil hmem

theorem framesOf_delivered (h : Delivering q k is) (hdecodable : Decodable k is) :
    framesOf k (sharedMachine.log q is) = (delivered k is).filterMap Decoded.frame? := by
  -- `Delivering` is the invariant: a message that does not raise keeps the stream open
  induction is generalizing q with
  | nil => rfl
  | cons i is ih =>
    rw [Machine.log_cons, framesOf_cons]
    cases i with
    | close =>
      exact framesOf_of_closed rfl fun i hi => h.messages i (List.mem_cons_of_mem _ hi)
    | subscription j i =>
      by_cases hj : j = k
      · subst hj
        obtain ⟨decoded, rfl⟩ := h.messages i List.mem_cons_self
        obtain ⟨hfirst, hnext⟩ := h.message hdecodable.head
        rw [hfirst, ih hnext hdecodable.tail, delivered_message]
        cases hframe : decoded.frame? with
        | none => rw [List.filterMap_cons_none hframe]; rfl
        | some frame => rw [List.filterMap_cons_some hframe]; rfl
      · obtain ⟨hfirst, hnext⟩ := h.other hj
        rw [hfirst, ih hnext hdecodable.tail, delivered_other hj]
        rfl

theorem streaming_of_decodable (h : Delivering q k is) (hdecodable : Decodable k is)
    {pre : List SharedInput} (hpre : pre <+: is) (hclose : .close ∉ pre) :
    ((sharedMachine.after q pre).subscriptions k).phase = .streaming := by
  -- from the end of the run: whether a message may raise depends on what came before it
  induction pre using List.reverseRecOn with
  | nil => exact h.streaming
  | append_singleton pre i ih =>
    have hbefore : .close ∉ pre := fun hmem => hclose (List.mem_append_left _ hmem)
    have hphase := ih ((List.prefix_append pre [i]).trans hpre) hbefore
    have hopen := after_open h.isOpen hbefore
    have hmem : i ∈ is := hpre.subset (List.mem_append_right _ List.mem_cons_self)
    cases i with
    | close => exact absurd (List.mem_append_right _ List.mem_cons_self) hclose
    | subscription j i =>
      by_cases hj : j = k
      · subst hj
        obtain ⟨decoded, rfl⟩ := h.messages i hmem
        have hraised : ∀ e, decoded ≠ .raised e := by
          rintro e rfl
          exact hbefore (hdecodable pre e hpre)
        rw [after_subscription, step_streaming hphase, receive_of_decoded hopen hraised]
        exact hphase
      · rw [after_other pre hj]
        exact hphase

end Connection

/-- Subscription `k` yields the frames among the messages delivered before `close()`, in order,
and streams on until then. -/
structure FiltersFrames (q : WsShared) (k : ℕ) (is : List SharedInput) : Prop where
  frames : framesOf k (sharedMachine.log q is) = (delivered k is).filterMap Decoded.frame?
  streams : ∀ pre, pre <+: is → .close ∉ pre →
    ((sharedMachine.after q pre).subscriptions k).phase = .streaming

/-- An open connection filters its messages exactly when none of them, up to `close()`, makes
`json.loads` raise anything but the error that is caught. -/
theorem filters_frames_iff (q : WsShared) (k : ℕ) (is : List SharedInput)
    (h : Delivering q k is) : FiltersFrames q k is ↔ Decodable k is := by
  constructor
  · intro hfilters pre e hpre
    -- an exception that is not caught would leave the subscription raised, not streaming
    by_contra hclose
    have hphase := hfilters.streams pre ((List.prefix_append _ _).trans hpre) hclose
    have hnext := hfilters.streams _ hpre (by simpa using hclose)
    have hopen := after_open h.isOpen hclose
    rw [after_subscription, step_streaming hphase, receive_raised hopen] at hnext
    cases hnext
  · intro hdecodable
    exact ⟨framesOf_delivered h hdecodable,
      fun pre hpre hclose => streaming_of_decodable h hdecodable hpre hclose⟩

def openFleet : WsShared :=
  ⟨.new ⟨"wss://host", 1, 30, 3, 60⟩,
    fun _ => ⟨QuikSyncWsClient.subscribeFleetState "f", none, 1, .streaming⟩⟩

theorem filters_frames_iff_witness :
    FiltersFrames openFleet 0 [.subscription 0 (.message .jsonDecodeError), .close] ↔
      Decodable 0 [.subscription 0 (.message .jsonDecodeError), .close] :=
  filters_frames_iff openFleet 0 [.subscription 0 (.message .jsonDecodeError), .close]
    ⟨rfl, rfl, by simp⟩

/-- A binary message that is no UTF-8 ends the subscription, and the frame after it is lost. -/
theorem undecodable_message_ends_stream :
    ¬ ∀ (q : WsShared) (k : ℕ) (is : List SharedInput), Delivering q k is →
      FiltersFrames q k is := by
  intro h
  have hframes := (h openFleet 0 [.subscription 0 (.message (.raised (.builtin .valueError))),
    .subscription 0 (.message (.loaded (.obj [])))] ⟨rfl, rfl, by simp⟩).frames
  exact absurd (congrArg List.length hframes) (by decide)

end QuikSync.Client

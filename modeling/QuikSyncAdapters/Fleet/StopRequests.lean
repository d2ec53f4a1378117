import QuikSyncAdapters.Fleet.PumpRunner

/-! Whether a request to stop the state pump is lost. `request_stop` decides from what the loop is
at the moment, so a request is lost when it comes too early in the startup, and only then. -/

namespace QuikSync.Fleet

open EventLoop

namespace PumpThreads

/-! ### Runs in which no request is lost -/

inductive Carries (ends : Callback → Prop) : RequestStage → Bool → List Callback → Prop
  | untouched {m : RequestStage} {l : List Callback} (hm : m.isOpen = true)
      (hl : ∀ k ∈ l, k = .other) : Carries ends m false l
  | asked {stopping : Bool} {l : List Callback} (h : Due ends stopping l) :
      Carries ends .returned stopping l

section Carrying

variable {ends ends' : Callback → Prop} {m m' : RequestStage} {stopping : Bool}
  {l l' : List Callback}

theorem Carries.mono (h : Carries ends m stopping l) (hends : ∀ k, ends k → ends' k) :
    Carries ends' m stopping l := by
  cases h with
  | untouched hm hl => exact Carries.untouched hm hl
  | asked h => exact Carries.asked (h.mono hends)

theorem Carries.append (h : Carries ends m stopping l)
    (hl' : m.isOpen = true → ∀ k ∈ l', k = .other) : Carries ends m stopping (l ++ l') := by
  cases h with
  | untouched hm hl =>
    have hboth : ∀ k ∈ l ++ l', k = .other := List.forall_mem_append.mpr ⟨hl, hl' hm⟩
    exact Carries.untouched hm hboth
  | asked h => exact Carries.asked (h.append l')

theorem Carries.run {k : Callback} (h : Carries ends m stopping (k :: l))
    (hends : ∀ k, ends k → k.stops = true) : Carries ends m (stopping || k.stops) l := by
  cases h with
  | untouched hm hl =>
    obtain ⟨rfl, hrest⟩ := List.forall_mem_cons.mp hl
    exact Carries.untouched hm hrest
  | asked h => exact Carries.asked (h.run (hends k))

theorem Carries.queues {k : Callback} (h : Carries ends m stopping (k :: l)) (n : ℕ) :
    m.isOpen = true → ∀ j ∈ k.queues n, j = .other := by
  intro hm
  cases h with
  | untouched _ hl =>
    rw [hl k List.mem_cons_self]
    exact Callback.queues_other n
  | asked => cases hm

theorem Carries.goOn (h : Carries ends m stopping l) (hm : m.isOpen = true)
    (hm' : m'.isOpen = true) : Carries ends m' stopping l := by
  cases h with
  | untouched _ hl => exact Carries.untouched hm' hl
  | asked => cases hm

theorem carries_of_stop (hends : ends .stop) (stopping : Bool) (l : List Callback) :
    Carries ends .returned stopping (l ++ [.stop]) :=
  Carries.asked (due_of_mem (List.mem_append_right _ (List.mem_singleton_self _)) hends)

theorem Carries.stopping_eq (h : Carries ends m true l) : m = .returned := by
  cases h with
  | asked => rfl

theorem Carries.due (h : Carries ends .returned stopping l) : Due ends stopping l := by
  generalize hm : RequestStage.returned = m at h
  cases h with
  | untouched hopen => rw [← hm] at hopen; cases hopen
  | asked h => exact h

theorem Carries.eq_of_isOpen (h : Carries ends m stopping l) (hm : m.isOpen = true) :
    stopping = false ∧ ∀ k ∈ l, k = .other := by
  cases h with
  | untouched _ hl => exact ⟨rfl, hl⟩
  | asked => cases hm

theorem Carries.isOpen_of_nil (h : Carries ends m false []) : m.isOpen = true := by
  cases h with
  | untouched hm => exact hm
  | asked h => cases due_nil_iff.mp h

end Carrying

/-- The states of the runs in which the request has been timely so far. -/
inductive Kept : PumpThreads → Prop
  | unpublished {s : RunnerStage} (hs : s = .new ∨ s = .created) :
      Kept ⟨s, false, .new, false, .idle⟩
  | published {s : RunnerStage} {m : RequestStage} (hs : s = .published ∨ s = .built)
      (hm : m = .idle ∨ m = .loaded) : Kept ⟨s, true, .new, false, m⟩
  | queued {m : RequestStage} (hm : m = .idle ∨ m = .loaded) :
      Kept ⟨.queued, true, ⟨none, [.start], false, false, false⟩, false, m⟩
  -- the first round has not begun, and a stop would be run in it
  | waiting {m : RequestStage} {l : List Callback}
      (h : Carries RunnerStage.starting.Ends m false l) :
      Kept ⟨.starting, true, ⟨none, .start :: l, false, true, false⟩, false, m⟩
  | first {m : RequestStage} {l : List Callback}
      (h : Carries RunnerStage.starting.Ends m false l) :
      Kept ⟨.starting, true, ⟨some (.start :: l), [], false, true, false⟩, false, m⟩
  -- `start()` has run in the first round and `finish` waits for the second
  | ending {m : RequestStage} {stopping : Bool} {l l' : List Callback}
      (h : Carries RunnerStage.starting.Ends m stopping l) (hfinish : .finish ∈ l')
      (hl' : m.isOpen = true → ∀ k ∈ l', k ≠ .start) :
      Kept ⟨.starting, true, ⟨some l, l', stopping, true, false⟩, true, m⟩
  -- between the first round and the second
  | pausing {m : RequestStage} {l : List Callback} (hm : m.isOpen = true) (hfinish : .finish ∈ l)
      (hl : ∀ k ∈ l, k ≠ .start) :
      Kept ⟨.starting, true, ⟨none, l, false, true, false⟩, true, m⟩
  -- the second round, in which `finish` is run; a stop waits behind it
  | finishing {m : RequestStage} {stopping : Bool} {l l' : List Callback}
      (hfinish : Due (· = .finish) stopping l) (hl : m.isOpen = true → ∀ k ∈ l, k ≠ .start)
      (h : Carries RunnerStage.starting.Ends m false l') :
      Kept ⟨.starting, true, ⟨some l, l', stopping, true, false⟩, true, m⟩
  | between {m : RequestStage} {l : List Callback}
      (h : Carries RunnerStage.between.Ends m false l) :
      Kept ⟨.between, true, ⟨none, l, false, false, false⟩, true, m⟩
  | forever {m : RequestStage} {round : Option (List Callback)} {later : List Callback}
      {stopping : Bool} (h : Carries RunnerStage.forever.Ends m stopping
        (ready ⟨round, later, stopping, true, false⟩)) :
      Kept ⟨.forever, true, ⟨round, later, stopping, true, false⟩, true, m⟩
  | past {q : PumpThreads} (hpublished : q.published = true) (h : q.stage.ahead = false) : Kept q

theorem kept_initial : Kept initial := Kept.unpublished (Or.inl rfl)

theorem kept_past {q : PumpThreads} (hpublished : q.published = true)
    (h : q.stage.ahead = false) (n : ℕ) : Kept (q.run n) := by
  obtain ⟨stage, published, loop, started, main⟩ := q
  cases stage with
  | finalising =>
    show Kept (if loop.closed then _ else _)
    split_ifs with hclosed
    · exact Kept.past hpublished rfl
    · exact Kept.past hpublished rfl
  | closing => exact Kept.past hpublished rfl
  | left => exact Kept.past hpublished rfl
  | closed => exact Kept.past hpublished rfl
  | _ => cases h

theorem kept_run {q : PumpThreads} (h : Kept q) (n : ℕ) : Kept (q.run n) := by
  cases h with
  | unpublished hs =>
    obtain rfl | rfl := hs
    · exact Kept.unpublished (Or.inr rfl)
    · exact Kept.published (Or.inl rfl) (Or.inl rfl)
  | published hs hm =>
    obtain rfl | rfl := hs
    · exact Kept.published (Or.inr rfl) hm
    · exact Kept.queued hm
  | @queued m hm =>
    have hopen : m.isOpen = true := by
      obtain rfl | rfl := hm
      · rfl
      · rfl
    exact Kept.waiting (Carries.untouched hopen (List.forall_mem_nil _))
  | waiting h =>
    have hround := h.append (fun _ => Callback.queues_other n)
    exact Kept.first hround
  | first h =>
    have hstarted : ∀ k ∈ [Callback.other, Callback.finish], k ≠ .start := by decide
    exact Kept.ending h (List.mem_cons_of_mem _ (List.mem_singleton_self _)) fun _ => hstarted
  | @ending m stopping l l' h hfinish hl' =>
    cases l with
    | nil =>
      cases stopping with
      | false => exact Kept.pausing h.isOpen_of_nil hfinish (hl' h.isOpen_of_nil)
      | true =>
        -- the callback that would have ended this run is left over for the next one
        have hover : Due RunnerStage.between.Ends false l' :=
          due_of_mem hfinish (Or.inr ⟨rfl, by decide⟩)
        rw [h.stopping_eq]
        exact Kept.between (Carries.asked hover)
    | cons k rest =>
      have hrest := h.run (fun _ => RunnerStage.Ends.stops)
      rw [run_starting_cons]
      apply Kept.ending hrest (List.mem_append_left _ hfinish)
      intro hm
      exact forall_ne_start_append (hl' hm) (h.queues n hm)
  | @pausing m l hm hfinish hl =>
    have hround : ∀ k ∈ l ++ others n, k ≠ .start :=
      forall_ne_start_append hl (Callback.queues_other n)
    exact Kept.finishing (due_of_mem (List.mem_append_left _ hfinish) rfl) (fun _ => hround)
      (Carries.untouched hm (List.forall_mem_nil _))
  | @finishing m stopping l l' hfinish hl h =>
    cases l with
    | nil =>
      rw [due_nil_iff.mp hfinish]
      exact Kept.between (h.mono fun _ hk => hk.mono (by decide))
    | cons k rest =>
      show Kept (execute _ _ n k)
      rw [execute_eq]
      have hstops : k = .finish → k.stops = true := by
        rintro rfl
        rfl
      have hdue := hfinish.run hstops
      apply Kept.finishing hdue
      · intro hm
        exact fun j hj => hl hm j (List.mem_cons_of_mem _ hj)
      · apply h.append
        intro hm
        exact k.queues_of_ne_start (hl hm k List.mem_cons_self) n
  | between h => exact Kept.forever (h.mono fun _ hk => hk.mono (by decide))
  | @forever m round later stopping h =>
    cases round with
    | none =>
      have hqueued := h.append (fun _ => Callback.queues_other n)
      rw [← ready_beginRound rfl] at hqueued
      exact Kept.forever hqueued
    | some round =>
      cases round with
      | cons k rest =>
        rw [ready_eq_cons rfl] at h
        have hrest := h.run (fun _ => RunnerStage.Ends.stops)
        have hqueued := hrest.append (h.queues n)
        rw [ready, List.append_assoc] at hqueued
        show Kept (execute _ _ n k)
        rw [execute_eq]
        exact Kept.forever hqueued
      | nil =>
        cases stopping with
        | true => exact Kept.past rfl rfl
        | false =>
          rw [← ready_again rfl] at h
          exact Kept.forever h
  | past hpublished h => exact kept_past hpublished h n

theorem requestStop_stage (q : PumpThreads) :
    q.requestStop.stage = q.stage ∧ q.requestStop.published = q.published := by
  obtain ⟨stage, published, loop, started, main⟩ := q
  cases main with
  | checked =>
    show (if loop.closed then _ else _ : PumpThreads).stage = stage ∧
      (if loop.closed then _ else _ : PumpThreads).published = published
    split_ifs
    · exact ⟨rfl, rfl⟩
    · exact ⟨rfl, rfl⟩
  | _ => exact ⟨rfl, rfl⟩

theorem requestStop_cases {q : PumpThreads} (hpublished : q.published = true)
    (hclosed : q.loop.closed = false) (hahead : q.stage.ahead = true) (ha : q.Timely .main) :
    q.requestStop = q ∨
      (q.main.isOpen = true ∧ ∃ m, m.isOpen = true ∧ q.requestStop = { q with main := m }) ∨
      (¬ q.FirstRound ∧
        q.requestStop = { q with main := .returned, loop := q.loop.callSoon [.stop] }) := by
  obtain ⟨stage, published, loop, started, main⟩ := q
  cases main with
  | idle =>
    refine Or.inr (Or.inl ⟨rfl, .loaded, rfl, ?_⟩)
    show (⟨stage, published, loop, started, if published then _ else _⟩ : PumpThreads) = _
    rw [if_pos hpublished]
  | loaded =>
    have hrunning : loop.running = true := ha hahead
    refine Or.inr (Or.inl ⟨rfl, .checked, rfl, ?_⟩)
    show (⟨stage, published, loop, started, if loop.running then _ else _⟩ : PumpThreads) = _
    rw [if_pos hrunning]
  | checked =>
    refine Or.inr (Or.inr ⟨ha, ?_⟩)
    show (if loop.closed then _ else _ : PumpThreads) = _
    rw [if_neg (ne_true_of_eq_false hclosed)]
  | returned => exact Or.inl rfl
  | raised => exact Or.inl rfl

theorem kept_of_cases {q : PumpThreads} (hpublished : q.published = true)
    (hclosed : q.loop.closed = false) (hahead : q.stage.ahead = true) (ha : q.Timely .main)
    (h : Kept q)
    (hopen : q.main.isOpen = true → ∀ m : RequestStage, m.isOpen = true →
      Kept { q with main := m })
    (hasked : ¬ q.FirstRound →
      Kept { q with main := .returned, loop := q.loop.callSoon [.stop] }) :
    Kept q.requestStop := by
  obtain heq | ⟨hm, m, hm', heq⟩ | ⟨hfirst, heq⟩ :=
    requestStop_cases hpublished hclosed hahead ha
  · rw [heq]
    exact h
  · rw [heq]
    exact hopen hm m hm'
  · rw [heq]
    exact hasked hfirst

theorem kept_requestStop {q : PumpThreads} (h : Kept q) (ha : q.Timely .main) :
    Kept q.requestStop := by
  cases h with
  | unpublished hs => cases ha
  | @published s m hs hm =>
    obtain rfl | rfl := hm
    · exact Kept.published hs (Or.inr rfl)
    · obtain rfl | rfl := hs
      · cases ha rfl
      · cases ha rfl
  | queued hm =>
    obtain rfl | rfl := hm
    · exact Kept.queued (Or.inr rfl)
    · cases ha rfl
  | waiting h =>
    apply kept_of_cases rfl rfl rfl ha (Kept.waiting h)
    · exact fun hm _ hm' => Kept.waiting (h.goOn hm hm')
    · exact fun _ => Kept.waiting (carries_of_stop (RunnerStage.ends_stop _) _ _)
  | first h =>
    apply kept_of_cases rfl rfl rfl ha (Kept.first h)
    · exact fun hm _ hm' => Kept.first (h.goOn hm hm')
    · exact fun hfirst => absurd ⟨rfl, Or.inl List.mem_cons_self⟩ hfirst
  | ending h hfinish hl' =>
    apply kept_of_cases rfl rfl rfl ha (Kept.ending h hfinish hl')
    · exact fun hm _ hm' => Kept.ending (h.goOn hm hm') hfinish fun _ => hl' hm
    · exact fun hfirst => absurd ⟨rfl, Or.inr hfinish⟩ hfirst
  | pausing hm hfinish hl =>
    apply kept_of_cases rfl rfl rfl ha (Kept.pausing hm hfinish hl)
    · exact fun _ _ hm' => Kept.pausing hm' hfinish hl
    · exact fun hfirst => absurd ⟨rfl, Or.inr hfinish⟩ hfirst
  | finishing hfinish hl h =>
    apply kept_of_cases rfl rfl rfl ha (Kept.finishing hfinish hl h)
    · exact fun hm _ hm' => Kept.finishing hfinish (fun _ => hl hm) (h.goOn hm hm')
    · intro _
      apply Kept.finishing hfinish
      · intro hopen
        cases hopen
      · exact carries_of_stop (RunnerStage.ends_stop _) _ _
  | between h =>
    apply kept_of_cases rfl rfl rfl ha (Kept.between h)
    · exact fun hm _ hm' => Kept.between (h.goOn hm hm')
    · exact fun _ => Kept.between (carries_of_stop (RunnerStage.ends_stop _) _ _)
  | @forever m round later stopping h =>
    have hready : Carries RunnerStage.forever.Ends .returned stopping
        (callSoon ⟨round, later, stopping, true, false⟩ [.stop]).ready := by
      rw [ready_callSoon]
      exact carries_of_stop (RunnerStage.ends_stop _) _ _
    apply kept_of_cases rfl rfl rfl ha (Kept.forever h)
    · exact fun hm _ hm' => Kept.forever (h.goOn hm hm')
    · exact fun _ => Kept.forever hready
  | past hpublished h =>
    obtain ⟨hstage, hsame⟩ := requestStop_stage q
    exact Kept.past (hsame.trans hpublished) (hstage.symm ▸ h)

theorem kept_step (q : PumpThreads) (a : ThreadStep) (ha : q.Timely a) (h : Kept q) :
    Kept (q.step a) := by
  cases a with
  | runner n => exact kept_run h n
  | main => exact kept_requestStop h ha

theorem Kept.not_lost {q : PumpThreads} (h : Kept q) : ¬ q.Lost := by
  rintro ⟨hmain, hahead, hdue⟩
  cases h with
  | unpublished => cases hmain
  | published _ hm =>
    obtain rfl | rfl := hm
    · cases hmain
    · cases hmain
  | queued hm =>
    obtain rfl | rfl := hm
    · cases hmain
    · cases hmain
  | waiting h =>
    subst hmain
    exact hdue (h.due.behind false [.start])
  | first h =>
    subst hmain
    exact hdue ((h.due.behind false [.start]).append [])
  | ending h =>
    subst hmain
    exact hdue (h.due.append _)
  | pausing hm =>
    subst hmain
    cases hm
  | finishing _ _ h =>
    subst hmain
    exact hdue (h.due.behind _ _)
  | between h =>
    subst hmain
    exact hdue h.due
  | forever h =>
    subst hmain
    exact hdue h.due
  | past _ h => exact Bool.false_ne_true (h.symm.trans hahead)

/-! ### Requests that are too early -/

/-- The states from which the runner enters `run_forever` without the stop that was scheduled:
`run_until_complete(start())` is going to consume it with the callback that ends it. -/
inductive Doomed : PumpThreads → Prop
  | first {l l' : List Callback} (hl : ∀ k ∈ l, k = .other) (hl' : ∀ k ∈ l', k ≠ .start) :
      Doomed ⟨.starting, true, ⟨some (.start :: l), l', false, true, false⟩, false, .returned⟩
  | ending {l l' : List Callback} (hl : ∀ k ∈ l, k = .other) (hfinish : .finish ∈ l')
      (hl' : ∀ k ∈ l', k ≠ .start) :
      Doomed ⟨.starting, true, ⟨some l, l', false, true, false⟩, true, .returned⟩
  | pausing {l : List Callback} (hfinish : .finish ∈ l) (hl : ∀ k ∈ l, k ≠ .start) :
      Doomed ⟨.starting, true, ⟨none, l, false, true, false⟩, true, .returned⟩
  | finishing {stopping : Bool} {l l' : List Callback} (hfinish : Due (· = .finish) stopping l)
      (hl : ∀ k ∈ l, k ≠ .start) (hl' : ∀ k ∈ l', k = .other) :
      Doomed ⟨.starting, true, ⟨some l, l', stopping, true, false⟩, true, .returned⟩

theorem not_due_of_forall {s : RunnerStage} {l : List Callback} (hl : ∀ k ∈ l, k.stops = false) :
    ¬ Due s.Ends false l := by
  rintro (hfalse | ⟨k, hk, hends⟩)
  · cases hfalse
  · exact Bool.false_ne_true ((hl k hk).symm.trans hends.stops)

theorem lost_between {l : List Callback} (hl : ∀ k ∈ l, k = .other) :
    Lost ⟨.between, true, ⟨none, l, false, false, false⟩, true, .returned⟩ :=
  ⟨rfl, rfl, not_due_of_forall fun k hk => hl k hk ▸ rfl⟩

/-- The states in which `request_stop` has returned and nothing will ever stop the runner in
`run_forever`. -/
inductive Stranded : PumpThreads → Prop
  | unpublished {s : RunnerStage} (hs : s = .new ∨ s = .created) :
      Stranded ⟨s, false, .new, false, .returned⟩
  | published {s : RunnerStage} (hs : s = .published ∨ s = .built) :
      Stranded ⟨s, true, .new, false, .returned⟩
  | queued : Stranded ⟨.queued, true, ⟨none, [.start], false, false, false⟩, false, .returned⟩
  | waiting : Stranded ⟨.starting, true, ⟨none, [.start], false, true, false⟩, false, .returned⟩
  | between {l : List Callback} (hl : ∀ k ∈ l, k = .other) :
      Stranded ⟨.between, true, ⟨none, l, false, false, false⟩, true, .returned⟩
  | forever {round : Option (List Callback)} {later : List Callback}
      (hl : ∀ k ∈ ready ⟨round, later, false, true, false⟩, k = .other) :
      Stranded ⟨.forever, true, ⟨round, later, false, true, false⟩, true, .returned⟩

theorem Stranded.ahead {q : PumpThreads} (h : Stranded q) : q.stage.ahead = true := by
  cases h with
  | unpublished hs =>
    obtain rfl | rfl := hs
    · rfl
    · rfl
  | published hs =>
    obtain rfl | rfl := hs
    · rfl
    · rfl
  | _ => rfl

theorem Stranded.lost {q : PumpThreads} (h : Stranded q) : q.Lost := by
  have hstart : ∀ k ∈ [Callback.start], k.stops = false := by decide
  have hahead := h.ahead
  cases h with
  | unpublished => exact ⟨rfl, hahead, not_due_of_forall (List.forall_mem_nil _)⟩
  | published => exact ⟨rfl, hahead, not_due_of_forall (List.forall_mem_nil _)⟩
  | queued => exact ⟨rfl, rfl, not_due_of_forall hstart⟩
  | waiting => exact ⟨rfl, rfl, not_due_of_forall hstart⟩
  | between hl => exact lost_between hl
  | forever hl => exact ⟨rfl, rfl, not_due_of_forall fun k hk => hl k hk ▸ rfl⟩

theorem stranded_of_doomed {q : PumpThreads} (h : Doomed q) (n : ℕ) :
    Doomed (q.run n) ∨ Stranded (q.run n) := by
  cases h with
  | @first l l' hl hl' =>
    have hfinish : Callback.finish ∈ l' ++ [.other, .finish] :=
      List.mem_append_right _ (List.mem_cons_of_mem _ (List.mem_singleton_self _))
    have hqueued : ∀ k ∈ l' ++ [.other, .finish], k ≠ .start :=
      List.forall_mem_append.mpr ⟨hl', by decide⟩
    exact Or.inl (Doomed.ending hl hfinish hqueued)
  | @ending l l' hl hfinish hl' =>
    cases l with
    | nil => exact Or.inl (Doomed.pausing hfinish hl')
    | cons k rest =>
      obtain ⟨rfl, hrest⟩ := List.forall_mem_cons.mp hl
      rw [run_starting_cons]
      apply Or.inl
      apply Doomed.ending hrest (List.mem_append_left _ hfinish)
      exact forall_ne_start_append hl' (Callback.queues_other n)
  | pausing hfinish hl =>
    apply Or.inl
    apply Doomed.finishing (due_of_mem (List.mem_append_left _ hfinish) rfl)
    · exact forall_ne_start_append hl (Callback.queues_other n)
    · exact List.forall_mem_nil _
  | @finishing stopping l l' hfinish hl hl' =>
    cases l with
    | nil =>
      rw [due_nil_iff.mp hfinish]
      exact Or.inr (Stranded.between hl')
    | cons k rest =>
      obtain ⟨hk, hrest⟩ := List.forall_mem_cons.mp hl
      rw [run_starting_cons]
      apply Or.inl
      apply Doomed.finishing (hfinish.run (stops_of_eq_finish k)) hrest
      exact List.forall_mem_append.mpr ⟨hl', k.queues_of_ne_start hk n⟩

theorem doomed_run {q : PumpThreads} (h : Doomed q) (n : ℕ) :
    Doomed (q.run n) ∨ (q.run n).Lost :=
  (stranded_of_doomed h n).imp_right Stranded.lost

theorem doomed_step (q : PumpThreads) (a : ThreadStep) (h : Doomed q) :
    Doomed (q.step a) ∨ ¬ ¬ (q.step a).Lost := by
  cases a with
  | runner n => exact (doomed_run h n).imp_right not_not_intro
  | main =>
    apply Or.inl
    cases h with
    | first hl hl' => exact Doomed.first hl hl'
    | ending hl hfinish hl' => exact Doomed.ending hl hfinish hl'
    | pausing hfinish hl => exact Doomed.pausing hfinish hl
    | finishing hfinish hl hl' => exact Doomed.finishing hfinish hl hl'

/-- The runner alone can bring the threads to a lost request. -/
def Fated (q : PumpThreads) : Prop := ∃ ns : List ℕ, (machine.after q (ns.map .runner)).Lost

theorem fated_of_run {q : PumpThreads} (n : ℕ) (h : Fated (q.run n)) : Fated q := by
  obtain ⟨ns, hns⟩ := h
  exact ⟨n :: ns, hns⟩

theorem fated_finishing {stopping : Bool} {l l' : List Callback}
    (hfinish : Due (· = .finish) stopping l) (hl : ∀ k ∈ l, k ≠ .start)
    (hl' : ∀ k ∈ l', k = .other) :
    Fated ⟨.starting, true, ⟨some l, l', stopping, true, false⟩, true, .returned⟩ := by
  induction l generalizing stopping l' with
  | nil =>
    rw [due_nil_iff.mp hfinish]
    exact ⟨[0], lost_between hl'⟩
  | cons k rest ih =>
    obtain ⟨hk, hrest⟩ := List.forall_mem_cons.mp hl
    have hqueued := List.forall_mem_append.mpr ⟨hl', k.queues_of_ne_start hk 0⟩
    have hnext := ih (hfinish.run (stops_of_eq_finish k)) hrest hqueued
    apply fated_of_run 0
    rw [run_starting_cons]
    exact hnext

theorem fated_pausing {l : List Callback} (hfinish : .finish ∈ l) (hl : ∀ k ∈ l, k ≠ .start) :
    Fated ⟨.starting, true, ⟨none, l, false, true, false⟩, true, .returned⟩ := by
  apply fated_of_run 0
  apply fated_finishing (due_of_mem (List.mem_append_left _ hfinish) rfl)
  · exact forall_ne_start_append hl (Callback.queues_other 0)
  · exact List.forall_mem_nil _

theorem fated_ending {l l' : List Callback} (hl : ∀ k ∈ l, k = .other) (hfinish : .finish ∈ l')
    (hl' : ∀ k ∈ l', k ≠ .start) :
    Fated ⟨.starting, true, ⟨some l, l', false, true, false⟩, true, .returned⟩ := by
  induction l generalizing l' with
  | nil => exact fated_of_run 0 (fated_pausing hfinish hl')
  | cons k rest ih =>
    obtain ⟨rfl, hrest⟩ := List.forall_mem_cons.mp hl
    have hqueued := forall_ne_start_append hl' (Callback.queues_other 0)
    exact fated_of_run 0 (ih hrest (List.mem_append_left _ hfinish) hqueued)

theorem Doomed.fated {q : PumpThreads} (h : Doomed q) : Fated q := by
  cases h with
  | @first l l' hl hl' =>
    have hfinish : Callback.finish ∈ l' ++ [.other, .finish] :=
      List.mem_append_right _ (List.mem_cons_of_mem _ (List.mem_singleton_self _))
    have hqueued : ∀ k ∈ l' ++ [.other, .finish], k ≠ .start :=
      List.forall_mem_append.mpr ⟨hl', by decide⟩
    exact fated_of_run 0 (fated_ending hl hfinish hqueued)
  | ending hl hfinish hl' => exact fated_ending hl hfinish hl'
  | pausing hfinish hl => exact fated_pausing hfinish hl
  | finishing hfinish hl hl' => exact fated_finishing hfinish hl hl'

theorem not_timely_cases {q : PumpThreads} (hpublished : q.published = true)
    (ha : ¬ q.Timely .main) :
    (q.main = .loaded ∧ q.stage.ahead = true ∧ q.loop.running = false) ∨
      (q.main = .checked ∧ q.FirstRound) := by
  obtain ⟨stage, published, loop, started, main⟩ := q
  cases main with
  | idle => exact absurd hpublished ha
  | loaded =>
    obtain ⟨hahead, hrunning⟩ := Classical.not_imp.mp ha
    exact Or.inl ⟨rfl, hahead, eq_false_of_ne_true hrunning⟩
  | checked => exact Or.inr ⟨rfl, not_not.mp ha⟩
  | returned => exact absurd trivial ha
  | raised => exact absurd trivial ha

theorem not_timely_of_running {q : PumpThreads} (hpublished : q.published = true)
    (hrunning : q.loop.running = true) (ha : ¬ q.Timely .main) :
    q.main = .checked ∧ q.FirstRound := by
  obtain ⟨-, -, hstill⟩ | hchecked := not_timely_cases hpublished ha
  · exact absurd hrunning (ne_true_of_eq_false hstill)
  · exact hchecked

theorem not_timely_elsewhere {q : PumpThreads} (hpublished : q.published = true)
    (hstage : q.stage ≠ .starting) (ha : ¬ q.Timely .main) :
    q.main = .loaded ∧ q.stage.ahead = true := by
  obtain ⟨hloaded, hahead, -⟩ | ⟨-, hstarting, -⟩ := not_timely_cases hpublished ha
  · exact ⟨hloaded, hahead⟩
  · exact absurd hstarting hstage

theorem stranded_of_not_timely {q : PumpThreads} (h : Kept q) (ha : ¬ q.Timely .main) :
    Doomed q.requestStop ∨ Stranded q.requestStop := by
  have hasked : ∀ k ∈ [Callback.stop], k ≠ .start := by decide
  cases h with
  | unpublished hs => exact Or.inr (Stranded.unpublished hs)
  | @published s m hs =>
    have hstage : s ≠ .starting := by
      obtain rfl | rfl := hs
      · decide
      · decide
    obtain ⟨hloaded, -⟩ := not_timely_elsewhere rfl hstage ha
    subst hloaded
    exact Or.inr (Stranded.published hs)
  | queued =>
    have hstage : RunnerStage.queued ≠ .starting := by decide
    obtain ⟨hloaded, -⟩ := not_timely_elsewhere rfl hstage ha
    subst hloaded
    exact Or.inr Stranded.queued
  | @waiting m l h =>
    obtain ⟨hchecked, -, hfirst⟩ := not_timely_of_running rfl rfl ha
    subst hchecked
    have hqueue : Callback.finish ∈ l := by
      obtain hnone | hfinish := hfirst
      · cases hnone
      · exact List.mem_of_ne_of_mem (by decide) hfinish
    cases (h.eq_of_isOpen rfl).2 _ hqueue
  | first h =>
    obtain ⟨hchecked, -⟩ := not_timely_of_running rfl rfl ha
    subst hchecked
    exact Or.inl (Doomed.first (h.eq_of_isOpen rfl).2 hasked)
  | ending h hfinish hl' =>
    obtain ⟨hchecked, -⟩ := not_timely_of_running rfl rfl ha
    subst hchecked
    obtain ⟨rfl, hl⟩ := h.eq_of_isOpen rfl
    have hqueue := List.forall_mem_append.mpr ⟨hl' rfl, hasked⟩
    exact Or.inl (Doomed.ending hl (List.mem_append_left _ hfinish) hqueue)
  | pausing _ hfinish hl =>
    obtain ⟨hchecked, -⟩ := not_timely_of_running rfl rfl ha
    subst hchecked
    have hqueue := List.forall_mem_append.mpr ⟨hl, hasked⟩
    exact Or.inl (Doomed.pausing (List.mem_append_left _ hfinish) hqueue)
  | finishing _ hl h =>
    obtain ⟨hchecked, -, hfirst⟩ := not_timely_of_running rfl rfl ha
    subst hchecked
    obtain hstart | hfinish := hfirst
    · exact absurd rfl (hl rfl _ hstart)
    · cases (h.eq_of_isOpen rfl).2 _ hfinish
  | between h =>
    have hstage : RunnerStage.between ≠ .starting := by decide
    obtain ⟨hloaded, -⟩ := not_timely_elsewhere rfl hstage ha
    subst hloaded
    exact Or.inr (Stranded.between (h.eq_of_isOpen rfl).2)
  | forever =>
    obtain ⟨-, hstarting, -⟩ := not_timely_of_running rfl rfl ha
    cases hstarting
  | past hpublished h =>
    obtain ⟨-, hahead, -⟩ | ⟨-, hstarting, -⟩ := not_timely_cases hpublished ha
    · exact absurd hahead (ne_true_of_eq_false h)
    · rw [hstarting] at h
      cases h

/-- A step of the main thread that comes too early loses the request or dooms it. -/
theorem doomed_of_not_timely {q : PumpThreads} (h : Kept q) (ha : ¬ q.Timely .main) :
    Doomed q.requestStop ∨ q.requestStop.Lost :=
  (stranded_of_not_timely h ha).imp_right Stranded.lost

/-- The runs whose request is timely are those in which no state loses it, however long the runner
goes on. -/
theorem never_lost_iff (steps : List ThreadStep) :
    machine.Guarded Timely initial steps ↔
      ∀ ns : List ℕ, machine.Throughout (fun q => ¬ q.Lost) initial (steps ++ ns.map .runner) := by
  have hdoom : ∀ q a, ¬ q.Timely a → Kept q → Doomed (q.step a) ∨ ¬ ¬ (q.step a).Lost := by
    intro q a ha hq
    cases a with
    | runner n => exact absurd trivial ha
    | main => exact (doomed_of_not_timely hq ha).imp_right not_not_intro
  have hend : ∀ q, Doomed q → ∃ ns : List ℕ, ¬ ¬ (machine.after q (ns.map .runner)).Lost := by
    intro q hq
    obtain ⟨ns, hns⟩ := hq.fated
    exact ⟨ns, not_not_intro hns⟩
  have hgood : ∀ q, Kept q → ¬ q.Lost := fun _ hq => hq.not_lost
  exact Machine.guarded_iff_throughout hgood kept_step (fun _ _ => trivial) hdoom doomed_step hend
    kept_initial steps

/-- The runner has come out of `run_until_complete(start())` when the main thread asks, finds the
loop not running and returns; the runner enters `run_forever`. -/
def stopInWindow : List ThreadStep := List.replicate 12 (.runner 0) ++ [.main, .main, .runner 0]

theorem stop_lost_in_window :
    (machine.after initial stopInWindow).Lost ∧
      (machine.after initial stopInWindow).stage = .forever := by
  decide

end PumpThreads

end QuikSync.Fleet

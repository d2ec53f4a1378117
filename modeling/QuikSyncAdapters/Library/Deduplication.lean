import Mathlib.Data.List.Nodup
import Mathlib.Data.List.Perm.Subperm

/-! A receiver that acts on a message once. Messages carry keys, and one whose key has been seen
is passed over, so that a stream of messages with repetitions comes to the first message of each
key. -/

namespace Deduplication

variable {μ κ σ : Type*} [DecidableEq κ]

structure Receiver (σ κ : Type*) where
  state : σ
  seen : List κ

section Receiving

variable (key : μ → Option κ) (act : σ → μ → σ)

/-- A message without a key is acted on each time. -/
def Receiver.receive (r : Receiver σ κ) (m : μ) : Receiver σ κ :=
  match key m with
  | none => ⟨act r.state m, r.seen⟩
  | some k => if k ∈ r.seen then r else ⟨act r.state m, k :: r.seen⟩

def Receiver.receiveAll (r : Receiver σ κ) (ms : List μ) : Receiver σ κ :=
  ms.foldl (Receiver.receive key act) r

def accepted (seen : List κ) : List μ → List μ
  | [] => []
  | m :: ms =>
    match key m with
    | none => m :: accepted seen ms
    | some k => if k ∈ seen then accepted seen ms else m :: accepted (k :: seen) ms

end Receiving

variable {key : μ → Option κ} {act : σ → μ → σ}

theorem accepted_of_none {m : μ} (h : key m = none) (seen : List κ) (ms : List μ) :
    accepted key seen (m :: ms) = m :: accepted key seen ms := by
  rw [accepted, h]

theorem accepted_of_seen {m : μ} {k : κ} (h : key m = some k) {seen : List κ} (hk : k ∈ seen)
    (ms : List μ) : accepted key seen (m :: ms) = accepted key seen ms := by
  rw [accepted, h]
  exact if_pos hk

theorem accepted_of_new {m : μ} {k : κ} (h : key m = some k) {seen : List κ} (hk : k ∉ seen)
    (ms : List μ) : accepted key seen (m :: ms) = m :: accepted key (k :: seen) ms := by
  rw [accepted, h]
  exact if_neg hk

theorem receiveAll_state (r : Receiver σ κ) (ms : List μ) :
    (r.receiveAll key act ms).state = (accepted key r.seen ms).foldl act r.state := by
  induction ms generalizing r with
  | nil => rfl
  | cons m ms ih =>
    have hrest := ih (r.receive key act m)
    unfold Receiver.receiveAll at hrest ⊢
    rw [List.foldl_cons, hrest]
    unfold Receiver.receive
    cases hkey : key m with
    | none => rw [accepted_of_none hkey, List.foldl_cons]
    | some k =>
      dsimp only
      by_cases hk : k ∈ r.seen
      · rw [if_pos hk, accepted_of_seen hkey hk]
      · rw [if_neg hk, accepted_of_new hkey hk, List.foldl_cons]

theorem accepted_sublist (seen : List κ) (ms : List μ) :
    (accepted key seen ms).Sublist ms := by
  induction ms generalizing seen with
  | nil => exact List.Sublist.refl []
  | cons m ms ih =>
    cases hkey : key m with
    | none =>
      rw [accepted_of_none hkey]
      exact (ih seen).cons_cons m
    | some k =>
      by_cases hk : k ∈ seen
      · rw [accepted_of_seen hkey hk]
        exact (ih seen).cons m
      · rw [accepted_of_new hkey hk]
        exact (ih (k :: seen)).cons_cons m

theorem accepted_keys (seen : List κ) (ms : List μ) :
    ((accepted key seen ms).filterMap key).Nodup ∧
      ∀ k ∈ (accepted key seen ms).filterMap key, k ∉ seen := by
  induction ms generalizing seen with
  | nil => exact ⟨List.nodup_nil, List.forall_mem_nil _⟩
  | cons m ms ih =>
    cases hkey : key m with
    | none =>
      rw [accepted_of_none hkey, List.filterMap_cons_none hkey]
      exact ih seen
    | some k =>
      by_cases hk : k ∈ seen
      · rw [accepted_of_seen hkey hk]
        exact ih seen
      · obtain ⟨hnodup, hnew⟩ := ih (k :: seen)
        rw [accepted_of_new hkey hk, List.filterMap_cons_some hkey]
        have hfirst : k ∉ (accepted key (k :: seen) ms).filterMap key := fun hmem =>
          hnew k hmem List.mem_cons_self
        refine ⟨List.nodup_cons.mpr ⟨hfirst, hnodup⟩, ?_⟩
        rw [List.forall_mem_cons]
        exact ⟨hk, fun j hj hseen => hnew j hj (List.mem_cons_of_mem k hseen)⟩

theorem exists_accepted {seen : List κ} {ms : List μ} {m : μ} {k : κ} (hm : m ∈ ms)
    (hkey : key m = some k) (hk : k ∉ seen) :
    ∃ m' ∈ accepted key seen ms, key m' = some k := by
  induction ms generalizing seen with
  | nil => cases hm
  | cons first ms ih =>
    cases hfirst : key first with
    | none =>
      rw [accepted_of_none hfirst]
      have hrest : m ∈ ms := by
        refine (List.mem_cons.mp hm).resolve_left fun heq => ?_
        rw [heq, hfirst] at hkey
        cases hkey
      obtain ⟨m', hm', hkey'⟩ := ih hrest hk
      exact ⟨m', List.mem_cons_of_mem first hm', hkey'⟩
    | some j =>
      by_cases hj : j ∈ seen
      · rw [accepted_of_seen hfirst hj]
        refine ih ((List.mem_cons.mp hm).resolve_left fun heq => ?_) hk
        obtain rfl : k = j := Option.some.inj (hkey.symm.trans (heq ▸ hfirst))
        exact hk hj
      · rw [accepted_of_new hfirst hj]
        obtain rfl | hjk := eq_or_ne j k
        · exact ⟨first, List.mem_cons_self, hfirst⟩
        · have hrest : m ∈ ms := by
            refine (List.mem_cons.mp hm).resolve_left fun heq => hjk ?_
            exact Option.some.inj ((heq ▸ hfirst).symm.trans hkey)
          have hk' : k ∉ j :: seen := fun hmem =>
            (List.mem_cons.mp hmem).elim hjk.symm hk
          obtain ⟨m', hm', hkey'⟩ := ih hrest hk'
          exact ⟨m', List.mem_cons_of_mem first hm', hkey'⟩

section Copies

variable {γ : Type*} {command : μ → γ} {id : γ → Option κ} {commands : List γ} {ms : List μ}

/-- Each message is a copy of one of the commands, which have a key each, of their own. -/
structure AreCopies (key : μ → Option κ) (command : μ → γ) (id : γ → Option κ)
    (commands : List γ) (ms : List μ) : Prop where
  keyed : ∀ m, key m = id (command m)
  named : ∀ c ∈ commands, (id c).isSome = true
  distinct : (commands.map id).Nodup
  issued : ∀ m ∈ ms, command m ∈ commands

theorem AreCopies.nodup (h : AreCopies key command id commands ms) :
    ((accepted key [] ms).map command).Nodup := by
  have hkeys : ((accepted key [] ms).filterMap key).Nodup := (accepted_keys [] ms).1
  refine List.pairwise_map.mpr ((List.pairwise_filterMap.mp hkeys).imp_of_mem ?_)
  intro m m' hm _ hne hsame
  have hissued := h.issued m ((accepted_sublist [] ms).subset hm)
  obtain ⟨k, hk⟩ := Option.isSome_iff_exists.mp (h.named _ hissued)
  have hkey : key m = some k := (h.keyed m).trans hk
  have hkey' : key m' = some k := by rw [h.keyed m', ← hsame, hk]
  exact hne k hkey k hkey' rfl

theorem AreCopies.mem_iff (h : AreCopies key command id commands ms) {c : γ}
    (hc : c ∈ commands) : c ∈ (accepted key [] ms).map command ↔ ∃ m ∈ ms, command m = c := by
  constructor
  · intro hmem
    obtain ⟨m, hm, hcommand⟩ := List.mem_map.mp hmem
    exact ⟨m, (accepted_sublist [] ms).subset hm, hcommand⟩
  · rintro ⟨m, hm, rfl⟩
    obtain ⟨k, hk⟩ := Option.isSome_iff_exists.mp (h.named _ hc)
    obtain ⟨m', hm', hkey'⟩ :=
      exists_accepted hm ((h.keyed m).trans hk) (List.not_mem_nil (a := k))
    have hissued := h.issued m' ((accepted_sublist [] ms).subset hm')
    have hsame : command m' = command m :=
      List.inj_on_of_nodup_map h.distinct hissued hc ((h.keyed m').symm.trans (hkey'.trans hk.symm))
    exact List.mem_map.mpr ⟨m', hm', hsame⟩

theorem sublist_of_nodup_replicate {l : List γ} {c : γ} (hl : ∀ a ∈ l, a = c) (hnodup : l.Nodup) :
    l.Sublist [c] := by
  cases l with
  | nil => exact List.nil_sublist [c]
  | cons a rest =>
    obtain rfl := hl a List.mem_cons_self
    have hrest : rest = [] := by
      refine List.eq_nil_iff_forall_not_mem.mpr fun b hb => ?_
      obtain rfl := hl b (List.mem_cons_of_mem _ hb)
      exact (List.nodup_cons.mp hnodup).1 hb
    rw [hrest]

theorem sublist_of_nodup_blocks {α : Type*} {blocks : α → List γ} {entry : α → γ}
    (hblocks : ∀ a, ∀ c ∈ blocks a, c = entry a) {as : List α} {l : List γ}
    (hl : l.Sublist (as.flatMap blocks)) (hnodup : l.Nodup) : l.Sublist (as.map entry) := by
  induction as generalizing l with
  | nil => exact hl
  | cons a as ih =>
    rw [List.flatMap_cons] at hl
    obtain ⟨first, rest, rfl, hfirst, hrest⟩ := List.sublist_append_iff.mp hl
    obtain ⟨hnodup₁, hnodup₂, -⟩ := List.nodup_append.mp hnodup
    have hone : first.Sublist [entry a] :=
      sublist_of_nodup_replicate (fun c hc => hblocks a c (hfirst.subset hc)) hnodup₁
    exact hone.append (ih hrest hnodup₂)

/-- Where the copies come in the order in which they were sent, the commands are acted on in the
order in which they were issued. -/
theorem AreCopies.sublist {α : Type*} {entry : α → γ} {as : List α}
    (h : AreCopies key command id (as.map entry) ms) {copies : α → List μ}
    (hcopies : ∀ a, ∀ m ∈ copies a, command m = entry a) (hms : ms.Sublist (as.flatMap copies)) :
    ((accepted key [] ms).map command).Sublist (as.map entry) := by
  have hcommands : ((accepted key [] ms).map command).Sublist
      (as.flatMap fun a => (copies a).map command) := by
    rw [← List.map_flatMap]
    exact ((accepted_sublist [] ms).trans hms).map command
  refine sublist_of_nodup_blocks (fun a c hc => ?_) hcommands h.nodup
  obtain ⟨m, hm, rfl⟩ := List.mem_map.mp hc
  exact hcopies a m hm

end Copies

end Deduplication

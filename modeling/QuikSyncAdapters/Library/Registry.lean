import Mathlib.Algebra.Ring.Nat
import Mathlib.Data.List.Dedup
import Mathlib.Logic.Function.Basic

/-! Dictionaries of objects kept under their own key: the keys are fixed when the
dictionary is built and only the objects change. -/

/-- Objects of type `α` under distinct keys, each under the key it carries. -/
structure Registry (κ α : Type*) (key : α → κ) where
  keys : List κ
  keysNodup : keys.Nodup
  entry : κ → α
  keyed : ∀ k, key (entry k) = k

namespace Registry

variable {κ α : Type*} [DecidableEq κ] {key : α → κ}

def ofKeys (make : κ → α) (hmake : ∀ k, key (make k) = k) (ks : List κ) : Registry κ α key where
  keys := ks.reverse.dedup.reverse
  keysNodup := List.nodup_reverse.mpr (List.nodup_dedup _)
  entry := make
  keyed := hmake

def get (r : Registry κ α key) (k : κ) : Option α := if k ∈ r.keys then some (r.entry k) else none

def set (r : Registry κ α key) (a : α) : Registry κ α key where
  keys := r.keys
  keysNodup := r.keysNodup
  entry := Function.update r.entry (key a) a
  keyed := by
    intro k
    rcases eq_or_ne k (key a) with rfl | hne
    · rw [Function.update_self]
    · rw [Function.update_of_ne hne, r.keyed]

theorem get_eq_some {r : Registry κ α key} {k : κ} {a : α} :
    r.get k = some a ↔ k ∈ r.keys ∧ r.entry k = a := by
  unfold get
  split_ifs with h <;> simp [h]

theorem get_eq_none {r : Registry κ α key} {k : κ} : r.get k = none ↔ k ∉ r.keys := by
  unfold get
  split_ifs with h <;> simp [h]

theorem key_of_get {r : Registry κ α key} {k : κ} {a : α} (h : r.get k = some a) : key a = k := by
  obtain ⟨-, rfl⟩ := get_eq_some.mp h
  exact r.keyed k

theorem get_key {r : Registry κ α key} {k : κ} {a : α} (h : r.get k = some a) :
    r.get (key a) = some a := by rwa [key_of_get h]

theorem set_of_get {r : Registry κ α key} {k : κ} {a : α} (h : r.get k = some a) : r.set a = r := by
  obtain ⟨-, hentry⟩ := get_eq_some.mp (get_key h)
  cases r with
  | mk keys keysNodup entry keyed =>
    have hsame : Function.update entry (key a) a = entry := by
      have hself := Function.update_eq_self (key a) entry
      rwa [show entry (key a) = a from hentry] at hself
    simp only [set, hsame]

@[simp] theorem mem_ofKeys {make : κ → α} {hmake : ∀ k, key (make k) = k} {ks : List κ} {k : κ} :
    k ∈ (ofKeys make hmake ks).keys ↔ k ∈ ks := by
  simp [ofKeys]

@[simp] theorem set_keys (r : Registry κ α key) (a : α) : (r.set a).keys = r.keys := rfl

def Forall (r : Registry κ α key) (P : α → Prop) : Prop := ∀ k, P (r.entry k)

theorem Forall.get {P : α → Prop} {r : Registry κ α key} (h : r.Forall P) {k : κ} {a : α}
    (hget : r.get k = some a) : P a := by
  obtain ⟨-, rfl⟩ := get_eq_some.mp hget
  exact h k

theorem Forall.set {P : α → Prop} {r : Registry κ α key} (h : r.Forall P) {a : α} (ha : P a) :
    (r.set a).Forall P := by
  intro k
  show P (Function.update r.entry (key a) a k)
  by_cases hk : k = key a
  · rw [hk, Function.update_self]
    exact ha
  · rw [Function.update_of_ne hk]
    exact h k

theorem get_set_of_ne {r : Registry κ α key} {a : α} {k : κ} (hne : k ≠ key a) :
    (r.set a).get k = r.get k := by
  unfold get set
  dsimp only
  rw [Function.update_of_ne hne]

theorem get_set_of_get {r : Registry κ α key} {a b : α} {k : κ} (h : r.get k = some a)
    (hkey : key b = k) : (r.set b).get k = some b := by
  subst hkey
  exact get_eq_some.mpr ⟨(get_eq_some.mp h).1, Function.update_self ..⟩

theorem count_set {r : Registry κ α key} {k : κ} {a b : α} {f : α → ℕ} {c : ℕ}
    (h : r.get k = some a) (hkey : key b = k) (hcount : f b = f a + c) (j : κ) :
    f ((r.set b).entry j) = f (r.entry j) + if j = k then c else 0 := by
  subst hkey
  obtain ⟨-, rfl⟩ := get_eq_some.mp h
  show f (Function.update r.entry (key b) b j) = _
  rcases eq_or_ne j (key b) with rfl | hne
  · rw [Function.update_self, if_pos rfl, hcount]
  · rw [Function.update_of_ne hne, if_neg hne]
    rfl

def total (r : Registry κ α key) (f : α → ℕ) : ℕ := (r.keys.map fun k => f (r.entry k)).sum

theorem sum_map_update {ks : List κ} (hnodup : ks.Nodup) {k : κ} (hk : k ∈ ks) (entry : κ → α)
    (a : α) (f : α → ℕ) :
    (ks.map fun j => f (Function.update entry k a j)).sum + f (entry k) =
      (ks.map fun j => f (entry j)).sum + f a := by
  induction ks with
  | nil => exact absurd hk List.not_mem_nil
  | cons j rest ih =>
    obtain ⟨hj, hrest⟩ := List.nodup_cons.mp hnodup
    simp only [List.map_cons, List.sum_cons]
    by_cases hkj : k = j
    · subst hkj
      have hsame : (rest.map fun j => f (Function.update entry k a j)) =
          rest.map fun j => f (entry j) := by
        refine List.map_congr_left fun j hmem => ?_
        rw [Function.update_of_ne (ne_of_mem_of_not_mem hmem hj)]
      rw [hsame, Function.update_self]
      omega
    · have htail := ih hrest ((List.mem_cons.mp hk).resolve_left hkj)
      rw [Function.update_of_ne (Ne.symm hkj)]
      omega

theorem total_set {r : Registry κ α key} {k : κ} {a b : α} (h : r.get k = some a)
    (hkey : key b = key a) (f : α → ℕ) : (r.set b).total f + f a = r.total f + f b := by
  rw [← key_of_get h, ← hkey] at h
  obtain ⟨hmem, rfl⟩ := get_eq_some.mp h
  exact sum_map_update r.keysNodup hmem r.entry b f

theorem total_ofKeys (make : κ → α) {hmake : ∀ k, key (make k) = k} (f : α → ℕ)
    (hzero : ∀ k, f (make k) = 0) (ks : List κ) : (ofKeys make hmake ks).total f = 0 := by
  unfold total ofKeys
  simp [hzero]

end Registry

import Mathlib.Data.List.Basic
import Mathlib.Logic.Function.Basic

/-! Mutable objects behind references, and a dictionary of references to some of them. An
object that is handed on is handed on as its reference. -/

/-- The objects in the order of their creation, and the dictionary, which holds no object
under two keys. -/
structure ObjectStore (κ α : Type*) where
  objects : List α
  ref : κ → Option ℕ
  bounded : ∀ {k : κ} {r : ℕ}, ref k = some r → r < objects.length
  separate : ∀ {k k' : κ} {r : ℕ}, ref k = some r → ref k' = some r → k = k'

namespace ObjectStore

variable {κ α : Type*}

def empty : ObjectStore κ α := ⟨[], fun _ => none, nofun, nofun⟩

def get (s : ObjectStore κ α) (k : κ) : Option α := (s.ref k).bind (s.objects[·]?)

def modify (s : ObjectStore κ α) (r : ℕ) (f : α → α) : ObjectStore κ α where
  objects := s.objects.modify r f
  ref := s.ref
  bounded := by
    intro k r' h
    rw [List.length_modify]
    exact s.bounded h
  separate := s.separate

@[simp] theorem modify_ref (s : ObjectStore κ α) (r : ℕ) (f : α → α) :
    (s.modify r f).ref = s.ref := rfl

theorem get_eq_some {s : ObjectStore κ α} {k : κ} {a : α} :
    s.get k = some a ↔ ∃ r, s.ref k = some r ∧ s.objects[r]? = some a := Option.bind_eq_some_iff

theorem get_of_ref {s : ObjectStore κ α} {k : κ} {r : ℕ} (h : s.ref k = some r) :
    s.get k = s.objects[r]? := by
  unfold get
  rw [h]
  rfl

theorem exists_get {s : ObjectStore κ α} {k : κ} {r : ℕ} (h : s.ref k = some r) :
    ∃ a, s.get k = some a :=
  ⟨_, (get_of_ref h).trans (List.getElem?_eq_getElem (s.bounded h))⟩

theorem modify_objects_self (s : ObjectStore κ α) (r : ℕ) (f : α → α) :
    (s.modify r f).objects[r]? = s.objects[r]?.map f := by
  unfold modify
  rw [List.getElem?_modify]
  simp only [if_true]
  rfl

theorem modify_objects_of_ne (s : ObjectStore κ α) {r r' : ℕ} (hne : r ≠ r') (f : α → α) :
    (s.modify r f).objects[r']? = s.objects[r']? := by
  unfold modify
  rw [List.getElem?_modify]
  simp only [if_neg hne]
  exact Option.map_id'

theorem modify_objects_cases {s : ObjectStore κ α} {r r' : ℕ} {f : α → α} {a : α}
    (h : (s.modify r f).objects[r']? = some a) :
    (r' ≠ r ∧ s.objects[r']? = some a) ∨ r' = r ∧ ∃ b, s.objects[r]? = some b ∧ f b = a := by
  rcases eq_or_ne r r' with rfl | hne
  · rw [modify_objects_self] at h
    exact Or.inr ⟨rfl, Option.map_eq_some_iff.mp h⟩
  · rw [modify_objects_of_ne s hne] at h
    exact Or.inl ⟨hne.symm, h⟩

theorem modify_get_of_ne {s : ObjectStore κ α} {k k' : κ} {r : ℕ} (h : s.ref k = some r)
    (hne : k ≠ k') (f : α → α) : (s.modify r f).get k' = s.get k' := by
  cases hr : s.ref k' with
  | none =>
    unfold get
    rw [modify_ref, hr]
    rfl
  | some r' =>
    have hr' : (s.modify r f).ref k' = some r' := hr
    have hother : r ≠ r' := by
      rintro rfl
      exact hne (s.separate h hr)
    rw [get_of_ref hr, get_of_ref hr', modify_objects_of_ne s hother]

def Forall (s : ObjectStore κ α) (P : α → Prop) : Prop :=
  ∀ (r : ℕ) (a : α), s.objects[r]? = some a → P a

theorem forall_empty {P : α → Prop} : (empty : ObjectStore κ α).Forall P :=
  fun _ _ h => nomatch h

theorem Forall.modify {P : α → Prop} {s : ObjectStore κ α} (h : s.Forall P) (r : ℕ) {f : α → α}
    (hf : ∀ a, P a → P (f a)) : (s.modify r f).Forall P := by
  intro r' b hb
  obtain ⟨-, hold⟩ | ⟨-, a, hold, rfl⟩ := modify_objects_cases hb
  · exact h r' b hold
  · exact hf a (h r a hold)

variable [DecidableEq κ]

def create (s : ObjectStore κ α) (k : κ) (a : α) : ObjectStore κ α where
  objects := s.objects ++ [a]
  ref := Function.update s.ref k (some s.objects.length)
  bounded := by
    intro k' r h
    rw [List.length_append, List.length_singleton]
    rcases eq_or_ne k' k with rfl | hne
    · rw [Function.update_self] at h
      exact Option.some.inj h ▸ Nat.lt_succ_self _
    · rw [Function.update_of_ne hne] at h
      exact Nat.lt_succ_of_lt (s.bounded h)
  separate := by
    have hnew : ∀ {j : κ}, s.ref j ≠ some s.objects.length :=
      fun h => absurd (s.bounded h) (Nat.lt_irrefl _)
    intro j j' r h h'
    rcases eq_or_ne j k with rfl | hj
    · rw [Function.update_self] at h
      obtain rfl := Option.some.inj h
      by_contra hne
      rw [Function.update_of_ne (Ne.symm hne)] at h'
      exact hnew h'
    · rw [Function.update_of_ne hj] at h
      rcases eq_or_ne j' k with rfl | hj'
      · rw [Function.update_self] at h'
        obtain rfl := Option.some.inj h'
        exact absurd h hnew
      · rw [Function.update_of_ne hj'] at h'
        exact s.separate h h'

theorem create_ref_self (s : ObjectStore κ α) (k : κ) (a : α) :
    (s.create k a).ref k = some s.objects.length := Function.update_self ..

theorem create_ref_of_ne (s : ObjectStore κ α) {k k' : κ} (hne : k' ≠ k) (a : α) :
    (s.create k a).ref k' = s.ref k' := Function.update_of_ne hne ..

theorem create_objects_of_lt (s : ObjectStore κ α) (k : κ) (a : α) {r : ℕ}
    (hr : r < s.objects.length) : (s.create k a).objects[r]? = s.objects[r]? :=
  List.getElem?_append_left hr

theorem create_objects_new (s : ObjectStore κ α) (k : κ) (a : α) :
    (s.create k a).objects[s.objects.length]? = some a := List.getElem?_concat_length

theorem create_objects_cases {s : ObjectStore κ α} {k : κ} {a b : α} {r : ℕ}
    (h : (s.create k a).objects[r]? = some b) :
    s.objects[r]? = some b ∨ r = s.objects.length ∧ a = b := by
  have hlt : r < s.objects.length + 1 := by
    have hlength := (List.getElem?_eq_some_iff.mp h).1
    rwa [create, List.length_append, List.length_singleton] at hlength
  rcases Nat.lt_succ_iff_lt_or_eq.mp hlt with hold | rfl
  · rw [s.create_objects_of_lt k a hold] at h
    exact Or.inl h
  · rw [s.create_objects_new] at h
    exact Or.inr ⟨rfl, Option.some.inj h⟩

theorem Forall.create {P : α → Prop} {s : ObjectStore κ α} (h : s.Forall P) (k : κ) {a : α}
    (ha : P a) : (s.create k a).Forall P := by
  intro r b hb
  obtain hold | ⟨-, rfl⟩ := create_objects_cases hb
  · exact h r b hold
  · exact ha

end ObjectStore

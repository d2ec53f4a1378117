import Mathlib.Data.List.Basic
import Mathlib.Data.List.Forall2

/-! Computations that may fail, read back from a success: what a `bind`, a change of the error,
a loop or a `toOption` succeeded with; and what a `bind` failed on. -/

namespace Fallible

variable {ε ε' α β : Type}

theorem bind_eq_ok {x : Except ε α} {f : α → Except ε β} {b : β} :
    x >>= f = .ok b ↔ ∃ a, x = .ok a ∧ f a = .ok b := by
  cases x with
  | error e => exact ⟨nofun, fun ⟨_, h, _⟩ => nomatch h⟩
  | ok a => exact ⟨fun h => ⟨a, rfl, h⟩, fun ⟨_, rfl, h⟩ => h⟩

theorem bind_error_iff {P : ε → Prop} {x : Except ε α} {f : α → Except ε β} :
    (∃ e, x >>= f = .error e ∧ P e) ↔
      (∃ e, x = .error e ∧ P e) ∨ ∃ a, x = .ok a ∧ ∃ e, f a = .error e ∧ P e := by
  cases x with
  | error e =>
    show (∃ e', Except.error e = .error e' ∧ P e') ↔ _
    simp
  | ok a =>
    show (∃ e, f a = .error e ∧ P e) ↔ _
    simp

theorem map_eq_ok {x : Except ε α} {f : α → β} {b : β} :
    x.map f = .ok b ↔ ∃ a, x = .ok a ∧ f a = b := by
  cases x with
  | error e => exact ⟨nofun, fun ⟨_, h, _⟩ => nomatch h⟩
  | ok a => exact ⟨fun h => ⟨a, rfl, Except.ok.inj h⟩, fun ⟨_, rfl, h⟩ => congrArg Except.ok h⟩

theorem mapError_ok_iff {f : ε → ε'} {x : Except ε α} {a : α} :
    x.mapError f = .ok a ↔ x = .ok a := by
  cases x with
  | error e => exact ⟨nofun, nofun⟩
  | ok b => exact ⟨fun h => congrArg _ (Except.ok.inj h), fun h => congrArg _ (Except.ok.inj h)⟩

theorem ok_of_toOption {x : Except ε α} {a : α} (h : x.toOption = some a) : x = .ok a := by
  cases x with
  | error e => exact nomatch h
  | ok b => exact congrArg Except.ok (Option.some.inj h)

theorem exists_ok_bind {x : Except ε α} {f : α → Except ε β} (hx : ∃ a, x = .ok a)
    (hf : ∀ a, ∃ b, f a = .ok b) : ∃ b, x >>= f = .ok b := by
  obtain ⟨a, rfl⟩ := hx
  exact hf a

theorem mapM_eq_ok {f : α → Except ε β} {items : List α} {results : List β} :
    items.mapM f = .ok results ↔ List.Forall₂ (fun a b => f a = .ok b) items results := by
  induction items generalizing results with
  | nil =>
    rw [List.mapM_nil, List.forall₂_nil_left_iff]
    exact ⟨fun h => (Except.ok.inj h).symm, fun h => h ▸ rfl⟩
  | cons a items ih =>
    rw [List.mapM_cons, List.forall₂_cons_left_iff, bind_eq_ok]
    constructor
    · rintro ⟨b, hb, h⟩
      obtain ⟨rest, hrest, h⟩ := bind_eq_ok.mp h
      exact ⟨b, rest, hb, ih.mp hrest, (Except.ok.inj h).symm⟩
    · rintro ⟨b, rest, hb, hrest, rfl⟩
      exact ⟨b, hb, bind_eq_ok.mpr ⟨rest, ih.mpr hrest, rfl⟩⟩

theorem findSomeM?_none_iff {f : α → Except ε (Option β)} {items : List α} :
    items.findSomeM? f = .ok none ↔ ∀ a ∈ items, f a = .ok none := by
  induction items with
  | nil => exact iff_of_true rfl (List.forall_mem_nil _)
  | cons a items ih =>
    rw [List.forall_mem_cons, ← ih, List.findSomeM?_cons, bind_eq_ok]
    constructor
    · rintro ⟨found, hfound, h⟩
      cases found with
      | none => exact ⟨hfound, h⟩
      | some b => cases h
    · rintro ⟨hnone, h⟩
      exact ⟨none, hnone, h⟩

theorem findSomeM?_some_iff {f : α → Except ε (Option β)} {items : List α} {b : β} :
    items.findSomeM? f = .ok (some b) ↔ ∃ before a rest, items = before ++ a :: rest ∧
      (∀ other ∈ before, f other = .ok none) ∧ f a = .ok (some b) := by
  induction items with
  | nil =>
    refine iff_of_false (fun h => by cases h) ?_
    rintro ⟨before, a, rest, h, -⟩
    simp at h
  | cons first items ih =>
    rw [List.findSomeM?_cons, bind_eq_ok]
    constructor
    · rintro ⟨found, hfound, h⟩
      cases found with
      | none =>
        obtain ⟨before, a, rest, rfl, hbefore, ha⟩ := ih.mp h
        exact ⟨first :: before, a, rest, rfl, List.forall_mem_cons.mpr ⟨hfound, hbefore⟩, ha⟩
      | some c =>
        obtain rfl := Option.some.inj (Except.ok.inj h)
        exact ⟨[], first, items, rfl, List.forall_mem_nil _, hfound⟩
    · rintro ⟨before, a, rest, hitems, hbefore, ha⟩
      cases before with
      | nil =>
        obtain ⟨rfl, rfl⟩ := List.cons.inj hitems
        exact ⟨some b, ha, rfl⟩
      | cons other before =>
        obtain ⟨rfl, rfl⟩ := List.cons.inj hitems
        obtain ⟨hfirst, hrest⟩ := List.forall_mem_cons.mp hbefore
        exact ⟨none, hfirst, ih.mpr ⟨before, a, rest, rfl, hrest, ha⟩⟩

theorem foldlM_keeps {σ : Type} {P : σ → Prop} {f : σ → α → Except ε σ}
    (hstep : ∀ {s a s'}, P s → f s a = .ok s' → P s') {items : List α} {s s' : σ} (hs : P s)
    (h : items.foldlM f s = .ok s') : P s' := by
  induction items generalizing s with
  | nil =>
    obtain rfl := Except.ok.inj h
    exact hs
  | cons a items ih =>
    obtain ⟨next, hnext, hrest⟩ := bind_eq_ok.mp h
    exact ih (hstep hs hnext) hrest

/-- Both fail with the same error, or both succeed, with related results. -/
inductive Related (R : α → β → Prop) : Except ε α → Except ε β → Prop where
  | error (e : ε) : Related R (.error e) (.error e)
  | ok {a : α} {b : β} (h : R a b) : Related R (.ok a) (.ok b)

theorem Related.mono {R S : α → β → Prop} {x : Except ε α} {y : Except ε β} (h : Related R x y)
    (hRS : ∀ a b, R a b → S a b) : Related S x y := by
  cases h with
  | error e => exact .error e
  | ok hab => exact .ok (hRS _ _ hab)

theorem Related.results {R : α → β → Prop} {x : Except ε α} {y : Except ε β}
    (h : Related R x y) : Related (fun a b => R a b ∧ x = .ok a ∧ y = .ok b) x y := by
  cases h with
  | error e => exact .error e
  | ok hab => exact .ok ⟨hab, rfl, rfl⟩

theorem Related.bind {γ δ : Type} {R : α → β → Prop} {S : γ → δ → Prop} {x : Except ε α}
    {y : Except ε β} {f : α → Except ε γ} {g : β → Except ε δ} (h : Related R x y)
    (hnext : ∀ a b, R a b → Related S (f a) (g b)) : Related S (x >>= f) (y >>= g) := by
  cases h with
  | error e => exact .error e
  | ok hab => exact hnext _ _ hab

theorem Related.of_eq {R : α → α → Prop} (hrefl : ∀ a, R a a) {x y : Except ε α} (h : x = y) :
    Related R x y := by
  subst h
  cases x with
  | error e => exact .error e
  | ok a => exact .ok (hrefl a)

theorem Related.eq {x y : Except ε α} (h : Related Eq x y) : x = y := by
  cases h with
  | error e => rfl
  | ok hab => exact congrArg Except.ok hab

end Fallible

import Mathlib.Data.List.Forall2
import Mathlib.Logic.Basic

namespace StagedJobs.Outcomes

variable {ε δ α β : Type}

theorem bind_eq_ok {x : Except ε α} {f : α → Except ε β} {b : β} :
    x >>= f = .ok b ↔ ∃ a, x = .ok a ∧ f a = .ok b := by
  cases x with
  | error e => simp [bind, Except.bind]
  | ok a => simp [bind, Except.bind]

theorem bind_eq_error {x : Except ε α} {f : α → Except ε β} {e : ε} :
    x >>= f = .error e ↔ x = .error e ∨ ∃ a, x = .ok a ∧ f a = .error e := by
  cases x with
  | error e' => simp [bind, Except.bind]
  | ok a => simp [bind, Except.bind]

theorem map_eq_ok {x : Except ε α} {f : α → β} {b : β} :
    x.map f = .ok b ↔ ∃ a, x = .ok a ∧ f a = b := by
  cases x with
  | error e => simp [Except.map]
  | ok a => simp [Except.map]

theorem mapError_eq_ok {x : Except ε α} {f : ε → δ} {a : α} :
    x.mapError f = .ok a ↔ x = .ok a := by
  constructor
  · intro h
    cases x with
    | error e => cases h
    | ok a' =>
        cases h
        rfl
  · rintro rfl
    rfl

theorem mapError_eq_error {x : Except ε α} {f : ε → δ} {d : δ} :
    x.mapError f = .error d ↔ ∃ e, x = .error e ∧ f e = d := by
  constructor
  · intro h
    cases x with
    | error e =>
        cases h
        exact ⟨e, rfl, rfl⟩
    | ok a => cases h
  · rintro ⟨e, rfl, rfl⟩
    rfl

theorem bind_congr_of_ok {x : Except ε α} {f g : α → Except ε β}
    (h : ∀ a, x = .ok a → f a = g a) : x >>= f = x >>= g := by
  cases x with
  | error e => rfl
  | ok a => exact h a rfl

theorem eq_of_error_iff {x y : Except ε α} (herror : ∀ e, x = .error e ↔ y = .error e)
    (hok : ∀ a b, x = .ok a → y = .ok b → a = b) : x = y := by
  cases x with
  | error e => exact ((herror e).mp rfl).symm
  | ok a =>
      cases y with
      | error e => exact (herror e).mpr rfl
      | ok b => rw [hok a b rfl rfl]

/-- What the members of a list come to, for those that come to anything. -/
def outcomes (f : α → Except ε β) (xs : List α) : List β := xs.filterMap fun x => (f x).toOption

section MapM

variable {f : α → Except ε β} {x : α} {xs : List α} {y : β} {ys : List β}

theorem outcomes_cons_of_error {e : ε} (h : f x = .error e) (xs : List α) :
    outcomes f (x :: xs) = outcomes f xs := by
  simp [outcomes, h, Except.toOption]

theorem outcomes_cons_of_ok (h : f x = .ok y) (xs : List α) :
    outcomes f (x :: xs) = y :: outcomes f xs := by
  simp [outcomes, h, Except.toOption]

theorem mapM_eq_ok_iff :
    xs.mapM f = .ok ys ↔ (∀ x ∈ xs, ∃ y, f x = .ok y) ∧ outcomes f xs = ys := by
  induction xs generalizing ys with
  | nil => simp [outcomes, pure, Except.pure, eq_comm]
  | cons x xs ih =>
      rw [List.mapM_cons]
      cases hx : f x with
      | error e => simp [bind, Except.bind, hx]
      | ok y => simp [bind_eq_ok, ih, hx, outcomes_cons_of_ok hx, pure, Except.pure, and_assoc]

theorem exists_of_mem_mapM (h : xs.mapM f = .ok ys) (hy : y ∈ ys) : ∃ x ∈ xs, f x = .ok y := by
  obtain ⟨-, rfl⟩ := mapM_eq_ok_iff.mp h
  obtain ⟨x, hx, hfx⟩ := List.mem_filterMap.mp hy
  refine ⟨x, hx, ?_⟩
  cases hok : f x with
  | error e => simp [hok, Except.toOption] at hfx
  | ok z => simpa [hok, Except.toOption] using hfx

theorem exists_mem_of_mapM (h : xs.mapM f = .ok ys) (hx : x ∈ xs) : ∃ y ∈ ys, f x = .ok y := by
  obtain ⟨hok, rfl⟩ := mapM_eq_ok_iff.mp h
  obtain ⟨y, hy⟩ := hok x hx
  refine ⟨y, List.mem_filterMap.mpr ⟨x, hx, ?_⟩, hy⟩
  rw [hy]
  rfl

theorem forall₂_of_mapM (h : xs.mapM f = .ok ys) : List.Forall₂ (fun x y => f x = .ok y) xs ys := by
  induction xs generalizing ys with
  | nil =>
      obtain rfl : [] = ys := by simpa [pure, Except.pure] using h
      exact .nil
  | cons x xs ih =>
      rw [List.mapM_cons] at h
      obtain ⟨y, hy, h⟩ := bind_eq_ok.mp h
      obtain ⟨zs, hzs, h⟩ := bind_eq_ok.mp h
      obtain rfl := Except.ok.inj h
      exact .cons hy (ih hzs)

theorem mapM_eq_ok_self {f : α → Except ε α} (h : ∀ x ∈ xs, f x = .ok x) :
    xs.mapM f = .ok xs := by
  induction xs with
  | nil => rfl
  | cons x xs ih =>
      rw [List.mapM_cons, h x (by simp), ih fun y hy => h y (List.mem_cons_of_mem x hy)]
      rfl

end MapM

/-- Both succeed with the same, or neither succeeds. -/
def Agree (x y : Except ε α) : Prop := ∀ a, x = .ok a ↔ y = .ok a

section Agree

variable {x y : Except ε α}

theorem Agree.map (h : Agree x y) (f : α → β) : Agree (x.map f) (y.map f) := by
  intro b
  rw [map_eq_ok, map_eq_ok]
  exact exists_congr fun a => and_congr_left fun _ => h a

theorem Agree.mapError (h : Agree x y) (f : ε → δ) : Agree (x.mapError f) (y.mapError f) := by
  intro a
  rw [mapError_eq_ok, mapError_eq_ok]
  exact h a

theorem agree_iff : Agree x y ↔
    (∃ a, x = .ok a ∧ y = .ok a) ∨ ∃ e e', x = .error e ∧ y = .error e' := by
  cases x with
  | error e => cases y <;> simp [Agree]
  | ok a => cases y <;> simp [Agree, eq_comm]

theorem mapM_agree {f : α → Except ε β} {xs xs' : List α}
    (h : List.Forall₂ (fun x y => Agree (f x) (f y)) xs xs') : Agree (xs.mapM f) (xs'.mapM f) := by
  induction h with
  | nil => exact fun _ => Iff.rfl
  | cons hxy _ ih =>
      intro zs
      simp only [List.mapM_cons, bind_eq_ok, hxy _, ih _]

end Agree

end StagedJobs.Outcomes

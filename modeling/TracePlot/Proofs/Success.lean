import Mathlib.Data.List.Forall2

/-! When computations that may fail succeed. A sequence of them succeeds just when each does, and
otherwise fails as the first of them that fails. -/

namespace TracePlot

variable {ε α β : Type}

@[simp]
theorem bind_eq_ok_iff {x : Except ε α} {f : α → Except ε β} {b : β} :
    (x >>= f) = .ok b ↔ ∃ a, x = .ok a ∧ f a = .ok b := by
  cases x <;> simp [bind, Except.bind]

@[simp]
theorem pure_eq_ok_iff {a b : α} : (pure a : Except ε α) = .ok b ↔ a = b := by
  simp [pure, Except.pure]

@[simp]
theorem map_eq_ok_iff {x : Except ε α} {f : α → β} {b : β} :
    x.map f = .ok b ↔ ∃ a, x = .ok a ∧ f a = b := by
  cases x <;> simp [Except.map]

theorem map_eq_error_iff {x : Except ε α} {f : α → β} {e : ε} :
    x.map f = .error e ↔ x = .error e := by
  cases x <;> simp [Except.map]

theorem map_map {γ : Type} {x : Except ε α} {f : α → β} {g : β → γ} :
    (x.map f).map g = x.map fun a => g (f a) := by
  cases x <;> rfl

theorem mapError_eq_ok_iff {ε' : Type} {x : Except ε α} {f : ε → ε'} {a : α} :
    x.mapError f = .ok a ↔ x = .ok a := by
  cases x <;> simp [Except.mapError]

theorem mapError_eq_error_iff {ε' : Type} {x : Except ε α} {f : ε → ε'} {e' : ε'} :
    x.mapError f = .error e' ↔ ∃ e, x = .error e ∧ f e = e' := by
  cases x <;> simp [Except.mapError]

theorem toOption_eq_some_iff {x : Except ε α} {a : α} : x.toOption = some a ↔ x = .ok a := by
  cases x <;> simp [Except.toOption]

theorem toOption_map_eq_some_iff {x : Except ε α} {f : α → β} {b : β} :
    x.toOption.map f = some b ↔ ∃ a, x = .ok a ∧ f a = b := by
  cases x <;> simp [Except.toOption]

theorem mapM_eq_ok_iff {f : α → Except ε β} {xs : List α} {ys : List β} :
    xs.mapM f = .ok ys ↔ List.Forall₂ (fun x y => f x = .ok y) xs ys := by
  induction xs generalizing ys with
  | nil => rw [List.mapM_nil, List.forall₂_nil_left_iff, pure_eq_ok_iff, eq_comm]
  | cons x xs ih =>
    rw [List.mapM_cons, List.forall₂_cons_left_iff]
    simp only [bind_eq_ok_iff, pure_eq_ok_iff, ih, eq_comm (b := ys)]
    constructor
    · rintro ⟨y, hy, rest, hrest, h⟩
      exact ⟨y, rest, hy, hrest, h⟩
    · rintro ⟨y, rest, hy, hrest, h⟩
      exact ⟨y, hy, rest, hrest, h⟩

theorem exists_mapM_iff {f : α → Except ε β} {xs : List α} :
    (∃ ys, xs.mapM f = .ok ys) ↔ ∀ x ∈ xs, ∃ y, f x = .ok y := by
  induction xs with
  | nil => simp
  | cons x xs ih =>
    rw [List.mapM_cons, List.forall_mem_cons, ← ih]
    simp only [bind_eq_ok_iff, pure_eq_ok_iff]
    constructor
    · rintro ⟨ys, y, hy, rest, hrest, rfl⟩
      exact ⟨⟨y, hy⟩, rest, hrest⟩
    · rintro ⟨⟨y, hy⟩, rest, hrest⟩
      exact ⟨y :: rest, y, hy, rest, hrest, rfl⟩

/-- The first of some values that has a property. -/
def IsFirst (p : α → Prop) (xs : List α) (x : α) : Prop :=
  ∃ before after, xs = before ++ x :: after ∧ p x ∧ ∀ y ∈ before, ¬ p y

section First

variable {p : α → Prop} {x y : α} {xs : List α}

theorem find?_eq_some_iff_isFirst {p : α → Bool} :
    xs.find? p = some x ↔ IsFirst (fun y => p y = true) xs x := by
  rw [List.find?_eq_some_iff_append]
  simp only [Bool.not_eq_true', Bool.not_eq_true, IsFirst]
  constructor
  · rintro ⟨hx, before, after, hxs, hbefore⟩
    exact ⟨before, after, hxs, hx, hbefore⟩
  · rintro ⟨before, after, hxs, hx, hbefore⟩
    exact ⟨hx, before, after, hxs, hbefore⟩

theorem IsFirst.mem (h : IsFirst p xs x) : x ∈ xs := by
  obtain ⟨before, after, rfl, -⟩ := h
  simp

theorem isFirst_congr {q : α → Prop} (h : ∀ y ∈ xs, p y ↔ q y) :
    IsFirst p xs x ↔ IsFirst q xs x := by
  constructor
  · rintro ⟨before, after, rfl, hx, hbefore⟩
    exact ⟨before, after, rfl, (h x (by simp)).mp hx,
      fun y hy hq => hbefore y hy ((h y (by simp [hy])).mpr hq)⟩
  · rintro ⟨before, after, rfl, hx, hbefore⟩
    exact ⟨before, after, rfl, (h x (by simp)).mpr hx,
      fun y hy hp => hbefore y hy ((h y (by simp [hy])).mp hp)⟩

theorem isFirst_cons_of_neg (h : ¬ p y) : IsFirst p (y :: xs) x ↔ IsFirst p xs x := by
  constructor
  · rintro ⟨before, after, hxs, hx, hbefore⟩
    cases before with
    | nil =>
      obtain ⟨rfl, rfl⟩ := List.cons_eq_cons.mp hxs
      exact absurd hx h
    | cons z before =>
      obtain ⟨rfl, rfl⟩ := List.cons_eq_cons.mp hxs
      exact ⟨before, after, rfl, hx, fun w hw => hbefore w (List.mem_cons_of_mem _ hw)⟩
  · rintro ⟨before, after, rfl, hx, hbefore⟩
    exact ⟨y :: before, after, rfl, hx, List.forall_mem_cons.mpr ⟨h, hbefore⟩⟩

theorem isFirst_cons_of_pos (h : p y) : IsFirst p (y :: xs) x ↔ x = y := by
  constructor
  · rintro ⟨before, after, hxs, hx, hbefore⟩
    cases before with
    | nil => exact (List.cons_eq_cons.mp hxs).1.symm
    | cons z before =>
      obtain ⟨rfl, rfl⟩ := List.cons_eq_cons.mp hxs
      exact absurd h (hbefore _ List.mem_cons_self)
  · rintro rfl
    exact ⟨[], xs, rfl, h, by simp⟩

theorem not_isFirst_nil : ¬ IsFirst p [] x := by
  rintro ⟨before, after, hxs, -⟩
  simp at hxs

theorem exists_isFirst_iff : (∃ x, IsFirst p xs x) ↔ ∃ x ∈ xs, p x := by
  induction xs with
  | nil => simp [not_isFirst_nil]
  | cons y xs ih =>
    rw [List.exists_mem_cons_iff]
    by_cases hy : p y
    · simp [isFirst_cons_of_pos hy, hy]
    · simp [isFirst_cons_of_neg hy, hy, ih]

theorem isFirst_map {f : β → α} {xs : List β} :
    IsFirst p (xs.map f) x ↔ ∃ b, f b = x ∧ IsFirst (fun b => p (f b)) xs b := by
  induction xs with
  | nil => simp [not_isFirst_nil]
  | cons b xs ih =>
    rw [List.map_cons]
    by_cases hb : p (f b)
    · simp only [isFirst_cons_of_pos hb, isFirst_cons_of_pos (p := fun b => p (f b)) hb]
      simp [eq_comm]
    · simp only [isFirst_cons_of_neg hb, isFirst_cons_of_neg (p := fun b => p (f b)) hb, ih]

theorem isFirst_filter {q : α → Bool} :
    IsFirst p (xs.filter q) x ↔ IsFirst (fun y => q y = true ∧ p y) xs x := by
  induction xs with
  | nil => simp [not_isFirst_nil]
  | cons y xs ih =>
    by_cases hq : q y = true
    · rw [List.filter_cons_of_pos hq]
      by_cases hp : p y
      · rw [isFirst_cons_of_pos hp, isFirst_cons_of_pos ⟨hq, hp⟩]
      · rw [isFirst_cons_of_neg hp, isFirst_cons_of_neg (fun h => hp h.2), ih]
    · rw [List.filter_cons_of_neg hq, isFirst_cons_of_neg (fun h => hq h.1), ih]

end First

theorem bind_eq_error_iff {x : Except ε α} {f : α → Except ε β} {e : ε} :
    (x >>= f) = .error e ↔ x = .error e ∨ ∃ a, x = .ok a ∧ f a = .error e := by
  cases x <;> simp [bind, Except.bind]

theorem mapM_eq_error_iff {f : α → Except ε β} {xs : List α} {e : ε} :
    xs.mapM f = .error e ↔
      ∃ x, IsFirst (fun x => ∃ e, f x = .error e) xs x ∧ f x = .error e := by
  induction xs with
  | nil => simp [not_isFirst_nil, pure, Except.pure]
  | cons x xs ih =>
    rw [List.mapM_cons, bind_eq_error_iff]
    cases hx : f x with
    | error e' =>
      have hfails : ∃ e, f x = .error e := ⟨e', hx⟩
      simp [isFirst_cons_of_pos (p := fun x => ∃ e, f x = .error e) hfails, hx]
    | ok y =>
      have hworks : ¬ ∃ e, f x = .error e := by simp [hx]
      simp only [isFirst_cons_of_neg (p := fun x => ∃ e, f x = .error e) hworks, ← ih]
      simp [bind_eq_error_iff, pure, Except.pure]

/-- The part of a computation that decides whether it succeeds. -/
theorem map_bind_eq_bind {γ δ : Type} {x : Except ε α} {f : α → Except ε β} {u : β → γ}
    {y : Except ε γ} {v : δ} (hf : ∀ a, (f a).map u = y) :
    (x >>= f).map u = (x.map fun _ => v) >>= fun _ => y := by
  cases x with
  | error e => rfl
  | ok a => exact hf a

section Checks

variable {f : α → Except ε Unit} {xs : List α} {e : ε}

theorem forM_eq_map_mapM : forM xs f = (xs.mapM f).map fun _ => () := by
  induction xs with
  | nil => rfl
  | cons x xs ih =>
    rw [List.forM_cons, List.mapM_cons, ih]
    cases f x with
    | error e => rfl
    | ok u => cases xs.mapM f <;> rfl

theorem forM_eq_ok_iff : forM xs f = .ok () ↔ ∀ x ∈ xs, f x = .ok () := by
  induction xs with
  | nil => simp
  | cons x xs ih =>
    rw [List.forM_cons, bind_eq_ok_iff, List.forall_mem_cons, ih]
    exact ⟨fun ⟨_, hx, hxs⟩ => ⟨hx, hxs⟩, fun ⟨hx, hxs⟩ => ⟨(), hx, hxs⟩⟩

theorem forM_eq_error_iff :
    forM xs f = .error e ↔ ∃ x, IsFirst (fun x => f x ≠ .ok ()) xs x ∧ f x = .error e := by
  have hfails (x : α) : (∃ e, f x = .error e) ↔ f x ≠ .ok () := by
    cases f x <;> simp
  rw [forM_eq_map_mapM, map_eq_error_iff, mapM_eq_error_iff]
  simp only [hfails]

end Checks

end TracePlot

import Mathlib.Data.List.Basic
import Mathlib.Tactic.Common

/-! Computations that can fail, one after another and for each element of a list: what is known once
they have succeeded, and where they fail. -/
namespace Phraseology

section Single

variable {ε ε' α β : Type} {x : Except ε α} {f : α → Except ε β} {a : α} {b : β} {err : ε}

@[simp] theorem ok_bind (a : α) (f : α → Except ε β) : (Except.ok a >>= f) = f a := rfl

@[simp] theorem error_bind (err : ε) (f : α → Except ε β) :
    (Except.error err >>= f) = Except.error err := rfl

@[simp] theorem pure_eq_ok (a : α) : (pure a : Except ε α) = .ok a := rfl

/-- A computation that succeeds has succeeded at its first step. -/
@[simp] theorem bind_eq_ok_iff : x >>= f = .ok b ↔ ∃ a, x = .ok a ∧ f a = .ok b := by
  cases x <;> simp

/-- A computation that fails has failed at its first step or at what follows it. -/
@[simp] theorem bind_eq_error_iff :
    x >>= f = .error err ↔ x = .error err ∨ ∃ a, x = .ok a ∧ f a = .error err := by
  cases x <;> simp

@[simp] theorem mapError_eq_ok_iff {f : ε → ε'} : x.mapError f = .ok a ↔ x = .ok a := by
  cases x <;> simp [Except.mapError]

@[simp] theorem mapError_eq_error_iff {f : ε → ε'} {err : ε'} :
    x.mapError f = .error err ↔ ∃ e, x = .error e ∧ f e = err := by
  cases x <;> simp [Except.mapError]

@[simp] theorem toOption_eq_some_iff : x.toOption = some a ↔ x = .ok a := by
  cases x <;> simp [Except.toOption]

end Single

section Lists

variable {ε α β : Type} {f : α → Except ε β} {xs : List α} {ys : List β}

/-- A computation that succeeds for a list succeeds for each element. -/
theorem mapM_eq_ok_iff : xs.mapM f = .ok ys ↔ xs.map f = ys.map .ok := by
  induction xs generalizing ys with
  | nil => simp [eq_comm]
  | cons x xs ih =>
    simp only [List.mapM_cons, bind_eq_ok_iff, ih, pure_eq_ok, Except.ok.injEq, List.map_cons]
    constructor
    · rintro ⟨y, hy, ys, hys, rfl⟩
      rw [hy, hys, List.map_cons]
    · intro h
      obtain ⟨y, ys, rfl, hy, hys⟩ := List.map_eq_cons_iff.1 h.symm
      exact ⟨y, hy.symm, ys, hys.symm, rfl⟩

/-- A computation that fails for a list fails for the first element that it fails for. -/
theorem mapM_eq_error_iff {err : ε} :
    xs.mapM f = .error err ↔ ∃ before x after, xs = before ++ x :: after ∧
      (∀ y ∈ before, ∃ b, f y = .ok b) ∧ f x = .error err := by
  induction xs with
  | nil => simp
  | cons x xs ih =>
    have hrest (b : β) : (do return b :: (← xs.mapM f)) = Except.error err ↔
        xs.mapM f = .error err := by simp
    rw [List.mapM_cons, bind_eq_error_iff]
    simp only [hrest, ih]
    constructor
    · rintro (h | ⟨b, hb, before, y, after, rfl, hbefore, hy⟩)
      · exact ⟨[], x, xs, rfl, by simp, h⟩
      · exact ⟨x :: before, y, after, rfl, List.forall_mem_cons.2 ⟨⟨b, hb⟩, hbefore⟩, hy⟩
    · rintro ⟨before, y, after, hxs, hbefore, hy⟩
      cases before with
      | nil =>
        obtain ⟨rfl, rfl⟩ := List.cons.inj hxs
        exact .inl hy
      | cons z before =>
        obtain ⟨rfl, rfl⟩ := List.cons.inj hxs
        obtain ⟨⟨b, hb⟩, hbefore⟩ := List.forall_mem_cons.1 hbefore
        exact .inr ⟨b, hb, before, y, after, rfl, hbefore, hy⟩

/-- A computation that succeeds for each element succeeds for the list. -/
theorem exists_mapM (h : ∀ x ∈ xs, ∃ y, f x = .ok y) : ∃ ys, xs.mapM f = .ok ys := by
  cases hxs : xs.mapM f with
  | ok ys => exact ⟨ys, rfl⟩
  | error err =>
    obtain ⟨before, x, after, rfl, -, hx⟩ := mapM_eq_error_iff.1 hxs
    obtain ⟨y, hy⟩ := h x (by simp)
    cases hy.symm.trans hx

theorem mapM_eq_ok_filterMap {g : α → Option β}
    (h : ∀ x ∈ xs, ∃ y, g x = some y ∧ f x = .ok y) : xs.mapM f = .ok (xs.filterMap g) := by
  induction xs with
  | nil => rfl
  | cons x xs ih =>
    obtain ⟨⟨y, hg, hf⟩, hxs⟩ := List.forall_mem_cons.1 h
    simp [hf, hg, ih hxs]

end Lists

end Phraseology

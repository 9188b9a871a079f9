import Mathlib.Tactic.Common

/-!
# Computations that may fail

What a successful computation tells of its parts, and what computations with a state do to it.
-/

namespace LoopPainter

section Results

variable {ε ε' α β : Type} {r : Except ε α} {b : β}

theorem exists_of_map {f : α → β} (h : r.map f = .ok b) : ∃ a, r = .ok a ∧ f a = b := by
  cases r with
  | error e => cases h
  | ok a => exact ⟨a, rfl, Except.ok.inj h⟩

theorem exists_of_bind {f : α → Except ε β} (h : r >>= f = .ok b) :
    ∃ a, r = .ok a ∧ f a = .ok b := by
  cases r with
  | error e => cases h
  | ok a => exact ⟨a, rfl, h⟩

theorem eq_ok_of_mapError {f : ε → ε'} {a : α} (h : r.mapError f = .ok a) : r = .ok a := by
  cases r with
  | error e => cases h
  | ok a => exact congrArg _ (Except.ok.inj h)

end Results

namespace Stateful

variable {σ ε α β : Type}

@[simp] theorem pure_eq (a : α) (s : σ) : (pure a : StateT σ (Except ε) α) s = .ok (a, s) :=
  rfl

@[simp] theorem bind_eq (m : StateT σ (Except ε) α) (f : α → StateT σ (Except ε) β) (s : σ) :
    (m >>= f) s =
      match m s with
      | .ok (a, s') => f a s'
      | .error e => .error e := by
  change (m s >>= fun x => f x.1 x.2) = _
  rcases m s with e | ⟨a, s'⟩ <;> rfl

@[simp] theorem map_eq (f : α → β) (m : StateT σ (Except ε) α) (s : σ) :
    (f <$> m) s =
      match m s with
      | .ok (a, s') => .ok (f a, s')
      | .error e => .error e := by
  rw [← bind_pure_comp, bind_eq]
  rfl

@[simp] theorem get_eq (s : σ) : (get : StateT σ (Except ε) σ) s = .ok (s, s) :=
  rfl

@[simp] theorem set_eq (s s' : σ) : (set s' : StateT σ (Except ε) PUnit) s = .ok (⟨⟩, s') :=
  rfl

@[simp] theorem modify_eq (f : σ → σ) (s : σ) :
    (modify f : StateT σ (Except ε) PUnit) s = .ok (⟨⟩, f s) :=
  rfl

end Stateful

end LoopPainter

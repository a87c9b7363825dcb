import Mathlib.Logic.Function.Iterate

/-!
The values a map goes through from a start, as long as it has not come back to it: where the
map is injective, they are distinct.
-/

namespace BoringTun

/-- `x` is `n` steps from `start`, and none of them came back to `start`. -/
structure Along {α : Type*} (f : α → α) (start : α) (n : Nat) (x : α) : Prop where
  eq : x = f^[n] start
  away : ∀ k, 0 < k → k ≤ n → f^[k] start ≠ start

namespace Along

variable {α : Type*} {f : α → α} {start x : α} {n : Nat}

theorem zero (f : α → α) (start : α) : Along f start 0 start where
  eq := rfl
  away k hpos hle := absurd hpos (by omega)

theorem succ (h : Along f start n x) (hne : f x ≠ start) : Along f start (n + 1) (f x) where
  eq := by rw [h.eq, Function.iterate_succ_apply']
  away k hpos hle := by
    rcases Nat.lt_or_eq_of_le hle with hlt | rfl
    · exact h.away k hpos (by omega)
    · rwa [Function.iterate_succ_apply', ← h.eq]

/-- The value reached has not been passed before. -/
theorem fresh (hinj : Function.Injective f) (h : Along f start n x) {k : Nat} (hk : k < n) :
    f^[k] start ≠ x := by
  intro heq
  have hsplit : f^[k] (f^[n - k] start) = f^[k] start := by
    rw [← Function.iterate_add_apply, Nat.add_sub_cancel' (by omega), ← h.eq, heq]
  exact h.away (n - k) (by omega) (by omega) (hinj.iterate k hsplit)

end Along

end BoringTun

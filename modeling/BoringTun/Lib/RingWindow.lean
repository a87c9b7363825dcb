import Mathlib.Data.Nat.ModEq
import Mathlib.Data.Set.Insert

/-!
Sliding windows over a ring of bits.

A ring of `n` bits remembers which counters of the last `n` have been seen: the
bit of counter `c` is bit `c % n`. `Tracks n bits next seen` says that the ring
is exact on the window `[next - n, next)`. The two moves a window makes keep it:

* `Tracks.fill`: a counter inside the window is recorded, nothing else moves;
* `Tracks.slide`: the window moves up to a new highest counter, the bits of the
  counters it skips have been cleared.

Both ask what the move does to the bits of the counters of a window;
`mod_ne_of_window` says that inside one window no two counters share a bit.
-/

namespace BoringTun.RingWindow

/-- The ring `bits` of size `n` records exactly the members of `seen` among the
`n` counters below `next`, and nothing at or above `next` has been seen. -/
structure Tracks (n : Nat) (bits : Nat → Bool) (next : Nat) (seen : Set Nat) : Prop where
  seen_lt : ∀ c ∈ seen, c < next
  bit_iff : ∀ c, c < next → next ≤ c + n → (bits (c % n) = true ↔ c ∈ seen)

/-- Two different counters less than `n` apart use different bits. -/
theorem mod_ne_of_window {n c d : Nat} (hcd : c < d) (hn : d < c + n) : c % n ≠ d % n := by
  intro h
  have hdvd : n ∣ d - c := (Nat.modEq_iff_dvd' (le_of_lt hcd)).mp h
  have hle : n ≤ d - c := Nat.le_of_dvd (by omega) hdvd
  omega

variable {n next : Nat} {bits bits' : Nat → Bool} {seen : Set Nat}

/-- Recording a counter inside the window: the bits of its other counters stay. -/
theorem Tracks.fill {c : Nat} (h : Tracks n bits next seen) (hlt : c < next)
    (hset : bits' (c % n) = true)
    (hkeep : ∀ d, d < next → d ≠ c → next ≤ d + n → bits' (d % n) = bits (d % n)) :
    Tracks n bits' next (insert c seen) where
  seen_lt := by
    rintro d (rfl | hd)
    · exact hlt
    · exact h.seen_lt d hd
  bit_iff := by
    intro d hd hdwin
    by_cases hdc : d = c
    · subst hdc
      simp [hset]
    · rw [hkeep d hd hdc hdwin, h.bit_iff d hd hdwin]
      simp [hdc]

/-- Moving the window up so that `c` becomes its highest counter: the bits of the
skipped counters read clear, those of the counters that stay are untouched. -/
theorem Tracks.slide {c : Nat} (h : Tracks n bits next seen) (hge : next ≤ c)
    (hset : bits' (c % n) = true)
    (hclear : ∀ d, next ≤ d → d < c → c < d + n → bits' (d % n) = false)
    (hkeep : ∀ d, d < next → c < d + n → bits' (d % n) = bits (d % n)) :
    Tracks n bits' (c + 1) (insert c seen) where
  seen_lt := by
    rintro d (rfl | hd)
    · omega
    · have := h.seen_lt d hd
      omega
  bit_iff := by
    intro d hd hdwin
    rcases Nat.lt_trichotomy d next with hlt | rfl | hgt
    · rw [hkeep d hlt (by omega), h.bit_iff d hlt (by omega)]
      have hdc : d ≠ c := by omega
      simp [hdc]
    · by_cases hdc : d = c
      · subst hdc
        simp [hset]
      · have hnot : d ∉ seen := fun hmem => Nat.lt_irrefl _ (h.seen_lt d hmem)
        simp [hclear d le_rfl (by omega) (by omega), hdc, hnot]
    · by_cases hdc : d = c
      · subst hdc
        simp [hset]
      · have hnot : d ∉ seen := fun hmem => by
          have := h.seen_lt d hmem
          omega
        simp [hclear d (by omega) (by omega) (by omega), hdc, hnot]

end BoringTun.RingWindow

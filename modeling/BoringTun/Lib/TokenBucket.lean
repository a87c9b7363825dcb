import Mathlib.Logic.Basic

/-!
A token bucket that is refilled when it is looked at: it holds a balance and the instant the
balance is for. `rate` tokens accrue in each unit of time, up to `cap`.

* `available_spend_zero`: looking does not change what is available later;
* `spend_cases`: a bucket that is written is another one, and none that it was before;
* `headroom`: what can be spent from an instant on, and that every spending takes from it.
-/

namespace BoringTun

/-- A balance and the instant it is for. -/
structure TokenBucket where
  tokens : Nat
  stamp : Nat
  deriving DecidableEq

namespace TokenBucket

variable (rate cap : Nat) (b : TokenBucket)

/-- The balance at `now`. -/
def available (now : Nat) : Nat := min (b.tokens + (now - b.stamp) * rate) cap

/-- The bucket after `want` tokens were taken at `now`. -/
def spend (now want : Nat) : TokenBucket := ⟨b.available rate cap now - want, now⟩

/-- What attempts that look at the bucket at `since` or later can take until `clock`. -/
def headroom (since clock : Nat) : Nat :=
  b.available rate cap since + (clock - max b.stamp since) * rate

/-- The order in which one bucket goes through its states. -/
def Before (b b' : TokenBucket) : Prop :=
  b.stamp < b'.stamp ∨ b.stamp = b'.stamp ∧ b'.tokens < b.tokens

variable {rate cap b} {now later since clock clock' want : Nat}

theorem available_le_cap : b.available rate cap now ≤ cap := Nat.min_le_right _ _

theorem available_spend_zero (hstamp : b.stamp ≤ now) (hlater : now ≤ later) :
    (b.spend rate cap now 0).available rate cap later = b.available rate cap later := by
  obtain ⟨passed, rfl⟩ := Nat.exists_eq_add_of_le hstamp
  obtain ⟨rest, rfl⟩ := Nat.exists_eq_add_of_le hlater
  unfold spend available
  dsimp only
  rw [Nat.add_sub_cancel_left, Nat.add_sub_cancel_left, Nat.add_assoc b.stamp passed rest,
    Nat.add_sub_cancel_left, Nat.add_mul]
  omega

/-! ### The order of the states -/

theorem Before.irrefl : ¬ b.Before b := by
  rintro (h | ⟨-, h⟩)
  · exact Nat.lt_irrefl _ h
  · exact Nat.lt_irrefl _ h

theorem Before.trans {b₁ b₂ b₃ : TokenBucket} (h : b₁.Before b₂) (h' : b₂.Before b₃) :
    b₁.Before b₃ := by
  unfold Before at *
  omega

/-- Writing a bucket leaves it as it is, or brings it to a state it was not in before. -/
theorem spend_cases (hstamp : b.stamp ≤ now) (hwant : want ≤ b.available rate cap now) :
    b.spend rate cap now want = b ∧ want = 0 ∨ b.Before (b.spend rate cap now want) := by
  rcases Nat.eq_or_lt_of_le hstamp with rfl | hlt
  · have hle : b.available rate cap b.stamp ≤ b.tokens := by
      unfold available
      rw [Nat.sub_self, Nat.zero_mul]
      exact Nat.min_le_left _ _
    by_cases htokens : b.available rate cap b.stamp - want = b.tokens
    · left
      refine ⟨?_, by omega⟩
      unfold spend
      rw [htokens]
    · right
      right
      refine ⟨rfl, ?_⟩
      change b.available rate cap b.stamp - want < b.tokens
      omega
  · exact .inr (.inl hlt)

/-! ### What can be spent -/

theorem headroom_le (hsince : since ≤ clock) :
    b.headroom rate cap since clock ≤ cap + (clock - since) * rate := by
  have hcap : b.available rate cap since ≤ cap := available_le_cap
  have hspan : (clock - max b.stamp since) * rate ≤ (clock - since) * rate :=
    Nat.mul_le_mul_right rate (by omega)
  unfold headroom
  omega

/-- Time adds what accrues in it. -/
theorem headroom_later (hstamp : b.stamp ≤ clock) (hsince : since ≤ clock)
    (hclock : clock ≤ clock') : b.headroom rate cap since clock' =
      b.headroom rate cap since clock + (clock' - clock) * rate := by
  have hsplit : clock' - max b.stamp since = clock - max b.stamp since + (clock' - clock) := by
    omega
  unfold headroom
  rw [hsplit, Nat.add_mul, Nat.add_assoc]

/-- What is spent is taken from the headroom. -/
theorem headroom_spend (hfull : b.tokens ≤ cap) (hstamp : b.stamp ≤ now) (hsince : since ≤ now)
    (hclock : now ≤ clock) (hwant : want ≤ b.available rate cap now) :
    want + (b.spend rate cap now want).headroom rate cap since clock ≤
      b.headroom rate cap since clock := by
  have hspent : (b.spend rate cap now want).headroom rate cap since clock ≤
      b.available rate cap now - want + (clock - now) * rate := by
    unfold headroom
    have havailable : (b.spend rate cap now want).available rate cap since ≤
        b.available rate cap now - want := by
      unfold spend available
      dsimp only
      rw [Nat.sub_eq_zero_of_le hsince, Nat.zero_mul]
      exact Nat.min_le_left _ _
    have hspan : clock - max (b.spend rate cap now want).stamp since = clock - now := by
      unfold spend
      dsimp only
      omega
    rw [hspan]
    exact Nat.add_le_add_right havailable _
  have hgrown : b.available rate cap now ≤
      b.available rate cap since + (now - max b.stamp since) * rate := by
    unfold available
    rcases Nat.le_total b.stamp since with hle | hle
    · have hsplit : now - b.stamp = since - b.stamp + (now - since) := by omega
      rw [hsplit, Nat.add_mul, Nat.max_eq_right hle]
      omega
    · rw [Nat.sub_eq_zero_of_le hle, Nat.zero_mul, Nat.max_eq_left hle]
      omega
  have hsplit : (clock - max b.stamp since) * rate =
      (now - max b.stamp since) * rate + (clock - now) * rate := by
    rw [← Nat.add_mul]
    congr 1
    omega
  unfold headroom at hspent ⊢
  omega

end TokenBucket

end BoringTun

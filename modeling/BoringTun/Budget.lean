import BoringTun.Errors
import BoringTun.Packet

/-!
Output budgets of one operation (`noise/budget.rs`).

Every producer admits its mandatory datagram before it consumes anything, and hands
the ceiling to the optional bytes. 0 is unbounded. Sizes are those of slices in
memory plus small constants, so the checked additions of the source do not overflow.
-/

namespace BoringTun

structure OutputBudget where
  transport : Nat := 0
  control : Nat := 0
  /-- `control` bounds ordinary junk only. -/
  ordinaryJunkOnly : Bool := false
  deriving DecidableEq

/-- A control datagram, as the control budget tells them apart. -/
inductive ControlOutput where
  | ordinaryJunk | other
  deriving DecidableEq, Repr

namespace OutputBudget

def UNBOUNDED : OutputBudget := {}

def controlFor (budget : OutputBudget) : ControlOutput → Nat
  | .other => if budget.ordinaryJunkOnly then 0 else budget.control
  | .ordinaryJunk => budget.control

end OutputBudget

namespace Budget

def exceeds (mandatory budget : Nat) : Bool := budget ≠ 0 && mandatory > budget

def ceiling (dstLen budget : Nat) : Nat := if budget = 0 then dstLen else min dstLen budget

/-- Admit a mandatory datagram; the budget is checked before the destination. -/
def admits (mandatory dstLen budget : Nat) : Result Nat :=
  if exceeds mandatory budget then .error .outputBudgetExceeded
  else if mandatory ≤ dstLen then .ok (ceiling dstLen budget)
  else .error .destinationBufferTooSmall

/-- The mandatory size of a transport frame, before padding. -/
def transportFrame (plaintextLen s4 : Nat) : Nat := plaintextLen + DATA_OVERHEAD_SZ + s4

/-- The sizes a junk datagram may be drawn from under a control budget. -/
def junkRange (range : Nat × Nat) (protocolShaped : Bool) (control : Nat) : Result (Nat × Nat) :=
  if control = 0 then .ok range
  else
    let (lo, hi) := range
    if !protocolShaped then .ok (min lo control, min hi control)
    else if lo > min hi control then .error .outputBudgetExceeded
    else .ok (lo, min hi control)

variable {mandatory dstLen budget limit : Nat}

/-- A datagram is admitted when it fits the budget and the destination. -/
theorem admits_eq_ok : admits mandatory dstLen budget = .ok limit ↔
    exceeds mandatory budget = false ∧ mandatory ≤ dstLen ∧ limit = ceiling dstLen budget := by
  unfold admits
  split
  · next hover => simp [hover]
  · next hwithin =>
    split
    · next hfits => simp [hwithin, hfits, eq_comm]
    · next hshort => simp [hshort]

theorem admits_eq_error {e : WireGuardError} (h : admits mandatory dstLen budget = .error e) :
    e = .outputBudgetExceeded ∨ e = .destinationBufferTooSmall := by
  unfold admits at h
  split at h
  · cases h
    exact .inl rfl
  · split at h
    · cases h
    · cases h
      exact .inr rfl

/-- The ceiling is the destination, and the budget where there is one. -/
theorem le_ceiling_iff {size : Nat} :
    size ≤ ceiling dstLen budget ↔ size ≤ dstLen ∧ (budget ≠ 0 → size ≤ budget) := by
  unfold ceiling
  split
  · next hzero => simp [hzero]
  · next hne => simp [hne]

/-- What was admitted also fits the ceiling. -/
theorem le_ceiling (hbudget : exceeds mandatory budget = false) (hdst : mandatory ≤ dstLen) :
    mandatory ≤ ceiling dstLen budget := by
  refine le_ceiling_iff.mpr ⟨hdst, fun hne => ?_⟩
  simpa [exceeds, hne] using hbudget

theorem ceiling_le : ceiling dstLen budget ≤ dstLen :=
  (le_ceiling_iff.mp (Nat.le_refl _)).1

end Budget

end BoringTun

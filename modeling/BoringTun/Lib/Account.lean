import Mathlib.Data.List.Count
import Mathlib.Data.List.Forall2

/-!
Accounts of a run.

`visits` lists the states a run goes through with the event each one takes, and a ledger has
one entry for each.

* `Quota` is how a counter in the state bounds what is admitted: some events are counted, the
  state keeps a tally of them, and an event is admitted only below the quota. A tally that
  wraps or saturates is one that says so only up to `reliable`.
* `Shifts` is one move of a queue. What every event moves in at the back and out at the front
  adds up: the queue holds what went in and has not come out (`shifts_flatMap`).
-/

namespace BoringTun

variable {σ ε γ α : Type*}

/-- The states of a run before each of its events, with the event. -/
def visits (step : σ → ε → σ) : σ → List ε → List (σ × ε)
  | _, [] => []
  | s, event :: events => (s, event) :: visits step (step s event) events

theorem visits_append (step : σ → ε → σ) (s : σ) (events events' : List ε) :
    visits step s (events ++ events') =
      visits step s events ++ visits step (events.foldl step s) events' := by
  induction events generalizing s with
  | nil => rfl
  | cons event events ih => exact congrArg _ (ih _)

theorem visits_length (step : σ → ε → σ) (s : σ) (events : List ε) :
    (visits step s events).length = events.length := by
  induction events generalizing s with
  | nil => rfl
  | cons event events ih => exact congrArg _ (ih _)

/-! ### Quotas -/

structure Quota (step : σ → ε → σ) (counted admitted : σ × ε → Bool) (tally : σ → Nat → Prop)
    (reliable quota : Nat) : Prop where
  counts : ∀ visit, admitted visit → counted visit
  step : ∀ s event n, tally s n →
    tally (step s event) (if counted (s, event) then n + 1 else n)
  within : ∀ s event n, tally s n → n < reliable → admitted (s, event) → n < quota

namespace Quota

variable {step : σ → ε → σ} {counted admitted : σ × ε → Bool} {tally : σ → Nat → Prop}
  {reliable quota : Nat}

/-- With `n` counted so far, a run admits no more than what the quota leaves. -/
theorem countP_add_le (h : Quota step counted admitted tally reliable quota)
    (events : List ε) {s : σ} {n : Nat} (htally : tally s n)
    (hreliable : (visits step s events).countP counted + n ≤ reliable) :
    (visits step s events).countP admitted + n ≤ max n quota := by
  induction events generalizing s n with
  | nil => exact Nat.le_trans (Nat.le_of_eq (Nat.zero_add n)) (Nat.le_max_left n quota)
  | cons event events ih =>
    have hnext := h.step s event n htally
    rw [visits, List.countP_cons] at hreliable ⊢
    by_cases hcounted : counted (s, event) = true
    · rw [if_pos hcounted] at hnext hreliable
      have hrest := ih hnext (by omega)
      by_cases hadmitted : admitted (s, event) = true
      · have hbelow := h.within s event n htally (by omega) hadmitted
        rw [if_pos hadmitted]
        omega
      · rw [if_neg hadmitted]
        omega
    · rw [if_neg hcounted] at hnext hreliable
      have hadmitted : ¬ admitted (s, event) = true := fun h' => hcounted (h.counts _ h')
      rw [if_neg hadmitted]
      exact ih hnext hreliable

/-- From an empty tally. -/
theorem countP_le (h : Quota step counted admitted tally reliable quota) (events : List ε) {s : σ}
    (htally : tally s 0) (hreliable : (visits step s events).countP counted ≤ reliable) :
    (visits step s events).countP admitted ≤ quota := by
  have hle := h.countP_add_le events htally hreliable
  omega

end Quota

/-! ### Ledgers -/

/-- If every event can be entered, a run has a ledger. -/
theorem exists_ledger {entered : σ × ε → γ → Prop} (h : ∀ visit, ∃ entry, entered visit entry)
    (log : List (σ × ε)) : ∃ ledger, List.Forall₂ entered log ledger := by
  induction log with
  | nil => exact ⟨[], .nil⟩
  | cons visit log ih =>
    obtain ⟨entry, hentry⟩ := h visit
    obtain ⟨ledger, hledger⟩ := ih
    exact ⟨entry :: ledger, .cons hentry hledger⟩

/-- One move of a queue: `out` leaves at the front and `into` enters at the back. -/
def Shifts (out into queue queue' : List α) : Prop := queue ++ into = out ++ queue'

theorem Shifts.trans {out into out' into' queue queue' queue'' : List α}
    (h : Shifts out into queue queue') (h' : Shifts out' into' queue' queue'') :
    Shifts (out ++ out') (into ++ into') queue queue'' := by
  unfold Shifts at h h' ⊢
  rw [← List.append_assoc, h, List.append_assoc, h', List.append_assoc]

/-- The moves of a run add up. -/
theorem shifts_flatMap {step : σ → ε → σ} (queue : σ → List α) (out into : γ → List α)
    {entered : σ × ε → γ → Prop}
    (hentered : ∀ s event entry, entered (s, event) entry →
      Shifts (out entry) (into entry) (queue s) (queue (step s event)))
    {s : σ} {events : List ε} {ledger : List γ}
    (h : List.Forall₂ entered (visits step s events) ledger) :
    Shifts (ledger.flatMap out) (ledger.flatMap into) (queue s)
      (queue (events.foldl step s)) := by
  induction events generalizing s ledger with
  | nil =>
    cases h
    exact List.append_nil _
  | cons event events ih =>
    cases h with
    | cons hfirst hrest => exact (hentered s event _ hfirst).trans (ih hrest)

end BoringTun

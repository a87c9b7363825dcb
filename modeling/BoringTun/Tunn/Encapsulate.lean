import BoringTun.Tunn.Commit

/-!
Writing on a usable session (`Tunn::encapsulate_on_session` in `noise/mod.rs`) is atomic.

The admission is on the unpadded frame; the padding, the seal, the prefix and the mask come
after it, each with a failure branch of its own. Once the frame is admitted none of them is
taken (`encapsulateOnSession_admitted`), so `encapsulate_atomic`: a packet is refused and
nothing changes, or it is written with one nonce, and nothing else can happen.
-/

namespace BoringTun.Tunn

open AmneziaConfig

variable {P : Primitives}

/-- What a write on a session uses up: the nonce it was sealed with, and no other. -/
structure Sent (t : Tunn P) (session : Session P) (src wire : Bytes) (t' : Tunn P) : Prop where
  frame : ∃ rng pad, Frame P t.amnezia .transportData
    (session.message t.handshake.obf rng src pad) wire
  sessions : t'.sessions = Function.update t.sessions (slotOf t.current) (some session.advanced)

/-- **Encapsulation is atomic.** On a session that can send, a packet is refused for want of
room and nothing has changed, or it is written and one nonce is used. -/
theorem encapsulate_atomic (t : Tunn P) (env : Env P) (src dst : Bytes) (budget : OutputBudget)
    (hcurrent : t.hasCurrentSession = true) :
    (∃ e, (e = .destinationBufferTooSmall ∨ e = .outputBudgetExceeded) ∧
      t.encapsulate env src dst budget = (.err e, t, env)) ∨
    ∃ session wire t', t.selected = some session ∧
      t.encapsulate env src dst budget = (.writeToNetwork wire, t', env) ∧
      t.Sent session src wire t' := by
  rw [encapsulate, if_pos hcurrent]
  rcases encapsulateOnSession_acts src dst budget hcurrent with
    ⟨e, he, hout⟩ | ⟨wire, session, rng, rng', hselected, hout, hsealed⟩
  · rw [hout]
    exact .inl ⟨e, he, rfl⟩
  · rw [hout]
    exact .inr ⟨session, wire, _, hselected, rfl, hsealed.frame, rfl⟩

theorem encapsulate_atomic_byte :
    let peer := (byteHandshake byteHome bytePeer 1 4).peer
    peer.hasCurrentSession = true ∧ ∃ session wire t',
      peer.encapsulate (byteEnv 1 4) [69, 7] byteBuffer .UNBOUNDED =
        (.writeToNetwork wire, t', byteEnv 1 4) ∧ peer.Sent session [69, 7] wire t' := by
  intro peer
  have hcurrent : peer.hasCurrentSession = true := by decide +kernel
  refine ⟨hcurrent, ?_⟩
  rcases encapsulate_atomic peer (byteEnv 1 4) [69, 7] byteBuffer .UNBOUNDED hcurrent with
    ⟨e, -, hrefused⟩ | ⟨session, wire, t', -, hwritten, hsent⟩
  · have hwrites : (peer.encapsulate (byteEnv 1 4) [69, 7] byteBuffer .UNBOUNDED).1.isErr = false := by
      decide +kernel
    rw [hrefused] at hwrites
    cases hwrites
  · exact ⟨session, wire, t', hwritten, hsent⟩

end BoringTun.Tunn

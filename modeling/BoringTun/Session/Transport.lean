import BoringTun.Packet
import BoringTun.Session.ReplayWindow

/-!
A transport session (`Session` in `noise/session.rs`): sealing outgoing packets
under a nonce that is claimed once, opening incoming ones behind the replay window.

* `formatPacketData_eq_ok`: exactly when a session writes a message, and which;
* `receivePacketData_eq_ok`: exactly when a session opens a packet, and to what;
* `receivePacketData_sealed`: what one session seals, a session with the matching index
  and key opens, for every counter its window accepts;
* `session_delivers`: what a session delivers of all that arrives.
-/

namespace BoringTun

structure Session (P : Primitives) where
  receivingIndex : UInt32
  sendingIndex : UInt32
  receiver : P.Value
  sender : P.Value
  sendingKeyCounter : Nat
  receivingKeyCounter : Session.ReceivingKeyCounterValidator

namespace Session

open ReceivingKeyCounterValidator

variable {P : Primitives}

def new (localIndex peerIndex : UInt32) (receivingKey sendingKey : P.Value) : Session P where
  receivingIndex := localIndex
  sendingIndex := peerIndex
  receiver := receivingKey
  sender := sendingKey
  sendingKeyCounter := 0
  receivingKeyCounter := .default

/-- Every nonce has been used: the session can still receive, but not send. -/
def sendingExhausted (s : Session P) : Bool :=
  s.sendingKeyCounter ≥ REJECT_AFTER_MESSAGES

/-- Claim the next sending nonce; a refused claim leaves the counter where it is. -/
def claimSendingNonce (s : Session P) : Option (Nat × Session P) :=
  if s.sendingKeyCounter < REJECT_AFTER_MESSAGES then
    some (s.sendingKeyCounter, { s with sendingKeyCounter := s.sendingKeyCounter + 1 })
  else none

def receivingCounterQuickCheck (s : Session P) (counter : Nat) : Result Unit :=
  (s.receivingKeyCounter.willAccept counter).get (willAccept_isSome _ _)

def receivingCounterMark (s : Session P) (counter : Nat) : Result (Session P) :=
  match (s.receivingKeyCounter.markDidReceive counter).get (markDidReceive_isSome _ _) with
  | (.ok (), v) =>
    .ok { s with receivingKeyCounter := { v with receiveCnt := v.receiveCnt + 1 } }
  | (.error e, _) => .error e

/-- The message with its fields in wire order. -/
def dataMessage (tag : Nat) (receiverIdx : UInt32) (counter : Nat) (sealed : Bytes) : Bytes :=
  leBytes 4 tag ++ leBytes 4 receiverIdx.toNat ++ leBytes 8 counter ++ sealed

/-- Seal `src` followed by `pad` zero bytes into `dst`. -/
def formatPacketData (s : Session P) (obf : ObfuscationRanges) (rng : Rng) (src : Bytes)
    (pad : Nat) (dst : Bytes) : Result (Bytes × Session P × Rng) :=
  if dst.length < src.length + pad + DATA_OVERHEAD_SZ then .error .destinationBufferTooSmall
  else
    match s.claimSendingNonce with
    | none => .error .connectionExpired
    | some (counter, s') =>
      let (tag, rng) := obf.h4Data.random rng
      .ok (dataMessage tag s.sendingIndex counter
        (P.sealInPlace s.sender counter (src ++ List.replicate pad 0)), s', rng)

/-- Open a packet behind the replay window. The session is returned as the mark leaves
it; a refusal leaves it as it was. -/
def receivePacketData (s : Session P) (packet : PacketData) (dst : Bytes) :
    Result (Bytes × Session P) :=
  let ctLen := packet.encryptedEncapsulatedPacket.length
  if dst.length < ctLen then .error .destinationBufferTooSmall
  else if packet.receiverIdx ≠ s.receivingIndex then .error .wrongIndex
  else
    -- a replay is refused before any cryptography
    match s.receivingCounterQuickCheck packet.counter with
    | .error e => .error e
    | .ok () =>
      match P.openInPlace s.receiver packet.counter packet.encryptedEncapsulatedPacket with
      | none => .error .invalidAeadTag
      | some plaintext =>
        match s.receivingCounterMark packet.counter with
        | .error e => .error e
        | .ok s => .ok (plaintext, s)

/-! ### What is written and what is opened -/

section

variable {s : Session P} {obf : ObfuscationRanges} {rng : Rng} {src dst : Bytes} {pad : Nat}

@[simp] theorem length_dataMessage (tag : Nat) (receiverIdx : UInt32) (counter : Nat)
    (sealed : Bytes) : (dataMessage tag receiverIdx counter sealed).length = 16 + sealed.length := by
  simp only [dataMessage, List.length_append, length_leBytes]

/-- The message the session writes next. -/
def message (s : Session P) (obf : ObfuscationRanges) (rng : Rng) (src : Bytes) (pad : Nat) :
    Bytes :=
  dataMessage (obf.h4Data.random rng).1 s.sendingIndex s.sendingKeyCounter
    (P.sealInPlace s.sender s.sendingKeyCounter (src ++ List.replicate pad 0))

theorem length_message :
    (s.message obf rng src pad).length = src.length + pad + DATA_OVERHEAD_SZ := by
  simp only [message, length_dataMessage, P.length_sealInPlace, List.length_append,
    List.length_replicate, DATA_OVERHEAD_SZ]
  omega

/-- One nonce is used. -/
def advanced (s : Session P) : Session P := { s with sendingKeyCounter := s.sendingKeyCounter + 1 }

theorem formatPacketData_eq_ok {out : Bytes × Session P × Rng} :
    s.formatPacketData obf rng src pad dst = .ok out ↔
      src.length + pad + DATA_OVERHEAD_SZ ≤ dst.length ∧ s.sendingExhausted = false ∧
        out = (s.message obf rng src pad, s.advanced, (obf.h4Data.random rng).2) := by
  unfold formatPacketData claimSendingNonce sendingExhausted
  by_cases hroom : dst.length < src.length + pad + DATA_OVERHEAD_SZ
  · simp [hroom, Nat.not_le.mpr hroom]
  · by_cases hnonce : s.sendingKeyCounter < REJECT_AFTER_MESSAGES
    · simp only [hroom, hnonce, ↓reduceIte, Except.ok.injEq, Nat.not_lt.mp hroom, true_and,
        decide_eq_false_iff_not, Nat.not_le, ge_iff_le]
      exact eq_comm
    · simp [hroom, hnonce, Nat.not_lt.mp hnonce]

variable {packet : PacketData} {plaintext : Bytes} {s' : Session P}

theorem receivePacketData_eq_ok :
    s.receivePacketData packet dst = .ok (plaintext, s') ↔
      packet.encryptedEncapsulatedPacket.length ≤ dst.length ∧
        packet.receiverIdx = s.receivingIndex ∧
        s.receivingCounterQuickCheck packet.counter = .ok () ∧
        P.openInPlace s.receiver packet.counter packet.encryptedEncapsulatedPacket =
          some plaintext ∧
        s.receivingCounterMark packet.counter = .ok s' := by
  unfold receivePacketData
  dsimp only
  by_cases hroom : dst.length < packet.encryptedEncapsulatedPacket.length
  · simp [hroom, Nat.not_le.mpr hroom]
  by_cases hidx : packet.receiverIdx = s.receivingIndex
  · rw [if_neg hroom, if_neg (by simpa using hidx)]
    cases s.receivingCounterQuickCheck packet.counter with
    | error e => simp
    | ok _ =>
      cases P.openInPlace s.receiver packet.counter packet.encryptedEncapsulatedPacket with
      | none => simp
      | some opened =>
        cases s.receivingCounterMark packet.counter with
        | error e => simp
        | ok marked => simp [hidx, Nat.not_lt.mp hroom]
  · simp [hroom, hidx]

/-- The mark of a counter changes the window and nothing else. -/
theorem receivingCounterMark_eq_ok {counter : Nat} (h : s.receivingCounterMark counter = .ok s') :
    ∃ mark, s' = { s with receivingKeyCounter := mark } := by
  unfold receivingCounterMark at h
  split at h
  · cases h
    exact ⟨_, rfl⟩
  · cases h

/-- A session with the index and the key of the sender opens what was sealed, if its
window takes the counter. -/
theorem receivePacketData_sealed {receiver : Session P} (hidx : receiver.receivingIndex =
      packet.receiverIdx) (hroom : packet.encryptedEncapsulatedPacket.length ≤ dst.length)
    (hfresh : receiver.receivingKeyCounter.Admits packet.counter)
    (hsealed : packet.encryptedEncapsulatedPacket =
      P.sealInPlace receiver.receiver packet.counter plaintext) :
    ∃ marked, receiver.receivePacketData packet dst = .ok (plaintext, marked) := by
  obtain ⟨quick, hquick, hquick_iff⟩ := willAccept_spec receiver.receivingKeyCounter packet.counter
  obtain ⟨window, hmark, -⟩ := markDidReceive_accepted hfresh
  have hcheck : receiver.receivingCounterQuickCheck packet.counter = .ok () := by
    simp only [receivingCounterQuickCheck, hquick, Option.get_some]
    exact hquick_iff.mpr hfresh
  have hmarked : ∃ marked, receiver.receivingCounterMark packet.counter = .ok marked := by
    simp [receivingCounterMark, hmark]
  obtain ⟨marked, hmarked⟩ := hmarked
  refine ⟨marked, receivePacketData_eq_ok.mpr ⟨hroom, hidx.symm, hcheck, ?_, hmarked⟩⟩
  rw [hsealed]
  exact P.openInPlace_seal _ _ _

end

/-! ### All that arrives -/

/-- One arrival, genuine, repeated or forged: a packet and the buffer it is opened into. The log
has what was delivered, newest first. -/
def arrive (state : List (PacketData × Bytes) × Session P) (arrival : PacketData × Bytes) :
    List (PacketData × Bytes) × Session P :=
  match state.2.receivePacketData arrival.1 arrival.2 with
  | .error _ => state
  | .ok (plaintext, s) => ((arrival.1, plaintext) :: state.1, s)

def counters (log : List (PacketData × Bytes)) : List Nat := log.map (·.1.counter)

/-- What was delivered of `arrivals` is a packet for this session, and opened as it arrived. -/
def Opened (origin : Session P) (arrivals : List (PacketData × Bytes))
    (entry : PacketData × Bytes) : Prop :=
  (∃ dst, (entry.1, dst) ∈ arrivals) ∧ entry.1.receiverIdx = origin.receivingIndex ∧
    P.openInPlace origin.receiver entry.1.counter entry.1.encryptedEncapsulatedPacket =
      some entry.2

/-- The window of `origin` has moved by what is in the log, and nothing else has. -/
structure Logged (origin : Session P) (arrivals : List (PacketData × Bytes))
    (state : List (PacketData × Bytes) × Session P) : Prop where
  once : (counters state.1).Nodup
  opened : ∀ entry ∈ state.1, Opened origin arrivals entry
  tracked : state.2.receivingKeyCounter.Tracked {c | c ∈ counters state.1}
  same : ∃ mark, state.2 = { origin with receivingKeyCounter := mark }

theorem quickCheck_eq_ok {s : Session P} {counter : Nat} :
    s.receivingCounterQuickCheck counter = .ok () ↔ s.receivingKeyCounter.Admits counter := by
  obtain ⟨quick, hquick, hiff⟩ := willAccept_spec s.receivingKeyCounter counter
  simp only [receivingCounterQuickCheck, hquick, Option.get_some, hiff]

theorem Logged.arrive {origin : Session P} {arrivals : List (PacketData × Bytes)}
    {state : List (PacketData × Bytes) × Session P} (h : Logged origin arrivals state)
    {arrival : PacketData × Bytes} (hmem : arrival ∈ arrivals) :
    Logged origin arrivals (Session.arrive state arrival) := by
  unfold Session.arrive
  split
  · exact h
  · next plaintext s hreceive =>
    obtain ⟨-, hidx, hquick, hopen, hmark⟩ := receivePacketData_eq_ok.mp hreceive
    have hadmits := quickCheck_eq_ok.mp hquick
    obtain ⟨w, hrun, hw⟩ := h.tracked.accept hadmits
    obtain ⟨mark, hsame⟩ := h.same
    simp only [receivingCounterMark, hrun, Option.get_some, Except.ok.injEq] at hmark
    rw [hsame] at hmark hidx hopen
    refine ⟨List.nodup_cons.mpr ⟨(h.tracked.admits_iff.mp hadmits).2.2, h.once⟩,
      List.forall_mem_cons.mpr ⟨⟨⟨arrival.2, hmem⟩, hidx, hopen⟩, h.opened⟩, ?_, _, hmark.symm⟩
    simp only [← hmark, counters, List.map_cons, List.mem_cons]
    exact ⟨hw.tracks, hw.next_mem⟩

/-- **Forgeries and repetitions cost nothing.** Of all that arrives at a new session no counter
is delivered twice, and only packets that opened under its key as they arrived. What the peer
seals is then delivered if and only if the buffer holds it and its counter is below the limit,
inside the window behind the highest one delivered, and not delivered yet. -/
theorem session_delivers (localIndex peerIndex : UInt32) (receivingKey sendingKey : P.Value)
    (arrivals : List (PacketData × Bytes)) : ∃ log s,
      arrivals.foldl arrive ([], .new localIndex peerIndex receivingKey sendingKey) = (log, s) ∧
      (counters log).Nodup ∧
      (∀ entry ∈ log,
        Opened (.new localIndex peerIndex receivingKey sendingKey) arrivals entry) ∧
      ∀ counter plaintext dst, (∃ s', s.receivePacketData
          ⟨localIndex, counter, P.sealInPlace receivingKey counter plaintext⟩ dst =
            .ok (plaintext, s')) ↔
        plaintext.length + 16 ≤ dst.length ∧ counter < REJECT_AFTER_MESSAGES ∧
          windowTop (counters log) ≤ counter + N_BITS ∧ counter ∉ counters log := by
  have h : Logged (.new localIndex peerIndex receivingKey sendingKey) arrivals
      (arrivals.foldl arrive ([], .new localIndex peerIndex receivingKey sendingKey)) := by
    refine List.foldlRecOn arrivals arrive ⟨.nil, nofun, ?_, _, rfl⟩ fun _ h _ hmem =>
      h.arrive hmem
    simpa [new, counters] using tracked_default
  refine ⟨_, _, rfl, h.once, h.opened, fun counter plaintext dst => ?_⟩
  obtain ⟨mark, hsame⟩ := h.same
  rw [← h.tracked.next_eq_windowTop, ← P.length_sealInPlace receivingKey counter]
  refine .trans ?_ (and_congr_right fun _ => h.tracked.admits_iff)
  constructor
  · rintro ⟨s', hreceive⟩
    obtain ⟨hroom, -, hquick, -⟩ := receivePacketData_eq_ok.mp hreceive
    exact ⟨hroom, quickCheck_eq_ok.mp hquick⟩
  · rintro ⟨hroom, hadmits⟩
    exact receivePacketData_sealed (by rw [hsame]; rfl) hroom hadmits (by rw [hsame]; rfl)

end Session

end BoringTun

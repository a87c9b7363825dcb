import BoringTun.Cookie
import BoringTun.SessionSerials
import BoringTun.Tunn.Memory

/-!
The local indices of a tunnel.

A tunnel is made with 24 bits of its own, and numbers its handshakes and sessions by the byte
below them (`inc_index` in `noise/handshake.rs`). `Numbered` says that of every index it holds;
it is kept by every call and by every commit, and what a numbered handshake puts on the wire
has the 24 bits at its head (`Handshake.Formats.numbered`).
-/

namespace BoringTun

variable {P : Primitives}

/-- The top 24 bits of an index. -/
def indexBlock (index : UInt32) : Nat := index.toNat / 2 ^ 8

namespace Handshake

/-- Only the low byte moves, and it wraps round. -/
theorem indexBlock_succIndex (index : UInt32) : indexBlock (succIndex index) = indexBlock index := by
  have hlt := index.toNat_lt
  unfold indexBlock succIndex
  rw [UInt32.toNat_ofNat']
  omega

theorem indexBlock_succIndexAvoiding (index : UInt32) (reservedSlot : Nat) :
    indexBlock (succIndexAvoiding index reservedSlot) = indexBlock index := by
  unfold succIndexAvoiding
  split
  · rw [indexBlock_succIndex, indexBlock_succIndex]
  · exact indexBlock_succIndex index

/-- The local indices a handshake holds are in one block: the last handed out, those of the
initiations in flight, and that of the message a cookie reply may answer. -/
structure Memory.Numbered (block : Nat) (m : Memory P) : Prop where
  next : indexBlock m.nextIndex = block
  state : ∀ sent, m.state = .initSent sent → indexBlock sent.localIndex = block
  previous : ∀ sent, m.previous = .initSent sent → indexBlock sent.localIndex = block
  cookies : ∀ mac1, m.cookies.lastMac1 = some mac1 → indexBlock m.cookies.index = block

namespace Memory.Numbered

variable {block : Nat} {h : Handshake P}

theorem initiated (hm : h.memory.Numbered block) (env : Env P) :
    (h.initiated env).2.memory.Numbered block := by
  have hindex : indexBlock (succIndex h.nextIndex) = block :=
    (indexBlock_succIndex _).trans hm.next
  rw [memory_initiated]
  refine ⟨hindex, ?_, hm.state, fun _ _ => hindex⟩
  intro sent hsent
  cases hsent
  exact hindex

theorem answeredInit (hm : h.memory.Numbered block) (env : Env P) (init : AuthenticatedInit P)
    (reservedSlot : Nat) : (h.answeredInit env init reservedSlot).2.memory.Numbered block := by
  have hindex : indexBlock (h.responderIndex reservedSlot) = block :=
    (indexBlock_succIndexAvoiding _ _).trans hm.next
  rw [memory_answeredInit]
  exact ⟨hindex, nofun, hm.state, fun _ _ => hindex⟩

end Memory.Numbered

theorem Step.numbered {block : Nat} {event : Event P} {m m' : Memory P} (hstep : Step event m m')
    (hm : m.Numbered block) : m'.Numbered block := by
  cases hstep with
  | initiate env => exact hm.initiated env
  | accept env reservedSlot hauth => exact hm.answeredInit env _ reservedSlot
  | @complete h now packet response hauth =>
    rw [memory_commitResponse]
    split
    · exact ⟨hm.next, hm.state, nofun, hm.cookies⟩
    · exact ⟨hm.next, nofun, hm.previous, hm.cookies⟩
  | cookie hauth => exact ⟨hm.next, hm.state, hm.previous, nofun⟩
  | forgetCookie | rekey params hpeer => exact ⟨hm.next, hm.state, hm.previous, hm.cookies⟩
  | expire => exact ⟨hm.next, nofun, nofun, hm.cookies⟩

theorem Memory.Numbered.trace {block : Nat} {events : List (Event P)} {m m' : Memory P}
    (hm : m.Numbered block) (htrace : Trace Step m events m') : m'.Numbered block := by
  induction htrace with
  | nil => exact hm
  | cons hstep _ ih => exact ih (hstep.numbered hm)

/-- A message of a numbered handshake has the block at bytes 4 to 8. -/
theorem Formats.numbered {block : Nat} {h h' : Handshake P} {message : Bytes}
    (hformat : h.Formats message h') (hm : h.memory.Numbered block) :
    ∃ index : UInt32, slice message 4 8 = leBytes 4 index.toNat ∧ indexBlock index = block := by
  obtain ⟨body, index, hsent⟩ := hformat.sent
  have hafter : h'.memory.Numbered block := by
    cases hformat with
    | @initiation env env' dst packet heq =>
      have hdst : HANDSHAKE_INIT_SZ ≤ dst.length := by
        by_contra hshort
        simp [formatHandshakeInitiation, Nat.lt_of_not_le hshort] at heq
      rw [formatHandshakeInitiation_spec _ _ _ hdst] at heq
      cases heq
      exact hm.initiated env
    | @response env env' dst reservedSlot init packet session heq =>
      have hdst : HANDSHAKE_RESP_SZ ≤ dst.length := by
        by_contra hshort
        rw [commitInitiation_tooSmall _ _ _ _ _ (Nat.lt_of_not_le hshort)] at heq
        cases heq
      rw [commitInitiation_spec _ _ _ _ _ hdst] at heq
      cases heq
      exact hm.answeredInit env init reservedSlot
  refine ⟨index, hsent.senderIdx, ?_⟩
  rw [← hsent.index]
  exact hafter.cookies _ hsent.lastMac1

/-! ### What is accepted -/

/-- A response names an index of the block, and so does its session. -/
theorem authenticateResponse_numbered {block : Nat} {h : Handshake P} {now : Nat}
    {packet : HandshakeResponse P} {response : AuthenticatedResponse P}
    (hm : h.memory.Numbered block) (hauth : h.authenticateResponse now packet = .ok response) :
    indexBlock packet.receiverIdx = block ∧
      indexBlock response.session.receivingIndex = block := by
  obtain ⟨sent, -, hindex, hslot, -, hsession⟩ := authenticateResponse_eq_ok hauth
  have hblock : indexBlock sent.localIndex = block := by
    split at hslot
    · exact hm.previous sent hslot
    · exact hm.state sent hslot
  exact ⟨hindex ▸ hblock, by rw [hsession]; exact hblock⟩

theorem authenticateCookieReply_numbered {block : Nat} {h : Handshake P}
    {packet : PacketCookieReply} {cookie : Bytes} (hm : h.memory.Numbered block)
    (hauth : h.authenticateCookieReply packet = .ok cookie) :
    indexBlock packet.receiverIdx = block := by
  unfold authenticateCookieReply at hauth
  split at hauth
  · cases hauth
  · next mac1 hmac1 =>
    split at hauth
    · cases hauth
    · next hindex =>
      rw [not_not.mp hindex]
      exact hm.cookies mac1 hmac1

end Handshake

namespace Core

/-- The index of the session a datagram brings. -/
theorem Accepts.stored {c c' : Core P} {packet : Authenticated P} {result : TunnResult}
    {slot : Fin N_SESSIONS} {session' : Session P} (h : c.Accepts packet result c')
    (hslot : c.storedSlot (.accept packet) = some slot) (hsession : c'.ring slot = some session') :
    session'.receivingIndex = Handshake.succIndexAvoiding c.index (c.current % N_SESSIONS) ∨
      ∃ response, packet = .handshakeResponse response ∧
        session'.receivingIndex = response.session.receivingIndex := by
  cases h with
  | @answered init wire session r₁ r₂ r₃ learned hindex hother hwire =>
    left
    obtain rfl : slotOf session.receivingIndex.toNat = slot := by
      rw [hindex]
      exact Option.some.inj hslot
    change Function.update c.ring _ (some session) _ = some session' at hsession
    rw [Function.update_self] at hsession
    rw [← Option.some.inj hsession, hindex]
  | @completed response wire session r₁ r₂ r₃ timers htimers hindex hsent hwire =>
    right
    obtain rfl : slotOf session.receivingIndex.toNat = slot := by
      rw [hindex]
      exact Option.some.inj hslot
    rw [Core.select_eq] at hsession
    change Function.update (c.retire response.isPrevious).ring _ (some session) _ =
      some session' at hsession
    rw [Function.update_self] at hsession
    exact ⟨response, rfl, by rw [← Option.some.inj hsession, hindex]⟩
  | cookie | data => cases hslot

end Core

/-! ### Tunnels -/

namespace Tunn

/-- Every local index of a tunnel is in one block. -/
structure Numbered (block : Nat) (t : Tunn P) : Prop where
  memory : t.memory.Numbered block
  sessions : ∀ slot session, t.sessions slot = some session →
    indexBlock session.receivingIndex = block

variable {t : Tunn P} {block : Nat}

theorem Numbered.of_new {staticPrivate : P.Secret} {peerStaticPublic : P.Value}
    {presharedKey : Option P.Value} {persistentKeepalive : Option Nat} {index : UInt32}
    {rateLimiter : Option (RateLimiter P)} {obf : ObfuscationRanges} {amnezia : AmneziaConfig}
    {seed : TunnSeed P} (hindex : index.toNat < 2 ^ 24)
    (h : newWithObfuscation staticPrivate peerStaticPublic presharedKey persistentKeepalive index
      rateLimiter obf amnezia seed = .ok t) : t.Numbered index.toNat := by
  have hblock : indexBlock (index <<< 8) = index.toNat := by
    unfold indexBlock
    rw [UInt32.toNat_shiftLeft, show (8 : UInt32).toNat % 32 = 8 from rfl, Nat.shiftLeft_eq]
    omega
  unfold newWithObfuscation at h
  split at h
  · cases h
  · split at h
    · cases h
    · cases h
      exact ⟨⟨hblock, nofun, nofun, nofun⟩, nofun⟩

/-- What stays in a slot is the session that was there. -/
theorem Numbered.keeps (h : t.Numbered block) {t' : Tunn P} {slot : Fin N_SESSIONS}
    {session' : Session P} (hkeeps : t.core.Keeps t'.core slot)
    (hsession : t'.sessions slot = some session') : indexBlock session'.receivingIndex = block := by
  cases hkeeps with
  | vacant _ hring | cleared hring => exact absurd (hring.symm.trans hsession) nofun
  | @held session _ hold hring hsame =>
    obtain rfl := Option.some.inj (hring.symm.trans hsession)
    obtain ⟨counter, mark, rfl⟩ := hsame
    exact h.sessions slot session hold

/-- Committing an authenticated packet keeps to the block. -/
theorem Numbered.commit (h : t.Numbered block) (env : Env P) {dst : Bytes} {budget : OutputBudget}
    {packet : Authenticated P} (hgen : t.Genuine dst budget packet) (datagram : Bytes)
    (hint : Option AmneziaImitationProtocol) :
    (t.commitWithImitationAndBudget env packet datagram hint dst budget).2.1.Numbered block := by
  obtain ⟨events, -, htrace⟩ := commit_trace env hgen datagram hint
  refine ⟨h.memory.trace htrace, ?_⟩
  intro slot session' hsession
  have haccepts := core_commit t env budget hgen datagram hint
  have hslots := (Core.Moves.accepts haccepts).slots
  by_cases hstored : t.core.storedSlot (.accept packet) = some slot
  · rcases haccepts.stored hstored hsession with hindex | ⟨response, rfl, hindex⟩
    · rw [hindex, Handshake.indexBlock_succIndexAvoiding]
      exact h.memory.next
    · obtain ⟨-, -, now, raw, hauth⟩ := hgen
      rw [hindex]
      exact (Handshake.authenticateResponse_numbered h.memory hauth).2
  · exact h.keeps (hslots.kept slot hstored) hsession

/-- A call that accepts a packet is a commit of it. -/
theorem after_of_accept {env : Env P} {op : Op P} {packet : Authenticated P}
    (h : t.action env op = .accept packet) :
    ∃ dst budget limiter env' datagram hint, t.Genuine dst budget packet ∧ t.after env op =
      ({ t with rateLimiter := limiter }.commitWithImitationAndBudget env' packet datagram hint dst
        budget).2.1 := by
  cases op with
  | decapsulate source datagram dst budget =>
    dsimp only [action] at h
    split at h
    · cases h
    next hempty =>
    split at h
    · next accepted haccepted =>
      cases h
      have hne : datagram ≠ [] := by simpa using hempty
      obtain ⟨hgen, limiter, env', hint, -, hcommit⟩ :=
        decapsulateSource_accepted env source datagram dst budget hne haccepted
      refine ⟨dst, budget, limiter, env', datagram, hint, hgen, ?_⟩
      rw [← hcommit]
      rfl
    · cases h
  | _ => cases h

/-- Every call keeps to the block. -/
theorem Numbered.after (h : t.Numbered block) (env : Env P) (op : Op P) :
    (t.after env op).Numbered block := by
  by_cases haccept : ∃ packet, t.action env op = .accept packet
  · obtain ⟨packet, haccept⟩ := haccept
    obtain ⟨dst, budget, limiter, env', datagram, hint, hgen, hafter⟩ := after_of_accept haccept
    have hmoved : { t with rateLimiter := limiter }.Numbered block := ⟨h.memory, h.sessions⟩
    rw [hafter]
    exact hmoved.commit env' hgen datagram hint
  · obtain ⟨events, -, htrace⟩ := t.after_trace env op
    refine ⟨h.memory.trace htrace, fun slot session' hsession => ?_⟩
    have hnone : t.core.storedSlot (t.action env op) ≠ some slot := by
      cases haction : t.action env op with
      | accept packet => exact absurd ⟨packet, haction⟩ haccept
      | _ => nofun
    exact h.keeps ((t.core_after env op).slots.kept slot hnone) hsession

/-- A message the tunnel can write, from where its handshake is now or gets to by itself or with
what it hears. -/
def MayWrite (t : Tunn P) (message : Bytes) : Prop :=
  ∃ events h h', Trace Handshake.Step t.memory events (Handshake.memory h) ∧
    Handshake.Formats h message h'

/-- Every message has the block at bytes 4 to 8. -/
theorem Numbered.mayWrite (h : t.Numbered block) {message : Bytes} (hwrite : t.MayWrite message) :
    ∃ index : UInt32, slice message 4 8 = leBytes 4 index.toNat ∧ indexBlock index = block := by
  obtain ⟨events, handshake, after, htrace, hformats⟩ := hwrite
  exact hformats.numbered (h.memory.trace htrace)

/-- The index a packet is addressed to; an initiation has none. -/
def receiverOf : Packet P → Option UInt32
  | .handshakeInit _ => none
  | .handshakeResponse p => some p.receiverIdx
  | .packetCookieReply p => some p.receiverIdx
  | .packetData p => some p.receiverIdx

/-- A tunnel authenticates only what is addressed to its block. -/
theorem Numbered.receiver (h : t.Numbered block) {env env' : Env P} {dst : Bytes}
    {budget : OutputBudget} {packet : Packet P} {value : Authenticated P} {index : UInt32}
    (hauth : t.authenticateWithBudget dst budget env packet = (.ok value, env'))
    (hindex : receiverOf packet = some index) : indexBlock index = block := by
  unfold authenticateWithBudget at hauth
  cases packet with
  | handshakeInit p => cases hindex
  | handshakeResponse p =>
    cases hindex
    dsimp only at hauth
    split at hauth
    · cases hauth
    · split at hauth
      · cases hauth
      · next hresponse => exact (Handshake.authenticateResponse_numbered h.memory hresponse).1
  | packetCookieReply p =>
    cases hindex
    cases hcookie : t.handshake.authenticateCookieReply p with
    | error e =>
      simp only [hcookie] at hauth
      cases hauth
    | ok cookie => exact Handshake.authenticateCookieReply_numbered h.memory hcookie
  | packetData p =>
    cases hindex
    dsimp only at hauth
    split at hauth
    · cases hauth
    · next session hsession =>
      split at hauth
      · cases hauth
      · next hopen =>
        obtain ⟨-, hreceiver, -⟩ := Session.receivePacketData_eq_ok.mp hopen
        rw [hreceiver]
        exact h.sessions _ session hsession

end Tunn

end BoringTun

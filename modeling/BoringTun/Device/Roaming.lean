import BoringTun.Device.Peer
import BoringTun.Tunn.Learning

/-!
Committing what the unconnected socket accepted (`commit_anonymous` in `device/mod.rs`): a
new source is a new path, and its window is started before the packet is acted on. The
endpoint follows only if the commit succeeds; if it fails, the window is put back.

* `Peer.roaming`: a commit either leaves the peer on its path as it was, or on the new one
  with what belonged to the old one gone.
* `Peer.taught_drops_hint`: on the old path, an initiation that teaches an imitation uses up
  the pending hint.
-/

namespace BoringTun

namespace Tunn

variable {P : Primitives} (t : Tunn P) (env : Env P)

/-! ### The commit -/

variable (packet : Authenticated P) (datagram : Bytes) (hint : Option AmneziaImitationProtocol)
  (dst : Bytes) (budget : OutputBudget)

theorem pending_learnImitation :
    (t.learnImitation packet datagram hint).pending = t.autoImitation.pending := by
  unfold learnImitation
  dsimp only
  split
  · split
    · rfl
    · split <;> rfl
  · rfl

/-- What a commit does to the window and to the evidence. -/
structure CommitEffect (t : Tunn P) (packet : Authenticated P) (result : TunnResult)
    (t' : Tunn P) : Prop where
  window : result.isErr = false → t'.udpWindow = observedWindow t.amnezia packet t.udpWindow
  learned : result.isErr = true → t'.autoImitation.learned = t.autoImitation.learned
  /-- The hint is used up when something is learned. -/
  pending : t'.autoImitation.pending =
    if t'.autoImitation.learned = t.autoImitation.learned then t.autoImitation.pending else none

theorem commit_effect :
    t.CommitEffect packet (t.commitWithImitationAndBudget env packet datagram hint dst budget).1
      (t.commitWithImitationAndBudget env packet datagram hint dst budget).2.1 := by
  unfold commitWithImitationAndBudget
  dsimp only
  split
  · exact ⟨by rintro ⟨⟩, fun _ => rfl, by simp⟩
  · obtain ⟨hauto, hwindow⟩ := commitWithBudget_evidence
      { t with autoImitation := t.learnImitation packet datagram hint } env packet dst budget
    have hpending := t.pending_learnImitation packet datagram hint
    split
    · next herr =>
      exact ⟨fun hok => absurd (hok.symm.trans herr) Bool.false_ne_true, fun _ => rfl,
        by simp [hauto, hpending]⟩
    · next herr =>
      split
      · next hnew => exact ⟨fun _ => hwindow, fun h => absurd h herr, by
          simp [AutoImitation.clearPending, Ne.symm hnew]⟩
      · next hsame =>
        have hkept := (not_not.mp hsame).symm
        exact ⟨fun _ => hwindow, fun _ => hkept, by rw [if_pos hkept, hauto]; exact hpending⟩

/-- A cookie reply is always acted on, and teaches nothing. -/
theorem commit_cookieReply (cookie : Bytes) :
    (t.commitWithImitationAndBudget env (.cookieReply cookie) datagram hint dst budget).1 = .done ∧
      (t.learnImitation (.cookieReply cookie) datagram hint).learned = t.autoImitation.learned := by
  constructor
  · unfold commitWithImitationAndBudget
    rw [if_neg (by simp [isHandshakeInit])]
    dsimp only
    split
    · rfl
    · split
      · rfl
      · rfl
  · simp [learnImitation, isHandshakeInit]

end Tunn

namespace Peer

variable {P : Primitives}

/-! ### The device's commit -/

/-- Commit a reading of a datagram from `src`. The window it starts is provisional until the
commit succeeds. -/
def commitAnonymous (p : Peer P) (env : Env P) (packet : Authenticated P) (src : SocketAddr)
    (datagram : Bytes) (hint : Option AmneziaImitationProtocol) (dst : Bytes) :
    TunnResult × Peer P × Env P :=
  let movesEndpoint := packet.kind.movesEndpoint
  let (replaced, tunnel) :=
    if movesEndpoint ∧ p.endpoint.addr ≠ some src then
      let (window, tunnel) := p.tunnel.beginNewPath
      (some window, tunnel)
    else (none, p.tunnel)
  let (result, tunnel, env) :=
    tunnel.commitWithImitationAndBudget env packet datagram hint dst .UNBOUNDED
  let committed := !result.isErr
  let tunnel := match replaced with
    | some window =>
      if committed then tunnel.discardImitationHint else tunnel.restoreUdpWindow window
    | none => tunnel
  let p := { p with tunnel := tunnel }
  (result, if movesEndpoint ∧ committed then p.adoptEndpoint src else p, env)

/-- What a commit makes of a peer. -/
structure Roamed (p : Peer P) (packet : Authenticated P) (src : SocketAddr) (result : TunnResult)
    (p' : Peer P) : Prop where
  /-- A failed commit leaves the path as it was. -/
  failed : result.isErr = true →
    p'.endpoint = p.endpoint ∧
    p'.tunnel.autoImitation.pending = p.tunnel.autoImitation.pending ∧
    p'.tunnel.autoImitation.learned = p.tunnel.autoImitation.learned ∧
    (p.endpoint.addr ≠ some src → p'.tunnel.udpWindow = p.tunnel.udpWindow)
  /-- On a new path nothing is left of the old one. -/
  moved : result.isErr = false → packet.kind.movesEndpoint = true → p.endpoint.addr ≠ some src →
    p'.endpoint = { addr := some src, conn := none } ∧
    p'.tunnel.autoImitation.pending = none ∧
    p'.tunnel.udpWindow = Tunn.observedWindow p.tunnel.amnezia packet DEFAULT_UDP_WINDOW
  /-- On the old path nothing is reset, but a hint is used up by what it taught. -/
  stayed : result.isErr = false → packet.kind.movesEndpoint = true → p.endpoint.addr = some src →
    p'.endpoint = p.endpoint ∧
    p'.tunnel.autoImitation.pending =
      (if p'.tunnel.autoImitation.learned = p.tunnel.autoImitation.learned then
        p.tunnel.autoImitation.pending else none) ∧
    p'.tunnel.udpWindow = Tunn.observedWindow p.tunnel.amnezia packet p.tunnel.udpWindow
  /-- A cookie reply is no evidence of a path. -/
  cookie : packet.kind.movesEndpoint = false →
    result.isErr = false ∧ p'.endpoint = p.endpoint ∧
    p'.tunnel.autoImitation.pending = p.tunnel.autoImitation.pending ∧
    p'.tunnel.autoImitation.learned = p.tunnel.autoImitation.learned ∧
    p'.tunnel.udpWindow = p.tunnel.udpWindow

section

variable {p : Peer P} {env env' : Env P} {packet : Authenticated P} {src : SocketAddr}
  {datagram dst : Bytes} {hint : Option AmneziaImitationProtocol} {result : TunnResult}
  {tunnel : Tunn P}

/-- On the path the peer is on, or without evidence of another. -/
theorem commitAnonymous_staying
    (h : ¬(packet.kind.movesEndpoint = true ∧ p.endpoint.addr ≠ some src))
    (hcommit : p.tunnel.commitWithImitationAndBudget env packet datagram hint dst .UNBOUNDED =
      (result, tunnel, env')) :
    p.commitAnonymous env packet src datagram hint dst = (result,
      if packet.kind.movesEndpoint ∧ !result.isErr then { p with tunnel := tunnel }.adoptEndpoint src
      else { p with tunnel := tunnel }, env') := by
  simp only [commitAnonymous, if_neg h, hcommit]

theorem commitAnonymous_moving
    (h : packet.kind.movesEndpoint = true ∧ p.endpoint.addr ≠ some src)
    (hcommit : p.tunnel.resetUdpWindow.commitWithImitationAndBudget env packet datagram hint dst
      .UNBOUNDED = (result, tunnel, env')) :
    p.commitAnonymous env packet src datagram hint dst = (result,
      if result.isErr then { p with tunnel := tunnel.restoreUdpWindow p.tunnel.udpWindow }
      else { p with tunnel := tunnel.discardImitationHint }.adoptEndpoint src, env') := by
  simp only [commitAnonymous, if_pos h, Tunn.beginNewPath, hcommit]
  cases result.isErr with
  | true => simp
  | false => simp [h.1]

/-- A new path: the window the commit saw was a fresh one. -/
theorem Roamed.of_moving (hcanonical : canonicalEndpoint src = src)
    (h : packet.kind.movesEndpoint = true ∧ p.endpoint.addr ≠ some src)
    (heffect : p.tunnel.resetUdpWindow.CommitEffect packet result tunnel) :
    p.Roamed packet src result
      (if result.isErr then { p with tunnel := tunnel.restoreUdpWindow p.tunnel.udpWindow }
      else { p with tunnel := tunnel.discardImitationHint }.adoptEndpoint src) where
  failed herr := by
    rw [if_pos herr]
    exact ⟨rfl, heffect.pending.trans (if_pos (heffect.learned herr)), heffect.learned herr,
      fun _ => rfl⟩
  moved hok _ _ := by
    rw [if_neg (by simp [hok]), adoptEndpoint_endpoint _ hcanonical, adoptEndpoint_tunnel,
      if_neg h.2]
    exact ⟨rfl, rfl, heffect.window hok⟩
  stayed _ _ hsame := absurd hsame h.2
  cookie hcookie := absurd (hcookie.symm.trans h.1) nofun

/-- The old path: whatever the commit did to the tunnel stands. -/
theorem Roamed.of_staying (hcanonical : canonicalEndpoint src = src)
    (h : ¬(packet.kind.movesEndpoint = true ∧ p.endpoint.addr ≠ some src))
    (heffect : p.tunnel.CommitEffect packet result tunnel)
    (hcookie : packet.kind.movesEndpoint = false → result.isErr = false ∧
      tunnel.autoImitation.learned = p.tunnel.autoImitation.learned ∧
      Tunn.observedWindow p.tunnel.amnezia packet p.tunnel.udpWindow = p.tunnel.udpWindow) :
    p.Roamed packet src result
      (if packet.kind.movesEndpoint ∧ !result.isErr then { p with tunnel := tunnel }.adoptEndpoint src
      else { p with tunnel := tunnel }) where
  failed herr := by
    rw [if_neg (by simp [herr])]
    refine ⟨rfl, heffect.pending.trans (if_pos (heffect.learned herr)), heffect.learned herr, ?_⟩
    intro hother
    have hmoves : packet.kind.movesEndpoint = false := by simpa [hother] using h
    exact absurd ((hcookie hmoves).1.symm.trans herr) nofun
  moved _ hmoves hother := absurd ⟨hmoves, hother⟩ h
  stayed hok hmoves hsame := by
    rw [if_pos (by simp [hok, hmoves]), adoptEndpoint_endpoint _ hcanonical, adoptEndpoint_tunnel,
      if_pos hsame]
    exact ⟨rfl, heffect.pending, heffect.window hok⟩
  cookie hmoves := by
    obtain ⟨hok, hlearned, hwindow⟩ := hcookie hmoves
    rw [if_neg (by simp [hmoves])]
    exact ⟨hok, rfl, heffect.pending.trans (if_pos hlearned), hlearned,
      (heffect.window hok).trans hwindow⟩

end

/-- Roaming is a transaction. -/
theorem roaming (p : Peer P) (env : Env P) (packet : Authenticated P) (src : SocketAddr)
    (datagram : Bytes) (hint : Option AmneziaImitationProtocol) (dst : Bytes)
    (hcanonical : canonicalEndpoint src = src) :
    p.Roamed packet src (p.commitAnonymous env packet src datagram hint dst).1
      (p.commitAnonymous env packet src datagram hint dst).2.1 := by
  by_cases hmoves : packet.kind.movesEndpoint = true ∧ p.endpoint.addr ≠ some src
  · have heffect := p.tunnel.resetUdpWindow.commit_effect env packet datagram hint dst .UNBOUNDED
    rw [commitAnonymous_moving hmoves rfl]
    exact .of_moving hcanonical hmoves heffect
  · have heffect := p.tunnel.commit_effect env packet datagram hint dst .UNBOUNDED
    rw [commitAnonymous_staying hmoves rfl]
    refine .of_staying hcanonical hmoves heffect fun hcookie => ?_
    cases packet with
    | cookieReply cookie =>
      obtain ⟨hdone, hlearned⟩ := p.tunnel.commit_cookieReply env datagram hint dst .UNBOUNDED cookie
      have hok : (p.tunnel.commitWithImitationAndBudget env (.cookieReply cookie) datagram hint dst
          .UNBOUNDED).1.isErr = false := by rw [hdone]; rfl
      exact ⟨hok, ((p.tunnel.learned_commit env _ dst .UNBOUNDED datagram hint).2 hok).trans hlearned,
        rfl⟩
    | handshakeInit init | handshakeResponse response | data receiverIdx plaintext session =>
      cases hcookie

/-! ### A peer that has been told and is then taught -/

def byteAddr : SocketAddr := .v4 0xcb007105 51820

/-- An `Auto` peer whose connected socket heard a binding request. -/
def byteTold : Peer bytePrimitives :=
  new ((byteHome.after (byteEnv 1 0) (.setObfuscation .default { imitation := { protocol := .auto } }))
    |>.after (byteEnv 1 0) (.decapsulate (some byteAddr.source) Tunn.byteStun byteBuffer .UNBOUNDED))
    1 (some byteAddr) none

def byteInitiation : Bytes := (byteHandshake byteHome bytePeer 1 4).initiation

/-- The other end's initiation, as the tunnel authenticates it. -/
def byteInit : Authenticated bytePrimitives :=
  (byteTold.tunnel.accepted (byteEnv 1 7) (some byteAddr.source) byteInitiation byteBuffer
    .UNBOUNDED).get (by decide +kernel)

/-- It comes to the unconnected socket from `src`, for which the device has a hint. -/
def byteTaughtFrom (src : SocketAddr) : TunnResult × Peer bytePrimitives × Env bytePrimitives :=
  byteTold.commitAnonymous (byteEnv 1 7) byteInit src byteInitiation (some .stun) byteBuffer

/-- From another port, the endpoint follows and the window is a fresh one. -/
theorem roaming_byteTaughtFrom :
    (byteTaughtFrom (.v4 0xcb007105 51821)).2.1.endpoint = { addr := some (.v4 0xcb007105 51821) } ∧
      (byteTaughtFrom (.v4 0xcb007105 51821)).2.1.tunnel.autoImitation.pending = none ∧
      (byteTaughtFrom (.v4 0xcb007105 51821)).2.1.tunnel.udpWindow = 500 := by
  have hroamed := roaming byteTold (byteEnv 1 7) byteInit (.v4 0xcb007105 51821) byteInitiation
    (some .stun) byteBuffer rfl
  obtain ⟨hendpoint, hpending, hwindow⟩ :=
    hroamed.moved (by decide +kernel) (by decide +kernel) (by decide +kernel)
  have hfresh : Tunn.observedWindow byteTold.tunnel.amnezia byteInit DEFAULT_UDP_WINDOW = 500 := by
    decide +kernel
  rw [byteTaughtFrom, hendpoint, hpending, hwindow, hfresh]
  exact ⟨rfl, rfl, rfl⟩

/-- From the address the peer is at, nothing moves, and yet the pending hint is gone: the
commit has learned what the device's hint said. -/
theorem taught_drops_hint :
    byteTold.endpoint.addr = some byteAddr ∧ canonicalEndpoint byteAddr = byteAddr ∧
      byteTold.tunnel.autoImitation.pending = some (some byteAddr.ip, ⟨.stun, 10 ^ 9⟩) ∧
      byteInit.kind = .handshakeInitiation ∧
      (byteTaughtFrom byteAddr).1.isErr = false ∧
      (byteTaughtFrom byteAddr).2.1.endpoint = byteTold.endpoint ∧
      (byteTaughtFrom byteAddr).2.1.tunnel.autoImitation =
        { learned := some .stun, pending := none } := by
  decide +kernel

end Peer

end BoringTun

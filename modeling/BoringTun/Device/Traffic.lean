import BoringTun.Device.Agreement
import BoringTun.Tunn.Learning
import BoringTun.Tunn.Numbering

/-!
A device at work: operations of its control plane, calls on the tunnels of its peers, and
datagrams at its unconnected socket (`device/mod.rs`), in any order.

What a step can do to a peer is said once for traffic (`Peer.Turn`) and once for the control
plane (`Retunes`). Every run keeps `Sound`: the tables agree, tunnels have the device's key and
the key their peer is stored under, and keep to the block of their peer's index.
-/

namespace BoringTun

variable {P : Primitives}

/-! ### What traffic leaves alone -/

namespace Core

variable {c c' : Core P} {payload : Bytes} {result : TunnResult}

/-- Only a configuration call changes the framing. -/
theorem Moves.framing {action : Action P} (h : c.Moves action result c')
    (haction : action ≠ .configure) : c'.obf = c.obf ∧ c'.amnezia = c.amnezia := by
  cases h with
  | submits h | drains h | polls _ h => exact ⟨h.changes.config.1, h.changes.config.2.amnezia⟩
  | demands h => exact ⟨h.still.obf, h.still.amnezia⟩
  | accepts h => exact h.framing
  | ignores => exact ⟨rfl, rfl⟩
  | _ => exact absurd rfl haction

end Core

namespace Life

variable {l l' : Life P}

/-- Only a rekey changes the keys. -/
theorem Step.params_eq {label : Label} (h : Step label l l') (hlabel : label ≠ .rekey) :
    l'.params = l.params := by
  cases h with
  | respond => rfl
  | @complete _ _ _ _ response =>
    rw [select_eq]
    cases response.isPrevious with
    | false => rfl
    | true => rfl
  | receive =>
    rw [select_eq]
    rfl
  | rekey => exact absurd rfl hlabel
  | _ => rfl

theorem Serves.params_eq (h : Serves l l') : l'.params = l.params := by
  obtain ⟨l₁, hsteps, hlast⟩ := h
  have hstill : l₁.params = l.params :=
    hsteps.invariant (fun label s s' hlabel hstep hs =>
      (hstep.params_eq (by rintro rfl; exact hlabel)).trans hs) rfl
  rcases hlast with rfl | hsend
  · exact hstill
  · exact (hsend.params_eq nofun).trans hstill

end Life

/-- A call that carries traffic; the others configure the tunnel. -/
def Op.IsTraffic : Op P → Prop
  | .encapsulate .. | .decapsulate .. | .updateTimers .. | .formatHandshakeInitiation .. => True
  | _ => False

namespace Tunn

variable {t : Tunn P}

theorem committed_params (ephemeral : P.Secret) (packet : Authenticated P) :
    (t.committed ephemeral packet).params = t.handshake.params := by
  cases packet with
  | handshakeInit init => rfl
  | handshakeResponse response =>
    rw [committed, Life.select_eq]
    cases response.isPrevious with
    | false => rfl
    | true => rfl
  | cookieReply cookie => rfl
  | data receiverIdx plaintext session =>
    rw [committed, Life.select_eq]
    rfl

theorem after_params (hset : t.life.Settled) (env : Env P) {op : Op P} (htraffic : op.IsTraffic) :
    (t.after env op).handshake.params = t.handshake.params := by
  have htransition := after_transition hset env op
  change (t.after env op).life.params = t.life.params
  generalize (t.after env op).life = l at htransition
  cases htransition with
  | serve _ h => exact h.params_eq
  | poll h =>
    obtain ⟨ticked, htick, hage⟩ := beginPoll_steps (t := t) env
    rw [h.params_eq, hage.params_eq nofun, htick.params_eq nofun]
  | commit => exact committed_params _ _
  | presharedKey | staticPrivate => exact htraffic.elim

/-- Traffic keeps the settings. -/
theorem after_settings (hset : t.life.Settled) (env : Env P) {op : Op P}
    (htraffic : op.IsTraffic) : (t.after env op).settings = t.settings := by
  have haction : t.action env op ≠ .configure := by
    cases op with
    | decapsulate source datagram dst budget =>
      dsimp only [action]
      split
      · nofun
      · split <;> nofun
    | encapsulate => nofun
    | updateTimers => nofun
    | formatHandshakeInitiation => nofun
    | _ => exact htraffic.elim
  obtain ⟨hobf, hamnezia⟩ := (t.core_after env op).framing haction
  have hobf : (t.after env op).handshake.obf = t.handshake.obf := hobf
  have hamnezia : (t.after env op).amnezia = t.amnezia := hamnezia
  unfold settings
  rw [hobf, hamnezia, after_params hset env htraffic]

variable {dst : Bytes} {budget : OutputBudget} {packet : Authenticated P}

theorem commit_params (env : Env P) (hgen : t.Genuine dst budget packet) (datagram : Bytes)
    (hint : Option AmneziaImitationProtocol) :
    (t.commitWithImitationAndBudget env packet datagram hint dst budget).2.1.handshake.params =
      t.handshake.params := by
  obtain ⟨ephemeral, hlife⟩ := (commit_commits env hgen datagram hint).life
  exact (congrArg Life.params hlife).trans (committed_params ephemeral packet)

theorem commit_settings (env : Env P) (hgen : t.Genuine dst budget packet) (datagram : Bytes)
    (hint : Option AmneziaImitationProtocol) :
    (t.commitWithImitationAndBudget env packet datagram hint dst budget).2.1.settings =
      t.settings := by
  have haccepts := core_commit t env budget hgen datagram hint
  have hobf : (t.commitWithImitationAndBudget env packet datagram hint dst budget).2.1.handshake.obf =
      t.handshake.obf := haccepts.framing.1
  have hamnezia : (t.commitWithImitationAndBudget env packet datagram hint dst budget).2.1.amnezia =
      t.amnezia := haccepts.framing.2
  unfold settings
  rw [hobf, hamnezia, commit_params env hgen datagram hint]

theorem commit_settled (hset : t.life.Settled) (env : Env P) (hgen : t.Genuine dst budget packet)
    (datagram : Bytes) (hint : Option AmneziaImitationProtocol) :
    (t.commitWithImitationAndBudget env packet datagram hint dst budget).2.1.life.Settled := by
  obtain ⟨ephemeral, hlife⟩ := (commit_commits env hgen datagram hint).life
  have hstep := committed_step hgen ephemeral
  rw [hlife]
  split at hstep
  · exact Life.settled_step hstep hset
  · rw [hstep]
    exact hset

end Tunn

/-! ### What configuring leaves alone -/

namespace Tunn

/-- What the control plane may do to a tunnel: replace keys of this side and drop sessions. -/
structure Retuned (t t' : Tunn P) : Prop where
  memory : ∃ params : NoiseParams P,
    params.peerStaticPublic = t.handshake.params.peerStaticPublic ∧
      t'.memory = { t.memory with params := params }
  sessions : ∀ slot session, t'.sessions slot = some session → t.sessions slot = some session

/-- Tunnels that differ at most in their counters, windows and evidence. -/
structure Alike (t t' : Tunn P) : Prop where
  memory : t'.memory = t.memory
  sessions : t'.sessions = t.sessions
  settings : t'.settings = t.settings

variable {t t₁ t' : Tunn P}

theorem Retuned.peerStaticPublic_eq (h : t.Retuned t') :
    t'.handshake.params.peerStaticPublic = t.handshake.params.peerStaticPublic := by
  obtain ⟨params, hpeer, hmemory⟩ := h.memory
  exact (congrArg (fun m : Handshake.Memory P => m.params.peerStaticPublic) hmemory).trans hpeer

theorem Retuned.of_eq (hmemory : t'.memory = t.memory) (hsessions : t'.sessions = t.sessions) :
    t.Retuned t' where
  memory := ⟨t.handshake.params, rfl, hmemory⟩
  sessions slot session h := by rwa [hsessions] at h

theorem Alike.retuned (h : t.Alike t') : t.Retuned t' := .of_eq h.memory h.sessions

theorem Retuned.trans (h : t.Retuned t₁) (h' : t₁.Retuned t') : t.Retuned t' where
  memory := by
    obtain ⟨params, hpeer, hmemory⟩ := h.memory
    obtain ⟨params', hpeer', hmemory'⟩ := h'.memory
    have hparams : t₁.handshake.params = params := congrArg Handshake.Memory.params hmemory
    refine ⟨params', hpeer'.trans (hparams ▸ hpeer), ?_⟩
    rw [hmemory', hmemory]
  sessions slot session hsession := h.sessions slot session (h'.sessions slot session hsession)

theorem setStaticPrivate_retuned (t : Tunn P) (staticPrivate : P.Secret)
    (rateLimiter : Option (RateLimiter P)) (seed : RateLimiterSeed P) :
    t.Retuned (t.setStaticPrivate staticPrivate rateLimiter seed) where
  memory := ⟨t.handshake.params.setStaticPrivate staticPrivate, rfl, rfl⟩
  sessions := nofun

theorem setObfuscation_retuned (t : Tunn P) (obf : ObfuscationRanges) (amnezia : AmneziaConfig) :
    t.Retuned (t.setObfuscation obf amnezia) :=
  .of_eq (memory_setObfuscation obf amnezia) (congrArg Life.ring (setObfuscation_life obf amnezia))

theorem setPresharedKey_retuned (t : Tunn P) (presharedKey : Option P.Value) :
    t.Retuned (t.setPresharedKey presharedKey) := by
  unfold setPresharedKey
  dsimp only
  split
  · exact ⟨⟨(t.handshake.setPresharedKey presharedKey).params, rfl, rfl⟩, fun _ _ => id⟩
  · exact ⟨⟨(t.handshake.setPresharedKey presharedKey).params, rfl, rfl⟩, by rintro _ _ ⟨⟩⟩

theorem setPersistentKeepaliveRange_retuned (t : Tunn P) (low high : Nat) :
    t.Retuned (t.setPersistentKeepaliveRange low high).2 := by
  unfold setPersistentKeepaliveRange
  split
  · exact .of_eq rfl rfl
  · exact .of_eq rfl rfl

end Tunn

/-! ### A peer -/

namespace Peer

/-- A peer's tunnel is settled, and keeps to the block of the peer's index. -/
structure Lives (p : Peer P) : Prop where
  settled : p.tunnel.life.Settled
  numbered : p.tunnel.Numbered p.index.toNat

/-- What the control plane may do to a peer that is there. -/
structure Retuned (p p' : Peer P) : Prop where
  index : p'.index = p.index
  tunnel : p.tunnel.Retuned p'.tunnel

variable {p p' : Peer P}

theorem Retuned.refl (p : Peer P) : p.Retuned p := ⟨rfl, .of_eq rfl rfl⟩

theorem Lives.retuned (h : p.Lives) (hretuned : p.Retuned p') : p'.Lives := by
  obtain ⟨params, -, hmemory⟩ := hretuned.tunnel.memory
  have hstate : p'.tunnel.handshake.state = p.tunnel.handshake.state :=
    congrArg Handshake.Memory.state hmemory
  have hprevious : p'.tunnel.handshake.previous = p.tunnel.handshake.previous :=
    congrArg Handshake.Memory.previous hmemory
  have hm := h.numbered.memory
  constructor
  · unfold Tunn.life
    rw [hstate, hprevious]
    exact h.settled
  · rw [hretuned.index]
    refine ⟨?_, fun slot session hsession => ?_⟩
    · rw [hmemory]
      exact ⟨hm.next, hm.state, hm.previous, hm.cookies⟩
    · exact h.numbered.sessions slot session (hretuned.tunnel.sessions slot session hsession)

theorem moveEndpoint_retuned (p : Peer P) (addr : SocketAddr) (resetWindow : Bool) :
    p.Retuned (p.moveEndpoint addr resetWindow) := by
  refine ⟨moveEndpoint_index _ _ _, ?_⟩
  unfold moveEndpoint
  dsimp only
  split
  · cases resetWindow with
    | false | true => exact .of_eq rfl rfl
  · exact .of_eq rfl rfl

/-- What traffic does to a peer: a call on its tunnel, a packet the listener accepted for it, or
a socket that comes or goes. -/
inductive Turn (p : Peer P) : Peer P → Prop where
  | call (env : Env P) {op : Op P} (htraffic : op.IsTraffic) :
    Turn p { p with tunnel := p.tunnel.after env op }
  | anonymous (env : Env P) {packet : Authenticated P} (src : SocketAddr) (datagram : Bytes)
    (hint : Option AmneziaImitationProtocol) {dst : Bytes}
    (hgen : p.tunnel.Genuine dst .UNBOUNDED packet) :
    Turn p (p.commitAnonymous env packet src datagram hint dst).2.1
  | socket (endpoint : Endpoint) (upgradeSuppressed : Bool) :
    Turn p { p with endpoint := endpoint, upgradeSuppressed := upgradeSuppressed }

/-- A commit of the listener is a commit of the tunnel, but for the window of the path and what
it heard about camouflage. -/
theorem commitAnonymous_tunnel (env : Env P) {packet : Authenticated P} (src : SocketAddr)
    (datagram : Bytes) (hint : Option AmneziaImitationProtocol) {dst : Bytes}
    (hgen : p.tunnel.Genuine dst .UNBOUNDED packet) :
    ∃ before : Tunn P, before.Genuine dst .UNBOUNDED packet ∧ p.tunnel.Alike before ∧
      (before.commitWithImitationAndBudget env packet datagram hint dst .UNBOUNDED).2.1.Alike
        (p.commitAnonymous env packet src datagram hint dst).2.1.tunnel := by
  by_cases hmoves : packet.kind.movesEndpoint = true ∧ p.endpoint.addr ≠ some src
  · refine ⟨p.tunnel.resetUdpWindow, hgen, ⟨rfl, rfl, rfl⟩, ?_⟩
    rcases hcommit : p.tunnel.resetUdpWindow.commitWithImitationAndBudget env packet datagram hint
      dst .UNBOUNDED with ⟨result, tunnel, env'⟩
    rw [commitAnonymous_moving hmoves hcommit]
    split
    · exact ⟨rfl, rfl, rfl⟩
    · rw [adoptEndpoint_tunnel]
      exact ⟨rfl, rfl, rfl⟩
  · refine ⟨p.tunnel, hgen, ⟨rfl, rfl, rfl⟩, ?_⟩
    rcases hcommit : p.tunnel.commitWithImitationAndBudget env packet datagram hint dst .UNBOUNDED
    rw [commitAnonymous_staying hmoves hcommit]
    split
    · rw [adoptEndpoint_tunnel]
      exact ⟨rfl, rfl, rfl⟩
    · exact ⟨rfl, rfl, rfl⟩

theorem commitAnonymous_index (env : Env P) (packet : Authenticated P) (src : SocketAddr)
    (datagram : Bytes) (hint : Option AmneziaImitationProtocol) (dst : Bytes) :
    (p.commitAnonymous env packet src datagram hint dst).2.1.index = p.index := by
  have hadopts (q : Peer P) (adopts : Prop) [Decidable adopts] :
      (if adopts then q.adoptEndpoint src else q).index = q.index := by
    split
    · exact moveEndpoint_index _ _ _
    · rfl
  exact hadopts _ _

theorem Turn.index (h : p.Turn p') : p'.index = p.index := by
  cases h with
  | call => rfl
  | anonymous env src datagram hint hgen => exact commitAnonymous_index ..
  | socket => rfl

/-- Traffic keeps the settings, and the key of the other end. -/
theorem Turn.settings (h : p.Turn p') (hset : p.tunnel.life.Settled) :
    p'.tunnel.settings = p.tunnel.settings ∧
      p'.tunnel.handshake.params.peerStaticPublic =
        p.tunnel.handshake.params.peerStaticPublic := by
  cases h with
  | call env htraffic =>
    refine ⟨Tunn.after_settings hset env htraffic, ?_⟩
    rw [Tunn.after_params hset env htraffic]
  | anonymous env src datagram hint hgen =>
    obtain ⟨before, hgen, hbefore, hafter⟩ := commitAnonymous_tunnel env src datagram hint hgen
    rw [hafter.settings, Tunn.commit_settings env hgen datagram hint, hbefore.settings,
      hafter.retuned.peerStaticPublic_eq, Tunn.commit_params env hgen datagram hint,
      hbefore.retuned.peerStaticPublic_eq]
    exact ⟨rfl, rfl⟩
  | socket => exact ⟨rfl, rfl⟩

theorem Lives.turn (h : p.Lives) (hturn : p.Turn p') : p'.Lives := by
  cases hturn with
  | @call env op htraffic =>
    exact ⟨Tunn.after_invariant (fun _ _ _ => Life.settled_step) h.settled h.settled env op,
      h.numbered.after env op⟩
  | @anonymous env packet src datagram hint dst hgen =>
    obtain ⟨before, hgen, hbefore, hafter⟩ := commitAnonymous_tunnel env src datagram hint hgen
    have hstart : { p with tunnel := before }.Lives := h.retuned ⟨rfl, hbefore.retuned⟩
    have hcommitted : Peer.Lives { p with tunnel :=
        (before.commitWithImitationAndBudget env packet datagram hint dst .UNBOUNDED).2.1 } :=
      ⟨Tunn.commit_settled hstart.settled env hgen datagram hint,
        hstart.numbered.commit env hgen datagram hint⟩
    exact hcommitted.retuned ⟨commitAnonymous_index .., hafter.retuned⟩
  | socket => exact ⟨h.settled, h.numbered⟩

end Peer

/-! ### What an operation does to the peers -/

namespace Interface

variable {d d' : Interface P}

theorem withEndpoint_retuned (p : Peer P) (endpoint : Option SocketAddr) :
    p.tunnel.Retuned (withEndpoint p endpoint).tunnel := by
  cases endpoint with
  | none => exact .of_eq rfl rfl
  | some addr =>
    dsimp only [withEndpoint]
    split
    · have hdiscards : p.tunnel.Retuned p.tunnel.discardImitationHint := .of_eq rfl rfl
      exact hdiscards.trans
        (Peer.moveEndpoint_retuned { p with tunnel := p.tunnel.discardImitationHint } _ _).tunnel
    · exact (Peer.moveEndpoint_retuned _ _ _).tunnel

theorem withKeepalive_retuned (p : Peer P) (keepalive : Option (Nat × Nat)) :
    p.tunnel.Retuned (withKeepalive p keepalive).tunnel := by
  cases keepalive with
  | none => exact .of_eq rfl rfl
  | some range => exact p.tunnel.setPersistentKeepaliveRange_retuned _ _

theorem mergedPeer_retuned (p : Peer P) (update : PeerUpdate P) :
    p.Retuned (mergedPeer p update) := by
  have hrest := (withEndpoint_retuned p update.endpoint).trans
    (withKeepalive_retuned _ update.keepalive)
  refine ⟨mergedPeer_index p update, ?_⟩
  unfold mergedPeer
  split
  · exact hrest.trans (Tunn.setPresharedKey_retuned _ _)
  · exact hrest

theorem mapPeers_retuned {f : Peer P → Peer P} (hf : ∀ p : Peer P, p.Retuned (f p)) (ref : PeerRef) :
    (d.peer ref).Retuned (d.mapPeers f ref) := by
  unfold mapPeers
  split
  · exact hf _
  · exact .refl _

theorem update_retuned {peer : Peer P} {ref : PeerRef} (h : (d.peer ref).Retuned peer)
    (other : PeerRef) : (d.peer other).Retuned (Function.update d.peer ref peer other) := by
  by_cases heq : other = ref
  · subst heq
    rw [Function.update_self]
    exact h
  · rw [Function.update_of_ne heq]
    exact .refl _

/-- What an operation can do to the peers: those that are there are retuned, and one may be made,
for the key it is stored under. -/
structure Retunes (d d' : Interface P) : Prop where
  nextRef : d.nextRef ≤ d'.nextRef
  old : ∀ ref < d.nextRef, (d.peer ref).Retuned (d'.peer ref)
  new : ∀ ref, d.nextRef ≤ ref → ref < d'.nextRef → (d'.peer ref).Lives
  keyed : ∀ {key ref}, d'.peers.lookup key = some ref → d.peers.lookup key = some ref ∨
    ref = d.nextRef ∧ (d'.peer ref).tunnel.handshake.params.peerStaticPublic = key

/-- No peer is made. -/
theorem Retunes.of_old (href : d'.nextRef = d.nextRef)
    (hold : ∀ ref, (d.peer ref).Retuned (d'.peer ref))
    (hkeyed : ∀ {key ref}, d'.peers.lookup key = some ref → d.peers.lookup key = some ref) :
    Retunes d d' where
  nextRef := href.ge
  old ref _ := hold ref
  new _ hle hlt := absurd (href ▸ hlt) (Nat.not_lt.mpr hle)
  keyed hlookup := .inl (hkeyed hlookup)

theorem SameTables.retunes (h : SameTables d d')
    (hold : ∀ ref, (d.peer ref).Retuned (d'.peer ref)) : Retunes d d' :=
  .of_old h.nextRef hold fun hlookup => by rwa [h.peers] at hlookup

theorem setKey_retunes (d : Interface P) (privateKey : P.Secret) (seed : RateLimiterSeed P) :
    Retunes d (d.setKey privateKey seed) := by
  refine (d.setKey_sameTables privateKey seed).retunes fun ref => ?_
  unfold setKey
  dsimp only
  split
  · exact .refl _
  · dsimp only
    refine mapPeers_retuned (fun p => ?_) ref
    exact ⟨rfl, p.tunnel.setStaticPrivate_retuned ..⟩

theorem setObfuscation_retunes (d : Interface P) (obf : ObfuscationRanges)
    (amnezia : AmneziaConfig) : Retunes d (d.setObfuscation obf amnezia).2 := by
  refine (d.setObfuscation_sameTables obf amnezia).retunes fun ref => ?_
  unfold setObfuscation
  split
  · exact .refl _
  · dsimp only
    refine mapPeers_retuned (fun p => ?_) ref
    exact ⟨rfl, p.tunnel.setObfuscation_retuned ..⟩

theorem applyParams_retunes (d : Interface P) (params : AwgParams) :
    Retunes d (d.applyParams params).2 := by
  have hsame : Retunes d d := (SameTables.refl d).retunes fun _ => .refl _
  unfold applyParams
  split
  · exact hsame
  · split
    · exact hsame
    · exact d.setObfuscation_retunes _ _

theorem refreshMtu_retunes (d : Interface P) (mtu : Nat) : Retunes d (d.refreshMtu mtu) := by
  refine (d.refreshMtu_sameTables mtu).retunes fun ref => ?_
  unfold refreshMtu
  dsimp only
  split
  · exact .refl _
  · dsimp only
    refine @mapPeers_retuned _ { d with mtu := mtu } _ (fun p => ?_) ref
    exact ⟨rfl, .of_eq rfl rfl⟩

theorem openListenSocket_retunes (d : Interface P) (port : Nat) (bound : Except DeviceError Nat) :
    Retunes d (d.openListenSocket port bound).2 := by
  refine (d.openListenSocket_sameTables port bound).retunes fun ref => ?_
  unfold openListenSocket
  split
  · exact .refl _
  · split
    · exact .refl _
    · refine mapPeers_retuned (fun p => ?_) ref
      exact ⟨rfl, .of_eq rfl rfl⟩

theorem setFwmark_retunes (d : Interface P) (mark : Nat) (marked : Except DeviceError Unit) :
    Retunes d (d.setFwmark mark marked).2 := by
  refine (d.setFwmark_sameTables mark marked).retunes fun ref => ?_
  cases marked with
  | error e | ok => exact .refl _

theorem removePeer_retunes (d : Interface P) (pubKey : P.Value) :
    Retunes d (d.removePeer pubKey) := by
  unfold removePeer
  split
  · exact (SameTables.refl d).retunes fun _ => .refl _
  · next ref _ =>
    have hshutdown : (d.peer ref).Retuned (d.peer ref).shutdownEndpoint := ⟨rfl, .of_eq rfl rfl⟩
    exact .of_old rfl (update_retuned hshutdown) fun hlookup =>
      (Assoc.lookup_erase_eq_some.mp hlookup).2

theorem clearPeers_retunes (d : Interface P) : Retunes d d.clearPeers := by
  refine .of_old rfl (mapPeers_retuned (f := Peer.shutdownEndpoint) fun _ => ⟨rfl, .of_eq rfl rfl⟩) ?_
  intro key ref hlookup
  exact absurd (hlookup.symm.trans (AList.lookup_empty key)) nofun

theorem mergePeer_retunes (d : Interface P) (ref : PeerRef) (update : PeerUpdate P) :
    Retunes d (d.mergePeer ref update) := by
  have hold := d.update_retuned (mergedPeer_retuned (d.peer ref) update)
  unfold mergePeer
  split
  · exact .of_old rfl hold id
  · exact .of_old rfl hold id

/-- A new tunnel numbers from the index it is made with. -/
theorem newPeer_lives {privateKey : P.Secret} {update : PeerUpdate P}
    {persistentKeepalive : Option Nat} {index : UInt32} {rateLimiter : Option (RateLimiter P)}
    {obf : ObfuscationRanges} {amnezia : AmneziaConfig} {seed : TunnSeed P} {tunnel : Tunn P}
    (hindex : index.toNat < 2 ^ 24)
    (h : Tunn.newWithObfuscation privateKey update.pubKey update.presharedKey persistentKeepalive
      index rateLimiter obf amnezia seed = .ok tunnel) :
    (newPeer tunnel index update).Lives ∧
      (newPeer tunnel index update).tunnel.handshake.params.peerStaticPublic = update.pubKey := by
  have hisNew : tunnel.IsNew := ⟨_, _, _, _, _, _, _, _, _, h⟩
  have hnew : (Peer.new tunnel index update.endpoint update.presharedKey).Lives :=
    ⟨hisNew.blank.settled, .of_new hindex h⟩
  have hretuned : (Peer.new tunnel index update.endpoint update.presharedKey).Retuned
      (newPeer tunnel index update) := ⟨withKeepalive_index _ _, withKeepalive_retuned _ _⟩
  refine ⟨hnew.retuned hretuned, hretuned.tunnel.peerStaticPublic_eq.trans ?_⟩
  unfold Tunn.newWithObfuscation at h
  split at h
  · cases h
  · split at h
    · cases h
    · cases h
      rfl

theorem addPeer_retunes {update : PeerUpdate P} {seed : TunnSeed P}
    {result : Except DeviceError Unit} (h : d.addPeer update seed = some (result, d')) :
    Retunes d d' := by
  cases addPeer_eq_some h with
  | refused hnext => exact .of_old rfl (fun _ => .refl _) id
  | @added index nextIndex privateKey publicKey tunnel hnext hkey htunnel =>
    obtain ⟨hlives, hpeer⟩ := newPeer_lives (IndexLfsr.next_fresh hnext).1 htunnel
    constructor
    · exact Nat.le_succ _
    · intro ref hlt
      dsimp only [insertPeer]
      rw [Function.update_of_ne (Nat.ne_of_lt hlt)]
      exact .refl _
    · intro ref hle hlt
      obtain rfl : ref = d.nextRef := Nat.le_antisymm (Nat.le_of_lt_succ hlt) hle
      dsimp only [insertPeer]
      rw [Function.update_self]
      exact hlives
    · intro key ref hlookup
      rcases Assoc.lookup_insert_eq_some.mp hlookup with ⟨rfl, rfl⟩ | ⟨-, hold⟩
      · refine .inr ⟨rfl, ?_⟩
        dsimp only [insertPeer]
        rw [Function.update_self]
        exact hpeer
      · exact .inl hold

theorem perform_retunes {change : Change P} (h : d.perform change = some d') : Retunes d d' := by
  cases change with
  | setKey privateKey seed =>
    cases h
    exact d.setKey_retunes privateKey seed
  | applyParams params =>
    cases h
    exact d.applyParams_retunes params
  | refreshMtu mtu =>
    cases h
    exact d.refreshMtu_retunes mtu
  | openListenSocket port bound =>
    cases h
    exact d.openListenSocket_retunes port bound
  | setFwmark mark marked =>
    cases h
    exact d.setFwmark_retunes mark marked
  | removePeer pubKey =>
    cases h
    exact d.removePeer_retunes pubKey
  | clearPeers =>
    cases h
    exact d.clearPeers_retunes
  | updatePeer update seed =>
    obtain ⟨⟨result, _⟩, hupdate, rfl⟩ := Option.map_eq_some_iff.mp h
    unfold updatePeer at hupdate
    split at hupdate
    · cases hupdate
      exact d.removePeer_retunes _
    · split at hupdate
      · cases hupdate
        exact d.mergePeer_retunes _ update
      · exact addPeer_retunes hupdate

end Interface

/-! ### The listener -/

namespace Device

variable {d d' : Device P}

/-- A packet is accepted for a peer if it names the peer and its tunnel authenticates it. -/
theorem authenticateAnonymous_eq_ok {privateKey : P.Secret} {publicKey : P.Value} {dst : Bytes}
    {env env' : Env P} {packet : Packet P} {ref : PeerRef} {value : Authenticated P} :
    d.authenticateAnonymous privateKey publicKey dst env packet = (.ok (ref, value), env') ↔
      d.namedPeer privateKey publicKey packet = .ok ref ∧
        (d.tunnel ref).authenticateWithBudget dst .UNBOUNDED env packet = (.ok value, env') := by
  unfold authenticateAnonymous
  cases d.namedPeer privateKey publicKey packet with
  | error e => simp
  | ok peer =>
    dsimp only
    constructor
    · intro h
      rcases hauth : (d.tunnel peer).authenticateWithBudget dst .UNBOUNDED env packet
        with ⟨result, env₁⟩
      rw [hauth] at h
      cases result with
      | error e => cases h
      | ok found =>
        cases h
        exact ⟨rfl, hauth⟩
    · rintro ⟨hpeer, hauth⟩
      cases hpeer
      rw [hauth]
      rfl

theorem answerDemand_ne_accepted (limiter : RateLimiter P) (env : Env P) (worker : ThreadData)
    (addr : SocketAddr) (datagram : Bytes) (demand : CookieDemand) (ref : PeerRef)
    (packet : Authenticated P) :
    (d.answerDemand limiter env worker addr datagram demand).1 ≠ .accepted ref packet := by
  unfold answerDemand
  split
  · nofun
  · split
    · nofun
    · split
      · nofun
      · nofun

theorem listen_accepted {env env' : Env P} {worker worker' : ThreadData} {addr : SocketAddr}
    {datagram : Bytes} {ref : PeerRef} {packet : Authenticated P}
    (h : d.listen env worker addr datagram = (.accepted ref packet, d', worker', env')) :
    worker' = worker ∧ ∃ pair raw env₀ env₁, d.keyPair = some pair ∧
      d.authenticateAnonymous pair.1 pair.2 worker.dstBuf env₀ raw = (.ok (ref, packet), env₁) := by
  unfold listen at h
  split at h
  · next pair limiter hpair hlimiter =>
    split at h
    · dsimp only at h
      split at h <;> cases h
    · rcases hreceive : d.receive pair limiter env worker addr datagram
        with ⟨outcome, limiter₁, env₁⟩
      rw [hreceive] at h
      cases outcome with
      | accepted value =>
        cases h
        obtain ⟨_, _, _, raw, env₀, _, htrial⟩ := Inbound.receive_accepted hreceive
        exact ⟨rfl, pair, raw, env₀, _, hpair, htrial⟩
      | cookie demand =>
        have haccepted := congrArg Prod.fst h
        exact absurd haccepted (answerDemand_ne_accepted _ _ _ _ _ _ _ _)
      | refused refusal =>
        dsimp only at h
        split at h <;> cases h
      | notOurs => cases h
  · cases h

end Device

namespace Interface

section

variable (d : Interface P)

/-- A peer, with its tunnel on the limiter it refers to. -/
def peerOf (ref : PeerRef) : Peer P := { d.peer ref with tunnel := d.tunnelOf ref }

/-- Put a peer back, and the limiter its tunnel has used. -/
def putPeer (ref : PeerRef) (p : Peer P) : Interface P :=
  { d with
    peer := Function.update d.peer ref p
    limiters := Function.update d.limiters (d.limiterOf ref) p.tunnel.rateLimiter }

/-- What the listener leaves behind: the hints, and its limiter. -/
def returned (device : Device P) : Interface P :=
  { d with
    imitationHints := device.imitationHints
    limiters := match d.rateLimiter, device.rateLimiter with
      | some ref, some limiter => Function.update d.limiters ref limiter
      | _, _ => d.limiters }

/-- Commit a reading the listener accepted for a peer. What taught the tunnel an imitation is
no hint any more. -/
def commitHeard (env : Env P) (worker : ThreadData) (src : SocketAddr) (datagram : Bytes)
    (ref : PeerRef) (packet : Authenticated P) : TunnResult × Interface P × Env P :=
  let autoInitiation := d.amnezia.imitation.protocol = .auto ∧ Tunn.isHandshakeInit packet
  let (hint, imitationHints, env) :=
    if autoInitiation then d.imitationHints.get env src else (none, d.imitationHints, env)
  let (result, p, env) :=
    (d.peerOf ref).commitAnonymous env packet src datagram hint worker.dstBuf
  let imitationHints :=
    if !result.isErr ∧ autoInitiation ∧ p.tunnel.imitationProtocol ≠ .none then
      imitationHints.discard src
    else imitationHints
  (result, { d.putPeer ref p with imitationHints := imitationHints }, env)

/-- One datagram at the unconnected socket. Flushing the peer's queue and opening a connected
socket for it come after, as traffic of the peer. -/
def hear (env : Env P) (worker : ThreadData) (src : SocketAddr) (datagram : Bytes) :
    Interface P :=
  match d.toDevice.listen env worker src datagram with
  | (.accepted ref packet, device, worker, env) =>
    ((d.returned device).commitHeard env worker src datagram ref packet).2.1
  | (_, device, _, _) => d.returned device

end

variable {d d' : Interface P}

/-- The device but for what listening changes. -/
def Listens (d d' : Interface P) : Prop :=
  ∃ imitationHints limiters,
    d' = { d with imitationHints := imitationHints, limiters := limiters }

theorem namedPeer_named {privateKey : P.Secret} {publicKey : P.Value} {packet : Packet P}
    {ref : PeerRef} (h : d.toDevice.namedPeer privateKey publicKey packet = .ok ref) :
    d.Member ref ∨ ∃ index, d.peersByIdx.lookup index = some ref := by
  have hbyIdx {receiverIdx : UInt32} (h : d.toDevice.peerOfIndex receiverIdx = .ok ref) :
      ∃ index, d.peersByIdx.lookup index = some ref := by
    unfold Device.peerOfIndex at h
    split at h
    · next found hfound =>
      cases h
      exact ⟨_, hfound⟩
    · cases h
  cases packet with
  | handshakeInit p =>
    dsimp only [Device.namedPeer] at h
    split at h
    · next found hfound =>
      cases h
      obtain ⟨half, -, hlookup⟩ := Option.bind_eq_some_iff.mp hfound
      exact .inl ⟨half.peerStaticPublic, hlookup⟩
    · cases h
  | handshakeResponse p | packetCookieReply p | packetData p => exact .inr (hbyIdx h)

theorem Indexed.named (h : d.Indexed) {privateKey : P.Secret} {publicKey : P.Value}
    {packet : Packet P} {ref : PeerRef}
    (hnamed : d.toDevice.namedPeer privateKey publicKey packet = .ok ref) : d.Member ref := by
  rcases namedPeer_named hnamed with hmember | ⟨index, hindex⟩
  · exact hmember
  · exact (h.ofIndex hindex).2

/-- A datagram changes hints and limiters, and one peer if it is accepted. -/
theorem hear_cases (h : d.Indexed) (env : Env P) (worker : ThreadData) (src : SocketAddr)
    (datagram : Bytes) :
    Listens d (d.hear env worker src datagram) ∨
      ∃ d₁ ref p, Listens d d₁ ∧ d.Member ref ∧ (d₁.peerOf ref).Turn p ∧
        Listens (d₁.putPeer ref p) (d.hear env worker src datagram) := by
  unfold hear
  split
  · next ref packet device worker₁ env₁ hlisten =>
    obtain ⟨rfl, pair, raw, env₀, env₂, -, htrial⟩ := Device.listen_accepted hlisten
    obtain ⟨hnamed, hauth⟩ := Device.authenticateAnonymous_eq_ok.mp htrial
    have hgen : ((d.returned device).peerOf ref).tunnel.Genuine worker₁.dstBuf .UNBOUNDED packet :=
      (Tunn.authenticateWithBudget_genuine hauth).1
    exact .inr ⟨d.returned device, ref, _, ⟨_, _, rfl⟩, h.named hnamed,
      .anonymous _ src datagram _ hgen, ⟨_, _, rfl⟩⟩
  · exact .inl ⟨_, _, rfl⟩

/-! ### What every run keeps -/

/-- What the listener's lookups rest on, since the device handed out the reference `since`. -/
structure Sound (since : PeerRef) (d : Interface P) : Prop where
  indexed : d.Indexed
  agreed : d.Agreed
  start : since ≤ d.nextRef
  keyed : ∀ {key ref}, d.peers.lookup key = some ref →
    since ≤ ref ∧ (d.peer ref).tunnel.handshake.params.peerStaticPublic = key
  /-- Also of a peer that has been removed. -/
  lives : ∀ ref, since ≤ ref → ref < d.nextRef → (d.peer ref).Lives

variable {since : PeerRef}

theorem Sound.of_noPeers (h : d.NoPeers) : d.Sound d.nextRef where
  indexed := .of_empty h.peers h.byIdx
  agreed ref hmember := by simp [Member, h.peers] at hmember
  start := Nat.le_refl _
  keyed hlookup := by simp [h.peers] at hlookup
  lives ref hle hlt := absurd hlt (Nat.not_lt.mpr hle)

theorem Sound.perform (h : d.Sound since) {change : Change P}
    (hperform : d.perform change = some d') : d'.Sound since := by
  have hretunes := perform_retunes hperform
  constructor
  · exact h.indexed.reindexed (perform_reindexed hperform)
  · exact perform_agreed h.indexed h.agreed hperform
  · exact Nat.le_trans h.start hretunes.nextRef
  · intro key ref hlookup
    rcases hretunes.keyed hlookup with hold | ⟨rfl, hkey⟩
    · obtain ⟨hle, hkey⟩ := h.keyed hold
      have hlt := h.indexed.allocated ⟨key, hold⟩
      exact ⟨hle, (hretunes.old ref hlt).tunnel.peerStaticPublic_eq.trans hkey⟩
    · exact ⟨h.start, hkey⟩
  · intro ref hle hlt
    by_cases hold : ref < d.nextRef
    · exact (h.lives ref hle hold).retuned (hretunes.old ref hold)
    · exact hretunes.new ref (Nat.le_of_not_lt hold) hlt

theorem Sound.listens (h : d.Sound since) (hlistens : Listens d d') : d'.Sound since := by
  obtain ⟨imitationHints, limiters, rfl⟩ := hlistens
  exact ⟨h.indexed.reindexed (SameTables.reindexed ⟨rfl, rfl, rfl, rfl, rfl, fun _ => rfl⟩),
    fun ref hmember => (h.agreed ref hmember).of_same rfl rfl rfl rfl, h.start, h.keyed, h.lives⟩

theorem putPeer_sameTables {ref : PeerRef} {p : Peer P} (h : (d.peerOf ref).Turn p) :
    SameTables d (d.putPeer ref p) :=
  ⟨rfl, rfl, rfl, rfl, rfl, index_update h.index⟩

theorem Sound.turn (h : d.Sound since) {ref : PeerRef} {p : Peer P}
    (hturn : (d.peerOf ref).Turn p) (href : ref < d.nextRef) : (d.putPeer ref p).Sound since := by
  have hlives (hle : since ≤ ref) : (d.peerOf ref).Lives :=
    (h.lives ref hle href).retuned ⟨rfl, .of_eq rfl rfl⟩
  have hkept (hle : since ≤ ref) := hturn.settings (hlives hle).settled
  constructor
  · exact h.indexed.reindexed (putPeer_sameTables hturn).reindexed
  · rintro other ⟨key, hlookup⟩
    have hagrees := h.agreed other ⟨key, hlookup⟩
    refine hagrees.of_same rfl rfl ?_ rfl
    by_cases heq : other = ref
    · subst heq
      dsimp only [putPeer]
      rw [Function.update_self]
      exact (hkept (h.keyed hlookup).1).1
    · dsimp only [putPeer]
      rw [Function.update_of_ne heq]
  · exact h.start
  · intro key other hlookup
    obtain ⟨hle, hkey⟩ := h.keyed hlookup
    refine ⟨hle, ?_⟩
    by_cases heq : other = ref
    · subst heq
      dsimp only [putPeer]
      rw [Function.update_self]
      exact (hkept hle).2.trans hkey
    · dsimp only [putPeer]
      rw [Function.update_of_ne heq]
      exact hkey
  · intro other hle hlt
    by_cases heq : other = ref
    · subst heq
      dsimp only [putPeer]
      rw [Function.update_self]
      exact (hlives hle).turn hturn
    · dsimp only [putPeer]
      rw [Function.update_of_ne heq]
      exact h.lives other hle hlt

/-- What a device does. -/
inductive Label (P : Primitives) where
  | control (call : Call P)
  | peer (ref : PeerRef)
  | datagram (bytes : Bytes)

/-- One step of a device. A peer that was removed may still be at work. -/
inductive Happens : Label P → Interface P → Interface P → Prop where
  | control {call : Call P} {d d' : Interface P} (h : call.Step d d') : Happens (.control call) d d'
  | peer {d : Interface P} {ref : PeerRef} {p : Peer P} (href : ref < d.nextRef)
    (hturn : (d.peerOf ref).Turn p) : Happens (.peer ref) d (d.putPeer ref p)
  | datagram {d : Interface P} (env : Env P) (worker : ThreadData) (src : SocketAddr)
    (bytes : Bytes) : Happens (.datagram bytes) d (d.hear env worker src bytes)

theorem Sound.step (h : d.Sound since) {label : Label P} (hstep : Happens label d d') :
    d'.Sound since := by
  cases hstep with
  | control hcall => exact h.perform hcall.2
  | peer href hturn => exact h.turn hturn href
  | datagram env worker src bytes =>
    rcases hear_cases h.indexed env worker src bytes with hlistens |
      ⟨d₁, ref, p, hfirst, hmember, hturn, hlast⟩
    · exact h.listens hlistens
    · have h₁ := h.listens hfirst
      have href : ref < d₁.nextRef := by
        obtain ⟨imitationHints, limiters, rfl⟩ := hfirst
        exact h.indexed.allocated hmember
      exact (h₁.turn hturn href).listens hlast

end Interface

end BoringTun

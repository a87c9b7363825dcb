import BoringTun.Device.Traffic

/-!
The listener finds the peer a packet is for (`authenticate_anonymous` in `device/mod.rs`).

It looks an initiation up by the static key in it and any other packet by the top 24 bits of
its receiver index, and asks the tunnel it finds. Over every run of a device, indices are handed
out once (`Accounted`), and the listener asks the one tunnel that can say yes
(`demultiplexing`).
-/

namespace BoringTun

variable {P : Primitives}

/-- Authenticating an initiation starts as the anonymous parse of it does: both open the static
key with one transcript. -/
theorem Handshake.authenticateInitiation_anon {h : Handshake P} {packet : HandshakeInit P}
    {init : AuthenticatedInit P} (hauth : h.authenticateInitiation packet = .ok init) :
    parseHandshakeAnon h.params.staticPrivate h.params.staticPublic packet =
      .ok ⟨packet.senderIdx, h.params.peerStaticPublic⟩ := by
  unfold authenticateInitiation at hauth
  dsimp only at hauth
  split at hauth
  · cases hauth
  next opened hopen =>
  split at hauth
  · cases hauth
  next hkey =>
  unfold parseHandshakeAnon
  dsimp only
  rw [hopen, ← not_not.mp hkey]

namespace Interface

variable {d d' : Interface P} {since : PeerRef}

/-! ### Lookups -/

section

variable {pair : P.Secret × P.Value} {ref : PeerRef} {dst : Bytes} {env env' : Env P}
  {packet : Packet P} {value : Authenticated P}

/-- The tunnel of a peer is on the key pair of the device. -/
theorem Agrees.keyPair (h : d.Agrees ref) (hpair : d.keyPair = some pair) :
    (d.peer ref).tunnel.handshake.params.staticPrivate = pair.1 ∧
      (d.peer ref).tunnel.handshake.params.staticPublic = pair.2 := by
  have hsettings := h.settings
  rw [Interface.settings, hpair, Option.map_some, Option.some.injEq] at hsettings
  have hprivate : pair.1 = (d.peer ref).tunnel.handshake.params.staticPrivate :=
    congrArg Settings.staticPrivate hsettings
  refine ⟨hprivate.symm, ?_⟩
  rw [(d.peer ref).tunnel.handshake.params.public_eq, ← hprivate, d.matched pair hpair]

/-- The listener finds a peer by the block of its index. -/
theorem Sound.peerOfIndex (h : d.Sound since) (hmember : d.Member ref) {index : UInt32}
    (hblock : indexBlock index = (d.peer ref).index.toNat) :
    d.toDevice.peerOfIndex index = .ok ref := by
  have hlookup : d.toDevice.peersByIdx (index.toNat / 2 ^ 8) = some ref := by
    change d.peersByIdx.lookup (.ofNat (indexBlock index)) = some ref
    rw [hblock, UInt32.ofNat_toNat]
    exact h.indexed.byIndex hmember
  unfold Device.peerOfIndex
  rw [hlookup]

/-- A packet names the peer whose tunnel authenticates it. -/
theorem Sound.namedPeer (h : d.Sound since) (hpair : d.keyPair = some pair)
    (hmember : d.Member ref)
    (hauth : (d.tunnelOf ref).authenticateWithBudget dst .UNBOUNDED env packet =
      (.ok value, env')) : d.toDevice.namedPeer pair.1 pair.2 packet = .ok ref := by
  obtain ⟨key, hlookup⟩ := hmember
  obtain ⟨hle, hkey⟩ := h.keyed hlookup
  have hmember : d.Member ref := ⟨key, hlookup⟩
  have hlives := h.lives ref hle (h.indexed.allocated hmember)
  have hnumbered : (d.tunnelOf ref).Numbered (d.peer ref).index.toNat :=
    ⟨hlives.numbered.memory, hlives.numbered.sessions⟩
  have hreceiver {index : UInt32} (hindex : Tunn.receiverOf packet = some index) :
      d.toDevice.peerOfIndex index = .ok ref :=
    h.peerOfIndex hmember (hnumbered.receiver hauth hindex)
  cases packet with
  | handshakeInit p =>
    obtain ⟨hprivate, hpublic⟩ := (h.agreed ref hmember).keyPair hpair
    cases hinit : (d.tunnelOf ref).handshake.authenticateInitiation p with
    | error e =>
      dsimp only [Tunn.authenticateWithBudget] at hauth
      split at hauth
      · cases hauth
      · rw [hinit] at hauth
        cases hauth
    | ok init =>
      have hanon : Handshake.parseHandshakeAnon pair.1 pair.2 p = .ok ⟨p.senderIdx, key⟩ := by
        rw [← hprivate, ← hpublic, ← hkey]
        exact Handshake.authenticateInitiation_anon hinit
      have hpeers : d.toDevice.peers key = some ref := hlookup
      simp only [Device.namedPeer, hanon, Except.toOption, Option.bind_some, hpeers]
  | handshakeResponse p | packetCookieReply p | packetData p => exact hreceiver rfl

/-- The listener accepts a packet for a peer if and only if the peer's tunnel does. -/
theorem Sound.authenticateAnonymous_iff (h : d.Sound since) (hpair : d.keyPair = some pair) :
    d.toDevice.authenticateAnonymous pair.1 pair.2 dst env packet = (.ok (ref, value), env') ↔
      d.Member ref ∧
        (d.tunnelOf ref).authenticateWithBudget dst .UNBOUNDED env packet = (.ok value, env') := by
  rw [Device.authenticateAnonymous_eq_ok]
  constructor
  · rintro ⟨hnamed, hauth⟩
    exact ⟨h.indexed.named hnamed, hauth⟩
  · rintro ⟨hmember, hauth⟩
    exact ⟨h.namedPeer hpair hmember hauth, hauth⟩

end

/-! ### Indices -/

/-- The index an operation draws: adding a peer draws one, also when the peer is then refused. -/
def Call.drawn (call : Call P) : List UInt32 :=
  match call.change with
  | .updatePeer update _ =>
    if update.remove ∨ (call.before.peers.lookup update.pubKey).isSome then []
    else (call.before.nextIndex.next.map Prod.fst).toList
  | _ => []

def Label.drawn : Label P → List UInt32
  | .control call => call.drawn
  | .peer _ => []
  | .datagram _ => []

/-- What a step draws, and whether a peer is made with it. -/
inductive Draws (d d' : Interface P) : List UInt32 → Prop where
  | nothing (hnext : d'.nextIndex = d.nextIndex) (href : d'.nextRef = d.nextRef) : Draws d d' []
  | refused {index : UInt32} (hnext : d.nextIndex.next = some (index, d'.nextIndex))
    (href : d'.nextRef = d.nextRef) : Draws d d' [index]
  | added {index : UInt32} (hnext : d.nextIndex.next = some (index, d'.nextIndex))
    (href : d'.nextRef = d.nextRef + 1) (hown : (d'.peer d.nextRef).index = index) :
    Draws d d' [index]

theorem SameTables.draws (h : SameTables d d') : Draws d d' [] := .nothing h.nextIndex h.nextRef

theorem removePeer_draws (d : Interface P) (pubKey : P.Value) : Draws d (d.removePeer pubKey) [] := by
  unfold removePeer
  split
  · exact .nothing rfl rfl
  · exact .nothing rfl rfl

theorem addPeer_draws {update : PeerUpdate P} {seed : TunnSeed P}
    {result : Except DeviceError Unit} (h : d.addPeer update seed = some (result, d')) :
    Draws d d' (d.nextIndex.next.map Prod.fst).toList := by
  cases addPeer_eq_some h with
  | refused hnext =>
    rw [hnext]
    exact .refused hnext rfl
  | @added index nextIndex _ _ tunnel hnext =>
    have hown : (({ d with nextIndex := nextIndex }.insertPeer (newPeer tunnel index update)
        update.pubKey update.allowedIps).peer d.nextRef).index = index := by
      dsimp only [insertPeer]
      rw [Function.update_self, newPeer_index]
    rw [hnext]
    exact .added hnext rfl hown

theorem Call.Step.draws {call : Call P} (h : call.Step d d') : Draws d d' call.drawn := by
  obtain ⟨before, change⟩ := call
  obtain ⟨rfl, hperform⟩ := h
  cases change with
  | setKey | applyParams | refreshMtu | openListenSocket | setFwmark =>
    exact (perform_sameTables hperform trivial).draws
  | removePeer pubKey =>
    cases hperform
    exact before.removePeer_draws pubKey
  | clearPeers =>
    cases hperform
    exact .nothing rfl rfl
  | updatePeer update seed =>
    obtain ⟨⟨result, _⟩, hupdate, rfl⟩ := Option.map_eq_some_iff.mp hperform
    unfold updatePeer at hupdate
    dsimp only [Call.drawn]
    split at hupdate
    · next hremove =>
      cases hupdate
      rw [if_pos (.inl hremove)]
      exact before.removePeer_draws _
    · next hremove =>
      split at hupdate
      · next ref hlookup =>
        cases hupdate
        rw [if_pos (.inr (by rw [hlookup]; rfl))]
        unfold mergePeer
        dsimp only
        split
        · exact .nothing rfl rfl
        · exact .nothing rfl rfl
      · next hnew =>
        rw [if_neg (by simp [hremove, hnew])]
        exact addPeer_draws hupdate

theorem Happens.draws {label : Label P} (hsound : d.Sound since) (h : Happens label d d') :
    Draws d d' label.drawn ∧ ∀ ref < d.nextRef, (d'.peer ref).index = (d.peer ref).index := by
  cases h with
  | control hcall => exact ⟨hcall.draws, fun ref hlt => ((perform_retunes hcall.2).old ref hlt).index⟩
  | peer href hturn =>
    have hsame := putPeer_sameTables hturn
    exact ⟨hsame.draws, fun ref _ => hsame.index ref⟩
  | datagram env worker src bytes =>
    rcases hear_cases hsound.indexed env worker src bytes with ⟨hints, limiters, heq⟩ |
      ⟨d₁, ref, p, ⟨hints, limiters, rfl⟩, -, hturn, hints', limiters', heq⟩
    · rw [heq]
      exact ⟨.nothing rfl rfl, fun _ _ => rfl⟩
    · have hsame := putPeer_sameTables hturn
      rw [heq]
      exact ⟨.nothing rfl rfl, fun ref _ => hsame.index ref⟩

/-- The indices of the peers made since `since`, in order. -/
def indicesSince (d : Interface P) (since : PeerRef) : List UInt32 :=
  (List.range' since (d.nextRef - since)).map fun ref => (d.peer ref).index

theorem map_indicesSince (hstart : since ≤ d.nextRef)
    (hindex : ∀ ref < d.nextRef, (d'.peer ref).index = (d.peer ref).index) :
    (List.range' since (d.nextRef - since)).map (fun ref => (d'.peer ref).index) =
      d.indicesSince since := by
  refine List.map_congr_left fun ref hmem => hindex ref ?_
  have hrange := List.mem_range'_1.mp hmem
  rw [Nat.add_sub_cancel' hstart] at hrange
  exact hrange.2

theorem indicesSince_eq (hstart : since ≤ d.nextRef) (href : d'.nextRef = d.nextRef)
    (hindex : ∀ ref < d.nextRef, (d'.peer ref).index = (d.peer ref).index) :
    d'.indicesSince since = d.indicesSince since := by
  rw [indicesSince, href]
  exact map_indicesSince hstart hindex

theorem indicesSince_concat (hstart : since ≤ d.nextRef) (href : d'.nextRef = d.nextRef + 1)
    (hindex : ∀ ref < d.nextRef, (d'.peer ref).index = (d.peer ref).index) :
    d'.indicesSince since = d.indicesSince since ++ [(d'.peer d.nextRef).index] := by
  rw [indicesSince, href, Nat.succ_sub hstart, List.range'_1_concat, List.map_append,
    map_indicesSince hstart hindex, Nat.add_sub_cancel' hstart]
  rfl

/-- The account of the indices drawn: none twice, all below 2^24, and among them those of the
peers. -/
structure Accounted (since : PeerRef) (d : Interface P) (drawn : List UInt32) : Prop where
  sound : d.Sound since
  nodup : drawn.Nodup
  issued : ∀ index ∈ drawn, d.nextIndex.Issued index
  bound : ∀ index ∈ drawn, index.toNat < 2 ^ 24
  made : (d.indicesSince since).Sublist drawn

theorem Accounted.of_noPeers (h : d.NoPeers) : d.Accounted d.nextRef [] where
  sound := .of_noPeers h
  nodup := .nil
  issued := nofun
  bound := nofun
  made := by simp [indicesSince]

theorem Accounted.draw {drawn : List UInt32} {index : UInt32} (h : d.Accounted since drawn)
    (hsound : d'.Sound since) (hnext : d.nextIndex.next = some (index, d'.nextIndex))
    (hmade : (d'.indicesSince since).Sublist (drawn ++ [index])) :
    d'.Accounted since (drawn ++ [index]) := by
  obtain ⟨hbound, hfresh, hissued, hkept⟩ := IndexLfsr.next_fresh hnext
  have hnew : index ∉ drawn := fun hmem => hfresh (h.issued index hmem)
  refine ⟨hsound, ?_, ?_, ?_, hmade⟩
  · rw [← List.concat_eq_append]
    exact List.Nodup.concat hnew h.nodup
  · intro other hmem
    rcases List.mem_append.mp hmem with hold | hlast
    · exact hkept other (h.issued other hold)
    · rw [List.mem_singleton.mp hlast]
      exact hissued
  · intro other hmem
    rcases List.mem_append.mp hmem with hold | hlast
    · exact h.bound other hold
    · rw [List.mem_singleton.mp hlast]
      exact hbound

theorem Accounted.step {drawn : List UInt32} {label : Label P} (h : d.Accounted since drawn)
    (hstep : Happens label d d') : d'.Accounted since (drawn ++ label.drawn) := by
  have hsound := h.sound.step hstep
  obtain ⟨hdraws, hindex⟩ := hstep.draws h.sound
  generalize label.drawn = new at hdraws
  cases hdraws with
  | nothing hnext href =>
    rw [List.append_nil]
    refine ⟨hsound, h.nodup, ?_, h.bound, ?_⟩
    · rw [hnext]
      exact h.issued
    · rw [indicesSince_eq h.sound.start href hindex]
      exact h.made
  | refused hnext href =>
    refine h.draw hsound hnext ?_
    rw [indicesSince_eq h.sound.start href hindex]
    exact h.made.trans (List.sublist_append_left _ _)
  | added hnext href hown =>
    refine h.draw hsound hnext ?_
    rw [indicesSince_concat h.sound.start href hindex, hown]
    exact h.made.append (List.Sublist.refl _)

theorem accounted_of_trace {d₀ : Interface P} {labels : List (Label P)} (hnew : d₀.NoPeers)
    (hrun : Trace Happens d₀ labels d) : d.Accounted d₀.nextRef (labels.flatMap Label.drawn) := by
  rw [List.flatMap_eq_foldl]
  exact hrun.account (fun label d d' drawn hstep h => h.step hstep) (.of_noPeers hnew)

/-- An operation panics only if the generator has come round. -/
theorem perform_eq_none {change : Change P} (h : d.perform change = none) :
    d.nextIndex.next = none := by
  cases change with
  | updatePeer update seed =>
    have hupdate := Option.map_eq_none_iff.mp h
    unfold updatePeer at hupdate
    split at hupdate
    · cases hupdate
    · split at hupdate
      · cases hupdate
      · unfold addPeer at hupdate
        split at hupdate
        · next hnext => exact hnext
        · dsimp only at hupdate
          split at hupdate
          · cases hupdate
          · split at hupdate <;> cases hupdate
  | _ => cases h

/-! ### The listener's answer -/

/-- Over every run: the indices handed out are distinct and have 24 bits, those of the peers
among them, until the generator has come round; every message a peer's tunnel can write has the
peer's index in the top 24 bits of its own; and the listener accepts a packet for a peer if and
only if the peer's tunnel authenticates it, which at most one does. -/
theorem demultiplexing {d₀ d : Interface P} {labels : List (Label P)} (hnew : d₀.NoPeers)
    (hrun : Trace Happens d₀ labels d) :
    ((labels.flatMap Label.drawn).Nodup ∧
      (∀ index ∈ labels.flatMap Label.drawn, index.toNat < 2 ^ 24) ∧
      (d.indicesSince d₀.nextRef).Sublist (labels.flatMap Label.drawn) ∧
      ∀ change, d.perform change = none → d.nextIndex.next = none) ∧
    (∀ ref, d₀.nextRef ≤ ref → ref < d.nextRef → ∀ message,
      (d.peer ref).tunnel.MayWrite message → ∃ index : UInt32,
        slice message 4 8 = leBytes 4 index.toNat ∧
          indexBlock index = (d.peer ref).index.toNat) ∧
    (∀ pair, d.keyPair = some pair → ∀ dst packet,
      (∀ ref value env env',
        d.toDevice.authenticateAnonymous pair.1 pair.2 dst env packet = (.ok (ref, value), env') ↔
          d.Member ref ∧ (d.tunnelOf ref).authenticateWithBudget dst .UNBOUNDED env packet =
            (.ok value, env')) ∧
      ∀ ref ref' value value' env₁ env₂ env₁' env₂', d.Member ref → d.Member ref' →
        (d.tunnelOf ref).authenticateWithBudget dst .UNBOUNDED env₁ packet = (.ok value, env₁') →
        (d.tunnelOf ref').authenticateWithBudget dst .UNBOUNDED env₂ packet = (.ok value', env₂') →
        ref = ref') := by
  have haccounted := accounted_of_trace hnew hrun
  have hsound := haccounted.sound
  refine ⟨⟨haccounted.nodup, haccounted.bound, haccounted.made, fun _ => perform_eq_none⟩, ?_, ?_⟩
  · intro ref hle hlt message hwrite
    exact (hsound.lives ref hle hlt).numbered.mayWrite hwrite
  · intro pair hpair dst packet
    refine ⟨fun ref value env env' => hsound.authenticateAnonymous_iff hpair, ?_⟩
    intro ref ref' value value' env₁ env₂ env₁' env₂' hmember hmember' hauth hauth'
    have hnamed := hsound.namedPeer hpair hmember hauth
    have hnamed' := hsound.namedPeer hpair hmember' hauth'
    rw [hnamed] at hnamed'
    exact Except.ok.inj hnamed'

/-! ### A handshake at the listener -/

def byteWorker : ThreadData := ⟨byteBuffer, zeroRng, zeroRng⟩

/-- The other end of the first of two peers starts a handshake, and the listener answers it. -/
def byteAnswered : Interface bytePrimitives :=
  byteRun.2.hear (byteEnv 1 7) byteWorker Peer.byteAddr Peer.byteInitiation

def byteLabels : List (Label bytePrimitives) :=
  byteRun.1.map .control ++ [.datagram Peer.byteInitiation]

/-- The response. -/
def byteAnswer : Bytes :=
  match byteRun.2.toDevice.listen (byteEnv 1 7) byteWorker Peer.byteAddr Peer.byteInitiation with
  | (.accepted ref packet, _, _, env) =>
    (byteRun.2.commitHeard env byteWorker Peer.byteAddr Peer.byteInitiation ref packet).1.datagram
  | _ => []

/-- What the other end confirms the session with. -/
def byteConfirmation : Packet bytePrimitives :=
  (parseIncomingPacket .default ((bytePeer.after (byteEnv 1 4)
    (.formatHandshakeInitiation byteBuffer true .UNBOUNDED)).deliver (byteEnv 1 4)
      byteAnswer).1.datagram).toOption.get (by decide +kernel)

/-- Two indices were handed out, and the confirmation is for the first peer. -/
theorem demultiplexing_byteAnswered :
    (byteLabels.flatMap Label.drawn).length = 2 ∧ (byteLabels.flatMap Label.drawn).Nodup ∧
      ∃ value env', (byteAnswered.tunnelOf 0).authenticateWithBudget byteBuffer .UNBOUNDED
          (byteEnv 1 8) byteConfirmation = (.ok value, env') ∧
        byteAnswered.toDevice.authenticateAnonymous (1 : UInt8) (3 : UInt8) byteBuffer
          (byteEnv 1 8) byteConfirmation = (.ok (0, value), env') := by
  have hall : byteInterface.runAll byteChanges = some byteRun := (Option.some_get _).symm
  have hcalls : Trace Happens byteInterface (byteRun.1.map .control) byteRun.2 :=
    (trace_runAll hall).map Label.control fun _ _ _ => .control
  have hrun : Trace Happens byteInterface byteLabels byteAnswered :=
    hcalls.append (.single (.datagram (byteEnv 1 7) byteWorker Peer.byteAddr Peer.byteInitiation))
  obtain ⟨⟨hnodup, -⟩, -, hlookups⟩ := demultiplexing ⟨rfl, rfl, rfl⟩ hrun
  have hdrawn : (byteLabels.flatMap Label.drawn).length = 2 := by decide +kernel
  have hkeys : byteAnswered.keyPair.map (fun pair : UInt8 × UInt8 => (pair.1, pair.2)) =
      some ((1 : UInt8), (3 : UInt8)) := by decide +kernel
  have hkey : byteAnswered.keyPair = some ((1 : UInt8), (3 : UInt8)) := by
    obtain ⟨⟨_, _⟩, hpair, heq⟩ := Option.map_eq_some_iff.mp hkeys
    cases heq
    exact hpair
  have hmember : byteAnswered.Member 0 := ⟨(6 : UInt8), by decide +kernel⟩
  have hok : ((byteAnswered.tunnelOf 0).authenticateWithBudget byteBuffer .UNBOUNDED
      (byteEnv 1 8) byteConfirmation).1.toOption.isSome = true := by decide +kernel
  obtain ⟨hiff, -⟩ := hlookups _ hkey byteBuffer byteConfirmation
  rcases hauth : (byteAnswered.tunnelOf 0).authenticateWithBudget byteBuffer .UNBOUNDED
    (byteEnv 1 8) byteConfirmation with ⟨result, env'⟩
  rw [hauth] at hok
  cases result with
  | error e => cases hok
  | ok value =>
    exact ⟨hdrawn, hnodup, value, env', rfl, (hiff 0 value _ env').mpr ⟨hmember, hauth⟩⟩

end Interface

end BoringTun

import BoringTun.Device.AllowedIps
import BoringTun.Device.AwgParams
import BoringTun.Device.IndexLfsr
import BoringTun.Device.Listener
import BoringTun.Device.Roaming

/-!
A device as its control plane sees it (`Device` in `device/mod.rs`): the key, the AmneziaWG
settings and the three tables of peers, with the operations `set=1` is made of.

A peer is a reference into `peer`, as the tables share their peers, and a rate limiter a
reference into `limiters`, as a device shares its own with its peers. That a device with a key
has a limiter, and that its public key belongs to the private one, is part of the type.

Sockets are left out but for what the operations do to the peers: `bound` and `marked` are the
outcomes of the system calls.
-/

namespace BoringTun

def HANDSHAKE_RATE_LIMIT : Nat := 100

/-- A limiter that is shared. -/
abbrev LimiterRef := Nat

/-- What an operation on a device can fail with. -/
inductive DeviceError where
  | system (errno : Option Int)
  | peerSetup (message : String)
  deriving DecidableEq

structure Interface (P : Primitives) where
  keyPair : Option (P.Secret × P.Value)
  rateLimiter : Option LimiterRef
  obf : ObfuscationRanges
  amnezia : AmneziaConfig
  mtu : Nat
  listenPort : Nat
  /-- The listeners are open and registered. -/
  listening : Bool
  fwmark : Option Nat
  imitationHints : Pending
  nextIndex : IndexLfsr
  peers : Assoc.Map P.Value PeerRef
  peersByIdx : Assoc.Map UInt32 PeerRef
  peersByIp : AllowedIps PeerRef
  /-- What a reference below `nextRef` refers to. -/
  peer : PeerRef → Peer P
  nextRef : PeerRef
  limiters : LimiterRef → RateLimiter P
  limiterOf : PeerRef → LimiterRef
  nextLimiter : LimiterRef
  limited : rateLimiter.isSome = keyPair.isSome
  matched : ∀ pair ∈ keyPair, pair.2 = P.publicKey pair.1

/-- One peer's part of a transaction. -/
structure PeerUpdate (P : Primitives) where
  pubKey : P.Value
  remove : Bool := false
  replaceIps : Bool := false
  endpoint : Option SocketAddr := none
  allowedIps : List AllowedIP := []
  keepalive : Option (Nat × Nat) := none
  presharedKey : Option P.Value := none

namespace Interface

variable {P : Primitives} (d : Interface P)

/-- A change made to every peer of the map. -/
def mapPeers (f : Peer P → Peer P) : PeerRef → Peer P := fun ref =>
  if ref ∈ Assoc.values d.peers then f (d.peer ref) else d.peer ref

/-! ### Key and settings -/

/-- Take a new key: a new limiter for everyone, and every session gone. -/
def setKey (privateKey : P.Secret) (seed : RateLimiterSeed P) : Interface P :=
  let publicKey := P.publicKey privateKey
  if d.keyPair.map Prod.snd = some publicKey then d
  else
    let limiter := RateLimiter.new publicKey HANDSHAKE_RATE_LIMIT seed
    { d with
      keyPair := some (privateKey, publicKey)
      rateLimiter := some d.nextLimiter
      imitationHints := .empty
      peer := d.mapPeers fun p =>
        { p with tunnel := p.tunnel.setStaticPrivate privateKey (some limiter) seed }
      limiters := Function.update d.limiters d.nextLimiter limiter
      limiterOf := fun ref =>
        if ref ∈ Assoc.values d.peers then d.nextLimiter else d.limiterOf ref
      nextLimiter := d.nextLimiter + 1
      limited := rfl
      matched := by rintro _ ⟨⟩; rfl }

/-- Install settings, in the device and in every peer; false when they are what it has. -/
def setObfuscation (obf : ObfuscationRanges) (amnezia : AmneziaConfig) : Bool × Interface P :=
  if d.obf = obf ∧ d.amnezia = amnezia then (false, d)
  else (true, { d with
    obf := obf
    amnezia := amnezia
    imitationHints := .empty
    peer := d.mapPeers fun p => { p with tunnel := p.tunnel.setObfuscation obf amnezia } })

theorem setObfuscation_obf (obf : ObfuscationRanges) (amnezia : AmneziaConfig) :
    (d.setObfuscation obf amnezia).2.obf = obf := by
  unfold setObfuscation
  split
  · next hsame => exact hsame.1
  · rfl

theorem setObfuscation_amnezia (obf : ObfuscationRanges) (amnezia : AmneziaConfig) :
    (d.setObfuscation obf amnezia).2.amnezia = amnezia := by
  unfold setObfuscation
  split
  · next hsame => exact hsame.2
  · rfl

/-- The MTU the padding is clamped to: saturated, as 0 would mean no clamp. -/
def paddingMtu (mtu : Nat) : Nat := min mtu (2 ^ 16 - 1)

/-- Merge what a transaction has said and install the result. -/
def applyParams (params : AwgParams) : Except Nat Unit × Interface P :=
  if !params.seen then (.ok (), d)
  else
    match params.merged d.obf d.amnezia (paddingMtu d.mtu) with
    | .error e => (.error e, d)
    | .ok (obf, amnezia) => (.ok (), (d.setObfuscation obf amnezia).2)

/-- The monitor has read the MTU of the interface. -/
def refreshMtu (mtu : Nat) : Interface P :=
  let d := { d with mtu := mtu }
  if d.amnezia.contentPaddingMtu = paddingMtu mtu then d
  else { d with
    amnezia := { d.amnezia with contentPaddingMtu := paddingMtu mtu }
    peer := d.mapPeers fun p =>
      { p with tunnel := p.tunnel.setContentPaddingMtu (paddingMtu mtu) } }

def openListenSocket (port : Nat) (bound : Except DeviceError Nat) :
    Except DeviceError Unit × Interface P :=
  if port ≠ 0 ∧ port = d.listenPort ∧ d.listening then (.ok (), d)
  else
    match bound with
    | .error e => (.error e, d)
    | .ok port => (.ok (), { d with
        listenPort := port
        listening := true
        imitationHints := .empty
        peer := d.mapPeers Peer.shutdownEndpoint })

def setFwmark (mark : Nat) (marked : Except DeviceError Unit) :
    Except DeviceError Unit × Interface P :=
  match marked with
  | .error e => (.error e, d)
  | .ok () => (.ok (), { d with fwmark := some mark })

/-! ### Peers -/

/-- Purge a peer from all three tables. -/
def removePeer (pubKey : P.Value) : Interface P :=
  match d.peers.lookup pubKey with
  | none => d
  | some ref => { d with
      peers := d.peers.erase pubKey
      imitationHints := .empty
      peer := Function.update d.peer ref (d.peer ref).shutdownEndpoint
      peersByIdx := d.peersByIdx.erase (d.peer ref).index
      peersByIp := AllowedIps.remove d.peersByIp fun owner => owner = ref }

def clearPeers : Interface P :=
  { d with
    imitationHints := .empty
    peer := d.mapPeers Peer.shutdownEndpoint
    peers := ∅
    peersByIdx := ∅
    peersByIp := ∅ }

def peerOwns (ref : PeerRef) (addr : IpAddr) : Bool := AllowedIps.indexOwns d.peersByIp ref addr

def peerAllowedIps (ref : PeerRef) : List AllowedIP := AllowedIps.indexPrefixes d.peersByIp ref

/-- Evidence about an endpoint that is left goes with it. -/
def withEndpoint (p : Peer P) : Option SocketAddr → Peer P
  | none => p
  | some addr =>
    let addr := canonicalEndpoint addr
    let p := if p.endpoint.addr ≠ some addr then { p with tunnel := p.tunnel.discardImitationHint }
      else p
    p.setEndpoint addr

def withKeepalive (p : Peer P) : Option (Nat × Nat) → Peer P
  | none => p
  | some range => p.setPersistentKeepaliveRange range

/-- What an update changes in the peer itself: the fields it carries. -/
def mergedPeer (p : Peer P) (update : PeerUpdate P) : Peer P :=
  let p := withKeepalive (withEndpoint p update.endpoint) update.keepalive
  if update.presharedKey.isSome then p.setPresharedKey update.presharedKey else p

/-- Update a peer in place. Its prefixes are taken out and put back, with those of the
update; a replacing update puts back only its own. -/
def mergePeer (ref : PeerRef) (update : PeerUpdate P) : Interface P :=
  let d := { d with peer := Function.update d.peer ref (mergedPeer (d.peer ref) update) }
  if update.replaceIps ∨ update.allowedIps ≠ [] then
    let prefixes := (if update.replaceIps then [] else d.peerAllowedIps ref) ++ update.allowedIps
    { d with peersByIp :=
        AllowedIps.insertAll (AllowedIps.remove d.peersByIp fun owner => owner = ref) prefixes ref }
  else d

/-- Enter a new peer in the tables. Its tunnel shares the device's limiter, or has one of its
own. -/
def insertPeer (peer : Peer P) (pubKey : P.Value) (allowedIps : List AllowedIP) : Interface P :=
  { d with
    peer := Function.update d.peer d.nextRef peer
    nextRef := d.nextRef + 1
    limiters := if d.rateLimiter.isSome then d.limiters
      else Function.update d.limiters d.nextLimiter peer.tunnel.rateLimiter
    limiterOf := Function.update d.limiterOf d.nextRef (d.rateLimiter.getD d.nextLimiter)
    nextLimiter := if d.rateLimiter.isSome then d.nextLimiter else d.nextLimiter + 1
    peers := d.peers.insert pubKey d.nextRef
    peersByIdx := d.peersByIdx.insert peer.index d.nextRef
    peersByIp := AllowedIps.insertAll d.peersByIp allowedIps d.nextRef }

/-- A new peer as an update describes it, around its tunnel. -/
def newPeer (tunnel : Tunn P) (index : UInt32) (update : PeerUpdate P) : Peer P :=
  withKeepalive (.new tunnel index update.endpoint update.presharedKey) update.keepalive

/-- A new peer, on the settings of the device. -/
def addPeer (update : PeerUpdate P) (seed : TunnSeed P) :
    Option (Except DeviceError Unit × Interface P) :=
  match d.nextIndex.next with
  | none => none
  | some (index, nextIndex) =>
    let d := { d with nextIndex := nextIndex }
    match d.keyPair with
    | none => some (.error (.peerSetup "private key must be set first"), d)
    | some (privateKey, _) =>
      match Tunn.newWithObfuscation privateKey update.pubKey update.presharedKey
          ((update.keepalive.map Prod.fst).filter fun lo => lo > 0) index
          (d.rateLimiter.map d.limiters) d.obf d.amnezia seed with
      | .error e => some (.error (.peerSetup e), d)
      | .ok tunnel =>
        some (.ok (), d.insertPeer (newPeer tunnel index update) update.pubKey update.allowedIps)

/-- Remove, merge or add; none when the indices are used up, which is a panic. -/
def updatePeer (update : PeerUpdate P) (seed : TunnSeed P) :
    Option (Except DeviceError Unit × Interface P) :=
  if update.remove then some (.ok (), d.removePeer update.pubKey)
  else
    match d.peers.lookup update.pubKey with
    | some ref => some (.ok (), d.mergePeer ref update)
    | none => d.addPeer update seed

/-- How adding a peer can end: an index is drawn, and the peer is there unless there is no key
or its tunnel is refused. -/
inductive AddsPeer (update : PeerUpdate P) (seed : TunnSeed P) :
    Except DeviceError Unit → Interface P → Prop where
  | refused {index : UInt32} {nextIndex : IndexLfsr} {message : String}
    (hnext : d.nextIndex.next = some (index, nextIndex)) :
    AddsPeer update seed (.error (.peerSetup message)) { d with nextIndex := nextIndex }
  | added {index : UInt32} {nextIndex : IndexLfsr} {privateKey : P.Secret} {publicKey : P.Value}
    {tunnel : Tunn P} (hnext : d.nextIndex.next = some (index, nextIndex))
    (hkey : d.keyPair = some (privateKey, publicKey))
    (htunnel : Tunn.newWithObfuscation privateKey update.pubKey update.presharedKey
      ((update.keepalive.map Prod.fst).filter fun lo => lo > 0) index
      (d.rateLimiter.map d.limiters) d.obf d.amnezia seed = .ok tunnel) :
    AddsPeer update seed (.ok ()) ({ d with nextIndex := nextIndex }.insertPeer
      (newPeer tunnel index update) update.pubKey update.allowedIps)

theorem addPeer_eq_some {d d' : Interface P} {update : PeerUpdate P} {seed : TunnSeed P}
    {result : Except DeviceError Unit} (h : d.addPeer update seed = some (result, d')) :
    d.AddsPeer update seed result d' := by
  unfold addPeer at h
  split at h
  · cases h
  next index nextIndex hnext =>
  dsimp only at h
  split at h
  · cases h
    exact .refused hnext
  next privateKey publicKey hkey =>
  split at h
  · cases h
    exact .refused hnext
  next tunnel htunnel =>
  cases h
  exact .added hnext hkey htunnel

theorem withKeepalive_index (p : Peer P) (keepalive : Option (Nat × Nat)) :
    (withKeepalive p keepalive).index = p.index := by
  cases keepalive with
  | none => rfl
  | some range => rfl

theorem withEndpoint_index (p : Peer P) (endpoint : Option SocketAddr) :
    (withEndpoint p endpoint).index = p.index := by
  cases endpoint with
  | none => rfl
  | some addr =>
    dsimp only [withEndpoint]
    split
    · exact Peer.moveEndpoint_index _ _ _
    · exact Peer.moveEndpoint_index _ _ _

theorem mergedPeer_index (p : Peer P) (update : PeerUpdate P) :
    (mergedPeer p update).index = p.index := by
  have hindex : (withKeepalive (withEndpoint p update.endpoint) update.keepalive).index = p.index :=
    (withKeepalive_index _ _).trans (withEndpoint_index _ _)
  unfold mergedPeer
  dsimp only
  split
  · exact hindex
  · exact hindex

theorem newPeer_index (tunnel : Tunn P) (index : UInt32) (update : PeerUpdate P) :
    (newPeer tunnel index update).index = index :=
  withKeepalive_index _ _

/-! ### The control plane -/

/-- One operation of the control plane, with what the system answers it. -/
inductive Change (P : Primitives) where
  | setKey (privateKey : P.Secret) (seed : RateLimiterSeed P)
  | applyParams (params : AwgParams)
  | refreshMtu (mtu : Nat)
  | openListenSocket (port : Nat) (bound : Except DeviceError Nat)
  | setFwmark (mark : Nat) (marked : Except DeviceError Unit)
  | removePeer (pubKey : P.Value)
  | clearPeers
  | updatePeer (update : PeerUpdate P) (seed : TunnSeed P)

/-- The device after an operation, whatever it reported; none after a panic. -/
def perform : Change P → Option (Interface P)
  | .setKey privateKey seed => some (d.setKey privateKey seed)
  | .applyParams params => some (d.applyParams params).2
  | .refreshMtu mtu => some (d.refreshMtu mtu)
  | .openListenSocket port bound => some (d.openListenSocket port bound).2
  | .setFwmark mark marked => some (d.setFwmark mark marked).2
  | .removePeer pubKey => some (d.removePeer pubKey)
  | .clearPeers => some d.clearPeers
  | .updatePeer update seed => (d.updatePeer update seed).map Prod.snd

/-! ### The listener's view -/

/-- The tunnel of a peer, on the limiter it refers to. -/
def tunnelOf (ref : PeerRef) : Tunn P :=
  { (d.peer ref).tunnel with rateLimiter := d.limiters (d.limiterOf ref) }

/-- The device as its listener sees it. -/
def toDevice : Device P where
  keyPair := d.keyPair
  rateLimiter := d.rateLimiter.map d.limiters
  obf := d.obf
  amnezia := d.amnezia
  imitationHints := d.imitationHints
  tunnel := d.tunnelOf
  peers := fun key => d.peers.lookup key
  peersByIdx := fun index => d.peersByIdx.lookup (.ofNat index)

end Interface

end BoringTun

import BoringTun.Device.ApiTransport
import BoringTun.Device.Interface
import BoringTun.Lib.Text

/-!
The `set=1` transaction (`api_set` and `api_set_peer` in `device/api.rs`, `KeyBytes` in
`serialization.rs`, `AllowedIP` in `device/peer.rs`).

A line is read, cut at its first `=` and understood as an item of the interface or of a peer
section; items of the interface take effect at once or are staged, those of a section are
gathered and committed at its end. What the standard library makes of addresses is a parameter.
-/

namespace BoringTun.Uapi

open Text

def EPROTO : Nat := 71

/-! ### Values -/

/-- What a value is understood as; slicing a text inside a character is a panic. -/
inductive Understood (α : Type*) where
  | as (value : α)
  | refused
  | panicked

def Understood.map {α β : Type*} (f : α → β) : Understood α → Understood β
  | as value => as (f value)
  | refused => refused
  | panicked => panicked

def Understood.ofOption {α : Type*} : Option α → Understood α
  | some value => as value
  | none => refused

def hexDigit (b : UInt8) : Option Nat :=
  if 48 ≤ b && b ≤ 57 then some (b.toNat - 48)
  else if 97 ≤ b && b ≤ 102 then some (b.toNat - 87)
  else if 65 ≤ b && b ≤ 70 then some (b.toNat - 55)
  else none

/-- `u8::from_str_radix` of two characters, the first of which may be a plus sign. -/
def hexByte (high low : UInt8) : Option UInt8 :=
  if high = 43 then (hexDigit low).map UInt8.ofNat
  else (hexDigit high).bind fun h => (hexDigit low).map fun l => UInt8.ofNat (16 * h + l)

/-- The bytes from the `i`-th on of a text of hexadecimal digits, `n` of them. -/
def hexBytes (text : Bytes) : (n i : Nat) → Understood Bytes
  | 0, _ => .as []
  | n + 1, i =>
    if !isCharBoundary text (2 * i) || !isCharBoundary text (2 * i + 2) then .panicked
    else
      match hexByte (text.getD (2 * i) 0) (text.getD (2 * i + 1) 0) with
      | none => .refused
      | some b => (hexBytes text n (i + 1)).map (b :: ·)

/-- A key of 32 bytes, in hexadecimal or base64. -/
def keyBytes (base64 : Bytes → Option Bytes) (text : Bytes) : Understood Bytes :=
  if text.length = 64 then hexBytes text 32 0
  else if text.length = 43 ∨ text.length = 44 then
    .ofOption ((base64 text).filter (·.length = 32))
  else .refused

/-- `min-max`, or one number for both. -/
def parseUintRange (text : Bytes) : Option (Nat × Nat) :=
  match splitOnce 45 text with
  | some (low, high) => do
    let low ← parseUInt (2 ^ 32 - 1) (trim low)
    let high ← parseUInt (2 ^ 32 - 1) (trim high)
    if low > high then none else some (low, high)
  | none => (parseUInt (2 ^ 32 - 1) (trim text)).map fun value => (value, value)

/-- A tag of 0 would mean the tag of plain WireGuard. -/
def parseTagRange (text : Bytes) : Option (Nat × Nat) :=
  (parseUintRange text).filter fun range => range.1 ≠ 0

/-- The spellings of Go's `ParseBool`. -/
def parseGoBool (text : Bytes) : Option Bool :=
  if text ∈ ["0", "f", "F", "false", "FALSE", "False"].map ascii then some false
  else if text ∈ ["1", "t", "T", "true", "TRUE", "True"].map ascii then some true
  else none

def parseKeepaliveInterval (text : Bytes) : Option (Nat × Nat) :=
  (parseUintRange text).bind fun range => normalizePersistentKeepaliveRange range.1 range.2

/-- What is outside: how the standard library reads addresses, how base64 is decoded, and how x25519
makes a private key of 32 bytes. -/
structure Outside (P : Primitives) where
  ipAddr : Bytes → Option IpAddr
  socketAddr : Bytes → Option SocketAddr
  base64 : Bytes → Option Bytes
  secret : Bytes → P.Secret

/-- `addr/cidr`. -/
def parseAllowedIP (ipAddr : Bytes → Option IpAddr) (text : Bytes) : Option AllowedIP := do
  let (addr, cidr) ← splitOnce 47 text
  let addr ← ipAddr addr
  let cidr ← parseUInt (2 ^ 8 - 1) cidr
  if h : cidr ≤ addr.width then some ⟨addr, cidr, h⟩ else none

/-! ### Items of the interface -/

inductive SizeKey where
  | jc | jmin | jmax | s1 | s2 | s3 | s4
  deriving DecidableEq

inductive HeaderKey where
  | h1 | h2 | h3 | h4
  deriving DecidableEq

inductive TimerKey where
  | rekeyAfterTime | rekeyTimeout | rejectAfterTime | keepaliveTimeout | maxHandshakeAttempts
  deriving DecidableEq

/-- The keys of the interface, but the one that begins a peer section. -/
inductive InterfaceKey where
  | privateKey | listenPort | fwmark | replacePeers
  | size (key : SizeKey) | header (key : HeaderKey) | contentPaddingAddition
  | randomTrailers | disableCookies | signature | headerProtectionKey | timer (key : TimerKey)

def interfaceKeys : List (String × InterfaceKey) :=
  [("private_key", .privateKey), ("listen_port", .listenPort), ("fwmark", .fwmark),
    ("replace_peers", .replacePeers), ("jc", .size .jc), ("jmin", .size .jmin),
    ("jmax", .size .jmax), ("s1", .size .s1), ("s2", .size .s2), ("s3", .size .s3),
    ("s4", .size .s4), ("h1", .header .h1), ("h2", .header .h2), ("h3", .header .h3),
    ("h4", .header .h4), ("content_padding_addition", .contentPaddingAddition),
    ("random_trailers", .randomTrailers), ("disable_cookies", .disableCookies),
    ("i1", .signature), ("i2", .signature), ("i3", .signature), ("i4", .signature),
    ("i5", .signature), ("header_protection_key", .headerProtectionKey),
    ("rekey_after_time", .timer .rekeyAfterTime), ("rekey_timeout", .timer .rekeyTimeout),
    ("reject_after_time", .timer .rejectAfterTime),
    ("keepalive_timeout", .timer .keepaliveTimeout),
    ("max_handshake_attempts", .timer .maxHandshakeAttempts)]

/-- The entry a key names. -/
def keyed {α : Type*} (table : List (String × α)) (key : Bytes) : Option α :=
  (table.find? fun entry => ascii entry.1 = key).map Prod.snd

inductive InterfaceItem (P : Primitives) where
  | privateKey (key : P.Secret)
  | listenPort (port : Nat)
  | fwmark (mark : Nat)
  | replacePeers (all : Bool)
  | size (key : SizeKey) (value : Nat)
  | header (key : HeaderKey) (range : Nat × Nat)
  | contentPadding (range : Nat × Nat)
  | randomTrailers (on : Bool)
  | disableCookies (on : Bool)
  /-- Signature packets of AmneziaWG 2.0, which a responder need not know. -/
  | signature
  | headerProtection (key : Bytes)
  | timer (key : TimerKey) (range : Nat × Nat)

variable {P : Primitives} (outside : Outside P)

def interfaceItem (value : Bytes) : InterfaceKey → Understood (InterfaceItem P)
  | .privateKey => (keyBytes outside.base64 value).map fun key => .privateKey (outside.secret key)
  | .listenPort => (Understood.ofOption (parseUInt (2 ^ 16 - 1) value)).map .listenPort
  | .fwmark => (Understood.ofOption (parseUInt (2 ^ 32 - 1) value)).map .fwmark
  | .replacePeers => (Understood.ofOption (parseBool value)).map .replacePeers
  | .size key => (Understood.ofOption (parseUInt (2 ^ 16 - 1) value)).map (.size key)
  | .header key => (Understood.ofOption (parseTagRange value)).map (.header key)
  | .contentPaddingAddition => (Understood.ofOption (parseUintRange value)).map .contentPadding
  | .randomTrailers => (Understood.ofOption (parseGoBool value)).map .randomTrailers
  | .disableCookies => (Understood.ofOption (parseGoBool value)).map .disableCookies
  | .signature => .as .signature
  | .headerProtectionKey => (keyBytes outside.base64 value).map .headerProtection
  | .timer key => (Understood.ofOption (parseUintRange value)).map (.timer key)

/-- What a line is to a loop: the beginning of a section, an item, or a reason to stop. -/
inductive Line (α : Type*) where
  | publicKey (value : Bytes)
  | item (value : α)
  | refused (status : Nat)
  | panicked

def Line.ofUnderstood {α : Type*} : Understood α → Line α
  | .as value => .item value
  | .refused => .refused EINVAL
  | .panicked => .panicked

/-- Cut a line at its first `=`, and look its key up. -/
def classifyLine {κ α : Type*} (table : List (String × κ)) (understand : Bytes → κ → Understood α)
    (cmd : Bytes) : Line α :=
  match splitOnce 61 cmd with
  | none => .refused EPROTO
  | some (key, value) =>
    if key = ascii "public_key" then .publicKey value
    else
      match keyed table key with
      | none => .refused EINVAL
      | some key => .ofUnderstood (understand value key)

def interfaceLine (cmd : Bytes) : Line (InterfaceItem P) :=
  classifyLine interfaceKeys (interfaceItem outside) cmd

end BoringTun.Uapi

namespace BoringTun.AwgParams

open Uapi

variable (params : AwgParams)

def setSize (key : SizeKey) (value : Nat) : AwgParams :=
  let params := match key with
    | .jc => { params with jc := some value }
    | .jmin => { params with jmin := some value }
    | .jmax => { params with jmax := some value }
    | .s1 => { params with s1 := some value }
    | .s2 => { params with s2 := some value }
    | .s3 => { params with s3 := some value }
    | .s4 => { params with s4 := some value }
  { params with seen := true }

def setHeader (key : HeaderKey) (range : Nat × Nat) : AwgParams :=
  let params := match key with
    | .h1 => { params with h1 := some range }
    | .h2 => { params with h2 := some range }
    | .h3 => { params with h3 := some range }
    | .h4 => { params with h4 := some range }
  { params with seen := true }

def setTimer (key : TimerKey) (range : Nat × Nat) : AwgParams :=
  let params := match key with
    | .rekeyAfterTime => { params with rekeyAfterTime := some range }
    | .rekeyTimeout => { params with rekeyTimeout := some range }
    | .rejectAfterTime => { params with rejectAfterTime := some range }
    | .keepaliveTimeout => { params with keepaliveTimeout := some range }
    | .maxHandshakeAttempts => { params with maxHandshakeAttempts := some range }
  { params with seen := true }

def setHeaderProtection (key : Bytes) : AwgParams :=
  { params with headerProtection := some key, seen := true }

def setContentPadding (range : Nat × Nat) : AwgParams :=
  { params with contentPadding := some range, seen := true }

def setRandomTrailers (on : Bool) : AwgParams :=
  { params with randomTrailers := some on, seen := true }

def setDisableCookies (on : Bool) : AwgParams :=
  { params with disableCookies := some on, seen := true }

end BoringTun.AwgParams

namespace BoringTun.Uapi

open Text

/-! ### Acting on the interface -/

/-- What the system answers the calls to come: seeds, and the outcomes of opening listeners and
of marking sockets. -/
structure Supply (P : Primitives) where
  tunnel : Nat → TunnSeed P
  limiter : Nat → RateLimiterSeed P
  bound : Nat → Except DeviceError Nat
  marked : Nat → Except DeviceError Unit

def Supply.next {P : Primitives} (os : Supply P) : Supply P where
  tunnel n := os.tunnel (n + 1)
  limiter n := os.limiter (n + 1)
  bound n := os.bound (n + 1)
  marked n := os.marked (n + 1)

/-- A transaction before its first peer section: the device so far, and what is staged. -/
structure Staging (P : Primitives) where
  device : Interface P
  params : AwgParams
  os : Supply P

/-- The errno an error carries, if it is a positive one. -/
def deviceErrno : DeviceError → Nat
  | .system (some errno) => if errno > 0 then errno.toNat else EIO_CODE
  | .system none => EIO_CODE
  | .peerSetup _ => EIO_CODE

variable {P : Primitives}

/-- Act on an item, or give up with a status and the device as it is. -/
def Staging.handle (s : Staging P) : InterfaceItem P → Except (Nat × Interface P) (Staging P)
  | .privateKey key =>
    .ok { s with device := s.device.setKey key (s.os.limiter 0), os := s.os.next }
  | .listenPort port =>
    match s.device.openListenSocket port (s.os.bound 0) with
    | (.ok (), device) => .ok { s with device := device, os := s.os.next }
    | (.error e, device) => .error (deviceErrno e, device)
  | .fwmark mark =>
    match s.device.setFwmark mark (s.os.marked 0) with
    | (.ok (), device) => .ok { s with device := device, os := s.os.next }
    | (.error e, device) => .error (deviceErrno e, device)
  | .replacePeers all => .ok (if all then { s with device := s.device.clearPeers } else s)
  | .size key value => .ok { s with params := s.params.setSize key value }
  | .header key range => .ok { s with params := s.params.setHeader key range }
  | .contentPadding range => .ok { s with params := s.params.setContentPadding range }
  | .randomTrailers on => .ok { s with params := s.params.setRandomTrailers on }
  | .disableCookies on => .ok { s with params := s.params.setDisableCookies on }
  | .signature => .ok s
  | .headerProtection key => .ok { s with params := s.params.setHeaderProtection key }
  | .timer key range => .ok { s with params := s.params.setTimer key range }

/-! ### Peer sections -/

inductive PeerKey where
  | remove | presharedKey | endpoint | persistentKeepaliveInterval | replaceAllowedIps | allowedIp
  | protocolVersion | updateOnly

def peerKeys : List (String × PeerKey) :=
  [("remove", .remove), ("preshared_key", .presharedKey), ("endpoint", .endpoint),
    ("persistent_keepalive_interval", .persistentKeepaliveInterval),
    ("replace_allowed_ips", .replaceAllowedIps), ("allowed_ip", .allowedIp),
    ("protocol_version", .protocolVersion), ("update_only", .updateOnly)]

inductive PeerItem where
  | remove (on : Bool)
  | presharedKey (key : Bytes)
  | endpoint (addr : SocketAddr)
  | keepalive (range : Nat × Nat)
  | replaceAllowedIps (on : Bool)
  | allowedIp (ip : AllowedIP)
  | protocolVersion
  | updateOnly

/-- The only protocol version is 1. -/
def protocolVersion (value : Bytes) : Option PeerItem :=
  if parseUInt (2 ^ 32 - 1) value = some 1 then some .protocolVersion else none

def updateOnly (value : Bytes) : Option PeerItem :=
  if value = ascii "true" then some .updateOnly else none

def peerItem (outside : Outside P) (value : Bytes) : PeerKey → Understood PeerItem
  | .remove => (Understood.ofOption (parseBool value)).map .remove
  | .presharedKey => (keyBytes outside.base64 value).map .presharedKey
  | .endpoint => (Understood.ofOption (outside.socketAddr value)).map .endpoint
  | .persistentKeepaliveInterval =>
    (Understood.ofOption (parseKeepaliveInterval value)).map .keepalive
  | .replaceAllowedIps => (Understood.ofOption (parseBool value)).map .replaceAllowedIps
  -- taking one prefix away has no implementation
  | .allowedIp =>
    if value.head? = some 45 then .refused
    else (Understood.ofOption (parseAllowedIP outside.ipAddr value)).map .allowedIp
  | .protocolVersion => Understood.ofOption (protocolVersion value)
  | .updateOnly => Understood.ofOption (updateOnly value)

def peerLine (outside : Outside P) (cmd : Bytes) : Line PeerItem :=
  classifyLine peerKeys (peerItem outside) cmd

structure PeerSection (P : Primitives) where
  remove : Bool := false
  updateOnly : Bool := false
  replaceIps : Bool := false
  endpoint : Option SocketAddr := none
  keepalive : Option (Nat × Nat) := none
  presharedKey : Option P.Value := none
  allowedIps : List AllowedIP := []

namespace PeerSection

def fill (sec : PeerSection P) : PeerItem → PeerSection P
  | .remove on => { sec with remove := on }
  | .presharedKey key => { sec with presharedKey := some (P.value key) }
  | .endpoint addr => { sec with endpoint := some addr }
  | .keepalive range => { sec with keepalive := some range }
  | .replaceAllowedIps on => { sec with replaceIps := on }
  | .allowedIp ip => { sec with allowedIps := sec.allowedIps ++ [ip] }
  | .protocolVersion => sec
  | .updateOnly => { sec with updateOnly := true }

def update (sec : PeerSection P) (pubKey : P.Value) : PeerUpdate P where
  pubKey := pubKey
  remove := sec.remove
  replaceIps := sec.replaceIps
  endpoint := sec.endpoint
  allowedIps := sec.allowedIps
  keepalive := sec.keepalive
  presharedKey := sec.presharedKey

end PeerSection

/-- A section for a peer that is not there is ignored if it is only an update. -/
def commitPeer (d : Interface P) (os : Supply P) (pubKey : P.Value) (sec : PeerSection P) :
    Option (Except Nat Unit × Interface P × Supply P) :=
  if sec.updateOnly && (d.peers.lookup pubKey).isNone then some (.ok (), d, os)
  else
    match d.updatePeer (sec.update pubKey) (os.tunnel 0) with
    | none => none
    | some (.error _, d) => some (.error EIO_CODE, d, os.next)
    | some (.ok (), d) => some (.ok (), d, os.next)

/-! ### The two loops -/

/-- A line without its last character; a line that is no text fails the read. -/
def readLine (line : Bytes) : Option Bytes := if validUtf8 line then some (popChar line) else none

/-- The end of the last section. -/
def finishPeer (d : Interface P) (os : Supply P) (pubKey : P.Value) (sec : PeerSection P) :
    Option (Nat × Interface P) :=
  (commitPeer d os pubKey sec).map fun
    | (.ok (), d, _) => (0, d)
    | (.error status, d, _) => (status, d)

/-- The lines of peer sections; none is a panic. The end of the input reads as a blank line. -/
def apiSetPeer (outside : Outside P) :
    List Bytes → Interface P → Supply P → P.Value → PeerSection P → Option (Nat × Interface P)
  | [], d, os, pubKey, sec => finishPeer d os pubKey sec
  | line :: rest, d, os, pubKey, sec =>
    match readLine line with
    -- a failed read ends the loop as the end of its condition
    | none => some (0, d)
    | some [] => finishPeer d os pubKey sec
    | some cmd =>
      match peerLine outside cmd with
      | .panicked => none
      | .refused status => some (status, d)
      | .item item => apiSetPeer outside rest d os pubKey (sec.fill item)
      | .publicKey value =>
        match commitPeer d os pubKey sec with
        | none => none
        | some (.error status, d, _) => some (status, d)
        | some (.ok (), d, os) =>
          match keyBytes outside.base64 value with
          | .panicked => none
          | .refused => some (EINVAL, d)
          | .as key => apiSetPeer outside rest d os (P.value key) {}

/-- The end of a transaction without sections. -/
def finishStaging (s : Staging P) : Nat × Interface P :=
  match s.device.applyParams s.params with
  | (.ok (), d) => (0, d)
  | (.error status, d) => (status, d)

/-- The lines of a transaction; none is a panic. -/
def apiSetLines (outside : Outside P) :
    List Bytes → Staging P → Option (Nat × Interface P)
  | [], s => some (finishStaging s)
  | line :: rest, s =>
    match readLine line with
    | none => some (0, s.device)
    | some [] => some (finishStaging s)
    | some cmd =>
      match interfaceLine outside cmd with
      | .panicked => none
      | .refused status => some (status, s.device)
      | .item item =>
        match s.handle item with
        | .error out => some out
        | .ok s => apiSetLines outside rest s
      | .publicKey value =>
        match keyBytes outside.base64 value with
        | .panicked => none
        | .refused => some (EINVAL, s.device)
        | .as key =>
          -- peers are built on the settings of the device
          match s.device.applyParams s.params with
          | (.error status, d) => some (status, d)
          | (.ok (), d) => apiSetPeer outside rest d s.os (P.value key) {}

def apiSet (outside : Outside P) (input : Bytes) (d : Interface P) (os : Supply P) :
    Option (Nat × Interface P) :=
  apiSetLines outside (lines input) ⟨d, {}, os⟩

end BoringTun.Uapi

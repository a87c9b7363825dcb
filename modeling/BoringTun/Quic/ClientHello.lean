import BoringTun.Lib.Draw
import BoringTun.Quic.Initial

/-!
The TLS ClientHello of a browser and the Initial packets that carry it
(`noise/quic/profiles.rs`, `tls.rs` and `generator.rs`).

A `Profile` fixes what identifies a browser; keys, randoms, GREASE and orders are drawn
for each connection. The hello is cut where the first packet is full, and every packet is
padded to the size the browser sends.
-/

namespace BoringTun

open Draw

namespace Quic

/-! ### Profiles -/

inductive BrowserProfile where
  | chrome | firefox | curl
  /-- One of the three, drawn for each connection. -/
  | random
  deriving DecidableEq, Repr

def PQ_HYBRID_GROUP : Nat := 0x11ec

/-- TLS extensions. -/
inductive Ext where
  | serverName | statusRequest | supportedGroups | signatureAlgorithms | alpn
  | extendedMasterSecret | compressCertificate | recordSizeLimit | delegatedCredentials
  | supportedVersions | pskKeyExchangeModes | keyShare | quicTransportParams
  | applicationSettings | encryptedClientHello | renegotiationInfo
  deriving DecidableEq, Repr

def Ext.code : Ext → Nat
  | .serverName => 0x0000
  | .statusRequest => 0x0005
  | .supportedGroups => 0x000a
  | .signatureAlgorithms => 0x000d
  | .alpn => 0x0010
  | .extendedMasterSecret => 0x0017
  | .compressCertificate => 0x001b
  | .recordSizeLimit => 0x001c
  | .delegatedCredentials => 0x0022
  | .supportedVersions => 0x002b
  | .pskKeyExchangeModes => 0x002d
  | .keyShare => 0x0033
  | .quicTransportParams => 0x0039
  | .applicationSettings => 0x44cd
  | .encryptedClientHello => 0xfe0d
  | .renegotiationInfo => 0xff01

/-- A transport parameter before its random parts are drawn. -/
inductive TpEntry where
  | varint (id value : Nat)
  | bytes (id : Nat) (value : Bytes)
  | versionInfo (id : Nat)
  | scidSource (id : Nat)
  | grease

def CHROME_PACKET_SIZE : Nat := 1250
def FIREFOX_PACKET_SIZE : Nat := 1252

structure Profile where
  name : BrowserProfile
  cipherSuites : List Nat
  extensionsOrder : List Ext
  supportedGroups : List Nat
  signatureAlgorithms : List Nat
  supportedVersions : List Nat
  keyShareGroups : List Nat
  alpn : List Bytes
  quicTp : List TpEntry
  includeUnknown17613 : Bool
  useEmptySessionId : Bool
  enableEch : Bool
  randomizeExtensionsOrder : Bool
  packetTarget : Nat

namespace Profile

def chrome : Profile where
  name := .chrome
  cipherSuites := [0x1301, 0x1302, 0x1303]
  extensionsOrder :=
    [.serverName, .supportedGroups, .signatureAlgorithms, .alpn, .compressCertificate,
      .supportedVersions, .pskKeyExchangeModes, .keyShare, .quicTransportParams,
      .applicationSettings, .encryptedClientHello]
  supportedGroups := [PQ_HYBRID_GROUP, 0x001d, 0x0017, 0x0018]
  signatureAlgorithms :=
    [0x0403, 0x0804, 0x0401, 0x0503, 0x0805, 0x0501, 0x0806, 0x0601, 0x0201]
  supportedVersions := [0x0304]
  keyShareGroups := [PQ_HYBRID_GROUP, 0x001d]
  alpn := [ascii "h3"]
  quicTp :=
    [.varint 0x04 15728640, .bytes 0x0f [], .varint 0x07 6291456, .varint 0x05 6291456,
      .varint 0x03 1472, .varint 0x06 6291456, .varint 0x08 100, .varint 0x3127 18196,
      .varint 0x20 65536, .versionInfo 0x11, .varint 0x01 30000, .varint 0x09 103, .grease]
  includeUnknown17613 := true
  useEmptySessionId := true
  enableEch := true
  randomizeExtensionsOrder := true
  packetTarget := CHROME_PACKET_SIZE

def firefox : Profile where
  name := .firefox
  cipherSuites := [0x1301, 0x1303, 0x1302]
  extensionsOrder :=
    [.serverName, .statusRequest, .delegatedCredentials, .signatureAlgorithms, .supportedGroups,
      .extendedMasterSecret, .renegotiationInfo, .recordSizeLimit, .pskKeyExchangeModes,
      .compressCertificate, .keyShare, .alpn, .supportedVersions, .quicTransportParams,
      .encryptedClientHello]
  supportedGroups := [PQ_HYBRID_GROUP, 0x001d, 0x0017, 0x0018, 0x0019]
  signatureAlgorithms :=
    [0x0403, 0x0503, 0x0603, 0x0203, 0x0804, 0x0805, 0x0806, 0x0401, 0x0501, 0x0601, 0x0201]
  supportedVersions := [0x0304]
  keyShareGroups := [PQ_HYBRID_GROUP, 0x001d, 0x0017]
  alpn := [ascii "h3"]
  quicTp :=
    [.varint 0x01 30000, .varint 0x04 25165824, .varint 0x05 12582912, .varint 0x06 1048576,
      .varint 0x07 1048576, .varint 0x08 100, .varint 0x09 100, .varint 0x0b 20, .varint 0x0e 8,
      .scidSource 0x0f, .versionInfo 0x11, .bytes 0xff02de1a [0x43, 0xe8], .varint 0x20 65535]
  includeUnknown17613 := false
  useEmptySessionId := true
  enableEch := true
  randomizeExtensionsOrder := true
  packetTarget := FIREFOX_PACKET_SIZE

def curl : Profile where
  name := .curl
  cipherSuites := [0x1301, 0x1302, 0x1303]
  extensionsOrder :=
    [.serverName, .supportedVersions, .supportedGroups, .signatureAlgorithms, .alpn, .keyShare,
      .pskKeyExchangeModes, .quicTransportParams, .compressCertificate, .encryptedClientHello]
  supportedGroups := [0x001d, 0x0017, 0x0018]
  signatureAlgorithms := [0x0403, 0x0503, 0x0603, 0x0804, 0x0805, 0x0806]
  supportedVersions := [0x0304]
  keyShareGroups := [0x001d]
  alpn := [ascii "h3"]
  quicTp :=
    [.varint 0x01 30000, .varint 0x03 1472, .varint 0x04 10485760, .varint 0x05 5242880,
      .varint 0x06 5242880, .varint 0x07 5242880, .varint 0x08 100, .varint 0x09 100,
      .varint 0x0e 2, .bytes 0x0f []]
  includeUnknown17613 := false
  useEmptySessionId := false
  enableEch := true
  randomizeExtensionsOrder := false
  packetTarget := CHROME_PACKET_SIZE

/-- The caller has resolved `random`. -/
def forBrowser : (browser : BrowserProfile) → browser ≠ .random → Profile
  | .chrome, _ => chrome
  | .firefox, _ => firefox
  | .curl, _ => curl
  | .random, h => absurd rfl h

end Profile

/-! ### Extensions -/

def w16 (v : Nat) : Bytes := beBytes 2 v

def w24 (v : Nat) : Bytes := beBytes 3 v

/-- A chosen version, a random reserved one, and the list of available ones. -/
def versionInformation : Draw Bytes := do
  let r ← word64
  let g (shift : Nat) : UInt8 := (UInt8.ofNat (r >>> shift) &&& 0xf0) ||| 0x0a
  return [0, 0, 0, 1, g 0, g 8, g 16, g 24, 0, 0, 0, 1]

/-- A reserved parameter id, `31 k + 27`, of eight bytes. -/
def greaseTpId : Draw Nat := do
  let r ← word64
  let id := (r &&& 0x03ffffffffffffff) ||| 2 ^ 61
  let rem := id % 31
  let id := if rem ≠ 27 then id + (27 + 31 - rem) % 31 else id
  return if id ≥ 2 ^ 62 then id - 31 else id

/-- An extension: its code, the length of its body, and the body. -/
def extension (ext : Ext) (body : Bytes) : Bytes := w16 ext.code ++ w16 body.length ++ body

def extServerName (sni : Bytes) : Bytes :=
  let list := [0x00] ++ w16 sni.length ++ sni
  extension .serverName (w16 list.length ++ list)

def extAlpn (protos : List Bytes) : Bytes :=
  let list := (protos.filter (·.length ≤ 255)).flatMap fun s => UInt8.ofNat s.length :: s
  extension .alpn (w16 list.length ++ list)

def extU16List (ext : Ext) (values : List Nat) : Bytes :=
  let list := values.flatMap w16
  extension ext (w16 list.length ++ list)

def extSupportedVersions (vers : List Nat) : Bytes :=
  let list := vers.flatMap w16
  extension .supportedVersions (UInt8.ofNat list.length :: list)

def extPskKeModes : Bytes := extension .pskKeyExchangeModes [0x01, 0x01]

def extDelegatedCredentials : Bytes :=
  extU16List .delegatedCredentials [0x0403, 0x0503, 0x0603, 0x0203]

def keyShareSize (group : Nat) : Nat :=
  if group = 0x001d then 32
  else if group = 0x0017 then 65
  else if group = PQ_HYBRID_GROUP then 1216
  else 32

/-- A key share; an uncompressed point starts with 4. -/
def keyShareEntry (group : Nat) : Draw Bytes := do
  let size := keyShareSize group
  let head := w16 group ++ w16 size
  if group = 0x0017 then
    let point ← bytes (size - 1)
    return head ++ [0x04] ++ point
  else
    let share ← bytes size
    return head ++ share

def extKeyShare (groups : List Nat) : Draw Bytes := do
  let shares ← groups.mapM keyShareEntry
  let entries := shares.flatten
  return extension .keyShare (w16 entries.length ++ entries)

def extApplicationSettings : Bytes :=
  extension .applicationSettings [0x00, 0x03, 0x02, 0x68, 0x33]

/-- The outer shape of an encrypted hello, around random bytes. -/
def extEncryptedClientHello : Draw Bytes := do
  let configId ← word64
  let enc ← bytes 32
  let word ← word64
  let payloadLen := 150 + word % 51
  let payload ← bytes payloadLen
  return extension .encryptedClientHello ([0x00] ++ [0x00, 0x01, 0x00, 0x01] ++
    [UInt8.ofNat (configId &&& 0xff)] ++ w16 32 ++ enc ++ w16 payloadLen ++ payload)

def extRecordSizeLimit : Bytes := extension .recordSizeLimit (w16 16385)

def extRenegInfo : Bytes := extension .renegotiationInfo [0x00]

def extStatusRequest : Bytes := extension .statusRequest ([0x01] ++ w16 0 ++ w16 0)

def extExtendedMasterSecret : Bytes := extension .extendedMasterSecret []

def extCompressCert (firefoxMode : Bool) : Bytes :=
  extension .compressCertificate
    (if firefoxMode then [6] ++ w16 1 ++ w16 3 ++ w16 2 else [2] ++ w16 2)

/-- A transport parameter with its random parts drawn. -/
def resolveTp (scid : Bytes) : TpEntry → Draw (Nat × Bytes)
  | .varint id value => return (id, Varint.write value)
  | .bytes id value => return (id, value)
  | .versionInfo id => do
    let info ← versionInformation
    return (id, info)
  | .scidSource id => return (id, scid)
  | .grease => do
    let id ← greaseTpId
    let value ← bytes 6
    return (id, value)

def extQuicTp (profile : Profile) (scid : Bytes) : Draw Bytes := do
  let params ← profile.quicTp.mapM (resolveTp scid)
  let params ← shuffle params
  return extension .quicTransportParams (params.flatMap fun (id, value) =>
    Varint.write id ++ Varint.write value.length ++ value)

def buildExtension (profile : Profile) (sni scid : Bytes) : Ext → Draw Bytes
  | .serverName => return extServerName sni
  | .alpn => return extAlpn profile.alpn
  | .supportedGroups => return extU16List .supportedGroups profile.supportedGroups
  | .signatureAlgorithms => return extU16List .signatureAlgorithms profile.signatureAlgorithms
  | .supportedVersions => return extSupportedVersions profile.supportedVersions
  | .pskKeyExchangeModes => return extPskKeModes
  | .keyShare => extKeyShare profile.keyShareGroups
  | .quicTransportParams => extQuicTp profile scid
  | .compressCertificate => return extCompressCert (profile.name = .firefox)
  | .recordSizeLimit => return extRecordSizeLimit
  | .renegotiationInfo => return extRenegInfo
  | .statusRequest => return extStatusRequest
  | .extendedMasterSecret => return extExtendedMasterSecret
  | .delegatedCredentials => return extDelegatedCredentials
  | .applicationSettings => return if profile.includeUnknown17613 then extApplicationSettings else []
  | .encryptedClientHello => if profile.enableEch then extEncryptedClientHello else return []

/-! ### The hello and its packets -/

def sessionId (profile : Profile) : Draw Bytes := do
  if profile.useEmptySessionId then return [0x00]
  else
    let id ← bytes 32
    return 0x20 :: id

def generateClientHello (profile : Profile) (sni scid : Bytes) : Draw Bytes := do
  let clientRandom ← bytes 32
  let sessionId ← sessionId profile
  let order ←
    if profile.randomizeExtensionsOrder then shuffle profile.extensionsOrder
    else pure profile.extensionsOrder
  let extensions ← order.mapM (buildExtension profile sni scid)
  let extensions := extensions.flatten
  let ch := w16 0x0303 ++ clientRandom ++ sessionId ++ w16 (profile.cipherSuites.length * 2) ++
    profile.cipherSuites.flatMap w16 ++ [0x01] ++ [0x00] ++ w16 extensions.length ++ extensions
  return [0x01] ++ w24 ch.length ++ ch

def PACKET_OVERHEAD_HEADROOM : Nat := 64

/-- The browser of one connection. -/
def resolve : BrowserProfile → Draw { browser : BrowserProfile // browser ≠ .random }
  | .random => do
    let word ← word
    return match word % 3 with
      | 0 => ⟨.chrome, by decide⟩
      | 1 => ⟨.firefox, by decide⟩
      | _ => ⟨.curl, by decide⟩
  | .chrome => return ⟨.chrome, by decide⟩
  | .firefox => return ⟨.firefox, by decide⟩
  | .curl => return ⟨.curl, by decide⟩

/-- The packets around a hello: it is cut where the first one is full. -/
def clientInitials (P : Primitives) (dcid scid clientHello : Bytes) (target : Nat) : List Bytes :=
  let firstLen := min clientHello.length (target - PACKET_OVERHEAD_HEADROOM)
  let first : InitialParams :=
    { dcid, scid, packetNumber := 0, pnLen := 1, cryptoOffset := 0
      cryptoPayload := clientHello.take firstLen, targetSize := target }
  let second := { first with
    packetNumber := 1, cryptoOffset := firstLen, cryptoPayload := clientHello.drop firstLen }
  first.buildClientInitial P ::
    if firstLen < clientHello.length then [second.buildClientInitial P] else []

/-- Only Firefox has a connection id of its own, which it repeats in a transport parameter. -/
def sourceConnectionId (browser : BrowserProfile) : Draw Bytes :=
  if browser = .firefox then bytes 3 else return []

def generateClientInitials (P : Primitives) (browser : BrowserProfile) (sni : Bytes) :
    Draw (List Bytes) := do
  let resolved ← resolve browser
  let profile := Profile.forBrowser resolved.1 resolved.2
  let scid ← sourceConnectionId resolved.1
  let dcid ← bytes 8
  let clientHello ← generateClientHello profile sni scid
  return clientInitials P dcid scid clientHello profile.packetTarget

theorem clientInitials_ne_nil (P : Primitives) (dcid scid clientHello : Bytes) (target : Nat) :
    ∀ d ∈ clientInitials P dcid scid clientHello target, d ≠ [] := by
  refine List.forall_mem_cons.mpr ⟨InitialParams.buildClientInitial_ne_nil _ P, ?_⟩
  split
  · exact List.forall_mem_singleton.mpr (InitialParams.buildClientInitial_ne_nil _ P)
  · exact List.forall_mem_nil _

theorem generateClientInitials_ne_nil (P : Primitives) (browser : BrowserProfile) (sni : Bytes) :
    Yields (generateClientInitials P browser sni) fun datagrams => ∀ d ∈ datagrams, d ≠ [] := by
  refine .last fun resolved => .last fun scid => .last fun dcid => .last fun hello => .pure ?_
  exact clientInitials_ne_nil P dcid scid hello _

theorem clientInitials_length (P : Primitives) (dcid scid clientHello : Bytes) (target : Nat) :
    0 < (clientInitials P dcid scid clientHello target).length ∧
      (clientInitials P dcid scid clientHello target).length ≤ 3 := by
  refine ⟨Nat.succ_pos _, Nat.succ_le_succ ?_⟩
  split <;> simp

theorem generateClientInitials_length (P : Primitives) (browser : BrowserProfile) (sni : Bytes) :
    Yields (generateClientInitials P browser sni) fun datagrams =>
      0 < datagrams.length ∧ datagrams.length ≤ 3 := by
  refine .last fun resolved => .last fun scid => .last fun dcid => .last fun hello => .pure ?_
  exact clientInitials_length P dcid scid hello _

end Quic

end BoringTun

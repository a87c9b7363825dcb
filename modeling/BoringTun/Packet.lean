import BoringTun.Crypto
import BoringTun.Errors
import BoringTun.Obfuscation

/-!
Messages on the wire (`Packet` and `Tunn::parse_incoming_packet` in `noise/mod.rs`).

`parseIncomingPacket` reads a canonical message: the tag and the length decide the
kind, the rest is cut at fixed offsets.
-/

namespace BoringTun

def HANDSHAKE_INIT_SZ : Nat := 148
def HANDSHAKE_RESP_SZ : Nat := 92
def COOKIE_REPLY_SZ : Nat := 64
def DATA_OVERHEAD_SZ : Nat := 32

/-- `u32::from_le_bytes`. -/
def leU32 (bs : Bytes) : UInt32 := UInt32.ofNat (leNat bs)

@[simp] theorem leU32_leBytes (i : UInt32) : leU32 (leBytes 4 i.toNat) = i := by
  have hlt : i.toNat < 256 ^ 4 := i.toNat_lt
  simp [leU32, leNat_leBytes hlt]

structure HandshakeInit (P : Primitives) where
  senderIdx : UInt32
  unencryptedEphemeral : P.Value
  encryptedStatic : P.Value
  encryptedTimestamp : P.Value

structure HandshakeResponse (P : Primitives) where
  senderIdx : UInt32
  receiverIdx : UInt32
  unencryptedEphemeral : P.Value
  encryptedNothing : P.Value

structure PacketCookieReply where
  receiverIdx : UInt32
  nonce : Bytes
  encryptedCookie : Bytes

structure PacketData where
  receiverIdx : UInt32
  counter : Nat
  encryptedEncapsulatedPacket : Bytes

inductive Packet (P : Primitives) where
  | handshakeInit (p : HandshakeInit P)
  | handshakeResponse (p : HandshakeResponse P)
  | packetCookieReply (p : PacketCookieReply)
  | packetData (p : PacketData)

variable {P : Primitives}

def parseHandshakeInit (src : Bytes) : HandshakeInit P where
  senderIdx := leU32 (slice src 4 8)
  unencryptedEphemeral := P.value (slice src 8 40)
  encryptedStatic := P.value (slice src 40 88)
  encryptedTimestamp := P.value (slice src 88 116)

def parseHandshakeResponse (src : Bytes) : HandshakeResponse P where
  senderIdx := leU32 (slice src 4 8)
  receiverIdx := leU32 (slice src 8 12)
  unencryptedEphemeral := P.value (slice src 12 44)
  encryptedNothing := P.value (slice src 44 60)

def parsePacketCookieReply (src : Bytes) : PacketCookieReply where
  receiverIdx := leU32 (slice src 4 8)
  nonce := slice src 8 32
  encryptedCookie := slice src 32 64

def parsePacketData (src : Bytes) : PacketData where
  receiverIdx := leU32 (slice src 4 8)
  counter := leNat (slice src 8 16)
  encryptedEncapsulatedPacket := src.drop 16

def parseIncomingPacket (obf : ObfuscationRanges) (src : Bytes) : Result (Packet P) :=
  if src.length < 4 then .error .invalidPacket
  else
    -- checks the type, as well as the reserved zero fields
    let packetType := leNat (src.take 4)
    if src.length = HANDSHAKE_INIT_SZ ∧ obf.matchesH1 packetType then
      .ok (.handshakeInit (parseHandshakeInit src))
    else if src.length = HANDSHAKE_RESP_SZ ∧ obf.matchesH2 packetType then
      .ok (.handshakeResponse (parseHandshakeResponse src))
    else if src.length = COOKIE_REPLY_SZ ∧ obf.matchesH3 packetType then
      .ok (.packetCookieReply (parsePacketCookieReply src))
    else if src.length ≥ DATA_OVERHEAD_SZ ∧ obf.matchesH4 packetType then
      .ok (.packetData (parsePacketData src))
    else .error .invalidPacket

end BoringTun

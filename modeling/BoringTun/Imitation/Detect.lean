import BoringTun.Amnezia.Imitation
import BoringTun.Lib.Bytes

/-!
Classifying an inbound datagram as a DNS, QUIC, SIP or STUN probe
(`noise/imitation/detect.rs` and the framing rules it shares with the responders).
-/

namespace BoringTun

inductive Probe where
  | dns | quic | sip | stun
  deriving DecidableEq, Repr

def Probe.protocol : Probe → AmneziaImitationProtocol
  | .dns => .dns
  | .quic => .quic
  | .sip => .sip
  | .stun => .stun

namespace Imitation

/-- `data[i]`, 0 past the end. Every use stands behind a length check. -/
def byteAt (data : Bytes) (i : Nat) : Nat := (data.getD i 0).toNat

/-! ### QUIC -/

def REAL_SERVER_VERSIONS : List Nat := [0x00000001, 0x6b3343cf]

def isSupportedByRealServers (version : Nat) : Bool := REAL_SERVER_VERSIONS.contains version

def isKnownVersion (version : Nat) : Bool :=
  isSupportedByRealServers version ||
    (version &&& 0xffffff00 = 0xff000000 && version &&& 0xff ≠ 0) ||
    (version &&& 0x0f0f0f0f = 0x0a0a0a0a)

def RFC9000_MAX_CID_LEN : Nat := 20

structure LongHeader where
  version : Nat
  dcid : Bytes
  scid : Bytes
  deriving DecidableEq

def parseLongHeader (data : Bytes) : Option LongHeader :=
  if data.length < 7 ∨ byteAt data 0 &&& 0xc0 ≠ 0xc0 then none
  else
    let version := beNat (slice data 1 5)
    if !isKnownVersion version then none
    else
      let capped := isSupportedByRealServers version
      let dcidLen := byteAt data 5
      if capped && dcidLen > RFC9000_MAX_CID_LEN then none
      else
        let dcidEnd := 6 + dcidLen
        if data.length ≤ dcidEnd then none
        else
          let scidLen := byteAt data dcidEnd
          if capped && scidLen > RFC9000_MAX_CID_LEN then none
          else
            let scidEnd := dcidEnd + 1 + scidLen
            if data.length < scidEnd then none
            else some { version, dcid := slice data 6 dcidEnd, scid := slice data (dcidEnd + 1) scidEnd }

/-! ### STUN -/

def STUN_HEADER_LEN : Nat := 20
def MAX_BINDING_REQUEST_LEN : Nat := 1024
def BINDING_REQUEST : Nat := 0x0001
def MAGIC_COOKIE : Bytes := [0x21, 0x12, 0xa4, 0x42]

def bindingRequestLen (data : Bytes) : Option Nat :=
  if data.length < STUN_HEADER_LEN ∨ data.length > MAX_BINDING_REQUEST_LEN then none
  else if beNat (slice data 0 2) ≠ BINDING_REQUEST then none
  else if slice data 4 8 ≠ MAGIC_COOKIE then none
  else
    let msgLen := beNat (slice data 2 4)
    if msgLen % 4 ≠ 0 ∨ data.length ≠ STUN_HEADER_LEN + msgLen then none else some msgLen

/-! ### DNS -/

def DNS_HEADER_LEN : Nat := 12

/-- Past the labels of a name; each round passes at least two bytes, so `fuel` above the
length of the datagram is never used up. -/
def qnameEnd (data : Bytes) : Nat → Nat → Nat → Option Nat
  | 0, _, _ => none
  | fuel + 1, pos, qnameLen =>
    if data.length ≤ pos then none
    else
      let labelLen := byteAt data pos
      if labelLen &&& 0xc0 ≠ 0 then none
      else if labelLen = 0 then some (pos + 1)
      else if labelLen > 63 then none
      else if qnameLen + (1 + labelLen) + 1 > 255 then none
      else qnameEnd data fuel (pos + 1 + labelLen) (qnameLen + (1 + labelLen))

def questionEnd (query : Bytes) : Option Nat :=
  if query.length < DNS_HEADER_LEN then none
  else if byteAt query 2 &&& 0xf8 ≠ 0 ∨ byteAt query 3 &&& 0xcf ≠ 0 then none
  else if beNat (slice query 4 6) ≠ 1 ∨ beNat (slice query 6 8) ≠ 0 ∨
      beNat (slice query 8 10) ≠ 0 then none
  else
    match qnameEnd query (query.length + 1) DNS_HEADER_LEN 0 with
    | none => none
    | some nameEnd =>
      let stop := nameEnd + 4
      if query.length < stop then none
      else if [1, 3, 4, 255].contains (beNat (slice query (nameEnd + 2) (nameEnd + 4))) then
        some stop
      else none

/-- What a query is, with its question up to `stop`. -/
structure IsQuery (query : Bytes) (stop : Nat) : Prop where
  header : DNS_HEADER_LEN ≤ query.length
  flags : byteAt query 2 &&& 0xf8 = 0
  rcode : byteAt query 3 &&& 0xcf = 0
  questions : beNat (slice query 4 6) = 1
  answers : beNat (slice query 6 8) = 0
  authorities : beNat (slice query 8 10) = 0
  name : ∃ nameEnd, qnameEnd query (query.length + 1) DNS_HEADER_LEN 0 = some nameEnd ∧
    stop = nameEnd + 4
  room : stop ≤ query.length

theorem questionEnd_spec {query : Bytes} {stop : Nat} (h : questionEnd query = some stop) :
    IsQuery query stop := by
  unfold questionEnd at h
  split at h
  · cases h
  next hheader =>
  split at h
  · cases h
  next hflags =>
  split at h
  · cases h
  next hcounts =>
  simp only [not_or, ne_eq, not_not] at hflags hcounts
  cases hname : qnameEnd query (query.length + 1) DNS_HEADER_LEN 0 with
  | none =>
    rw [hname] at h
    cases h
  | some nameEnd =>
    rw [hname] at h
    dsimp only at h
    split at h
    · cases h
    next hroom =>
    split at h
    · cases h
      exact ⟨Nat.not_lt.mp hheader, hflags.1, hflags.2, hcounts.1, hcounts.2.1, hcounts.2.2,
        ⟨nameEnd, hname, rfl⟩, Nat.not_lt.mp hroom⟩
    · cases h

/-! ### SIP -/

def SIP_PREFIXES : List Bytes :=
  ["SUBSCRIBE ", "REGISTER ", "OPTIONS ", "MESSAGE ", "INVITE ", "CANCEL ", "NOTIFY ", "INFO ",
    "ACK ", "BYE ", "SIP/"].map ascii

def toAsciiUpper (byte : UInt8) : UInt8 := if 97 ≤ byte ∧ byte ≤ 122 then byte - 32 else byte

/-- The first ten bytes start with a method, in any case. -/
def startsLikeSip (data : Bytes) : Bool :=
  let head := (data.take 10).map toAsciiUpper
  SIP_PREFIXES.any fun method => head.take method.length = method

/-- QUIC, STUN, DNS, SIP, in this order. -/
def detect (data : Bytes) : Option Probe :=
  if data.isEmpty then none
  else if (parseLongHeader data).isSome then some .quic
  else
    let hasStunCookie := data.length ≥ 8 && slice data 4 8 = MAGIC_COOKIE
    if (bindingRequestLen data).isSome then some .stun
    else if !hasStunCookie && (questionEnd data).isSome then some .dns
    else if startsLikeSip data then some .sip
    else none

example : detect (ascii "INVITE sip:a@b SIP/2.0") = some .sip := by decide

end Imitation

end BoringTun
